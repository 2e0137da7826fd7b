import BlobCache.Proofs.Session.Visit

/-!
# What sessions do to the map

Every operation of a session answers from the map of slots that the disk represents and leaves a
disk that represents the map after it: looking at objects changes no file (`cat_refines`,
`list_refines`, `stats_refines`), storing one fills the least free slot (`add_refines`), and
removing takes away all objects with the label (`remove_refines`).

Each is an instance of `Session.withCache_rule`, which leaves the work on a cache that shows the
map. Work that only looks keeps the cache showing the map (`Cache.Shows.read`). What is stored goes
through `Cache.add`; what is removed is retired entry by entry (`forM_mark`) and then purged at once
(`purge_retired`).
-/

namespace BlobCache

/-- The bytes that are to be stored: those of a file, or the input if no file is named. -/
def Disk.source (disk : Disk) (input : Bytes) : Option Path → Except IoError Bytes
  | some path => disk.readFile path
  | none => .ok input

/-! ### Reading a body -/

/-- The body of a shown object is had by whoever acquires it. -/
theorem Cache.Shows.read {limit : Nat} {c : Cache ObjectStore} {folder : Location}
    {m : SlotMap limit} (h : c.Shows folder m) {id : EntryId} {n : Fin limit} {o : StoredObject}
    (ho : m n = some o) (he : c.get? id = some (Entry.ofObject c.id n o)) :
    ∃ count liveness, (acquire id c).result = .ok count ∧
      (body id (acquire id c).state).result = .ok o.body ∧
      (release .epoch id (body id (acquire id c).state).state).result = .ok liveness ∧
      (release .epoch id (body id (acquire id c).state).state).state.backend = c.backend := by
  have hload : ObjectStore.body c.backend (Slot.name n) = .ok o.body :=
    ObjectStore.InStep.body_of_object
      (h.mirrors.object_of_lookup (SlotMap.lookup_eq_some_iff.mpr ⟨n, rfl, ho⟩))
  obtain ⟨hr₁, hs₁⟩ := acquire_of_increment he (rfl : RefCount.one.increment = .ok .two)
  have he₁ : (acquire id c).state.get? id =
      some { Entry.ofObject c.id n o with references := .two, idleSince := none } := by
    rw [hs₁, get?_change_self he]
    rfl
  have hload₁ : (Backend.loadBody (Slot.name n) (acquire id c).state.backend).result =
      .ok o.body := by
    rw [hs₁, change_backend, ObjectStore.loadBody_apply]
    exact hload
  obtain ⟨hr₂, hs₂⟩ := body_of_loadBody he₁ rfl (by rw [hs₁]; rfl) hload₁
  have he₂ : (body id (acquire id c).state).state.get? id =
      some { Entry.ofObject c.id n o with
        references := .two, idleSince := none, mapping := some o.body } := by
    rw [hs₂, get?_change_self ((withBackend_get? _ _ id).trans he₁)]
  obtain ⟨left, -, hr₃, hs₃⟩ := release_of_held .epoch he₂ Nat.one_lt_two
  refine ⟨_, _, hr₁, hr₂, hr₃, ?_⟩
  rw [hs₃, change_backend, hs₂, change_backend, hs₁, ObjectStore.loadBody_apply]
  rfl

namespace Session

variable {limit : UInt64} {disk : Disk} {folder : Location} {m : SlotMap limit.toNat} {s : Session}

/-! ### Looking -/

/-- What `cat` writes is the body of the first object with the label. -/
theorem cat_refines (h : disk.Represents folder m) (hleads : disk.Leads s.directory folder)
    (hlimit : s.settings.capacityHint = limit.toNat) (key value : String) :
    (s.cat key value disk).result =
        (match m.first? key value with
        | some o => .ok o.body
        | none => .error (.noEntry key value)) ∧
      disk.AltersFolders (s.cat key value disk).state ∧
      (s.cat key value disk).state.Represents folder m := by
  rw [cat]
  refine withCache_rule h hleads hlimit (Q := fun r d =>
    r = (match m.first? key value with
      | some o => .ok o.body
      | none => .error (.noEntry key value)) ∧
    disk.AltersFolders d ∧ d.Represents folder m) fun c hc hfolders => ?_
  have hmap := hc.mirrors.represents
  rw [Action.bind_apply, Action.get_apply]
  dsimp only
  obtain ⟨hfind, hfirst⟩ | ⟨id, n, o, hfind, hfirst, ho, he⟩ := hc.find?_cases key value
  · rw [hfind, hfirst]
    exact ⟨hc.settled, rfl, hfolders, hmap⟩
  · obtain ⟨count, liveness, hacquire, hbody, hrelease, hbackend⟩ := hc.read ho he
    have hsettled := ((hc.settled.acquire id).body id).release .epoch id
    rw [hfind, hfirst]
    dsimp only
    rw [Action.bind_apply, hacquire]
    dsimp only
    rw [Action.bind_apply, hbody]
    dsimp only
    rw [Action.bind_apply, hrelease]
    rw [← hbackend] at hfolders hmap
    exact ⟨hsettled, rfl, hfolders, hmap⟩

/-- A plain listing has the names of the objects, by ascending slot; a listing of another form has
some text. -/
theorem list_refines (h : disk.Represents folder m) (hleads : disk.Leads s.directory folder)
    (hlimit : s.settings.capacityHint = limit.toNat) (label : Option (String × String))
    (format : ListFormat) :
    (∃ bytes, (s.list label format disk).result = .ok bytes ∧
      (format = .plain → bytes = written (String.join ((m.names label).map (· ++ "\n"))))) ∧
      disk.AltersFolders (s.list label format disk).state ∧
      (s.list label format disk).state.Represents folder m := by
  rw [list]
  refine withCache_rule h hleads hlimit (Q := fun r d =>
    (∃ bytes, r = .ok bytes ∧
      (format = .plain → bytes = written (String.join ((m.names label).map (· ++ "\n"))))) ∧
    disk.AltersFolders d ∧ d.Represents folder m) fun c hc hfolders => ?_
  -- whichever entries are listed, their rows have the names that the map has for them
  have hwork : ∀ ids, c.filenames ids = m.names label →
      let o := (Cache.rows ids >>= fun rows => pure (written (listing format rows))) c
      o.state.Settled ∧ (∃ bytes, o.result = .ok bytes ∧
        (format = .plain → bytes = written (String.join ((m.names label).map (· ++ "\n"))))) ∧
      disk.AltersFolders o.state.backend.disk ∧ o.state.backend.disk.Represents folder m := by
    intro ids hnames
    obtain ⟨rs, hr, hrs, hs⟩ := Cache.rows_apply ids c
    obtain ⟨hsettled, hbackend⟩ := hc.settled.after_body ids
    have hmap := hc.mirrors.represents
    rw [← hbackend, ← hs] at hfolders hmap
    dsimp only
    rw [Action.bind_apply, hr]
    refine ⟨hs ▸ hsettled, ⟨_, rfl, ?_⟩, hfolders, hmap⟩
    rintro rfl
    rw [← hnames, ← hrs, List.map_map]
    rfl
  rw [Action.bind_apply, Action.get_apply]
  cases label with
  | none =>
    exact hwork c.members (Cache.Shows.filenames_eq hc.entries
      fun n hn => SlotMap.mem_keys.mp hn)
  | some label =>
    exact hwork (c.findAll (some label.1) label.2)
      (Cache.Shows.filenames_eq (hc.map_findAll label.1 label.2)
        fun n hn => SlotMap.mem_keys.mp (List.mem_of_mem_filter hn))

/-- Counting the objects writes something. -/
theorem stats_refines (h : disk.Represents folder m) (hleads : disk.Leads s.directory folder)
    (hlimit : s.settings.capacityHint = limit.toNat) :
    (∃ bytes, (s.stats disk).result = .ok bytes) ∧ disk.AltersFolders (s.stats disk).state ∧
      (s.stats disk).state.Represents folder m := by
  rw [stats]
  refine withCache_rule h hleads hlimit (Q := fun r d =>
    (∃ bytes, r = .ok bytes) ∧ disk.AltersFolders d ∧ d.Represents folder m)
    fun c hc hfolders => ?_
  rw [Action.bind_apply, Action.get_apply]
  dsimp only
  rw [Action.bind_apply, Action.ofExcept_apply, hc.mirrors.usage_eq]
  exact ⟨hc.settled, ⟨_, rfl⟩, hfolders, hc.mirrors.represents⟩

/-! ### Storing -/

private theorem contents_apply (path : Path) (disk : Disk) :
    contents path disk =
      ⟨(disk.readFile path).mapError (.io ("reading " ++ path.text)), disk, []⟩ := by
  rw [contents, Action.bind_apply, Action.get_apply]
  dsimp only
  rw [Action.ofExcept_apply]
  rfl

/-- Nothing is stored when there is nothing to read. -/
theorem add_of_source_error {file : Option Path} {e : IoError}
    (h : disk.source s.input file = .error e) (labels : Labels) :
    (∃ error, (s.add labels file disk).result = .error error) ∧
      (s.add labels file disk).state = disk := by
  cases file with
  | none => cases h
  | some path =>
    have hread : disk.readFile path = .error e := h
    rw [add.eq_def]
    dsimp only
    rw [Action.bind_apply, contents_apply, hread]
    exact ⟨⟨_, rfl⟩, rfl⟩

/-- What a session does with its cache does not depend on the input. -/
private theorem withCache_input {α : Type} (s : Session) (data : Bytes)
    (x : Action (Cache ObjectStore) α) :
    withCache { s with input := data } x = s.withCache x := rfl

/-- To store what is in a file is to store it as if it were the input. -/
theorem add_of_source {file : Option Path} {data : Bytes}
    (h : disk.source s.input file = .ok data) (labels : Labels) :
    (s.add labels file disk).result = ({ s with input := data }.add labels none disk).result ∧
      (s.add labels file disk).state = ({ s with input := data }.add labels none disk).state := by
  cases file with
  | none =>
    obtain rfl := Except.ok.inj h
    exact ⟨rfl, rfl⟩
  | some path =>
    have hread : disk.readFile path = .ok data := h
    rw [add.eq_def, add.eq_def]
    dsimp only
    rw [pure_bind, withCache_input, Action.bind_apply, contents_apply, hread]
    dsimp only [Except.mapError]
    exact ⟨rfl, rfl⟩

/-- An object that fits goes to the least free slot, whose name is written; one that does not is
refused. -/
theorem add_refines (h : disk.Represents folder m) (hleads : disk.Leads s.directory folder)
    (hlimit : s.settings.capacityHint = limit.toNat) (labels : Labels) :
    (((¬labels.Writable ∨ m.keys.length = limit.toNat) ∧
        ∃ e, (s.add labels none disk).result = .error e) ∨
      (labels.Writable ∧ m.keys.length ≠ limit.toNat ∧
        ∃ n, m n = none ∧ (∀ k < n, m k ≠ none) ∧
          (s.add labels none disk).result = .ok (written (Slot.name n ++ "\n")))) ∧
      (s.add labels none disk).state.Represents folder (m.next (.save labels s.input)) := by
  rw [add.eq_def]
  dsimp only
  rw [pure_bind]
  refine withCache_rule h hleads hlimit (Q := fun r d =>
    (((¬labels.Writable ∨ m.keys.length = limit.toNat) ∧ ∃ e, r = .error e) ∨
      (labels.Writable ∧ m.keys.length ≠ limit.toNat ∧ ∃ n, m n = none ∧ (∀ k < n, m k ≠ none) ∧
        r = .ok (written (Slot.name n ++ "\n")))) ∧
      d.Represents folder (m.next (.save labels s.input))) fun c hc _ => ?_
  have hsettled := hc.settled.add labels s.input
  have hmirrors := (hc.mirrors.save labels s.input).2
  rw [StoreCall.run, Action.map_apply] at hmirrors
  have hmap := hmirrors.represents
  obtain ⟨error, hfailed, hr, hs⟩ | ⟨filename, hsaved, hr, hs⟩ :=
    Cache.add_cases labels s.input c
  · obtain hwhy | ⟨-, -, n, -, -, hok⟩ := hc.mirrors.save_cases labels s.input
    · rw [Action.bind_apply, hr]
      refine ⟨hsettled, .inl ⟨hwhy.1, _, rfl⟩, ?_⟩
      rw [hs]
      exact hmap
    · cases hok.symm.trans hfailed
  · obtain ⟨-, e, hfailed⟩ | ⟨hw, hroom, n, hnone, hleast, hok⟩ :=
      hc.mirrors.save_cases labels s.input
    · cases hfailed.symm.trans hsaved
    · obtain rfl : Slot.name n = filename := Except.ok.inj (hok.symm.trans hsaved)
      have he : (Cache.add labels s.input c).state.get?
          (c.arena.insert (c.stored (Slot.name n) labels)).1 =
            some (c.stored (Slot.name n) labels) := by
        rw [hs, Cache.get?_withBackend_enlisted hc.sound.arena, if_pos rfl]
      obtain ⟨left, -, hr', hs'⟩ := Cache.release_of_held .epoch he Nat.one_lt_two
      have hsettled' := hsettled.release .epoch (c.arena.insert (c.stored (Slot.name n) labels)).1
      rw [Action.bind_apply, hr]
      dsimp only
      rw [Action.bind_apply, Action.get_apply]
      dsimp only
      rw [Action.bind_apply, hr', he]
      refine ⟨hsettled', .inr ⟨hw, hroom, n, hnone, hleast, rfl⟩, ?_⟩
      dsimp only
      rw [Action.pure_apply, hs', Cache.change_backend, hs]
      exact hmap

/-! ### Removing -/

/-- Marking entries that are there does not fail. -/
private theorem forM_mark {ids : List EntryId} {c : Cache ObjectStore}
    (h : ∀ id ∈ ids, c.get? id ≠ none) :
    (ids.forM mark c).result = .ok () ∧ (ids.forM mark c).state = c.after (ids.map .retire) := by
  induction ids generalizing c with
  | nil => exact ⟨rfl, rfl⟩
  | cons id ids ih =>
    obtain ⟨e, he⟩ := Option.ne_none_iff_exists'.mp (h id List.mem_cons_self)
    have hmark : (mark id c).result = .ok () ∧ (mark id c).state = (Cache.retire id c).state := by
      rw [mark, Action.bind_apply, Action.log_apply, Cache.retire, Cache.live_bind_of_get? he]
      exact ⟨rfl, rfl⟩
    have hrest : ∀ other ∈ ids, (Cache.retire id c).state.get? other ≠ none := by
      intro other hother
      rw [(Cache.retire_effect id c).2.2, Ne, Option.map_eq_none_iff]
      exact h other (List.mem_cons_of_mem id hother)
    obtain ⟨hr, hs⟩ := ih hrest
    have hcons := Action.bind_of_ok hmark.1 fun _ => ids.forM mark
    rw [hmark.2] at hcons
    rw [List.map_cons, Cache.after, Call.run, Action.map_apply, ← hs, ← hr]
    exact hcons

end Session

namespace Cache.Shows

variable {limit : Nat} {c : Cache ObjectStore} {folder : Location} {m : SlotMap limit}
  {key value : String}

/-- The listed entries after those with a label were retired. -/
private theorem get?_retired (h : c.Shows folder m) (key value : String) {id : EntryId}
    (hid : id ∈ c.members) :
    ∃ n o, m n = some o ∧
      (c.after ((c.findAll (some key) value).map .retire)).get? id =
        some { Entry.ofObject c.id n o with
          retired := decide (id ∈ c.findAll (some key) value) } := by
  obtain ⟨-, -, hget⟩ := after_retire c (c.findAll (some key) value)
  obtain ⟨n, o, ho, he⟩ := h.exists_of_mem hid
  refine ⟨n, o, ho, ?_⟩
  rw [hget, he, Option.map_some]
  by_cases hin : id ∈ c.findAll (some key) value
  · rw [if_pos hin, decide_eq_true hin]
  · rw [if_neg hin, decide_eq_false hin]
    rfl

/-- A purge is to delete the entries that were retired. -/
private theorem doomed_retired (h : c.Shows folder m) (key value : String) :
    (c.after ((c.findAll (some key) value).map .retire)).doomed false =
      c.findAll (some key) value := by
  obtain ⟨hmembers, -, -⟩ := after_retire c (c.findAll (some key) value)
  have hs := h.sound.after ((c.findAll (some key) value).map .retire)
  have hlisted : ∀ id ∈ c.members,
      ((c.after ((c.findAll (some key) value).map .retire)).fate false id == .delete) =
        decide (id ∈ c.findAll (some key) value) := by
    intro id hid
    obtain ⟨n, o, -, he⟩ := h.get?_retired key value hid
    obtain ⟨e', he', ho, hpos⟩ := hs.exists_of_listed (hmembers.symm ▸ hid)
    obtain rfl := Option.some.inj (he.symm.trans he')
    rw [Bool.eq_iff_iff, beq_iff_eq, fate_eq_delete_iff he' ho hpos]
    exact and_iff_left (.inr rfl)
  rw [doomed, hmembers, List.filter_congr hlisted, findAll_some]
  refine List.filter_congr fun id hid => ?_
  rw [Bool.eq_iff_iff, decide_eq_true_eq, List.mem_filter, and_iff_right hid]

/-- Purging what was retired leaves the map without the objects that have the label. -/
private theorem purge_retired (h : c.Shows folder m) (key value : String) :
    let c' := c.after ((c.findAll (some key) value).map .retire)
    (purge false c').result = .ok { deleted := (m.matching key value).length } ∧
      (purge false c').state.Settled ∧
      (purge false c').state.backend.Mirrors folder (m.without key value) := by
  intro c'
  obtain ⟨hmembers, hbackend, hget⟩ := after_retire c (c.findAll (some key) value)
  have hs : c'.Sound _ [] := h.sound.after ((c.findAll (some key) value).map .retire)
  have hmirrors : c'.backend.Mirrors folder m := hbackend.symm ▸ h.mirrors
  have hdoomed : c'.doomed false = c.findAll (some key) value := h.doomed_retired key value
  have hlisted : ∀ id ∈ c'.members, ∀ e, c'.get? id = some e → ∃ n o,
      e = { Entry.ofObject c.id n o with retired := decide (id ∈ c'.doomed false) } ∧
        n < Slot.bound := by
    intro id hid e he
    obtain ⟨n, o, -, he'⟩ := h.get?_retired key value (hmembers ▸ hid)
    rw [hdoomed]
    exact ⟨n, o, Option.some.inj (he.symm.trans he'), h.mirrors.lt_bound n⟩
  refine ⟨?_, ⟨⟨_, (hs.purge false).2⟩, fun id e' he' => ?_⟩, ?_⟩
  · have hlength : (c'.doomed false).length = (m.matching key value).length := by
      have hmap := congrArg List.length (h.map_findAll key value)
      rwa [List.length_map, List.length_map, ← hdoomed] at hmap
    rw [hs.purge_report hmirrors (fun id hid e he => ?_) fun id hid e he => ?_, hlength]
    · obtain ⟨n, o, rfl, -⟩ := hlisted id hid e he
      rfl
    · obtain ⟨n, o, rfl, hn⟩ := hlisted id hid e he
      exact ⟨n, hn, rfl⟩
  · -- what is left was there before, was not doomed, and so was not retired
    rw [hs.get?_purge_false, Option.ite_none_left_eq_some, hget, Option.map_eq_some_iff] at he'
    obtain ⟨hd, e, he, rfl⟩ := he'
    rw [if_neg (hdoomed ▸ hd)]
    exact h.settled.2 id e he
  · have hnames : c'.filenames (c'.doomed false) =
        (m.matching key value).map fun n : Fin limit => Slot.name n := by
      rw [hdoomed, ← filenames_eq (h.map_findAll key value) fun n hn =>
        SlotMap.mem_keys.mp (List.mem_of_mem_filter hn)]
      refine filenames_congr fun id _ => ?_
      rw [hget, Option.map_map]
      refine congrArg (Option.map · (c.get? id)) (funext fun e => ?_)
      rw [Function.comp_apply]
      split <;> rfl
    rw [(hs.purge_effect false).2.1, hnames, ← SlotMap.foldl_remove_matching]
    exact hmirrors.removeAll _

end Cache.Shows

namespace Session

variable {limit : UInt64} {disk : Disk} {folder : Location} {m : SlotMap limit.toNat} {s : Session}

/-- All objects with the label are removed and counted. Their entries are marked one by one
(`forM_mark`), and the purge finds exactly these (`purge_retired`). -/
theorem remove_refines (h : disk.Represents folder m) (hleads : disk.Leads s.directory folder)
    (hlimit : s.settings.capacityHint = limit.toNat) (key value : String) :
    (s.remove key value disk).result = .ok (written
        (if m.matching key value = [] then Status.info.line s!"No objects with {key}={value}"
        else Status.ok.line s!"Removed {(m.matching key value).length} object(s)")) ∧
      (s.remove key value disk).state.Represents folder (m.without key value) := by
  rw [remove]
  refine withCache_rule h hleads hlimit (Q := fun r d => r = .ok (written
      (if m.matching key value = [] then Status.info.line s!"No objects with {key}={value}"
      else Status.ok.line s!"Removed {(m.matching key value).length} object(s)")) ∧
    d.Represents folder (m.without key value)) fun c hc _ => ?_
  have hmatching : c.findAll (some key) value = [] ↔ m.matching key value = [] := by
    rw [← List.map_eq_nil_iff (f := c.get?), hc.map_findAll, List.map_eq_nil_iff]
  rw [Action.bind_apply, Action.get_apply]
  dsimp only
  by_cases hnil : m.matching key value = []
  · have hsame : m.without key value = m := by
      rw [← SlotMap.foldl_remove_matching, hnil]
      rfl
    rw [if_pos (List.isEmpty_iff.mpr (hmatching.mpr hnil)), if_pos hnil, hsame]
    exact ⟨hc.settled, rfl, hc.mirrors.represents⟩
  · have hlive : ∀ id ∈ c.findAll (some key) value, c.get? id ≠ none := by
      intro id hid
      rw [Cache.findAll_some] at hid
      obtain ⟨n, o, -, he⟩ := hc.exists_of_mem (List.mem_filter.mp hid).1
      rw [he]
      exact Option.some_ne_none _
    obtain ⟨hmark, hmarked⟩ := forM_mark hlive
    obtain ⟨hreport, hsettled, hmirrors⟩ := hc.purge_retired key value
    rw [if_neg (mt List.isEmpty_iff.mp (mt hmatching.mp hnil)), if_neg hnil, Action.bind_apply,
      hmark, hmarked]
    dsimp only
    rw [Action.bind_apply, hreport]
    refine ⟨hsettled, ?_, hmirrors.represents⟩
    -- nothing is said about files that could not be deleted
    exact congrArg (fun text => Except.ok (written text)) String.append_empty

end Session

end BlobCache
