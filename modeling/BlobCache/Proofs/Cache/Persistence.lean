import BlobCache.Proofs.Cache.Bodies
import Mathlib.Data.List.Basic

/-!
# Persistence

What a cache leaves on the disk when it closes, and what a later cache makes of it
(`Cache.Persistent`): the current entries come back, with their labels and bodies and nothing else
of what the cache knew of them; the files of the retired ones are gone, whoever holds them; nothing
else is touched.

That an entry comes back rests on the cache being filed. That nothing else comes back rests on a
second invariant: the folder has no file but those of listed entries (`Cache.Tidy`). Both hold of
every cache that was opened on an empty folder (`persistent_after`).

Closing is a purge with force followed by giving up what is left, and of the two only the purge
changes the disk (`Sound.backend_close`). The store that a later cache opens over then has the
folder without the files of the retired entries (`Inherits`), and the names that it finds there are
matched with the current entries one by one (`currentUnder?_eq_some_iff`, `Inherits.restores`).
-/

namespace BlobCache

/-- The entry that a later cache makes for the object of an entry. -/
def Entry.restored (e : Entry) (owner : CacheId) : Entry where
  filename := e.filename
  labels := e.labels
  references := .one
  retired := false
  eager := false
  owner := some owner
  idleSince := none
  mapping := none

namespace Cache

variable {c : Cache ObjectStore} {chronicle : Chronicle} {path : Path} {folder : Location}
  {disk : Disk} {ledger : Ledger}

/-! ### What is in the folder -/

/-- A cache that has in its folder only files of listed entries, and leaves the rest of the disk as
it was. -/
structure Tidy (c : Cache ObjectStore) (path : Path) (folder : Location) (disk : Disk) : Prop where
  path_eq : c.backend.dir.path = path
  /-- Whatever is in the folder is a listed entry's. -/
  covered : ∀ name, c.backend.disk.node? (folder ++ [name]) ≠ none →
    name ∈ c.filenames c.members
  /-- What is not in the folder is as it was. -/
  outside : ∀ l, l ≠ folder → (∀ name, l ≠ folder ++ [name]) →
    c.backend.disk.node? l = disk.node? l

namespace Tidy

/-- Deleting the objects of some listed entries leaves the rest of the disk as it was. -/
private theorem outside_delete (h : c.Tidy path folder disk) (hf : c.Filed chronicle folder)
    (leaves : EntryId → Bool) {l : Location} (hl : l ≠ folder)
    (hnames : ∀ name, l ≠ folder ++ [name]) :
    (Backend.removeAll c.backend (c.filenames (c.members.filter leaves))).disk.node? l =
      disk.node? l := by
  obtain ⟨-, -, hnodes⟩ := hf.delete leaves
  have hnot : l ∉ (c.filenames (c.members.filter leaves)).map (folder ++ [·]) := by
    intro hmem
    obtain ⟨name, -, heq⟩ := List.mem_map.mp hmem
    exact hnames name heq.symm
  rw [hnodes, if_neg hnot]
  exact h.outside l hl hnames

/-- What is in the folder after objects of listed entries were deleted is an entry's that stayed. -/
private theorem covered_delete (h : c.Tidy path folder disk) (hf : c.Filed chronicle folder)
    {leaves : EntryId → Bool} {name : String}
    (hname : (Backend.removeAll c.backend
      (c.filenames (c.members.filter leaves))).disk.node? (folder ++ [name]) ≠ none) :
    ∃ id ∈ c.members, leaves id = false ∧ ∃ e, c.get? id = some e ∧ e.filename = name := by
  obtain ⟨-, -, hnodes⟩ := hf.delete leaves
  rw [hnodes] at hname
  -- what is still there was there before and is no deleted file
  by_cases hdel : folder ++ [name] ∈ (c.filenames (c.members.filter leaves)).map (folder ++ [·])
  · rw [if_pos hdel] at hname
    exact absurd rfl hname
  · rw [if_neg hdel] at hname
    obtain ⟨id, hid, e, he, rfl⟩ := Cache.mem_filenames.mp (h.covered name hname)
    exact ⟨id, hid, Bool.eq_false_iff.mpr (mt (hf.mem_deleted_iff hid he).mpr hdel), e, he, rfl⟩

/-- Calls that add nothing keep a cache tidy. -/
theorem run_of_ne_add (h : c.Tidy path folder disk) (hf : c.Filed chronicle folder)
    (hs : c.Sound ledger []) {call : Call} (hcall : ∀ labels data, call ≠ .add labels data) :
    (call.run c).state.Tidy path folder disk := by
  obtain ⟨leaves, hm, hb⟩ := hs.backend_run hcall
  constructor
  case path_eq =>
    rw [hb, (hf.delete leaves).2.1]
    exact h.path_eq
  case covered =>
    intro name hname
    rw [hb] at hname
    obtain ⟨id, hid, hstays, e, he, rfl⟩ := h.covered_delete hf hname
    have hid' : id ∈ (call.run c).state.members := by
      rw [hm, List.mem_filter, hstays]
      exact ⟨hid, rfl⟩
    rw [hs.filenames_run hcall]
    exact Cache.mem_filenames.mpr ⟨id, hid', e, he, rfl⟩
  case outside =>
    intro l hl hnames
    rw [hb]
    exact h.outside_delete hf leaves hl hnames

/-- Adding an entry keeps a cache tidy. -/
theorem add (h : c.Tidy path folder disk) (hf : c.Filed chronicle folder)
    (hs : c.Sound ledger []) (labels : Labels) (data : Bytes) :
    (Cache.add labels data c).state.Tidy path folder disk := by
  obtain ⟨error, -, hsame⟩ | ⟨n, disk', new, -, hfresh, hmembers, hget, hb, hstored⟩ :=
    hs.add_effect hf.inStep labels data
  · rw [hsame]
    exact h
  · have hall := hs.filenames_of_enlisted hfresh hmembers hget
    constructor
    case path_eq =>
      rw [hb]
      exact h.path_eq
    case covered =>
      intro name hname
      rw [hb, ObjectStore.filled_disk] at hname
      rw [hall, List.mem_append, List.mem_singleton]
      -- the new file is the new entry's, and the temporary one is gone again
      by_cases hn : folder ++ [name] = folder ++ [Slot.name n]
      · exact .inr (List.singleton_inj.mp (List.append_cancel_left hn))
      · have ht : folder ++ [name] ≠ folder ++ [Slot.temporaryName n] := by
          intro ht
          rw [ht, hstored.temporary] at hname
          exact hname rfl
        rw [hstored.others _ hn ht] at hname
        exact .inl (h.covered name hname)
    case outside =>
      intro l hl hnames
      rw [hb, ObjectStore.filled_disk, hstored.others _ (hnames _) (hnames _)]
      exact h.outside l hl hnames

/-- Every call keeps a cache tidy. -/
theorem run (h : c.Tidy path folder disk) (hf : c.Filed chronicle folder)
    (hs : c.Sound ledger []) (call : Call) : (call.run c).state.Tidy path folder disk := by
  by_cases hadd : ∃ labels data, call = .add labels data
  · obtain ⟨labels, data, rfl⟩ := hadd
    rw [Call.run, Action.map_apply]
    exact h.add hf hs labels data
  · exact h.run_of_ne_add hf hs fun labels data heq => hadd ⟨labels, data, heq⟩

/-- A cache that is tidy stays so. -/
theorem after (h : c.Tidy path folder disk) (hf : c.Filed chronicle folder)
    (hs : c.Sound ledger []) (calls : List Call) :
    (c.after calls).Tidy path folder disk := by
  induction calls generalizing chronicle ledger c with
  | nil => exact h
  | cons call calls ih => exact ih (h.run hf hs call) (hf.run hs call) (hs.run call)

end Tidy

/-! ### Current entries -/

theorem mem_current {p : EntryId × Entry} :
    p ∈ c.current ↔ p.1 ∈ c.members ∧ c.get? p.1 = some p.2 ∧ p.2.retired = false := by
  rw [current, List.mem_filterMap]
  constructor
  · rintro ⟨id, hid, h⟩
    obtain ⟨e, he, rfl⟩ := Option.map_eq_some_iff.mp h
    obtain ⟨hget, hretired⟩ := Option.filter_eq_some_iff.mp he
    exact ⟨hid, hget, by simpa using hretired⟩
  · rintro ⟨hid, hget, hretired⟩
    refine ⟨p.1, hid, ?_⟩
    rw [hget, Option.filter_some, hretired]
    rfl

/-- No entry is current twice. -/
theorem Sound.nodup_current (hs : c.Sound ledger []) : c.current.Nodup := by
  have hnodup : c.members.Nodup := hs.nodup
  refine List.pairwise_filterMap.mpr (hnodup.imp fun {a b} hne p hp q hq heq => hne ?_)
  obtain ⟨_, -, rfl⟩ := Option.map_eq_some_iff.mp hp
  obtain ⟨_, -, rfl⟩ := Option.map_eq_some_iff.mp hq
  exact congrArg Prod.fst heq

/-- When the cache closes, the listed entries that are not current are deleted. -/
theorem Sound.fate_true (hs : c.Sound ledger []) {id : EntryId} {e : Entry}
    (hid : id ∈ c.members) (he : c.get? id = some e) :
    (c.fate true id == .delete) = e.retired := by
  obtain ⟨e', he', ho, hpos⟩ := hs.exists_of_listed hid
  obtain rfl : e = e' := Option.some.inj (he.symm.trans he')
  rw [Bool.eq_iff_iff, beq_iff_eq, fate_eq_delete_iff he ho hpos]
  exact and_iff_left (.inl rfl)

/-- A closed cache has deleted the objects of its retired entries. -/
theorem Sound.backend_close (hs : c.Sound ledger []) :
    (Cache.close c).result = .ok () ∧ (Cache.close c).state.backend =
      Backend.removeAll c.backend
        (c.filenames (c.members.filter (c.fate true · == .delete))) := by
  obtain ⟨hr, hclosed⟩ := hs.close
  obtain ⟨-, -, -, hcleared⟩ := hs.clear
  obtain ⟨-, hpurged, -⟩ := hs.purge_effect true
  refine ⟨hr, ?_⟩
  rw [hclosed]
  exact hcleared.trans hpurged

/-- The current entry whose object has the name. -/
def currentUnder? (c : Cache ObjectStore) (name : String) : Option (EntryId × Entry) :=
  c.current.find? (·.2.filename == name)

theorem currentUnder?_eq_some_iff (hf : c.Filed chronicle folder) {name : String}
    {p : EntryId × Entry} :
    c.currentUnder? name = some p ↔ p ∈ c.current ∧ p.2.filename = name := by
  constructor
  · intro h
    have hname := List.find?_some h
    exact ⟨List.mem_of_find?_eq_some h, beq_iff_eq.mp hname⟩
  · rintro ⟨hp, rfl⟩
    cases hq : c.currentUnder? p.2.filename with
    | none =>
      have hnot := List.find?_eq_none.mp hq p hp
      rw [beq_self_eq_true] at hnot
      exact absurd rfl hnot
    | some q =>
      -- the entries under one name are one entry
      obtain ⟨hqm, hqe, -⟩ := mem_current.mp (List.mem_of_find?_eq_some hq)
      obtain ⟨hpm, hpe, -⟩ := mem_current.mp hp
      have hname := List.find?_some hq
      have hid := eq_of_filename_eq hf.nodup hqm hpm hqe hpe (beq_iff_eq.mp hname)
      have he : q.2 = p.2 := Option.some.inj (hqe.symm.trans (hid ▸ hpe))
      rw [Prod.ext hid he]

/-! ### Opening again -/

/-- A later cache has the current entries of an earlier one back. -/
structure Restores (later : Cache ObjectStore) (id : CacheId) (c : Cache ObjectStore)
    (chronicle : Chronicle) : Prop where
  /-- It lists the current entries by ascending slot, unheld and as if they had just been found. -/
  entries : ∃ order : List (EntryId × Entry), order.Perm c.current ∧
    (∃ slots : List Nat, slots.Pairwise (· < ·) ∧
      order.map (·.2.filename) = slots.map Slot.name) ∧
    later.members.map later.get? = order.map fun p => some (p.2.restored id)
  /-- It gives the bodies on record for them. -/
  bodies : ∀ id ∈ later.members, ∀ p ∈ c.current,
    (later.get? id).map (·.filename) = some p.2.filename →
      (body id later).result = .ok (chronicle p.1).body

/-- A store that has in the folder what the cache left there. -/
structure Inherits (s : ObjectStore) (c : Cache ObjectStore) (folder : Location) : Prop where
  inStep : s.InStep folder
  node?_eq : ∀ name, s.disk.node? (folder ++ [name]) =
    (close c).state.backend.disk.node? (folder ++ [name])

namespace Inherits

variable {s : ObjectStore}

/-- Closing keeps the objects of the current entries. -/
private theorem object_of_mem_current (h : Inherits s c folder) (hf : c.Filed chronicle folder)
    (hs : c.Sound ledger []) {p : EntryId × Entry} (hp : p ∈ c.current) :
    s.object p.2.filename = .ok ⟨p.2.labels, (chronicle p.1).body⟩ := by
  obtain ⟨hid, he, hretired⟩ := mem_current.mp hp
  obtain ⟨-, -, hnodes⟩ := hf.delete (c.fate true · == .delete)
  -- even with force, only retired entries are deleted
  have hstays : ¬(c.fate true p.1 == .delete) = true := by
    rw [hs.fate_true hid he, hretired]
    exact Bool.false_ne_true
  refine hf.inStep.object_of_node h.inStep (hf.stored p.1 hid p.2 he) ?_
  rw [h.node?_eq, hs.backend_close.2, hnodes, if_neg (mt (hf.mem_deleted_iff hid he).mp hstays)]

/-- Closing keeps no other objects. -/
private theorem exists_of_mem_filenames (h : Inherits s c folder) (ht : c.Tidy path folder disk)
    (hf : c.Filed chronicle folder) (hs : c.Sound ledger []) {name : String}
    (hname : name ∈ s.dir.filenames) : ∃ p, c.currentUnder? name = some p := by
  obtain ⟨n, hn, rfl⟩ := List.mem_map.mp hname
  obtain ⟨-, hnode⟩ := (h.inStep.mem_slots_iff n).mp hn
  rw [h.node?_eq, hs.backend_close.2] at hnode
  obtain ⟨id, hid, hstays, e, he, hfile⟩ := ht.covered_delete hf hnode
  rw [hs.fate_true hid he] at hstays
  exact ⟨(id, e), (currentUnder?_eq_some_iff hf).mpr ⟨mem_current.mpr ⟨hid, he, hstays⟩, hfile⟩⟩

/-- A cache that opens over what another one left restores its current entries. The names that it
finds are the names of current entries, since a tidy cache has no other files, and under each of
them there is the object of the entry, since the cache was filed. -/
theorem restores (h : Inherits s c folder) (ht : c.Tidy path folder disk)
    (hf : c.Filed chronicle folder) (hs : c.Sound ledger []) (id : CacheId) (hint : Nat) :
    (openOver id s hint).state.Restores id c chronicle := by
  obtain ⟨hok, hbackend, hall⟩ := openOver_store id s hint
  -- every name in the directory is that of one current entry
  have hunder : ∀ name ∈ s.dir.filenames,
      (c.currentUnder? name).map (·.2.filename) = some name := by
    intro name hname
    obtain ⟨p, hp⟩ := h.exists_of_mem_filenames ht hf hs hname
    rw [hp, Option.map_some, ((currentUnder?_eq_some_iff hf).mp hp).2]
  -- and what the later cache finds there is that entry's object
  have hfound : ∀ name ∈ s.dir.filenames,
      found? id s name = (c.currentUnder? name).map (·.2.restored id) := by
    intro name hname
    obtain ⟨p, hp⟩ := h.exists_of_mem_filenames ht hf hs hname
    obtain ⟨hcurrent, rfl⟩ := (currentUnder?_eq_some_iff hf).mp hp
    rw [hp, Option.map_some]
    exact found?_eq_some_iff.mpr ⟨_, h.object_of_mem_current hf hs hcurrent, rfl⟩
  have hnames : (s.dir.filenames.filterMap c.currentUnder?).map (·.2.filename) =
      s.dir.filenames := by
    rw [List.map_filterMap, List.filterMap_congr hunder, List.filterMap_some]
  constructor
  case entries =>
    refine ⟨s.dir.filenames.filterMap c.currentUnder?, ?_,
      ⟨s.dir.slots.toList, s.dir.slots.ascending, hnames⟩, ?_⟩
    · have hnodup : (s.dir.filenames.filterMap c.currentUnder?).Nodup :=
        List.Pairwise.of_map (·.2.filename) (fun _ _ hne heq => hne (heq ▸ rfl))
          (hnames ▸ s.dir.nodup_filenames)
      refine (List.perm_ext_iff_of_nodup hnodup hs.nodup_current).mpr fun p => ?_
      rw [List.mem_filterMap]
      constructor
      · rintro ⟨name, -, hp⟩
        exact ((currentUnder?_eq_some_iff hf).mp hp).1
      · intro hp
        have hobject := h.object_of_mem_current hf hs hp
        exact ⟨p.2.filename, h.inStep.mem_filenames_of_object hobject,
          (currentUnder?_eq_some_iff hf).mpr ⟨hp, rfl⟩⟩
    · rw [hall, List.filterMap_congr hfound, ← List.map_filterMap, List.map_map]
      rfl
  case bodies =>
    intro member hm p hp hname
    obtain ⟨e, he, hfile⟩ := Option.map_eq_some_iff.mp hname
    have hlater := filed_openOver h.inStep id hint
    have hstored := hlater.stored member hm e he
    rw [hbackend, hfile, h.object_of_mem_current hf hs hp] at hstored
    rw [hlater.body_of_mem (sound_openOver hok) hm]
    have hbody := congrArg StoredObject.body (Except.ok.inj hstored)
    exact congrArg Except.ok hbody.symm

end Inherits

/-! ### The whole run -/

/-- What a cache over the folder at `path` leaves when it closes. The disk was `disk` when the cache
opened. -/
structure Persistent (c : Cache ObjectStore) (path : Path) (disk : Disk) (chronicle : Chronicle) :
    Prop where
  /-- The cache closes. -/
  closes : (close c).result = .ok ()
  /-- To close it twice is to close it once. -/
  close_close : (close >>= fun _ => close) c = close c
  /-- A cache that opens there later has the current entries back. -/
  restores : ∀ (id : CacheId) (hint : UInt64), ∃ later,
    (openAt id path hint.toNat (close c).state.backend.disk).result = .ok later ∧
      later.Restores id c chronicle
  /-- The files of retired entries are gone. -/
  retired : ∀ id ∈ c.members, ∀ e, c.get? id = some e → e.retired →
    (close c).state.backend.disk.stat (path.join e.filename) = .error .notFound
  /-- Closing changes nothing but the files of retired entries. -/
  untouched : ∀ l, (∀ id ∈ c.members, ∀ e, c.get? id = some e → e.retired →
      c.backend.disk.find (path.join e.filename) ≠ .ok l) →
    (close c).state.backend.disk.node? l = c.backend.disk.node? l
  /-- In all its time the cache changed nothing but its folder and the files in it. -/
  outside : ∀ folder l, disk.find path = .ok folder → l ≠ folder →
    (∀ name, l ≠ folder ++ [name]) →
    (close c).state.backend.disk.node? l = disk.node? l

/-- What filed and tidy caches leave when they close: the objects of retired entries are deleted
(`Sound.backend_close`, `Filed.delete`), and the folder is otherwise as it was, for a later cache to
open over (`Inherits.restores`). -/
theorem Filed.persistent (hf : c.Filed chronicle folder) (ht : c.Tidy path folder disk)
    (hs : c.Sound ledger []) (hfind : disk.find path = .ok folder) :
    c.Persistent path disk chronicle := by
  obtain ⟨hr, hb⟩ := hs.backend_close
  obtain ⟨hin, hpath, hnodes⟩ := hf.delete (c.fate true · == .delete)
  rw [← hb] at hin hpath hnodes
  rw [ht.path_eq] at hpath
  constructor
  case closes => exact hr
  case close_close => exact Cache.close_close hs
  case restores =>
    intro id hint
    have hclosed : (close c).state.backend.disk.find path = .ok folder := hpath ▸ hin.find_path
    obtain ⟨s, hopen, -, hins, hdisk⟩ :=
      ObjectStore.openAt_of_hasFolder hclosed hin.hasFolder (Slot.toNat_le_bound hint)
    -- opening changes the permissions of the folder and nothing in it
    have hinherits : Inherits s c folder := by
      refine ⟨hins, fun name => ?_⟩
      have hne : folder ++ [name] ≠ folder := by simp
      rw [hdisk, Disk.node?_put, if_neg hne]
    exact ⟨_, openAt_eq_ok_iff.mpr ⟨s, hopen, rfl⟩, hinherits.restores ht hf hs id hint.toNat⟩
  case retired =>
    intro id hid e he hretired
    obtain ⟨n, -, -, hname, -⟩ := hf.inStep.object_eq_ok_iff.mp (hf.stored id hid e he)
    have hgone : (c.fate true id == .delete) = true := (hs.fate_true hid he).trans hretired
    have hfile : (close c).state.backend.disk.find (path.join e.filename) =
        .ok (folder ++ [e.filename]) := by
      rw [hname, ← hpath]
      exact hin.find_slotPath n
    refine Disk.stat_of_find_none hfile ?_
    rw [hnodes, if_pos ((hf.mem_deleted_iff hid he).mpr hgone)]
  case untouched =>
    intro l hl
    have hnot : l ∉ (c.filenames (c.members.filter (c.fate true · == .delete))).map
        (folder ++ [·]) := by
      intro hmem
      obtain ⟨name, hname, rfl⟩ := List.mem_map.mp hmem
      obtain ⟨id, hid, e, he, rfl⟩ := mem_filenames.mp hname
      obtain ⟨hid, hgone⟩ := List.mem_filter.mp hid
      obtain ⟨n, -, -, hname, -⟩ := hf.inStep.object_eq_ok_iff.mp (hf.stored id hid e he)
      refine hl id hid e he ((hs.fate_true hid he).symm.trans hgone) ?_
      rw [hname, ← ht.path_eq]
      exact hf.inStep.find_slotPath n
    rw [hnodes, if_neg hnot]
  case outside =>
    intro folder' l hfind' hl hnames
    obtain rfl : folder = folder' := Except.ok.inj (hfind.symm.trans hfind')
    rw [hb]
    exact ht.outside_delete hf _ hl hnames

/-- A cache over an empty folder is tidy if only the permissions of the folder have changed. -/
private theorem tidy_of_empty (hnone : [] = disk.childNames folder)
    (hpath : c.backend.dir.path = path)
    (hdisk : c.backend.disk = disk.put folder (.folder 0o700)) : c.Tidy path folder disk where
  path_eq := hpath
  covered name hname := by
    have hne : folder ++ [name] ≠ folder := by simp
    rw [hdisk, Disk.node?_put, if_neg hne, ← Disk.mem_childNames, ← hnone] at hname
    cases hname
  outside l hl _ := by rw [hdisk, Disk.node?_put, if_neg hl]

/-- **Persistence.** Whatever is done with a cache over an empty folder, it closes, and a later one,
with whatever hint it is opened, has the current entries back with their labels and bodies, and
nothing else is left. Two invariants are carried through the calls: the cache is filed, so that its
entries come back, and it is tidy, so that nothing else does (`Filed.after`, `Tidy.after`,
`Filed.persistent`). -/
theorem persistent_after {id : CacheId} {hint : UInt64} (hempty : disk.readFolder path = .ok []) :
    ∃ c, (openAt id path hint.toNat disk).result = .ok c ∧ ∀ calls : List Call,
      (c.after calls).Persistent path disk ((Chronicle.opening c).after c calls) := by
  obtain ⟨folder, hfind, hfolder, hnone⟩ := Disk.find_of_readFolder hempty
  obtain ⟨s, hopen, hpath, hin, hdisk⟩ :=
    ObjectStore.openAt_of_hasFolder hfind hfolder (Slot.toNat_le_bound hint)
  obtain ⟨hok, hbackend, -⟩ := openOver_store id s hint.toNat
  have hs := sound_openOver hok
  have hf := filed_openOver hin id hint.toNat
  have ht : (openOver id s hint.toNat).state.Tidy path folder disk :=
    tidy_of_empty hnone (by rw [hbackend, hpath]) (by rw [hbackend, hdisk])
  refine ⟨_, openAt_eq_ok_iff.mpr ⟨s, hopen, rfl⟩, fun calls => ?_⟩
  exact (hf.after hs calls).persistent (ht.after hf hs calls) (hs.after calls) hfind

/-- A disk with an empty folder. -/
def emptyDisk : Disk where
  nodes := [([], .folder 0), (["o"], .folder 0)]

/-- Of three objects, one is deleted and its slot used again, and one is retired while it is held.
-/
def turnover : List Call :=
  [.add ⟨[("k", "a")]⟩ [1], .add ⟨[("k", "b")]⟩ [2], .add ⟨[("k", "c")]⟩ [3], .retire ⟨1, 0⟩,
    .purge true, .add ⟨[("k", "d")]⟩ [4], .retire ⟨0, 0⟩]

/-- A folder fills and is left to a later cache, which has the current entries back in the order of
their slots, each with its labels and its body. The file of the retired entry is gone. -/
theorem persistent_after_empty :
    emptyDisk.readFolder ⟨"/o"⟩ = .ok [] ∧
      ∃ c, (openAt ⟨1⟩ ⟨"/o"⟩ (3 : UInt64).toNat emptyDisk).result = .ok c ∧
        (∀ calls : List Call,
          (c.after calls).Persistent ⟨"/o"⟩ emptyDisk ((Chronicle.opening c).after c calls)) ∧
        (c.after turnover).members = [⟨0, 0⟩, ⟨2, 0⟩, ⟨3, 0⟩] ∧
        ((c.after turnover).get? ⟨3, 0⟩).map (·.filename) = some "1" ∧
        (close (c.after turnover)).state.backend.disk.node? ["o", "0"] = none ∧
        ∃ later, (openAt ⟨2⟩ ⟨"/o"⟩ (1 : UInt64).toNat
            (close (c.after turnover)).state.backend.disk).result = .ok later ∧
          later.filenames later.members = ["1", "2"] ∧
          (later.members.map fun id => (later.label? id "k", (body id later).result.toOption)) =
            [(some "d", some [4]), (some "c", some [3])] := by
  have hempty : emptyDisk.readFolder ⟨"/o"⟩ = .ok [] := by rfl
  obtain ⟨c, hopen, hpersistent⟩ :
      ∃ c, (openAt ⟨1⟩ ⟨"/o"⟩ (3 : UInt64).toNat emptyDisk).result = .ok c ∧
        ∀ calls : List Call,
          (c.after calls).Persistent ⟨"/o"⟩ emptyDisk ((Chronicle.opening c).after c calls) :=
    persistent_after hempty
  obtain ⟨later, hlater, -⟩ := (hpersistent turnover).restores ⟨2⟩ 1
  have hfirst : (openAt ⟨1⟩ ⟨"/o"⟩ (3 : UInt64).toNat emptyDisk).result.toOption.map (fun c =>
      ((c.after turnover).members, ((c.after turnover).get? ⟨3, 0⟩).map (·.filename),
        (close (c.after turnover)).state.backend.disk.node? ["o", "0"])) =
        some ([⟨0, 0⟩, ⟨2, 0⟩, ⟨3, 0⟩], some "1", none) := by
    decide +kernel
  have hsecond : ((openAt ⟨1⟩ ⟨"/o"⟩ (3 : UInt64).toNat emptyDisk).result.toOption.bind fun c =>
      (openAt ⟨2⟩ ⟨"/o"⟩ (1 : UInt64).toNat
        (close (c.after turnover)).state.backend.disk).result.toOption.map fun later =>
          (later.filenames later.members,
            later.members.map fun id => (later.label? id "k", (body id later).result.toOption))) =
        some (["1", "2"], [(some "d", some [4]), (some "c", some [3])]) := by
    decide +kernel
  simp only [hopen, Except.toOption, Option.map_some, Option.some.injEq, Prod.mk.injEq] at hfirst
  simp only [hopen, hlater, Except.toOption, Option.bind_some, Option.map_some, Option.some.injEq,
    Prod.mk.injEq] at hsecond
  obtain ⟨hmembers, hreused, hgone⟩ := hfirst
  obtain ⟨hnames, hbodies⟩ := hsecond
  exact ⟨hempty, c, hopen, hpersistent, hmembers, hreused, hgone, later, hlater, hnames, hbodies⟩

end Cache

end BlobCache
