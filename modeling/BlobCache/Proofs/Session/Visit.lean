import BlobCache.Proofs.Cache.Lookup
import BlobCache.Proofs.Cache.Removal
import BlobCache.Session.Objects

/-!
# Visits

A session opens the cache over a folder, works, and closes the cache: it visits the folder. What it
finds is told by the map of slots that the disk represents (`Disk.Represents`): the cache lists the
objects of the map, by ascending slot (`Cache.Shows`), and `Session.withCache_rule` reduces the
session to the work on such a cache.

The way there leads through the store: one that opens over a disk that represents a map mirrors the
map (`ObjectStore.exists_openAt_of_represents`), and the cache over it shows the map
(`shows_openOver`). What a cache shows is all that lookups in it tell (`Cache.Shows.map_findAll`,
`Cache.Shows.find?_cases`).
-/

namespace BlobCache

/-! ### The folder between two visits -/

namespace Disk

variable {limit : Nat} {d d' : Disk} {path : Path} {folder : Location} {m : SlotMap limit}

/-- A disk with a folder that has the objects of a map in their slots, and nothing else that
matters. -/
structure Represents (d : Disk) (folder : Location) (m : SlotMap limit) : Prop where
  /-- The objects of the map have files. -/
  stored : ∀ n o, m n = some o → ∃ header, o.labels.header = .ok header ∧
    d.node? (folder ++ [Slot.name n]) = some (.file (header ++ o.body))
  /-- What is in a slot is an object of the map. -/
  mapped : ∀ n, d.node? (folder ++ [Slot.name n]) ≠ none → ∃ k : Fin limit, n = k ∧ m k ≠ none
  /-- Nothing is in the way of temporary files. -/
  clear : ∀ n, ¬d.HasFolder (folder ++ [Slot.temporaryName n])

/-- A folder represents what it represented as long as the nodes in it are the same. -/
theorem Represents.congr (h : d.Represents folder m)
    (hnodes : ∀ name, d'.node? (folder ++ [name]) = d.node? (folder ++ [name])) :
    d'.Represents folder m where
  stored n o ho := by
    rw [hnodes]
    exact h.stored n o ho
  mapped n hn := by
    rw [hnodes] at hn
    exact h.mapped n hn
  clear n := by
    rw [HasFolder, hnodes]
    exact h.clear n

/-- A folder with nothing in it represents the empty map. -/
theorem represents_empty (h : ∀ name, d.node? (folder ++ [name]) = none) :
    d.Represents folder (SlotMap.empty : SlotMap limit) where
  stored _ _ ho := nomatch ho
  mapped _ hn := absurd (h _) hn
  clear _ := not_hasFolder_of_none (h _)

/-- A path leads to a folder, which is there or can be made without putting anything into it. -/
def Leads (d : Disk) (path : Path) (folder : Location) : Prop :=
  ∃ made, d.makeFolders path = (made, .ok ()) ∧ made.find path = .ok folder ∧
    made.HasFolder folder ∧ ∀ name, made.node? (folder ++ [name]) = d.node? (folder ++ [name])

/-- A path leads to a folder that is there. -/
theorem leads_of_find (hfind : d.find path = .ok folder) (hfolder : d.HasFolder folder) :
    d.Leads path folder :=
  ⟨d, makeFolders_of_hasFolder hfind hfolder, hfind, hfolder, fun _ => rfl⟩

end Disk

/-- A store that mirrors a map leaves a disk that represents it. -/
theorem ObjectStore.Mirrors.represents {limit : Nat} {s : ObjectStore} {folder : Location}
    {m : SlotMap limit} (h : s.Mirrors folder m) : s.disk.Represents folder m :=
  ⟨h.stored, h.mapped, h.clear⟩

/-- Where a disk represents a map, a store opens that mirrors it. -/
theorem ObjectStore.exists_openAt_of_represents {limit : UInt64} {disk : Disk} {path : Path}
    {folder : Location} {m : SlotMap limit.toNat} (h : disk.Represents folder m)
    (hleads : disk.Leads path folder) :
    ∃ s, (openAt path limit.toNat disk).result = .ok s ∧ s.Mirrors folder m := by
  obtain ⟨made, hmade, hfind, hfolder, hsame⟩ := hleads
  obtain ⟨s, hopen, -, hin, hdisk⟩ :=
    openAt_of_makeFolders hmade hfind hfolder (Slot.toNat_le_bound limit)
  have hnodes : ∀ name, s.disk.node? (folder ++ [name]) = disk.node? (folder ++ [name]) := by
    intro name
    have hne : folder ++ [name] ≠ folder := by simp
    rw [hdisk, Disk.node?_put, if_neg hne, hsame]
  obtain ⟨hstored, hmapped, hclear⟩ := h.congr hnodes
  exact ⟨s, hopen, hin, limit_of_openAt hopen, hstored, hmapped, hclear⟩

/-! ### What a visitor finds -/

/-- The entry that a cache makes for the object in a slot. -/
def Entry.ofObject (owner : CacheId) (n : Nat) (o : StoredObject) : Entry where
  filename := Slot.name n
  labels := o.labels
  references := .one
  owner := some owner

namespace Cache

variable {limit : Nat} {c : Cache ObjectStore} {folder : Location} {m : SlotMap limit}
  {key value : String}

/-- A cache that has just opened over the objects of a map. -/
structure Shows (c : Cache ObjectStore) (folder : Location) (m : SlotMap limit) : Prop where
  sound : c.Sound Ledger.blank []
  mirrors : c.backend.Mirrors folder m
  /-- The objects are listed by ascending slot. -/
  entries : c.members.map c.get? = m.keys.map fun n => (m n).map (Entry.ofObject c.id n)

/-- A cache shows what its store mirrors. -/
theorem shows_openOver {s : ObjectStore} (h : s.Mirrors folder m) (id : CacheId) (hint : Nat) :
    (openOver id s hint).state.Shows folder m := by
  obtain ⟨hok, hb, hall⟩ := openOver_store id s hint
  refine ⟨sound_openOver hok, hb.symm ▸ h, ?_⟩
  have hfound : ∀ n ∈ m.keys, (found? id s (Slot.name n)).map some =
      some ((m n).map (Entry.ofObject id n)) := by
    intro n hn
    obtain ⟨o, ho⟩ := Option.ne_none_iff_exists'.mp (SlotMap.mem_keys.mp hn)
    have hobject := h.object_of_lookup (SlotMap.lookup_eq_some_iff.mpr ⟨n, rfl, ho⟩)
    rw [found?_eq_some_iff.mpr ⟨o, hobject, rfl⟩, ho]
    rfl
  rw [id_openOver hok, hall, ObjectDir.filenames, h.toList_slots, List.map_map,
    List.filterMap_map, List.map_filterMap, ← List.filterMap_eq_map]
  exact List.filterMap_congr hfound

namespace Shows

/-- A listed entry is that of an object. -/
theorem exists_of_mem (h : c.Shows folder m) {id : EntryId} (hid : id ∈ c.members) :
    ∃ n o, m n = some o ∧ c.get? id = some (Entry.ofObject c.id n o) := by
  have hmem : c.get? id ∈ c.members.map c.get? := List.mem_map_of_mem hid
  rw [h.entries] at hmem
  obtain ⟨n, hn, heq⟩ := List.mem_map.mp hmem
  obtain ⟨o, ho⟩ := Option.ne_none_iff_exists'.mp (SlotMap.mem_keys.mp hn)
  rw [ho] at heq
  exact ⟨n, o, ho, heq.symm⟩

/-- All entries are listed and none is retired, so there is nothing to delete. -/
theorem settled (h : c.Shows folder m) : c.Settled := by
  refine ⟨⟨_, h.sound⟩, fun id e he => ?_⟩
  obtain hid | hshare := (h.sound.exists_iff id).mp ⟨e, he⟩
  · obtain ⟨n, o, -, he'⟩ := h.exists_of_mem hid
    obtain rfl := Option.some.inj (he.symm.trans he')
    rfl
  · cases hshare

/-- The entries with a label are those of the objects with the label. -/
theorem map_findAll (h : c.Shows folder m) (key value : String) :
    (c.findAll (some key) value).map c.get? =
      (m.matching key value).map fun n => (m n).map (Entry.ofObject c.id n) := by
  have hlabel : ∀ n : Fin limit, ((m n).map (Entry.ofObject c.id n)).any
      (fun e => !e.retired && e.labels.hasLabel key value) =
        (m n).any (·.labels.hasLabel key value) := by
    intro n
    cases m n with
    | none => rfl
    | some o => rfl
  rw [findAll_some, ← Function.comp_def (fun e? : Option Entry => e?.any _), ← List.filter_map,
    h.entries, List.filter_map, SlotMap.matching]
  congr 2
  funext n
  exact hlabel n

/-- The first entry with a label is that of the first object with the label. -/
theorem find?_cases (h : c.Shows folder m) (key value : String) :
    (c.find? key value = none ∧ m.first? key value = none) ∨
      ∃ id n o, c.find? key value = some id ∧ m.first? key value = some o ∧ m n = some o ∧
        c.get? id = some (Entry.ofObject c.id n o) := by
  have hhead := congrArg List.head? (h.map_findAll key value)
  rw [List.head?_map, List.head?_map, ← find?_eq_head?] at hhead
  cases hm : (m.matching key value).head? with
  | none =>
    rw [hm, Option.map_none, Option.map_eq_none_iff] at hhead
    refine .inl ⟨hhead, ?_⟩
    rw [SlotMap.first?, hm, Option.bind_none]
  | some n =>
    rw [hm, Option.map_some, Option.map_eq_some_iff] at hhead
    obtain ⟨id, hfind, he⟩ := hhead
    obtain ⟨o, ho, -⟩ := SlotMap.mem_matching.mp (List.mem_of_head? hm)
    refine .inr ⟨id, n, o, hfind, ?_, ho, ?_⟩
    · rw [SlotMap.first?, hm, Option.bind_some, ho]
    · rw [he, ho, Option.map_some]

/-- The names of entries are those of the slots of their objects. -/
theorem filenames_eq {ids : List EntryId} {ns : List (Fin limit)}
    (h : ids.map c.get? = ns.map fun n => (m n).map (Entry.ofObject c.id n))
    (hns : ∀ n ∈ ns, m n ≠ none) :
    c.filenames ids = ns.map fun n : Fin limit => Slot.name n := by
  have hname : ∀ n ∈ ns, ((m n).map (Entry.ofObject c.id n)).map (·.filename) =
      some (Slot.name n) := by
    intro n hn
    obtain ⟨o, ho⟩ := Option.ne_none_iff_exists'.mp (hns n hn)
    rw [ho]
    rfl
  calc c.filenames ids
      = (ids.map c.get?).filterMap (Option.map (·.filename)) := by
        rw [List.filterMap_map]
        rfl
    _ = ns.filterMap fun n => ((m n).map (Entry.ofObject c.id n)).map (·.filename) := by
        rw [h, List.filterMap_map]
        rfl
    _ = ns.map fun n : Fin limit => Slot.name n := by
        rw [List.filterMap_congr hname, ← List.filterMap_eq_map]
        rfl

end Shows

end Cache

/-! ### Visits -/

/-- A session does its work on a cache that shows the map. If it leaves the cache settled, it
answers what the work answers and leaves the directory as the work does, since closing a settled
cache does nothing to the directory (`Settled.close`). -/
theorem Session.withCache_rule {limit : UInt64} {disk : Disk} {folder : Location}
    {m : SlotMap limit.toNat} {s : Session} (h : disk.Represents folder m)
    (hleads : disk.Leads s.directory folder) (hlimit : s.settings.capacityHint = limit.toNat)
    {x : Action (Cache ObjectStore) Bytes} {Q : Except CacheError Bytes → Disk → Prop}
    (hx : ∀ c : Cache ObjectStore, c.Shows folder m → disk.AltersFolders c.backend.disk →
      (x c).state.Settled ∧ Q (x c).result (x c).state.backend.disk) :
    Q (s.withCache x disk).result (s.withCache x disk).state := by
  obtain ⟨store, hopen, hmirrors⟩ := ObjectStore.exists_openAt_of_represents h hleads
  rw [← hlimit] at hopen
  have hshows := Cache.shows_openOver hmirrors ⟨1⟩ s.settings.capacityHint
  obtain ⟨-, hbackend, -⟩ := Cache.openOver_store ⟨1⟩ store s.settings.capacityHint
  have hfolders := ObjectStore.altersFolders_of_openAt hopen
  have hcache : (Cache.openAt ⟨1⟩ s.directory s.settings.capacityHint disk).result = _ :=
    Cache.openAt_eq_ok_iff.mpr ⟨store, hopen, rfl⟩
  generalize (Cache.openOver ⟨1⟩ store s.settings.capacityHint).state = c at *
  obtain ⟨hsettled, hq⟩ := hx c hshows (hbackend ▸ hfolders)
  obtain ⟨hclose, hleft⟩ := hsettled.close
  obtain ⟨hr, hs⟩ := Action.andFinally_of_ok hclose
  rw [← hleft, ← hs, ← hr] at hq
  rw [Session.withCache, Action.bind_apply, Action.log_apply]
  dsimp only
  rw [Action.bind_apply, hcache]
  exact hq

end BlobCache
