import BlobCache.Proofs.Cache.Bodies
import BlobCache.Proofs.Cache.Lookup

/-!
# Adding an object

Adding an object uses two kinds of names again as soon as they are free: the identifiers of the
arena, of which the cell freed last comes first, and the file names of the directory, of which the
lowest comes first. Entries that left the list keep both for as long as someone holds them, and
stale identifiers and the names of deleted files stay about. `Cache.Adds` says that a new entry
collides with none of them: its identifier led nowhere, its file was neither listed nor on the disk,
and all other entries stay as they are. Lookups find it behind the others, under the first value of
each of its keys, and its body is what was added.

`adds_of_add` has this for every run of a cache over an object directory.
-/

namespace BlobCache.Cache

/-- What adding an object makes of a cache, if it works. -/
structure Adds (c : Cache ObjectStore) (labels : Labels) (data : Bytes) (new : EntryId)
    (c' : Cache ObjectStore) : Prop where
  /-- The identifier of the new entry led nowhere. -/
  fresh : c.get? new = none
  /-- The new entry is listed behind the others. -/
  members_eq : c'.members = c.members ++ [new]
  /-- It has two references, no marks and no body, and a file that is new to the entries, to the
  directory and to the disk. -/
  entry : ∃ filename,
    c'.get? new = some
      { filename, labels, references := .two, retired := false, eager := false, owner := some c.id,
        idleSince := none, mapping := none } ∧
    (∀ id ∈ c.members, ∀ e, c.get? id = some e → e.filename ≠ filename) ∧
    filename ∉ c.backend.dir.filenames ∧
    c.backend.disk.stat (c.backend.dir.path.join filename) = .error .notFound
  /-- All other entries stay as they are, listed or not. -/
  others : ∀ id, id ≠ new → c'.get? id = c.get? id
  /-- A lookup finds the new entry behind the others if the first value under the key is the one
  that is looked for. -/
  findAll_eq : ∀ key value, c'.findAll (some key) value =
    c.findAll (some key) value ++ if labels.value? key = some value then [new] else []
  /-- The body is what was added. -/
  body_eq : (body new c').result = .ok data
  /-- The cache is otherwise the same. -/
  state_eq : c' = { c with arena := c'.arena, members := c'.members, backend := c'.backend }

variable {c : Cache ObjectStore} {chronicle : Chronicle} {folder : Location} {ledger : Ledger}

/-- Nothing but the arena, the list and the backend changes when an object is added. -/
private theorem add_state {β : Type} [Backend β] (labels : Labels) (data : Bytes) (c : Cache β) :
    (add labels data c).state =
      { c with
        arena := (add labels data c).state.arena
        members := (add labels data c).state.members
        backend := (add labels data c).state.backend } := by
  obtain ⟨error, -, -, hs⟩ | ⟨filename, -, -, hs⟩ := add_cases labels data c
  · rw [hs]
    rfl
  · rw [hs]
    rfl

/-- A filed cache adds objects without a collision. The identifier is new because the free list
names vacant cells only, and the file is because the directory takes a slot in which there is
nothing (`Sound.add_effect`, `Filed.ne_of_freeSlot`). -/
theorem Filed.adds (h : c.Filed chronicle folder) (hs : c.Sound ledger []) {labels : Labels}
    {data : Bytes} {new : EntryId} (hr : (Cache.add labels data c).result = .ok new) :
    c.Adds labels data new (Cache.add labels data c).state := by
  obtain ⟨error, herror, -⟩ |
    ⟨n, disk, id, hid, hfresh, hmembers, hget, hbackend, hstored⟩ :=
    hs.add_effect h.inStep labels data
  · exact absurd (herror.symm.trans hr) nofun
  obtain rfl := Except.ok.inj (hid.symm.trans hr)
  obtain ⟨hslot, -, hnode⟩ := h.inStep.freeSlot hstored.freeSlot
  have hself := hget id
  rw [if_pos rfl] at hself
  have hstate := add_state labels data c
  constructor
  case fresh => exact hfresh
  case members_eq => exact hmembers
  case entry =>
    refine ⟨Slot.name n, hself, fun other hother e he hname => ?_, fun hlisted => ?_, ?_⟩
    · obtain ⟨hne, -⟩ := h.ne_of_freeSlot hother he hstored.freeSlot
      exact hne (congrArg (fun name => folder ++ [name]) hname)
    · obtain ⟨m, hm, hname⟩ := List.mem_map.mp hlisted
      exact hslot (Slot.name_injective hname ▸ hm)
    · exact Disk.stat_of_find_none (h.inStep.find_slotPath n) hnode
  case others =>
    intro other hne
    rw [hget, if_neg hne]
  case findAll_eq => exact findAll_of_enlisted hs hfresh hmembers hget rfl
  case body_eq =>
    have hload : (Backend.loadBody (Slot.name n) (Cache.add labels data c).state.backend).result =
        .ok data := by
      rw [ObjectStore.loadBody_apply, hbackend]
      exact ObjectStore.InStep.body_of_object (h.inStep.object_filled hstored)
    have howner : (c.stored (Slot.name n) labels).owner =
        some (Cache.add labels data c).state.id := by
      rw [hstate]
      rfl
    exact (body_of_loadBody hself rfl howner hload).1
  case state_eq => exact hstate

/-- **Adding.** In every run of a cache over an object directory, an object that is added gets an
identifier that led nowhere and a file that was not there, and nobody else notices; lookups find it
behind the others, with the body that was given. The cache that opens is filed (`filed_openOver`)
and every call keeps it so (`Filed.after`), and in a filed cache there is nothing for a new entry to
collide with (`Filed.adds`). -/
theorem adds_of_add {id : CacheId} {path : Path} {hint : UInt64} {disk : Disk}
    {c : Cache ObjectStore} (hopen : (openAt id path hint.toNat disk).result = .ok c)
    (calls : List Call) {labels : Labels} {data : Bytes} {new : EntryId}
    (hadd : (add labels data (c.after calls)).result = .ok new) :
    (c.after calls).Adds labels data new (add labels data (c.after calls)).state := by
  obtain ⟨s, hstore, rfl⟩ := openAt_eq_ok_iff.mp hopen
  obtain ⟨-, folder, hin⟩ := ObjectStore.inStep_openAt (Slot.toNat_le_bound hint) hstore
  have hs := sound_openOver (openOver_store id s hint.toNat).1
  exact ((filed_openOver hin _ _).after hs calls).adds (hs.after calls) hadd

/-- An object is deleted under its holder, and another one with its entry. -/
def vacating : List Call :=
  [.acquire ⟨0, 0⟩, .body ⟨0, 0⟩, .retire ⟨0, 0⟩, .purge true, .add ⟨[("k", "v")]⟩ [9],
    .release .epoch ⟨1, 0⟩, .retire ⟨1, 0⟩, .purge false]

/-- The next object has the cell of the one and the file name of both. -/
theorem adds_of_add_vacating :
    ∃ c, (openAt ⟨1⟩ ⟨"/o"⟩ (2 : UInt64).toNat smallDisk).result = .ok c ∧
      (add ⟨[("k", "v"), ("k", "w")]⟩ [0, 4] (c.after vacating)).result = .ok ⟨1, 1⟩ ∧
      ((c.after vacating).get? ⟨0, 0⟩).map (·.filename) = some "0" ∧
      (c.after vacating).Adds ⟨[("k", "v"), ("k", "w")]⟩ [0, 4] ⟨1, 1⟩
        (add ⟨[("k", "v"), ("k", "w")]⟩ [0, 4] (c.after vacating)).state := by
  obtain ⟨c, hopen, hadd, hname⟩ :
      ∃ c, (openAt ⟨1⟩ ⟨"/o"⟩ (2 : UInt64).toNat smallDisk).result = .ok c ∧
        (add ⟨[("k", "v"), ("k", "w")]⟩ [0, 4] (c.after vacating)).result = .ok ⟨1, 1⟩ ∧
        ((c.after vacating).get? ⟨0, 0⟩).map (·.filename) = some "0" :=
    ⟨_, rfl, rfl, rfl⟩
  exact ⟨c, hopen, hadd, hname, adds_of_add hopen vacating hadd⟩

end BlobCache.Cache
