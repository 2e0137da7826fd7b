import BlobCache.Proofs.Cache.Filing

/-!
# What a cache finds in its directory

A cache that opens over an object directory lists one entry for every object that the directory has
and that can be read, by ascending slot (`openOver_store`). The directory and the disk stay as they
are. So a cache that opens is filed, with the bodies on record that are in the files
(`filed_openOver`).

The entries are enrolled one by one, and enrolling an entry changes no other; what is there in the
end is therefore the list of the objects that were found (`found?_of_mem_openOver`). A cache opens
over a path if and only if the directory does (`openAt_eq_ok_iff`), which is how runs of a cache are
traced back to a store that is in step with its disk.
-/

namespace BlobCache

/-- No two objects of a directory have one name. -/
theorem ObjectDir.nodup_filenames (dir : ObjectDir) : dir.filenames.Nodup :=
  dir.slots.ascending.map Slot.name fun _ _ hlt heq =>
    Nat.ne_of_lt hlt (Slot.name_injective heq)

/-- The body of an object is what its file has after the first zero byte. -/
private theorem ObjectStore.InStep.bodyInFile?_of_object {s : ObjectStore} {folder : Location}
    (h : s.InStep folder) {filename : String} {o : StoredObject}
    (ho : s.object filename = .ok o) : s.bodyInFile? filename = some o.body := by
  obtain ⟨n, file, header, rfl, -, hnode, hcut, -⟩ := h.object_eq_ok_iff.mp ho
  have hread : s.disk.readFile (s.dir.path.join (Slot.name n)) = .ok file :=
    Disk.readFile_of_find (h.find_slotPath n) hnode
  rw [bodyInFile?, hread]
  dsimp only
  rw [hcut, Option.map_some]

namespace Cache

/-- The entry that a cache makes for what is under a name, if that is an object. -/
def found? (id : CacheId) (s : ObjectStore) (filename : String) : Option Entry :=
  (s.object filename).toOption.map fun o =>
    { filename, labels := o.labels, references := .one, owner := some id }

theorem found?_eq_some_iff {id : CacheId} {s : ObjectStore} {filename : String} {e : Entry} :
    found? id s filename = some e ↔ ∃ o, s.object filename = .ok o ∧
      e = { filename, labels := o.labels, references := .one, owner := some id } := by
  rw [found?]
  cases s.object filename with
  | error error => exact ⟨nofun, nofun⟩
  | ok o =>
    constructor
    · rintro ⟨⟩
      exact ⟨o, rfl, rfl⟩
    · rintro ⟨_, ⟨⟩, rfl⟩
      rfl

/-- A new entry comes behind the others. -/
private theorem map_get?_enlisted {β : Type} {c : Cache β} {ledger : Ledger} (h : c.Sound ledger [])
    (b : β) (e : Entry) :
    ((c.withBackend b).enlisted e).members.map ((c.withBackend b).enlisted e).get? =
      c.members.map c.get? ++ [some e] := by
  have hget := get?_withBackend_enlisted h.arena b e
  -- the identifier of the new entry is none of the listed ones
  have hold : c.members.map ((c.withBackend b).enlisted e).get? = c.members.map c.get? := by
    refine List.map_congr_left fun id hid => ?_
    obtain ⟨e', he', -, -⟩ := h.exists_of_listed hid
    have hne : id ≠ (c.arena.insert e).1 := by
      rintro rfl
      exact absurd (he'.symm.trans (h.arena.get?_fst_insert e)) nofun
    rw [hget, if_neg hne]
  have hnew : ((c.withBackend b).enlisted e).get? (c.arena.insert e).1 = some e := by
    rw [hget, if_pos rfl]
  have hmembers : ((c.withBackend b).enlisted e).members =
      c.members ++ [(c.arena.insert e).1] := rfl
  rw [hmembers, List.map_append, hold, List.map_singleton, hnew]

/-- A cache over an object directory opens. It lists what it finds, by ascending slot. -/
theorem openOver_store (id : CacheId) (s : ObjectStore) (hint : Nat) :
    (openOver id s hint).result = .ok () ∧
      (openOver id s hint).state.backend = s ∧
      (openOver id s hint).state.members.map (openOver id s hint).state.get? =
        (s.dir.filenames.filterMap (found? id s)).map some := by
  have hlist : (Backend.list (fresh id s hint).backend).result = .ok s.dir.filenames := rfl
  obtain ⟨hr, hstate⟩ := populate_of_list (c := fresh id s hint) hlist
  have hopen : (openOver id s hint).result = .ok () ∧
      (openOver id s hint).state = (populate (fresh id s hint)).state := Action.onFailure_of_ok hr
  -- what is listed and what is still to be found make up what there is to find
  obtain ⟨-, -, hb, -, hall⟩ :=
    Action.forM_rule enroll (P := fun names (c : Cache ObjectStore) =>
        c.Sound Ledger.blank [] ∧ c.backend = s ∧ c.id = id ∧
          c.members.map c.get? ++ (names.filterMap (found? id s)).map some =
            (s.dir.filenames.filterMap (found? id s)).map some)
      (fun name names c ⟨hs, hb, hid, hall⟩ => by
        have hs' := hs.enroll name
        obtain ⟨hdone, ⟨error, hload, hc⟩ | ⟨o, hload, hc⟩⟩ := enroll_cases name c
        · rw [ObjectStore.load_apply, hb] at hload
          have hobject : s.object name = .error error := hload
          have hnone : found? id s name = none := by rw [found?, hobject]; rfl
          have hsame : (enroll name c).state = c := by rw [hc, ObjectStore.load_apply]; rfl
          rw [List.filterMap_cons_none hnone] at hall
          rw [hsame]
          exact ⟨hdone, hs, hb, hid, hall⟩
        · rw [ObjectStore.load_apply, hb] at hload
          have hsome : found? id s name = some (c.loaded name o.labels) :=
            found?_eq_some_iff.mpr ⟨o, hload, by rw [loaded, hid]⟩
          have hmap := map_get?_enlisted hs (Backend.load name c.backend).state
            (c.loaded name o.labels)
          rw [← hc] at hmap
          rw [List.filterMap_cons_some hsome, List.map_cons, List.append_cons, ← hmap] at hall
          refine ⟨hdone, hs', ?_, ?_, hall⟩
          · rw [hc, ObjectStore.load_apply]
            exact hb
          · rw [hc]
            exact hid)
      s.dir.filenames (s := fresh id s hint) ⟨Sound.fresh id s hint, rfl, rfl, rfl⟩
  rw [List.filterMap_nil, List.map_nil, List.append_nil] at hall
  rw [hopen.2, hstate]
  exact ⟨hopen.1, hb, hall⟩

section OpenOver

variable {id : CacheId} {s : ObjectStore} {hint : Nat}

/-- The listed entries of a cache that just opened are those that it found. -/
theorem found?_of_mem_openOver {member : EntryId} {e : Entry}
    (hm : member ∈ (openOver id s hint).state.members)
    (he : (openOver id s hint).state.get? member = some e) :
    ∃ name ∈ s.dir.filenames, found? id s name = some e := by
  obtain ⟨-, -, hall⟩ := openOver_store id s hint
  have hmem : some e ∈ (s.dir.filenames.filterMap (found? id s)).map some :=
    hall ▸ he ▸ List.mem_map_of_mem hm
  obtain ⟨_, hfound, ⟨⟩⟩ := List.mem_map.mp hmem
  exact List.mem_filterMap.mp hfound

/-- A cache that just opened has no entries besides those that it lists. -/
private theorem mem_openOver_of_get? {member : EntryId} {e : Entry}
    (he : (openOver id s hint).state.get? member = some e) :
    member ∈ (openOver id s hint).state.members := by
  obtain ⟨hok, -, -⟩ := openOver_store id s hint
  obtain hm | hshare := ((sound_openOver hok).exists_iff member).mp ⟨e, he⟩
  · exact hm
  · cases hshare

/-- The names of the listed entries are those under which there is an object, by ascending slot. -/
theorem filenames_openOver :
    (openOver id s hint).state.filenames (openOver id s hint).state.members =
      s.dir.filenames.filter (s.object · |>.isOk) := by
  obtain ⟨-, -, hall⟩ := openOver_store id s hint
  have hname : (fun name => (found? id s name).map (·.filename)) =
      Option.guard (s.object · |>.isOk) := by
    funext name
    rw [found?]
    cases hobject : s.object name <;> simp [Option.guard, hobject] <;> rfl
  -- the names of what is listed, of what was found, of what is there
  calc (openOver id s hint).state.filenames (openOver id s hint).state.members
      = ((openOver id s hint).state.members.map (openOver id s hint).state.get?).filterMap
          (Option.map (·.filename)) := by
        rw [List.filterMap_map]
        rfl
    _ = (s.dir.filenames.filterMap (found? id s)).map (·.filename) := by
        rw [hall, List.filterMap_map, ← List.filterMap_eq_map]
        rfl
    _ = s.dir.filenames.filter (s.object · |>.isOk) := by
        rw [List.map_filterMap, hname, List.filterMap_eq_filter]

end OpenOver

/-- A cache that just opened is filed, with the bodies on record that are in the files. The entries
are those of `openOver_store`, one for each object, and nothing is mapped yet. -/
theorem filed_openOver {s : ObjectStore} {folder : Location} (h : s.InStep folder) (id : CacheId)
    (hint : Nat) :
    (openOver id s hint).state.Filed (Chronicle.opening (openOver id s hint).state) folder := by
  obtain ⟨hok, hb, -⟩ := openOver_store id s hint
  constructor
  case inStep =>
    rw [hb]
    exact h
  case nodup =>
    rw [filenames_openOver]
    exact s.dir.nodup_filenames.sublist List.filter_sublist
  case stored =>
    intro member hm e he
    obtain ⟨name, -, hfound⟩ := found?_of_mem_openOver hm he
    obtain ⟨o, ho, rfl⟩ := found?_eq_some_iff.mp hfound
    rw [Chronicle.opening, he, hb, Option.bind_some, h.bodyInFile?_of_object ho]
    exact ho
  case mapped =>
    intro member e data he hdata
    obtain ⟨name, -, hfound⟩ := found?_of_mem_openOver (mem_openOver_of_get? he) he
    obtain ⟨o, -, rfl⟩ := found?_eq_some_iff.mp hfound
    cases hdata
  case parted =>
    intro member e he hm
    exact absurd (mem_openOver_of_get? he) hm

/-- A cache opens over a directory if the directory opens. -/
theorem openAt_eq_ok_iff {id : CacheId} {path : Path} {hint : Nat} {disk : Disk}
    {c : Cache ObjectStore} :
    (openAt id path hint disk).result = .ok c ↔
      ∃ s, (ObjectStore.openAt path hint disk).result = .ok s ∧
        c = (openOver id s hint).state := by
  refine Iff.trans (Action.result_bind_eq_ok_iff (x := ObjectStore.openAt path hint)) ?_
  refine exists_congr fun s => and_congr_right fun _ => ?_
  obtain ⟨hok, -, -⟩ := openOver_store id s hint
  dsimp only
  rw [hok]
  exact ⟨fun h => (Except.ok.inj h).symm, fun h => congrArg Except.ok h.symm⟩

end Cache

end BlobCache
