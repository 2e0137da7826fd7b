import BlobCache.Proofs.Action
import BlobCache.Proofs.Disk.Making
import BlobCache.Proofs.ObjectDir.Store

/-!
# Opening a store

A store that opens is in step with its disk (`ObjectStore.inStep_openAt`): the slots that it knows
come from the names in the folder. A store opens wherever there is a folder already, and changes
nothing but the permissions of the folder then (`ObjectStore.openAt_of_hasFolder`). A store that
reads its folder again is in step, too (`ObjectStore.rescan_of_find`).

Opening makes the folder if it is missing, sets its permissions and reads the names in it. Only the
first two steps change the disk, and no file of it (`ObjectStore.altersFolders_of_openAt`); the last
one is `ObjectDir.scan`, and what it finds is said by `ObjectDir.scan_of_readFolder`.
-/

namespace BlobCache

namespace Disk

variable {d : Disk} {p : Path} {loc : Location}

private theorem setMode_of_find (h : d.find p = .ok loc) (hfolder : d.HasFolder loc) (mode : Nat) :
    d.setMode p mode = .ok (d.put loc (.folder mode)) := by
  obtain ⟨old, hold⟩ := hfolder
  rw [setMode, h]
  simp only [bind, Except.bind, hold]
  rfl

end Disk

namespace ObjectDir

/-- The slots of a folder in terms of its names. -/
theorem scan_of_readFolder {disk : Disk} {path : Path} {names : List String}
    (h : disk.readFolder path = .ok names) :
    scan disk path = .ok (SlotSet.ofList (names.filterMap Slot.ofName?)) := by
  rw [scan, h]

/-- A slot is found exactly if its name is among the names. -/
theorem mem_ofList_filterMap {names : List String} {n : Nat} :
    n ∈ SlotSet.ofList (names.filterMap Slot.ofName?) ↔ Slot.name n ∈ names ∧ n < Slot.bound := by
  rw [SlotSet.mem_ofList, List.mem_filterMap]
  constructor
  · rintro ⟨name, hname, hn⟩
    obtain ⟨rfl, hlt⟩ := Slot.ofName?_eq_some_iff.mp hn
    exact ⟨hname, hlt⟩
  · rintro ⟨hname, hlt⟩
    exact ⟨Slot.name n, hname, Slot.ofName?_eq_some_iff.mpr ⟨rfl, hlt⟩⟩

/-- The slots of a folder are those whose names are in it. -/
private theorem mem_of_scan {disk : Disk} {path : Path} {slots : SlotSet} {folder : Location}
    (hp : disk.find path = .ok folder) (hfolder : disk.HasFolder folder)
    (h : scan disk path = .ok slots) (n : Nat) :
    n ∈ slots ↔ n < Slot.bound ∧ disk.node? (folder ++ [Slot.name n]) ≠ none := by
  rw [scan_of_readFolder (Disk.readFolder_of_find hp hfolder)] at h
  cases h
  rw [mem_ofList_filterMap, Disk.mem_childNames, and_comm]

/-- A folder can be read for slots. -/
private theorem exists_scan {disk : Disk} {path : Path} {folder : Location}
    (hp : disk.find path = .ok folder) (hfolder : disk.HasFolder folder) :
    ∃ slots, scan disk path = .ok slots :=
  ⟨_, scan_of_readFolder (Disk.readFolder_of_find hp hfolder)⟩

variable {path : Path} {limit : Nat} {disk disk' : Disk}

/-- A directory opens if its folder is there or can be made, and can be closed to others and
read. -/
private theorem openAt_of_scan {made : Disk} {mode : Nat} {slots : SlotSet} (limit : Nat)
    (hmade : disk.makeFolders path = (made, .ok ())) (hmode : made.setMode path 0o700 = .ok disk')
    (hstat : disk'.stat path = .ok (.folder mode)) (hscan : scan disk' path = .ok slots) :
    (openAt path limit disk).result = .ok { path, limit, slots } ∧
      (openAt path limit disk).state = disk' := by
  rw [openAt, Action.bind_apply, Action.get_apply]
  dsimp only
  rw [hmade]
  dsimp only
  rw [Action.bind_apply, Action.set_apply]
  dsimp only
  rw [Action.bind_apply, Action.ofExcept_apply]
  dsimp only [Except.mapError]
  rw [Action.bind_apply, Action.ofExcept_apply, hmode]
  dsimp only [Except.mapError]
  rw [Action.bind_apply, Action.set_apply]
  dsimp only
  rw [Action.bind_apply, Action.ofExcept_apply, hstat]
  dsimp only [Except.mapError]
  rw [Action.bind_apply, Action.ofExcept_apply, hscan]
  exact ⟨rfl, rfl⟩

/-- A directory that opened has its slots from the folder on the disk that it leaves. -/
private theorem scan_of_openAt {dir : ObjectDir} (h : (openAt path limit disk).result = .ok dir) :
    dir.path = path ∧ dir.limit = limit ∧
      (∃ mode, (openAt path limit disk).state.stat path = .ok (.folder mode)) ∧
      scan (openAt path limit disk).state path = .ok dir.slots := by
  -- step by step; a step that fails ends in an error, which `h` excludes
  rw [openAt, Action.bind_apply, Action.get_apply] at h ⊢
  dsimp only at h ⊢
  rw [Action.bind_apply, Action.set_apply] at h ⊢
  dsimp only at h ⊢
  obtain ⟨_, -, h, hstate⟩ := Action.exists_of_ofExcept_bind h
  rw [hstate]
  obtain ⟨closed, -, h, hstate⟩ := Action.exists_of_ofExcept_bind h
  rw [hstate]
  rw [Action.bind_apply, Action.set_apply] at h ⊢
  dsimp only at h ⊢
  obtain ⟨node, hstat, h, hstate⟩ := Action.exists_of_ofExcept_bind h
  rw [hstate]
  cases node with
  | file data => cases h
  | folder mode =>
    obtain ⟨slots, hscan, h, hstate⟩ := Action.exists_of_ofExcept_bind h
    rw [hstate]
    cases h
    exact ⟨rfl, rfl, ⟨mode, mapError_eq_ok_iff.mp hstat⟩, hscan⟩

/-- Opening a directory touches no file, whether it succeeds or not. -/
theorem altersFolders_openAt (path : Path) (limit : Nat) (disk : Disk) :
    disk.AltersFolders (openAt path limit disk).state := by
  have hmade := disk.altersFolders_makeFolders path
  rw [openAt, Action.bind_apply, Action.get_apply]
  dsimp only
  generalize disk.makeFolders path = folders at hmade ⊢
  obtain ⟨made, result⟩ := folders
  dsimp only at hmade ⊢
  rw [Action.bind_apply, Action.set_apply]
  dsimp only
  rw [Action.bind_apply, Action.ofExcept_apply]
  cases result with
  | error e => exact hmade
  | ok _ =>
    dsimp only [Except.mapError]
    rw [Action.bind_apply, Action.ofExcept_apply]
    cases hmode : made.setMode path 0o700 with
    | error e => exact hmade
    | ok disk' =>
      -- what is left only looks at the disk
      have hset := hmade.trans (Disk.altersFolders_setMode hmode)
      dsimp only [Except.mapError]
      rw [Action.bind_apply, Action.set_apply]
      dsimp only
      rw [Action.bind_apply, Action.ofExcept_apply]
      cases disk'.stat path with
      | error e => exact hset
      | ok node =>
        cases node with
        | file data => exact hset
        | folder mode =>
          dsimp only [Except.mapError]
          rw [Action.bind_apply, Action.ofExcept_apply]
          cases scan disk' path with
          | error e => exact hset
          | ok slots => exact hset

end ObjectDir

namespace ObjectStore

variable {path : Path} {limit : Nat} {disk : Disk}

/-- A store that opens is in step: it has read the folder after the folder was made, and reading
changes nothing (`scan_of_openAt`). -/
theorem inStep_openAt {s : ObjectStore} (hlimit : limit ≤ Slot.bound)
    (h : (openAt path limit disk).result = .ok s) :
    s.dir.path = path ∧ ∃ folder, s.InStep folder := by
  obtain ⟨dir, hdir, hs⟩ := Action.result_bind_eq_ok_iff.mp h
  cases hs
  obtain ⟨rfl, rfl, ⟨mode, hstat⟩, hscan⟩ := ObjectDir.scan_of_openAt hdir
  -- how the disk came about does not matter from here on
  generalize (ObjectDir.openAt dir.path dir.limit disk).state = opened at hstat hscan ⊢
  obtain ⟨folder, hfind, hnode⟩ := Disk.find_of_stat hstat
  have hfolder : opened.HasFolder folder := ⟨mode, hnode⟩
  exact ⟨rfl, folder, hfind, hfolder, ObjectDir.mem_of_scan hfind hfolder hscan, hlimit⟩

/-- A store that opens has touched no file. -/
theorem altersFolders_of_openAt {s : ObjectStore} (h : (openAt path limit disk).result = .ok s) :
    disk.AltersFolders s.disk := by
  obtain ⟨dir, hdir, hs⟩ := Action.result_bind_eq_ok_iff.mp h
  cases hs
  exact ObjectDir.altersFolders_openAt path limit disk

/-- A store that opens has the limit that was asked for. -/
theorem limit_of_openAt {s : ObjectStore} (h : (openAt path limit disk).result = .ok s) :
    s.dir.limit = limit := by
  obtain ⟨dir, hdir, hs⟩ := Action.result_bind_eq_ok_iff.mp h
  cases hs
  exact (ObjectDir.scan_of_openAt hdir).2.1

/-- A store opens where its folder can be made, and sets the permissions of the folder then. -/
theorem openAt_of_makeFolders {made : Disk} {folder : Location}
    (hmade : disk.makeFolders path = (made, .ok ())) (hfind : made.find path = .ok folder)
    (hfolder : made.HasFolder folder) (hlimit : limit ≤ Slot.bound) :
    ∃ s, (openAt path limit disk).result = .ok s ∧ s.dir.path = path ∧ s.InStep folder ∧
      s.disk = made.put folder (.folder 0o700) := by
  have hkeeps : made.KeepsFolders (made.put folder (.folder 0o700)) := .put_folder ..
  have hfind' := hkeeps.find hfind
  have hnode : (made.put folder (.folder 0o700)).node? folder = some (.folder 0o700) := by simp
  have hstat := Disk.stat_of_find hfind' hnode
  obtain ⟨slots, hscan⟩ := ObjectDir.exists_scan hfind' ⟨_, hnode⟩
  obtain ⟨hr, hs⟩ := ObjectDir.openAt_of_scan limit hmade
    (Disk.setMode_of_find hfind hfolder _) hstat hscan
  have hopen : (openAt path limit disk).result =
      .ok { dir := { path, limit, slots }, disk := made.put folder (.folder 0o700) } := by
    rw [openAt, (Action.bind_of_ok hr _).1, hs]
    rfl
  obtain ⟨hpath, folder', hin⟩ := inStep_openAt hlimit hopen
  obtain rfl : folder = folder' := Except.ok.inj (hfind'.symm.trans hin.find_path)
  exact ⟨_, hopen, hpath, hin, rfl⟩

/-- A store opens on a folder that is there, and changes nothing but its permissions. -/
theorem openAt_of_hasFolder {folder : Location} (hfind : disk.find path = .ok folder)
    (hfolder : disk.HasFolder folder) (hlimit : limit ≤ Slot.bound) :
    ∃ s, (openAt path limit disk).result = .ok s ∧ s.dir.path = path ∧ s.InStep folder ∧
      s.disk = disk.put folder (.folder 0o700) :=
  openAt_of_makeFolders (Disk.makeFolders_of_hasFolder hfind hfolder) hfind hfolder hlimit

/-- A store that reads its directory again knows what a scan finds, and nothing else changes. -/
theorem rescan_of_scan {s : ObjectStore} {slots : SlotSet}
    (h : ObjectDir.scan s.disk s.dir.path = .ok slots) :
    (rescan s).result = .ok () ∧ (rescan s).state = { s with dir := { s.dir with slots } } := by
  rw [rescan, Action.bind_apply, Action.get_apply]
  dsimp only
  rw [Action.bind_apply, Action.ofExcept_apply, h]
  exact ⟨rfl, rfl⟩

/-- A store whose directory is a folder of the disk reads it again and is in step. -/
theorem rescan_of_find {s : ObjectStore} {folder : Location}
    (hfind : s.disk.find s.dir.path = .ok folder) (hfolder : s.disk.HasFolder folder)
    (hlimit : s.dir.limit ≤ Slot.bound) :
    ∃ slots, (rescan s).result = .ok () ∧
      (rescan s).state = { s with dir := { s.dir with slots } } ∧
      InStep { s with dir := { s.dir with slots } } folder := by
  obtain ⟨slots, hscan⟩ := ObjectDir.exists_scan hfind hfolder
  obtain ⟨hr, hs⟩ := rescan_of_scan hscan
  exact ⟨slots, hr, hs, hfind, hfolder, ObjectDir.mem_of_scan hfind hfolder hscan, hlimit⟩

/-- A store that is in step finds nothing new in its directory. -/
theorem InStep.rescan {s : ObjectStore} {folder : Location} (h : s.InStep folder) :
    (rescan s).result = .ok () ∧ (rescan s).state = s := by
  obtain ⟨slots, hr, hs, hin⟩ := rescan_of_find h.find_path h.hasFolder h.limit_le
  have hslots : slots = s.dir.slots := SlotSet.ext_of_mem fun n =>
    (hin.mem_slots_iff n).trans (h.mem_slots_iff n).symm
  rw [hslots] at hs
  exact ⟨hr, hs⟩

end ObjectStore

end BlobCache
