import BlobCache.Disk.Operation
import BlobCache.Proofs.Disk.Folder

/-!
# Operations on files by location

What an operation on a file does is decided by the node at the location that its path leads to.
The lemmas here say it for every operation that an object directory uses. `Disk.perform_placement`
puts them together for a file that is prepared under another name: afterwards it is in its place
with all its contents, the other name is free, and nothing else has changed.
-/

namespace BlobCache.Disk

variable {d : Disk} {p q : Path} {loc goal : Location}

/-! ### Single operations -/

theorem not_hasFolder_of_file {data : Bytes} (h : d.node? loc = some (.file data)) :
    ¬d.HasFolder loc := by
  rintro ⟨mode, hmode⟩
  rw [h] at hmode
  cases hmode

theorem not_hasFolder_of_none (h : d.node? loc = none) : ¬d.HasFolder loc := by
  rintro ⟨mode, hmode⟩
  rw [h] at hmode
  cases hmode

theorem stat_of_find (h : d.find p = .ok loc) {node : Node} (hn : d.node? loc = some node) :
    d.stat p = .ok node := by
  rw [stat, h]
  simp only [bind, Except.bind, hn]
  rfl

theorem stat_of_find_none (h : d.find p = .ok loc) (hn : d.node? loc = none) :
    d.stat p = .error .notFound := by
  rw [stat, h]
  simp only [bind, Except.bind, hn]

theorem find_of_stat {node : Node} (h : d.stat p = .ok node) :
    ∃ loc, d.find p = .ok loc ∧ d.node? loc = some node := by
  obtain ⟨loc, hp, hnode⟩ := bind_eq_ok_iff.mp h
  cases hn : d.node? loc with
  | none => simp [hn] at hnode
  | some other =>
    simp only [hn] at hnode
    exact ⟨loc, hp, hn.trans (congrArg some (Except.ok.inj hnode))⟩

theorem readFile_of_find (h : d.find p = .ok loc) {data : Bytes}
    (hn : d.node? loc = some (.file data)) : d.readFile p = .ok data := by
  rw [readFile, stat_of_find h hn]
  rfl

/-- A file that can be read is one. -/
theorem find_of_readFile {data : Bytes} (h : d.readFile p = .ok data) :
    ∃ loc, d.find p = .ok loc ∧ d.node? loc = some (.file data) := by
  obtain ⟨node, hstat, hdata⟩ := bind_eq_ok_iff.mp h
  obtain ⟨loc, hfind, hn⟩ := find_of_stat hstat
  cases node with
  | file old => exact ⟨loc, hfind, by rw [hn, Except.ok.inj hdata]⟩
  | folder mode => cases hdata

/-- A file is read as before when folders are made. -/
theorem AltersFolders.readFile_eq_ok {d' : Disk} (h : d.AltersFolders d') {data : Bytes}
    (hread : d.readFile p = .ok data) : d'.readFile p = .ok data := by
  obtain ⟨loc, hfind, hn⟩ := find_of_readFile hread
  exact readFile_of_find (h.keepsFolders.find hfind) (h.file_iff.mpr hn)

theorem createFile_of_find (h : d.find p = .ok loc) (hn : ¬d.HasFolder loc) :
    d.createFile p = .ok (d.put loc (.file [])) := by
  rw [createFile, h]
  simp only [bind, Except.bind]
  cases hnode : d.node? loc with
  | none => rfl
  | some node =>
    cases node with
    | file data => rfl
    | folder mode => exact absurd ⟨mode, hnode⟩ hn

theorem createFile_of_hasFolder (h : d.find p = .ok loc) (hn : d.HasFolder loc) :
    d.createFile p = .error .isDirectory := by
  obtain ⟨mode, hmode⟩ := hn
  rw [createFile, h]
  simp only [bind, Except.bind, hmode]

theorem appendFile_of_find (h : d.find p = .ok loc) {old : Bytes}
    (hn : d.node? loc = some (.file old)) (data : Bytes) :
    d.appendFile p data = .ok (d.put loc (.file (old ++ data))) := by
  rw [appendFile, h]
  simp only [bind, Except.bind, hn]
  rfl

/-- A file is written where no folder is, in place of a file that may be there. -/
theorem writeFile_of_find (h : d.find p = .ok loc) (hn : ¬d.HasFolder loc) (data : Bytes) :
    ∃ d', d.writeFile p data = .ok d' ∧ d.KeepsFolders d' ∧
      ∀ l, d'.node? l = if l = loc then some (.file data) else d.node? l := by
  let d₁ := d.put loc (.file [])
  have hn₁ : d₁.node? loc = some (.file []) := by simp [d₁]
  have hk₁ : d.KeepsFolders d₁ := .put hn _
  refine ⟨d₁.put loc (.file data), ?_, hk₁.trans (.put (not_hasFolder_of_file hn₁) _),
    fun l => ?_⟩
  · rw [writeFile, createFile_of_find h hn]
    exact appendFile_of_find (hk₁.find h) hn₁ data
  · by_cases hl : l = loc
    · simp [hl]
    · simp [hl, d₁]

/-- What a file can be written at leads to no folder. -/
theorem find_of_writeFile {d' : Disk} {data : Bytes} (h : d.writeFile p data = .ok d') :
    ∃ loc, d.find p = .ok loc ∧ ¬d.HasFolder loc := by
  obtain ⟨d₁, hcreate, -⟩ := bind_eq_ok_iff.mp h
  obtain ⟨loc, hfind, -⟩ := bind_eq_ok_iff.mp hcreate
  refine ⟨loc, hfind, fun hfolder => ?_⟩
  rw [createFile_of_hasFolder hfind hfolder] at hcreate
  cases hcreate

theorem renameFile_of_find (h : d.find p = .ok loc) (hg : d.find q = .ok goal) {node : Node}
    (hn : d.node? loc = some node) (hgoal : ¬d.HasFolder goal) :
    d.renameFile p q = .ok ((d.erase loc).put goal node) := by
  rw [renameFile, h]
  simp only [bind, Except.bind, hg, hn]
  cases hnode : d.node? goal with
  | none => rfl
  | some other =>
    cases other with
    | file data => rfl
    | folder mode => exact absurd ⟨mode, hnode⟩ hgoal

/-- A folder gives way to no file. -/
theorem renameFile_of_hasFolder (h : d.find p = .ok loc) (hg : d.find q = .ok goal)
    (hgoal : d.HasFolder goal) : ∃ e, d.renameFile p q = .error e := by
  obtain ⟨mode, hmode⟩ := hgoal
  rw [renameFile, h]
  simp only [bind, Except.bind, hg, hmode]
  cases d.node? loc with
  | none => exact ⟨_, rfl⟩
  | some node => exact ⟨_, rfl⟩

theorem removeFile_of_find (h : d.find p = .ok loc) {data : Bytes}
    (hn : d.node? loc = some (.file data)) : d.removeFile p = .ok (d.erase loc) := by
  rw [removeFile, h]
  simp only [bind, Except.bind, hn]
  rfl

theorem removeFile_of_find_none (h : d.find p = .ok loc) (hn : d.node? loc = none) :
    d.removeFile p = .error .notFound := by
  rw [removeFile, h]
  simp only [bind, Except.bind, hn]

theorem removeFile_of_hasFolder (h : d.find p = .ok loc) (hn : d.HasFolder loc) :
    d.removeFile p = .error .isDirectory := by
  obtain ⟨mode, hmode⟩ := hn
  rw [removeFile, h]
  simp only [bind, Except.bind, hmode]

/-! ### Sequences on a device that complies -/

theorem perform_cons_of_ok {op : FileOperation} {d' : Disk} (h : op.apply d = .ok d')
    (ops : List FileOperation) : d.perform (op :: ops) [] = d'.perform ops [] := by
  rw [perform]
  simp only [List.head?_nil, List.tail_nil, h]

theorem perform_cons_of_error {op : FileOperation} {e : IoError} (h : op.apply d = .error e)
    (ops : List FileOperation) : d.perform (op :: ops) [] = (d, .error e) := by
  rw [perform]
  simp only [List.head?_nil, h]

/-- A file is prepared under one name and then moved to another, in place of a file that may be
there. -/
theorem perform_placement (h : d.find p = .ok loc) (hg : d.find q = .ok goal)
    (hfolder : ¬d.HasFolder loc) (hgoal : ¬d.HasFolder goal) (hne : goal ≠ loc)
    (header data : Bytes) :
    ∃ d', d.perform [.create p, .append p header, .append p data, .sync p, .rename p q] [] =
        (d', .ok ()) ∧ d.KeepsFolders d' ∧
      ∀ l, d'.node? l =
        if l = goal then some (.file (header ++ data))
        else if l = loc then none
        else d.node? l := by
  -- the disk after each step, all of them with the folders of the first
  let d₁ := d.put loc (.file [])
  let d₂ := d₁.put loc (.file header)
  let d₃ := d₂.put loc (.file (header ++ data))
  have hn₁ : d₁.node? loc = some (.file []) := by simp [d₁]
  have hn₂ : d₂.node? loc = some (.file header) := by simp [d₂]
  have hn₃ : d₃.node? loc = some (.file (header ++ data)) := by simp [d₃]
  have hk₁ : d.KeepsFolders d₁ := .put hfolder _
  have hk₂ : d.KeepsFolders d₂ := hk₁.trans (.put (not_hasFolder_of_file hn₁) _)
  have hk₃ : d.KeepsFolders d₃ := hk₂.trans (.put (not_hasFolder_of_file hn₂) _)
  have hgoal₃ : ¬d₃.HasFolder goal := by simpa [HasFolder, d₃, d₂, d₁, hne] using hgoal
  have hke : d.KeepsFolders (d₃.erase loc) := hk₃.trans (.erase (not_hasFolder_of_file hn₃))
  have hgoale : ¬(d₃.erase loc).HasFolder goal := by simpa [HasFolder, hne] using hgoal₃
  refine ⟨(d₃.erase loc).put goal (.file (header ++ data)), ?_, hke.trans (.put hgoale _),
    fun l => ?_⟩
  · have hcreate : (FileOperation.create p).apply d = .ok d₁ := createFile_of_find h hfolder
    have hheader : (FileOperation.append p header).apply d₁ = .ok d₂ :=
      appendFile_of_find (hk₁.find h) hn₁ header
    have hdata : (FileOperation.append p data).apply d₂ = .ok d₃ :=
      appendFile_of_find (hk₂.find h) hn₂ data
    have hsync : (FileOperation.sync p).apply d₃ = .ok d₃ := by
      rw [FileOperation.apply, stat_of_find (hk₃.find h) hn₃]
      rfl
    have hrename : (FileOperation.rename p q).apply d₃ =
        .ok ((d₃.erase loc).put goal (.file (header ++ data))) :=
      renameFile_of_find (hk₃.find h) (hk₃.find hg) hn₃ hgoal₃
    rw [perform_cons_of_ok hcreate, perform_cons_of_ok hheader, perform_cons_of_ok hdata,
      perform_cons_of_ok hsync, perform_cons_of_ok hrename]
    rfl
  · by_cases hl : l = goal
    · simp [hl]
    · by_cases hl' : l = loc
      · simp [hl', hne.symm]
      · simp [hl, hl', d₃, d₂, d₁]

end BlobCache.Disk
