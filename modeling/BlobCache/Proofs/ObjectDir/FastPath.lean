import BlobCache.Proofs.Labels.Grammar
import BlobCache.Proofs.ObjectDir.Abandoning

/-!
# Bodies without labels

A body is read without a look at the labels. Where there is an object, what is read is its body;
where there is none, the body is refused with the same error. The two ways to a body differ only at
a header that is not UTF-8, with which there is a body and no object (`ObjectStore.reading_cases`).

While no file of a slot has such a header (`ObjectStore.HeadersWellFormed`), the two ways are one.
Calls keep it so, in a directory of any state: what is stored has a header that can be read, and
nothing else comes into the slots (`HeadersWellFormed.save`, `HeadersWellFormed.remove`).
-/

namespace BlobCache

namespace ObjectStore

variable {s s' : ObjectStore} {filename : String} {header body : Bytes}

/-! ### The two ways to a body -/

/-- The file under a name has a header, which its first zero byte ends, and a body. -/
def HasParts (s : ObjectStore) (filename : String) (header body : Bytes) : Prop :=
  ∃ n, Slot.ofName? filename = some n ∧
    s.disk.stat (s.dir.slotPath n) = .ok (.file (header ++ 0 :: body)) ∧ 0 ∉ header

/-- The two parts of a file are read. -/
theorem read_eq_ok_iff_hasParts :
    s.read filename = .ok (header, body) ↔ s.HasParts filename header body := by
  constructor
  · intro h
    rw [read] at h
    cases hname : Slot.ofName? filename with
    | none =>
      rw [hname] at h
      cases h
    | some n =>
      rw [hname] at h
      dsimp only at h
      cases hstat : s.disk.stat (s.dir.slotPath n) with
      | error e =>
        rw [hstat] at h
        cases h
      | ok node =>
        rw [hstat] at h
        cases node with
        | folder mode => cases h
        | file file =>
          dsimp only at h
          cases hcut : file.cutAtZero? with
          | none =>
            rw [hcut] at h
            cases h
          | some parts =>
            rw [hcut] at h
            cases h
            obtain ⟨rfl, hzero⟩ := Bytes.cutAtZero?_eq_some_iff.mp hcut
            exact ⟨n, hname, hstat, hzero⟩
  · rintro ⟨n, hname, hstat, hzero⟩
    have hcut : (header ++ 0 :: body).cutAtZero? = some (header, body) :=
      Bytes.cutAtZero?_eq_some_iff.mpr ⟨rfl, hzero⟩
    rw [read, hname]
    dsimp only
    rw [hstat]
    dsimp only
    rw [hcut]

/-- What is made of a name. Either it is refused, whether the labels are wanted or not; or there is
a file with a header and a body, and only the labels depend on what the header is. -/
theorem reading_cases (s : ObjectStore) (filename : String) :
    (∃ error, s.object filename = .error error ∧ s.body filename = .error error ∧
        ∀ header body, ¬s.HasParts filename header body) ∨
      ∃ header body, s.HasParts filename header body ∧ s.body filename = .ok body ∧
        s.object filename = match Labels.ofHeader header with
          | .ok labels => .ok { labels, body }
          | .error fault => .error (.malformedObject filename (Labels.unreadableHeader fault)) := by
  rw [object, ObjectStore.body]
  cases hread : s.read filename with
  | error error =>
    refine .inl ⟨error, rfl, rfl, fun header body hparts => ?_⟩
    rw [read_eq_ok_iff_hasParts.mpr hparts] at hread
    cases hread
  | ok parts =>
    obtain ⟨header, body⟩ := parts
    exact .inr ⟨header, body, read_eq_ok_iff_hasParts.mp hread, rfl, rfl⟩

/-- A file is read in one way. -/
theorem HasParts.unique {header' body' : Bytes} (h : s.HasParts filename header body)
    (h' : s.HasParts filename header' body') : header = header' ∧ body = body' := by
  rw [← read_eq_ok_iff_hasParts] at h h'
  exact Prod.mk.inj (Except.ok.inj (h.symm.trans h'))

/-- Where the header can be read, the labels make no difference to the body or to the error. -/
theorem body_eq_map_object
    (h : ∀ header body, s.HasParts filename header body → Utf8.WellFormed header) :
    s.body filename = (s.object filename).map (·.body) := by
  obtain ⟨error, hobject, hbody, -⟩ | ⟨header, body, hparts, hbody, hobject⟩ :=
    s.reading_cases filename
  · rw [hobject, hbody]
    rfl
  · obtain ⟨labels, hlabels⟩ := Labels.exists_ofHeader_iff.mpr (h header body hparts)
    rw [hobject, hbody, hlabels]
    rfl

/-- A header that cannot be read is in the way of the labels only. -/
theorem of_hasParts_of_not_wellFormed (hparts : s.HasParts filename header body)
    (hnot : ¬Utf8.WellFormed header) :
    (∃ fault, s.object filename =
        .error (.malformedObject filename (Labels.unreadableHeader fault))) ∧
      s.body filename = .ok body := by
  obtain ⟨error, -, -, hnone⟩ | ⟨header', body', hparts', hbody, hobject⟩ :=
    s.reading_cases filename
  · exact absurd hparts (hnone header body)
  · obtain ⟨rfl, rfl⟩ := hparts.unique hparts'
    obtain ⟨fault, hfault⟩ := Labels.exists_ofHeader_error_iff.mpr hnot
    rw [hobject, hfault]
    exact ⟨⟨fault, rfl⟩, hbody⟩

/-- Behind a header that is not UTF-8 there is a body, but no object. -/
example :
    let disk : Disk :=
      { nodes := [([], .folder 0), (["o"], .folder 0), (["o", "0"], .file [255, 0, 7])] }
    let s : ObjectStore := { dir := { path := ⟨"/o"⟩, limit := 1, slots := .ofList [0] }, disk }
    (s.object "0").toOption = none ∧ (s.body "0").toOption = some [7] := by
  decide +kernel

/-! ### Directories without unreadable headers -/

/-- Every header in the slots is well-formed UTF-8. -/
def HeadersWellFormed (s : ObjectStore) : Prop :=
  ∀ filename header body, s.HasParts filename header body → Utf8.WellFormed header

/-- Stores know their slots by heart; what is in them depends on the path and on the disk. -/
theorem HeadersWellFormed.of_stat (h : s.HeadersWellFormed) (hpath : s'.dir.path = s.dir.path)
    (hstat : ∀ n file, s'.disk.stat (s.dir.slotPath n) = .ok (.file file) →
      s.disk.stat (s.dir.slotPath n) = .ok (.file file) ∨
        ∃ (labels : Labels) (header data : Bytes), labels.header = .ok header ∧
          file = header ++ data) :
    s'.HeadersWellFormed := by
  rintro filename header body ⟨n, hname, hfile, hzero⟩
  rw [ObjectDir.slotPath, hpath] at hfile
  obtain hold | ⟨labels, written, data, hheader, hfile⟩ := hstat n _ hfile
  · exact h filename header body ⟨n, hname, hold, hzero⟩
  · have hcut := Bytes.cutAtZero?_eq_some_iff.mpr ⟨hfile.symm, hzero⟩
    rw [Labels.cutAtZero?_header hheader data] at hcut
    obtain ⟨rfl, -⟩ := Prod.mk.inj (Option.some.inj hcut)
    exact Labels.exists_ofHeader_iff.mp ⟨labels, Labels.ofHeader_dropLast hheader⟩

end ObjectStore

/-- On a disk with no more folders, a file is under no other path. -/
private theorem Disk.find_of_stat_of_keepsFolders {d d' : Disk} {p : Path} {file : Bytes}
    (h : d'.KeepsFolders d) (hfile : d'.stat p = .ok (.file file)) :
    ∃ l, d.find p = .ok l ∧ d'.node? l = some (.file file) := by
  obtain ⟨l, hfind, hnode⟩ := find_of_stat hfile
  exact ⟨l, h.find hfind, hnode⟩

/-- A file is made under a path that leads somewhere. -/
private theorem Disk.find_of_createFile {d d' : Disk} {p : Path} (h : d.createFile p = .ok d') :
    ∃ loc, d.find p = .ok loc := by
  cases hfind : d.find p with
  | ok loc => exact ⟨loc, rfl⟩
  | error e =>
    rw [createFile, hfind] at h
    cases h

/-- Taking a file away leaves no file that was not there. -/
private theorem Disk.stat_of_removeFile {d d' : Disk} {p q : Path} {file : Bytes}
    (hr : d.removeFile p = .ok d') (hfile : d'.stat q = .ok (.file file)) :
    d.stat q = .ok (.file file) := by
  cases hfind : d.find p with
  | error e =>
    rw [removeFile, hfind] at hr
    cases hr
  | ok loc =>
    obtain ⟨-, rfl⟩ := exists_of_removeFile hfind hr
    obtain ⟨l, hl, hnode⟩ := find_of_stat_of_keepsFolders (.of_erase d loc) hfile
    rw [node?_erase] at hnode
    by_cases hloc : l = loc
    · rw [if_pos hloc] at hnode
      cases hnode
    · rw [if_neg hloc] at hnode
      exact stat_of_find hl hnode

namespace ObjectStore

variable {s s' : ObjectStore}

/-- A save that succeeds has put the file of the free slot in place. -/
private theorem exists_of_saveOn_eq_ok {responses : List Response} {labels : Labels} {data : Bytes}
    {name : String} (h : (saveOn responses labels data s).result = .ok name) :
    ∃ header n disk, labels.header = .ok header ∧
      s.disk.perform (s.dir.placement n header data) responses = (disk, .ok ()) ∧
      (saveOn responses labels data s).state = s.filled n disk := by
  rw [saveOn] at h ⊢
  cases hheader : labels.header with
  | error e =>
    rw [saveTidying_of_header_error hheader] at h
    cases h
  | ok header =>
    cases hfree : s.dir.freeSlot? with
    | none =>
      rw [saveTidying_of_full hheader hfree] at h
      cases h
    | some n =>
      rcases hperform : s.disk.perform (s.dir.placement n header data) responses with
        ⟨disk, cause | _⟩
      · rw [(saveTidying_of_not_placed hheader hfree hperform).1] at h
        cases h
      · exact ⟨header, n, disk, rfl, hperform,
          (saveTidying_of_placed hheader hfree hperform).2⟩

/-- Once a file was put in place, it is the only one in the slots that need not have been there. -/
private theorem stat_placement {responses : List Response} {header data file : Bytes} {m n : Nat}
    {disk : Disk}
    (hperform : s.disk.perform (s.dir.placement n header data) responses = (disk, .ok ()))
    (hfile : disk.stat (s.dir.slotPath m) = .ok (.file file)) :
    s.disk.stat (s.dir.slotPath m) = .ok (.file file) ∨ file = header ++ data := by
  obtain ⟨e, he⟩ | ⟨⟨_, hcreated⟩, -⟩ := s.disk.perform_create_cases (s.dir.temporaryPath n) _ _
  · exact absurd (congrArg Prod.snd (hperform.symm.trans he)) nofun
  obtain ⟨loc, hloc⟩ := Disk.find_of_createFile hcreated
  obtain ⟨folder, rfl, hbeside⟩ := Disk.find_join_of_find_join hloc (Slot.isPlain_temporaryName n)
  have hne := Slot.append_name_ne_temporaryName folder n n
  obtain ⟨_, _, he, -⟩ | ⟨placed, hok, -, hkeeps, hnodes⟩ := Disk.perform_placement_cases hloc
    (hbeside (Slot.isPlain_name n)) hne header data responses
  · exact absurd (congrArg Prod.snd (hperform.symm.trans he)) nofun
  obtain rfl : disk = placed := congrArg Prod.fst (hperform.symm.trans hok)
  -- the folders are the same, so that what is in the slot now was looked for in the same place
  have hfolders : ∀ {l}, disk.HasFolder l → s.disk.HasFolder l := by
    rintro l ⟨mode, hmode⟩
    rw [hnodes] at hmode
    split at hmode
    · cases hmode
    · split at hmode
      · cases hmode
      · exact ⟨mode, hmode⟩
  have hback : disk.KeepsFolders s.disk := ⟨hkeeps.workingFolder_eq.symm, hfolders⟩
  obtain ⟨l, hl, hnode⟩ := Disk.find_of_stat_of_keepsFolders hback hfile
  obtain rfl : l = folder ++ [Slot.name m] :=
    Except.ok.inj (hl.symm.trans (hbeside (Slot.isPlain_name m)))
  rw [hnodes, if_neg (Slot.append_name_ne_temporaryName folder m n)] at hnode
  split at hnode
  · exact .inr (Node.file.inj (Option.some.inj hnode)).symm
  · exact .inl (Disk.stat_of_find hl hnode)

/-- A save leaves the directory where it is. -/
private theorem path_saveOn (responses : List Response) (labels : Labels) (data : Bytes)
    (s : ObjectStore) : (saveOn responses labels data s).state.dir.path = s.dir.path := by
  cases hresult : (saveOn responses labels data s).result with
  | error error =>
    have hunharmed : s.Unharmed (saveOn responses labels data s).state :=
      unharmed_of_error (fun _ _ _ => rfl) hresult
    exact congrArg ObjectDir.path hunharmed.dir_eq
  | ok name =>
    obtain ⟨header, n, disk, -, -, hstate⟩ := exists_of_saveOn_eq_ok hresult
    rw [hstate]
    rfl

/-- A file that is in a slot after a save was there before, or is the one that was saved. -/
private theorem stat_saveOn {responses : List Response} {labels : Labels} {data file : Bytes}
    {m : Nat} (hfile : (saveOn responses labels data s).state.disk.stat (s.dir.slotPath m) =
      .ok (.file file)) :
    s.disk.stat (s.dir.slotPath m) = .ok (.file file) ∨
      ∃ header, labels.header = .ok header ∧ file = header ++ data := by
  cases hresult : (saveOn responses labels data s).result with
  | error error =>
    have hunharmed : s.Unharmed (saveOn responses labels data s).state :=
      unharmed_of_error (fun _ _ _ => rfl) hresult
    have hkeeps : (saveOn responses labels data s).state.disk.KeepsFolders s.disk :=
      ⟨hunharmed.workingFolder_eq.symm, (hunharmed.hasFolder_iff _).mp⟩
    obtain ⟨l, hl, hnode⟩ := Disk.find_of_stat_of_keepsFolders hkeeps hfile
    refine .inl (Disk.stat_of_find hl ?_)
    rw [← hunharmed.node?_eq l, hnode]
    -- the file in a slot is not a temporary one
    intro n _ htemporary
    obtain ⟨folder, rfl, hbeside⟩ := Disk.find_join_of_find_join hl (Slot.isPlain_name m)
    have hother := hbeside (Slot.isPlain_temporaryName n)
    exact Slot.append_name_ne_temporaryName folder m n
      (Except.ok.inj (htemporary.symm.trans hother))
  | ok name =>
    obtain ⟨header, n, disk, hheader, hperform, hstate⟩ := exists_of_saveOn_eq_ok hresult
    rw [hstate] at hfile
    exact (stat_placement hperform hfile).imp_right fun hnew => ⟨header, hheader, hnew⟩

namespace HeadersWellFormed

/-- Storing an object brings a header into the directory that can be read. -/
theorem save (h : s.HeadersWellFormed) (labels : Labels) (data : Bytes) :
    (ObjectStore.save labels data s).state.HeadersWellFormed := by
  refine h.of_stat (path_saveOn [] labels data s) fun n file hfile => ?_
  exact (stat_saveOn hfile).imp_right fun ⟨header, hheader, hnew⟩ =>
    ⟨labels, header, data, hheader, hnew⟩

/-- Deleting an object brings no header into the directory. -/
theorem remove (h : s.HeadersWellFormed) (name : String) :
    (ObjectStore.remove name s).state.HeadersWellFormed := by
  rw [ObjectStore.remove]
  cases hname : Slot.ofName? name with
  | none =>
    rw [removeOn_of_ofName?_eq_none hname]
    exact h
  | some n =>
    cases hremoved : s.disk.removeFileOn (s.dir.slotPath n) .comply with
    | ok disk =>
      rw [(removeOn_of_removed hname hremoved).2]
      exact h.of_stat rfl fun m file hfile => .inl (Disk.stat_of_removeFile hremoved hfile)
    | error e =>
      rw [(removeOn_of_not_removed hname hremoved).2]
      exact h.of_stat rfl fun m file hfile => .inl hfile

end HeadersWellFormed

end ObjectStore

end BlobCache
