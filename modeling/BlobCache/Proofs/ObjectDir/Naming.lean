import BlobCache.Proofs.ObjectDir.FastPath
import BlobCache.Proofs.ObjectDir.Opening

/-!
# Names in a folder

Three conversions have to fit together before a name that a directory lists can be trusted: a name
is read as a number when the folder is scanned, the number is written as a name when the directory
lists its objects, and it is written as a path when an object is looked up. They fit because each
number has one name. The names that are read at all are the numerals (`Slot.isSome_ofName?_iff`),
described here without a look at the reader, and none of them ends like the name of a temporary
file.

So the names that a directory lists after a scan are those of its folder that are numerals, by
ascending number, whatever their order in the folder (`ObjectStore.ListsNames`). Each of them leads
to the place in the folder where it was found (`ObjectStore.Addresses`): what is read under the name
is what is there, and so is what is deleted.
-/

namespace BlobCache

namespace Slot

/-- A number below two to the power of 64 in decimal digits, with no more of them than it takes. -/
structure IsNumeral (s : String) : Prop where
  ne_empty : s ≠ ""
  /-- No signs, and none of the digits of other scripts. -/
  digits : ∀ c ∈ s.toList, '0' ≤ c ∧ c ≤ '9'
  /-- No zeros in front. -/
  lead : s.toList.head? = some '0' → s = "0"
  value_lt : Nat.ofDigitChars 10 s.toList 0 < 2 ^ 64

private theorem isDigit_iff {c : Char} : c.isDigit ↔ '0' ≤ c ∧ c ≤ '9' := by
  rw [Char.isDigit, Bool.and_eq_true, decide_eq_true_iff, decide_eq_true_iff]
  exact Iff.rfl

/-- What it means for digits to be written as a number is. -/
private theorem isCanonical_iff {s : String} :
    isCanonical s.toList ↔
      s ≠ "" ∧ (∀ c ∈ s.toList, '0' ≤ c ∧ c ≤ '9') ∧ (s.toList.head? = some '0' → s = "0") := by
  cases hs : s.toList with
  | nil =>
    rw [String.toList_eq_nil_iff.mp hs]
    simp [isCanonical]
  | cons c cs =>
    have hne : s ≠ "" := fun h => by simp [h] at hs
    have hzero : s = "0" ↔ c = '0' ∧ cs = [] := by
      rw [← String.toList_inj, hs]
      exact List.cons_eq_cons
    simp only [isCanonical, Bool.and_eq_true, Bool.or_eq_true, List.all_eq_true, List.isEmpty_iff,
      bne_iff_ne, isDigit_iff, List.head?_cons, Option.some.injEq, hzero]
    constructor
    · rintro ⟨hdigits, hlead⟩
      exact ⟨hne, hdigits, fun hc => ⟨hc, hlead.resolve_right (· hc)⟩⟩
    · rintro ⟨-, hdigits, hlead⟩
      exact ⟨hdigits, or_iff_not_imp_right.mpr fun hc => (hlead (not_not.mp hc)).2⟩

/-- The names that are read as numbers are the numerals. -/
theorem isSome_ofName?_iff {s : String} : (ofName? s).isSome ↔ IsNumeral s := by
  have hread : (ofName? s).isSome ↔
      isCanonical s.toList ∧ Nat.ofDigitChars 10 s.toList 0 < 2 ^ 64 := by
    rw [ofName?, Option.isSome_ite, Bool.and_eq_true, decide_eq_true_iff]
    exact Iff.rfl
  rw [hread, isCanonical_iff]
  constructor
  · rintro ⟨⟨hne, hdigits, hlead⟩, hlt⟩
    exact ⟨hne, hdigits, hlead, hlt⟩
  · intro h
    exact ⟨⟨h.ne_empty, h.digits, h.lead⟩, h.value_lt⟩

/-- What ends like the name of a temporary file is no slot's. -/
theorem ofName?_append_tmp (s : String) : ofName? (s ++ ".tmp") = none := by
  refine Option.not_isSome_iff_eq_none.mp fun h => ?_
  have hdot : '.' ∈ (s ++ ".tmp").toList := by
    rw [String.toList_append]
    exact List.mem_append_right _ (by decide)
  exact absurd ((isSome_ofName?_iff.mp h).digits '.' hdot) (by decide)

/-- A name that is read at all is the name of the number that is read. -/
theorem isSome_ofName?_iff_exists {s : String} :
    (ofName? s).isSome ↔ ∃ n < bound, s = name n := by
  rw [Option.isSome_iff_exists]
  exact exists_congr fun n => ofName?_eq_some_iff.trans and_comm

end Slot

namespace ObjectDir

/-- A directory that knows the slots of a folder lists the names in it that are numerals. -/
private theorem mem_filenames_of_slots {dir : ObjectDir} {names : List String}
    (h : dir.slots = SlotSet.ofList (names.filterMap Slot.ofName?)) {name : String} :
    name ∈ dir.filenames ↔ name ∈ names ∧ (Slot.ofName? name).isSome := by
  rw [filenames, h, List.mem_map, Slot.isSome_ofName?_iff_exists]
  constructor
  · rintro ⟨n, hn, rfl⟩
    obtain ⟨hname, hlt⟩ := mem_ofList_filterMap.mp (SlotSet.mem_def.mpr hn)
    exact ⟨hname, n, hlt, rfl⟩
  · rintro ⟨hname, n, hlt, rfl⟩
    exact ⟨n, SlotSet.mem_def.mp (mem_ofList_filterMap.mpr ⟨hname, hlt⟩), rfl⟩

/-- Reading the names that a directory lists gives the numbers back for which they were written. -/
private theorem map_ofName?_filenames {dir : ObjectDir} (h : ∀ n ∈ dir.slots, n < Slot.bound) :
    dir.filenames.map Slot.ofName? = dir.slots.toList.map some := by
  rw [filenames, List.map_map]
  exact List.map_congr_left fun n hn => Slot.ofName?_eq_some_iff.mpr ⟨rfl, h n hn⟩

end ObjectDir

namespace ObjectStore

variable {s : ObjectStore}

/-- The file that a store turns to under a name is the one at this location. -/
structure Addresses (s : ObjectStore) (name : String) (l : Location) : Prop where
  /-- The path of the slot is the name below the directory, and leads there. -/
  leads : ∃ n, Slot.ofName? name = some n ∧ s.dir.slotPath n = s.dir.path.join name ∧
    s.disk.find (s.dir.slotPath n) = .ok l
  /-- What is read under the name is there. -/
  read_iff : ∀ header body, s.read name = .ok (header, body) ↔
    s.disk.node? l = some (.file (header ++ 0 :: body)) ∧ 0 ∉ header
  /-- What is deleted under the name is there. -/
  remove_eq : ∀ file, s.disk.node? l = some (.file file) →
    (remove name s).result = .ok () ∧ (remove name s).state.disk = s.disk.erase l

/-- The name of a slot addresses the place to which the path of the slot leads. -/
private theorem addresses_of_find {n : Nat} {l : Location} (hlt : n < Slot.bound)
    (hslot : s.disk.find (s.dir.slotPath n) = .ok l) : s.Addresses (Slot.name n) l := by
  have hname : Slot.ofName? (Slot.name n) = some n := Slot.ofName?_eq_some_iff.mpr ⟨rfl, hlt⟩
  refine ⟨⟨n, hname, rfl, hslot⟩, fun header body => ?_, fun file hfile => ?_⟩
  · rw [read_eq_ok_iff_hasParts]
    constructor
    · rintro ⟨m, hm, hstat, hzero⟩
      obtain rfl : n = m := Option.some.inj (hname.symm.trans hm)
      obtain ⟨l', hl', hnode⟩ := Disk.find_of_stat hstat
      obtain rfl : l' = l := Except.ok.inj (hl'.symm.trans hslot)
      exact ⟨hnode, hzero⟩
    · rintro ⟨hnode, hzero⟩
      exact ⟨n, hname, Disk.stat_of_find hslot hnode, hzero⟩
  · have hremoved : s.disk.removeFileOn (s.dir.slotPath n) .comply = .ok (s.disk.erase l) :=
      Disk.removeFile_of_find hslot hfile
    obtain ⟨hr, hs⟩ := removeOn_of_removed hname hremoved
    exact ⟨hr, congrArg ObjectStore.disk hs⟩

/-- After a scan, a store lists these names of its folder as far as they are names of slots. -/
structure ListsNames (s : ObjectStore) (names : List String) (s' : ObjectStore) : Prop where
  /-- A scan is about the slots and changes nothing else. -/
  state_eq : s' = { s with dir := { s.dir with slots := s'.dir.slots } }
  mem_filenames : ∀ name, name ∈ s'.dir.filenames ↔ name ∈ names ∧ (Slot.ofName? name).isSome
  /-- The names are listed by ascending number, each of them once. -/
  ascending : ∃ slots : List Nat, slots.Pairwise (· < ·) ∧
    s'.dir.filenames.map Slot.ofName? = slots.map some
  /-- The order of the names in the folder does not matter, nor does anything else about it. -/
  filenames_eq : ∀ (t : ObjectStore) (names' : List String),
    t.disk.readFolder t.dir.path = .ok names' → (∀ name, name ∈ names' ↔ name ∈ names) →
      (rescan t).state.dir.filenames = s'.dir.filenames
  /-- A name that is listed leads to the node from which it was read. -/
  addresses : ∀ name ∈ s'.dir.filenames, ∃ folder, s.disk.find s.dir.path = .ok folder ∧
    s.disk.node? (folder ++ [name]) ≠ none ∧ s'.Addresses name (folder ++ [name])

/-- A store that can read its folder lists the names that it finds there. -/
theorem listsNames_rescan {names : List String}
    (h : s.disk.readFolder s.dir.path = .ok names) :
    (rescan s).result = .ok () ∧ s.ListsNames names (rescan s).state := by
  obtain ⟨hr, hs⟩ := rescan_of_scan (ObjectDir.scan_of_readFolder h)
  refine ⟨hr, ?_⟩
  rw [hs]
  have hbound : ∀ n ∈ SlotSet.ofList (names.filterMap Slot.ofName?), n < Slot.bound := fun n hn =>
    (ObjectDir.mem_ofList_filterMap.mp hn).2
  constructor
  case state_eq => rfl
  case mem_filenames => exact fun name => ObjectDir.mem_filenames_of_slots rfl
  case ascending => exact ⟨_, SlotSet.ascending _, ObjectDir.map_ofName?_filenames hbound⟩
  case filenames_eq =>
    intro t names' ht hsame
    rw [(rescan_of_scan (ObjectDir.scan_of_readFolder ht)).2]
    have hslots : SlotSet.ofList (names'.filterMap Slot.ofName?) =
        SlotSet.ofList (names.filterMap Slot.ofName?) := SlotSet.ext_of_mem fun n => by
      rw [ObjectDir.mem_ofList_filterMap, ObjectDir.mem_ofList_filterMap, hsame]
    exact congrArg (fun slots : SlotSet => slots.toList.map Slot.name) hslots
  case addresses =>
    intro name hname
    obtain ⟨hfound, hsome⟩ := (ObjectDir.mem_filenames_of_slots rfl).mp hname
    obtain ⟨n, hlt, rfl⟩ := Slot.isSome_ofName?_iff_exists.mp hsome
    obtain ⟨folder, hfind, hfolder, rfl⟩ := Disk.find_of_readFolder h
    refine ⟨folder, hfind, Disk.mem_childNames.mp hfound, addresses_of_find hlt ?_⟩
    exact Disk.find_join hfind hfolder (Slot.isPlain_name n)

/-- **Names.** Names and numbers belong together one to one. A number below two to the power of 64
is read from its own name and from no other (`Slot.ofName?_eq_some_iff`); the names that are read
are the numerals (`Slot.isSome_ofName?_iff`), and those of temporary files are not among them. After
a scan of any folder a store lists its names that are numerals, by ascending number, and each leads
to the file that it was read from (`ObjectStore.listsNames_rescan`). -/
theorem slotNames_bijective :
    (∀ s n, Slot.ofName? s = some n ↔ s = Slot.name n ∧ n < 2 ^ 64) ∧
    (∀ s, (Slot.ofName? s).isSome ↔ Slot.IsNumeral s) ∧
    (∀ s, Slot.ofName? (s ++ ".tmp") = none) ∧
    (∀ s t n, Slot.ofName? s = some n → Slot.ofName? t = some n → s = t) ∧
    ∀ (s : ObjectStore) (names : List String), s.disk.readFolder s.dir.path = .ok names →
      (rescan s).result = .ok () ∧ s.ListsNames names (rescan s).state := by
  refine ⟨fun _ _ => Slot.ofName?_eq_some_iff, fun _ => Slot.isSome_ofName?_iff,
    Slot.ofName?_append_tmp, fun s t n hs ht => ?_, fun _ _ => listsNames_rescan⟩
  rw [(Slot.ofName?_eq_some_iff.mp hs).1, (Slot.ofName?_eq_some_iff.mp ht).1]

/-- A store that knows nothing yet of a folder with two objects, the later of which comes first, and
with names that look like numbers. -/
def unreadStore : ObjectStore where
  dir := { path := ⟨"/o"⟩, limit := 1, slots := .empty }
  disk := { nodes := [([], .folder 0), (["o"], .folder 0), (["o", "10"], .file [0, 1]),
    (["o", "09"], .file [0]), (["o", "+8"], .file [0]), (["o", "9"], .file [0, 7]),
    (["o", "9.tmp"], .file [0]), (["o", "18446744073709551616"], .file [0])] }

theorem slotNames_bijective_unread :
    unreadStore.disk.readFolder unreadStore.dir.path =
        .ok ["10", "09", "+8", "9", "9.tmp", "18446744073709551616"] ∧
      (rescan unreadStore).result = .ok () ∧
      unreadStore.ListsNames ["10", "09", "+8", "9", "9.tmp", "18446744073709551616"]
        (rescan unreadStore).state ∧
      (rescan unreadStore).state.dir.filenames = ["9", "10"] := by
  have hread : unreadStore.disk.readFolder unreadStore.dir.path =
      .ok ["10", "09", "+8", "9", "9.tmp", "18446744073709551616"] := by rfl
  obtain ⟨hr, hlists⟩ := slotNames_bijective.2.2.2.2 unreadStore _ hread
  exact ⟨hread, hr, hlists, by decide +kernel⟩

end ObjectStore

end BlobCache
