import BlobCache.Proofs.Cache.Persistence
import BlobCache.Proofs.Labels.Grammar

/-!
# Opening over anything

A cache opens over any folder that is there. It lists the slots whose files have a header that can
be read, by ascending slot, and passes over everything else: folders, files without a zero byte,
headers that are not UTF-8, and names that are not a slot's. What it lists does not depend on the
order in which the disk gives the names, and no file is touched, neither when the cache opens nor
when it is closed again (`Cache.openAt_listsFolder`).

The cache lists what the store has that opens over the folder (`openOver_store`). That is in step
with the folder, so an object of the store is a file with a readable header under a slot's name, and
the other way round (`ListsFolder`, `listsFolder_openOver`). The permissions of the folder change
when it is opened, which makes no difference to what it holds (`ListsFolder.of_put_folder`).
-/

namespace BlobCache

/-- The file of a slot starts with this header, which its first zero byte ends. -/
def Disk.HasHeader (d : Disk) (folder : Location) (n : Nat) (header : Bytes) : Prop :=
  0 ∉ header ∧ ∃ body, d.node? (folder ++ [Slot.name n]) = some (.file (header ++ 0 :: body))

namespace ObjectStore

variable {s : ObjectStore} {folder : Location} {n : Nat}

/-- What is under the name of a slot is an object if its file has a header that can be read. -/
private theorem InStep.object_name_eq_ok_iff (h : s.InStep folder) {o : StoredObject} :
    s.object (Slot.name n) = .ok o ↔ n < Slot.bound ∧ ∃ header, 0 ∉ header ∧
      s.disk.node? (folder ++ [Slot.name n]) = some (.file (header ++ 0 :: o.body)) ∧
      Labels.ofHeader header = .ok o.labels := by
  rw [h.object_eq_ok_iff]
  constructor
  · rintro ⟨m, file, header, hname, hlt, hnode, hcut, hlabels⟩
    obtain rfl := Slot.name_injective hname
    obtain ⟨rfl, hzero⟩ := Bytes.cutAtZero?_eq_some_iff.mp hcut
    exact ⟨hlt, header, hzero, hnode, hlabels⟩
  · rintro ⟨hlt, header, hzero, hnode, hlabels⟩
    exact ⟨n, _, header, rfl, hlt, hnode, Bytes.cutAtZero?_eq_some_iff.mpr ⟨rfl, hzero⟩, hlabels⟩

private theorem InStep.exists_object_name_iff (h : s.InStep folder) :
    (∃ o, s.object (Slot.name n) = .ok o) ↔
      n < Slot.bound ∧ ∃ header, s.disk.HasHeader folder n header ∧ Utf8.WellFormed header := by
  constructor
  · rintro ⟨o, ho⟩
    obtain ⟨hlt, header, hzero, hnode, hlabels⟩ := h.object_name_eq_ok_iff.mp ho
    exact ⟨hlt, header, ⟨hzero, o.body, hnode⟩, Labels.exists_ofHeader_iff.mp ⟨_, hlabels⟩⟩
  · rintro ⟨hlt, header, ⟨hzero, body, hnode⟩, hformed⟩
    obtain ⟨labels, hlabels⟩ := Labels.exists_ofHeader_iff.mpr hformed
    exact ⟨⟨labels, body⟩, h.object_name_eq_ok_iff.mpr ⟨hlt, header, hzero, hnode, hlabels⟩⟩

/-- The labels of an object are those of the one header that its file has. -/
private theorem InStep.ofHeader_of_object (h : s.InStep folder) {o : StoredObject} {header : Bytes}
    (ho : s.object (Slot.name n) = .ok o) (hheader : s.disk.HasHeader folder n header) :
    Labels.ofHeader header = .ok o.labels := by
  obtain ⟨-, header', hzero', hnode', hlabels⟩ := h.object_name_eq_ok_iff.mp ho
  obtain ⟨hzero, body, hnode⟩ := hheader
  have hfile : header ++ 0 :: body = header' ++ 0 :: o.body := by
    rw [hnode] at hnode'
    exact Node.file.inj (Option.some.inj hnode')
  have hcut := Bytes.cutAtZero?_eq_some_iff.mpr ⟨hfile, hzero'⟩
  rw [Bytes.cutAtZero?_eq_some_iff.mpr ⟨rfl, hzero⟩] at hcut
  obtain ⟨rfl, -⟩ := Prod.mk.inj (Option.some.inj hcut)
  exact hlabels

/-- The slots with an object, in ascending order. -/
def readableSlots (s : ObjectStore) : List Nat :=
  s.dir.slots.toList.filter fun n => (s.object (Slot.name n)).isOk

/-- The labels of the object in a slot. -/
def slotLabels (s : ObjectStore) (n : Nat) : Labels :=
  ((s.object (Slot.name n)).toOption.map (·.labels)).getD .empty

private theorem mem_readableSlots (h : s.InStep folder) :
    n ∈ s.readableSlots ↔ ∃ o, s.object (Slot.name n) = .ok o := by
  rw [readableSlots, List.mem_filter, ← SlotSet.mem_def, h.mem_slots_iff]
  constructor
  · rintro ⟨-, hok⟩
    cases ho : s.object (Slot.name n) with
    | ok o => exact ⟨o, rfl⟩
    | error e =>
      rw [ho] at hok
      cases hok
  · rintro ⟨o, ho⟩
    obtain ⟨hlt, header, -, hnode, -⟩ := h.object_name_eq_ok_iff.mp ho
    rw [ho, hnode]
    exact ⟨⟨hlt, Option.some_ne_none _⟩, rfl⟩

private theorem slotLabels_of_object {o : StoredObject} (ho : s.object (Slot.name n) = .ok o) :
    s.slotLabels n = o.labels := by
  rw [slotLabels, ho]
  rfl

end ObjectStore

namespace Cache

variable {id : CacheId} {s : ObjectStore} {folder : Location}

/-- What a cache finds in a directory are the objects of its slots. -/
private theorem filterMap_found? (id : CacheId) (s : ObjectStore) :
    s.dir.filenames.filterMap (found? id s) = s.readableSlots.map fun n =>
      { filename := Slot.name n, labels := s.slotLabels n, references := .one,
        owner := some id } := by
  rw [ObjectDir.filenames, List.filterMap_map, ObjectStore.readableSlots]
  induction s.dir.slots.toList with
  | nil => rfl
  | cons n ns ih =>
    cases ho : s.object (Slot.name n) with
    | error e =>
      have hnone : (found? id s ∘ Slot.name) n = none := by
        rw [Function.comp_apply, found?, ho]
        rfl
      have hnot : ¬(s.object (Slot.name n)).isOk = true := by
        rw [ho]
        exact Bool.false_ne_true
      rw [List.filterMap_cons_none hnone, List.filter_cons, if_neg hnot, ih]
    | ok o =>
      have hsome : (found? id s ∘ Slot.name) n = some _ := found?_eq_some_iff.mpr ⟨o, ho, rfl⟩
      have hok : (s.object (Slot.name n)).isOk = true := by
        rw [ho]
        rfl
      rw [List.filterMap_cons_some hsome, List.filter_cons, if_pos hok, ih, List.map_cons,
        ObjectStore.slotLabels_of_object ho]

/-- A cache lists the objects of a folder: one entry for each slot whose file has a header that can
be read, by ascending slot, with nobody but the cache referring to it and without its body. -/
structure ListsFolder (c : Cache ObjectStore) (id : CacheId) (disk : Disk) (folder : Location)
    (slots : List Nat) (labels : Nat → Labels) : Prop where
  ascending : slots.Pairwise (· < ·)
  mem_iff : ∀ n, n ∈ slots ↔
    n < Slot.bound ∧ ∃ header, disk.HasHeader folder n header ∧ Utf8.WellFormed header
  ofHeader_eq : ∀ n ∈ slots, ∀ header, disk.HasHeader folder n header →
    Labels.ofHeader header = .ok (labels n)
  entries_eq : c.members.map c.get? = slots.map fun n =>
    some { filename := Slot.name n, labels := labels n, references := .one, retired := false,
           eager := false, owner := some id, idleSince := none, mapping := none }

/-- A cache that opens over a directory lists the objects of its folder. -/
theorem listsFolder_openOver (h : s.InStep folder) (id : CacheId) (hint : Nat) :
    (openOver id s hint).state.ListsFolder id s.disk folder s.readableSlots s.slotLabels where
  ascending := s.dir.slots.ascending.sublist List.filter_sublist
  mem_iff n := (ObjectStore.mem_readableSlots h).trans h.exists_object_name_iff
  ofHeader_eq n hn header hheader := by
    obtain ⟨o, ho⟩ := (ObjectStore.mem_readableSlots h).mp hn
    rw [ObjectStore.slotLabels_of_object ho]
    exact h.ofHeader_of_object ho hheader
  entries_eq := by
    obtain ⟨-, -, hall⟩ := openOver_store id s hint
    rw [hall, filterMap_found?, List.map_map]
    rfl

/-- No name in the folder is the folder itself. -/
private theorem hasHeader_put_folder {disk : Disk} {n mode : Nat} {header : Bytes} :
    (disk.put folder (.folder mode)).HasHeader folder n header ↔
      disk.HasHeader folder n header := by
  have hne : folder ++ [Slot.name n] ≠ folder := by simp
  rw [Disk.HasHeader, Disk.HasHeader, Disk.node?_put, if_neg hne]

/-- The permissions of the folder are no part of what a cache lists. -/
theorem ListsFolder.of_put_folder {c : Cache ObjectStore} {disk : Disk} {mode : Nat}
    {slots : List Nat} {labels : Nat → Labels}
    (h : c.ListsFolder id (disk.put folder (.folder mode)) folder slots labels) :
    c.ListsFolder id disk folder slots labels where
  ascending := h.ascending
  mem_iff n := by
    rw [h.mem_iff]
    exact and_congr_right fun _ => exists_congr fun _ => and_congr_left fun _ =>
      hasHeader_put_folder
  ofHeader_eq n hn header hheader := h.ofHeader_eq n hn header (hasHeader_put_folder.mpr hheader)
  entries_eq := h.entries_eq

/-- A cache that lists nothing that is to be deleted deletes nothing when it is closed. -/
private theorem Sound.backend_close_of_current {c : Cache ObjectStore} {ledger : Ledger}
    (h : c.Sound ledger []) (hnot : ∀ m ∈ c.members, ∀ e, c.get? m = some e → e.retired = false) :
    (Cache.close c).result = .ok () ∧ (Cache.close c).state.backend = c.backend := by
  obtain ⟨hr, hs⟩ := h.backend_close
  have hnone : c.members.filter (c.fate true · == .delete) = [] := by
    rw [List.filter_eq_nil_iff]
    intro m hm hfate
    obtain ⟨e, he, ho, hpos⟩ := h.exists_of_listed hm
    have hretired := ((fate_eq_delete_iff he ho hpos true).mp (beq_iff_eq.mp hfate)).1
    rw [hnot m hm e he] at hretired
    cases hretired
  rw [hnone] at hs
  exact ⟨hr, hs⟩

/-- **Opening.** A cache opens over every folder that is there, whatever the folder holds, and lists
its objects (`listsFolder_openOver`). Nothing on the disk has changed but the permissions of the
folder, when it is open and when it is closed again: the store that opens reads the folder and puts
nothing into it (`ObjectStore.openAt_of_hasFolder`), and none of the entries is retired, so closing
deletes nothing (`Sound.backend_close_of_current`). -/
theorem openAt_listsFolder {path : Path} {disk : Disk} (hfind : disk.find path = .ok folder)
    (hfolder : disk.HasFolder folder) (id : CacheId) (hint : UInt64) :
    ∃ c slots labels, (openAt id path hint.toNat disk).result = .ok c ∧
      c.ListsFolder id disk folder slots labels ∧
      (openAt id path hint.toNat disk).state = c.backend.disk ∧
      c.backend.disk = disk.put folder (.folder 0o700) ∧
      (∀ l file, c.backend.disk.node? l = some (.file file) ↔ disk.node? l = some (.file file)) ∧
      (close c).result = .ok () ∧ (close c).state.backend = c.backend := by
  have hlimit : hint.toNat ≤ Slot.bound := Nat.le_of_lt hint.toNat_lt
  obtain ⟨s, hopen, -, hin, hdisk⟩ := ObjectStore.openAt_of_hasFolder hfind hfolder hlimit
  obtain ⟨hok, hbackend, -⟩ := openOver_store id s hint.toNat
  have hlists := listsFolder_openOver hin id hint.toNat
  have hclose := (sound_openOver hok).backend_close_of_current fun m hm e he => by
    obtain ⟨name, -, hfound⟩ := found?_of_mem_openOver hm he
    obtain ⟨o, -, rfl⟩ := found?_eq_some_iff.mp hfound
    rfl
  have hstate : (openAt id path hint.toNat disk).state =
      (openOver id s hint.toNat).state.backend.disk := (Action.bind_of_ok hopen _).2
  rw [hdisk] at hlists
  refine ⟨_, _, _, openAt_eq_ok_iff.mpr ⟨s, hopen, rfl⟩, hlists.of_put_folder, hstate, ?_, ?_,
    hclose⟩
  · rw [hbackend, hdisk]
  · intro l file
    rw [hbackend, hdisk]
    exact (Disk.AltersFolders.put (.inr hfolder) 0o700).file_iff

/-- A disk with a folder that holds two objects, and besides them a header that is not UTF-8, a file
without a zero byte, a folder, what is left of a save, and a name that is not a slot's. -/
def mixedDisk : Disk where
  nodes := [(["o", "10"], .file [0, 1]), (["o", "0"], .file [255, 0, 1]), (["o", "1"], .file [107]),
    (["o", "9"], .file [107, 32, 118, 10, 0, 7, 0]), (["o", "2"], .folder 0),
    (["o", "3.tmp"], .file [107, 0]), (["o", "04"], .file [0]), (["o"], .folder 0), ([], .folder 0)]

theorem openAt_listsFolder_mixed :
    (mixedDisk.find ⟨"/o"⟩ = .ok ["o"] ∧ mixedDisk.HasFolder ["o"]) ∧
    ∃ c slots labels, (openAt ⟨1⟩ ⟨"/o"⟩ (0 : UInt64).toNat mixedDisk).result = .ok c ∧
      c.ListsFolder ⟨1⟩ mixedDisk ["o"] slots labels ∧
      (openAt ⟨1⟩ ⟨"/o"⟩ (0 : UInt64).toNat mixedDisk).state = c.backend.disk ∧
      c.backend.disk = mixedDisk.put ["o"] (.folder 0o700) ∧
      (∀ l file, c.backend.disk.node? l = some (.file file) ↔
        mixedDisk.node? l = some (.file file)) ∧
      (close c).result = .ok () ∧ (close c).state.backend = c.backend := by
  have hfind : mixedDisk.find ⟨"/o"⟩ = .ok ["o"] := by rfl
  have hfolder : mixedDisk.HasFolder ["o"] := ⟨0, by rfl⟩
  exact ⟨⟨hfind, hfolder⟩, openAt_listsFolder hfind hfolder ⟨1⟩ 0⟩

/-- The objects are listed in the order of their numbers, although there is no room for them. -/
example : ((openAt ⟨1⟩ ⟨"/o"⟩ 0 mixedDisk).result.map fun c => c.filenames c.members).toOption =
    some ["9", "10"] := by
  decide +kernel

end Cache

end BlobCache
