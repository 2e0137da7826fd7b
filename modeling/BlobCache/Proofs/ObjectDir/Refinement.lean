import BlobCache.Proofs.ObjectDir.Opening
import BlobCache.Proofs.ObjectDir.SlotMap

/-!
# Directories as maps

A directory that was opened on an empty folder, and at which nobody else is, is a map of slots to
its users: every call answers what it answers on the map, after any calls before it
(`ObjectStore.refines_slotMap`). It opens for every limit, and reading it again changes nothing.

The relation between a store and its map is `ObjectStore.Mirrors`. It says of each slot what is in
its file, and that there is nothing else in the way: no file in a slot without an object, and no
folder where a temporary file is to be. All that a call answers follows from it, and every call
keeps it (`Mirrors.run`): a store that mirrors a map takes for free exactly the numbers that have no
object (`Mirrors.freeSlot?_eq`), and a file is read back as the object that was written
(`Mirrors.object_of_lookup`). From there to any number of calls is an induction (`Mirrors.after`).
-/

namespace BlobCache

/-- A sum whose terms are found one after the other. -/
private theorem foldlM_eq_ok_sum {ε α : Type} {f : Nat → α → Except ε Nat} {size : α → Nat}
    {l : List α} (h : ∀ total, ∀ a ∈ l, f total a = .ok (total + size a)) (total : Nat) :
    l.foldlM f total = .ok (total + (l.map size).sum) := by
  induction l generalizing total with
  | nil => rfl
  | cons a l ih =>
    have hrest := ih (fun t b hb => h t b (List.mem_cons_of_mem a hb)) (total + size a)
    rw [List.foldlM_cons, h total a List.mem_cons_self, List.map_cons, List.sum_cons,
      ← Nat.add_assoc]
    exact hrest

namespace ObjectStore

variable {limit : Nat} {s : ObjectStore} {folder : Location} {m : SlotMap limit} {name : String}
  {o : StoredObject}

/-- A store that has in each slot the object of a map, and nothing else that matters. -/
structure Mirrors (s : ObjectStore) (folder : Location) (m : SlotMap limit) : Prop where
  inStep : s.InStep folder
  limit_eq : s.dir.limit = limit
  /-- The objects of the map have files. -/
  stored : ∀ n o, m n = some o → ∃ header, o.labels.header = .ok header ∧
    s.disk.node? (folder ++ [Slot.name n]) = some (.file (header ++ o.body))
  /-- What is in a slot is an object of the map. -/
  mapped : ∀ n, s.disk.node? (folder ++ [Slot.name n]) ≠ none → ∃ k : Fin limit, n = k ∧ m k ≠ none
  /-- Nothing is in the way of temporary files. -/
  clear : ∀ n, ¬s.disk.HasFolder (folder ++ [Slot.temporaryName n])

namespace Mirrors

/-! ### What a store knows of its map -/

/-- A slot of the map is one that a machine word holds. -/
theorem lt_bound (h : s.Mirrors folder m) (n : Fin limit) : n.val < Slot.bound := by
  have hle := h.inStep.limit_le
  rw [h.limit_eq] at hle
  exact Nat.lt_of_lt_of_le n.isLt hle

/-- There is a node in the slot of an object. -/
private theorem node?_ne_none_iff (h : s.Mirrors folder m) {n : Nat} :
    s.disk.node? (folder ++ [Slot.name n]) ≠ none ↔ ∃ k : Fin limit, n = k ∧ m k ≠ none := by
  refine ⟨h.mapped n, ?_⟩
  rintro ⟨k, rfl, hk⟩
  obtain ⟨o, ho⟩ := Option.ne_none_iff_exists'.mp hk
  obtain ⟨header, -, hnode⟩ := h.stored k o ho
  rw [hnode]
  exact Option.some_ne_none _

theorem mem_slots_iff (h : s.Mirrors folder m) {n : Nat} :
    n ∈ s.dir.slots ↔ ∃ k : Fin limit, n = k ∧ m k ≠ none := by
  rw [h.inStep.mem_slots_iff, h.node?_ne_none_iff, and_iff_right_iff_imp]
  rintro ⟨k, rfl, -⟩
  exact h.lt_bound k

/-- The slots that the store knows are the keys of the map. -/
theorem toList_slots (h : s.Mirrors folder m) : s.dir.slots.toList = m.keys.map Fin.val := by
  refine s.dir.slots.ascending.eq_of_mem_iff m.pairwise_keys fun n => ?_
  rw [← SlotSet.mem_def, h.mem_slots_iff, List.mem_map]
  refine exists_congr fun k => ?_
  rw [SlotMap.mem_keys, and_comm, eq_comm]

/-- The store takes the same slot for the next object as the map. -/
theorem freeSlot?_eq (h : s.Mirrors folder m) : s.dir.freeSlot? = m.free?.map Fin.val := by
  cases hfree : m.free? with
  | none =>
    rw [ObjectDir.freeSlot?, h.limit_eq]
    refine if_neg fun hlt => s.dir.slots.firstGap_not_mem ?_
    exact h.mem_slots_iff.mpr ⟨⟨_, hlt⟩, rfl, m.ne_none_of_free?_eq_none hfree _⟩
  | some n =>
    obtain ⟨hnone, hbelow⟩ := SlotMap.free?_eq_some_iff.mp hfree
    refine ObjectDir.freeSlot?_eq_some_iff.mpr ⟨h.limit_eq ▸ n.isLt, fun hmem => ?_, fun k hk => ?_⟩
    · obtain ⟨k, hk, hsome⟩ := h.mem_slots_iff.mp hmem
      exact hsome (Fin.ext hk ▸ hnone)
    · have hlt : k < limit := Nat.lt_trans hk n.isLt
      exact h.mem_slots_iff.mpr ⟨⟨k, hlt⟩, rfl, hbelow ⟨k, hlt⟩ hk⟩

/-- A name under which the map has nothing is that of an empty slot, or of none. -/
private theorem node?_of_lookup_eq_none (h : s.Mirrors folder m) (hname : m.lookup name = none)
    (n : Nat) (heq : name = Slot.name n) : s.disk.node? (folder ++ [Slot.name n]) = none := by
  by_contra hne
  obtain ⟨k, rfl, hk⟩ := h.mapped n hne
  obtain ⟨o, ho⟩ := Option.ne_none_iff_exists'.mp hk
  rw [SlotMap.lookup_eq_some_iff.mpr ⟨k, heq, ho⟩] at hname
  cases hname

/-- An object of the map is read. -/
theorem object_of_lookup (h : s.Mirrors folder m) (hname : m.lookup name = some o) :
    s.object name = .ok o := by
  obtain ⟨n, rfl, hn⟩ := SlotMap.lookup_eq_some_iff.mp hname
  obtain ⟨header, hheader, hnode⟩ := h.stored n o hn
  exact h.inStep.object_of_file hheader (h.lt_bound n) hnode

/-- The files are as long as the map says. -/
theorem usage_eq (h : s.Mirrors folder m) : s.usage = .ok m.usage := by
  rw [ObjectStore.usage, h.toList_slots, List.foldlM_map, SlotMap.usage,
    ← Nat.zero_add (List.sum _)]
  refine foldlM_eq_ok_sum (fun total n hn => ?_) 0
  obtain ⟨o, ho⟩ := Option.ne_none_iff_exists'.mp (SlotMap.mem_keys.mp hn)
  obtain ⟨header, hheader, hnode⟩ := h.stored n o ho
  rw [ho, Option.elim_some, StoredObject.fileSize, hheader]
  dsimp only
  rw [Disk.stat_of_find (h.inStep.find_slotPath n) hnode]
  dsimp only
  rw [Node.size, List.length_append]

/-! ### Storing -/

/-- A store that has put an object into a slot has the slot's object in its map. -/
theorem filled (h : s.Mirrors folder m) {n : Fin limit} {labels : Labels} {header data : Bytes}
    {disk : Disk} (hheader : labels.header = .ok header)
    (hstored : s.Stored folder n labels data disk)
    (hfile : disk.node? (folder ++ [Slot.name n]) = some (.file (header ++ data))) :
    (s.filled n disk).Mirrors folder (Function.update m n (some ⟨labels, data⟩)) := by
  have hothers : ∀ k, k ≠ n.val →
      disk.node? (folder ++ [Slot.name k]) = s.disk.node? (folder ++ [Slot.name k]) := fun k hk =>
    hstored.others _ (mt Slot.append_name_inj.mp hk)
      (Slot.append_name_ne_temporaryName folder k n)
  constructor
  case inStep => exact h.inStep.filled hstored
  case limit_eq => exact h.limit_eq
  case stored =>
    intro k o ho
    rw [filled_disk]
    by_cases hk : k = n
    · subst hk
      rw [Function.update_self] at ho
      cases ho
      exact ⟨header, hheader, hfile⟩
    · rw [Function.update_of_ne hk] at ho
      rw [hothers k (Fin.val_ne_of_ne hk)]
      exact h.stored k o ho
  case mapped =>
    intro k hk
    rw [filled_disk] at hk
    by_cases hkn : k = n
    · refine ⟨n, hkn, ?_⟩
      rw [Function.update_self]
      exact Option.some_ne_none _
    · rw [hothers k hkn] at hk
      obtain ⟨i, rfl, hi⟩ := h.mapped k hk
      refine ⟨i, rfl, ?_⟩
      rwa [Function.update_of_ne fun heq => hkn (congrArg Fin.val heq)]
  case clear =>
    intro k
    rw [filled_disk]
    -- the temporary file that was there has been moved
    by_cases hk : folder ++ [Slot.temporaryName k] = folder ++ [Slot.temporaryName n]
    · rw [hk]
      exact Disk.not_hasFolder_of_none hstored.temporary
    · have hne := (Slot.append_name_ne_temporaryName folder n k).symm
      rw [Disk.HasFolder, hstored.others _ hne hk]
      exact h.clear k

/-- Storing an object answers and does what it does on the map. -/
theorem save (h : s.Mirrors folder m) (labels : Labels) (data : Bytes) :
    m.Agrees ((StoreCall.save labels data).run s).result (.save labels data) ∧
      ((StoreCall.save labels data).run s).state.Mirrors folder
        (m.next (.save labels data)) := by
  have hrun : (StoreCall.save labels data).run s =
      ⟨(ObjectStore.save labels data s).result.map .name,
        (ObjectStore.save labels data s).state, (ObjectStore.save labels data s).log⟩ :=
    Action.map_apply ..
  rw [hrun, SlotMap.next]
  dsimp only
  cases hheader : labels.header with
  | error e =>
    have hnot : ¬labels.Writable := by
      rw [← Labels.exists_header_iff, hheader]
      rintro ⟨_, heq⟩
      cases heq
    obtain ⟨hr, hs⟩ := InStep.save_of_header_error hheader data s
    rw [hr, hs, if_neg hnot]
    exact ⟨.inl ⟨hnot, _, rfl⟩, h⟩
  | ok header =>
    have hwritable : labels.Writable := Labels.exists_header_iff.mp ⟨header, hheader⟩
    have hfree := h.freeSlot?_eq
    rw [if_pos hwritable, SlotMap.save]
    cases hn : m.free? with
    | none =>
      rw [hn, Option.map_none] at hfree
      obtain ⟨⟨reason, hr⟩, hs⟩ := InStep.save_of_full hheader data hfree
      rw [hr, hs]
      exact ⟨.inr (.inl ⟨hwritable, SlotMap.free?_eq_none_iff.mp hn, reason, rfl⟩), h⟩
    | some n =>
      rw [hn, Option.map_some] at hfree
      obtain ⟨disk, hr, hs, hstored, hfile⟩ :=
        h.inStep.save_of_freeSlot hheader data hfree (h.clear n)
      have hroom : m.keys.length ≠ limit := by
        rw [Ne, ← SlotMap.free?_eq_none_iff, hn]
        exact Option.some_ne_none n
      obtain ⟨hnone, hbelow⟩ := SlotMap.free?_eq_some_iff.mp hn
      rw [hr, hs]
      exact ⟨.inr (.inr ⟨hwritable, hroom, n, hnone, hbelow, rfl⟩), h.filled hheader hstored hfile⟩

/-- Storing an object fails, or puts it into the least free slot. -/
theorem save_cases (h : s.Mirrors folder m) (labels : Labels) (data : Bytes) :
    ((¬labels.Writable ∨ m.keys.length = limit) ∧
        ∃ e, (ObjectStore.save labels data s).result = .error e) ∨
      (labels.Writable ∧ m.keys.length ≠ limit ∧ ∃ n, m n = none ∧ (∀ k < n, m k ≠ none) ∧
        (ObjectStore.save labels data s).result = .ok (Slot.name n)) := by
  obtain ⟨hagrees, -⟩ := h.save labels data
  rw [StoreCall.run, Action.map_apply] at hagrees
  have hsame : (Backend.save labels data s).result = (ObjectStore.save labels data s).result := rfl
  dsimp only at hagrees
  rw [hsame] at hagrees
  cases hr : (ObjectStore.save labels data s).result with
  | error e =>
    rw [hr] at hagrees
    obtain ⟨hnot, -⟩ | ⟨-, hfull, -⟩ | ⟨-, -, n, -, -, hok⟩ := hagrees
    · exact .inl ⟨.inl hnot, e, rfl⟩
    · exact .inl ⟨.inr hfull, e, rfl⟩
    · cases hok
  | ok name =>
    rw [hr] at hagrees
    obtain ⟨-, reason, hfailed⟩ | ⟨-, -, reason, hfailed⟩ | ⟨hw, hroom, n, hnone, hleast, hok⟩ :=
      hagrees
    · cases hfailed
    · cases hfailed
    · obtain rfl : name = Slot.name n := StoreAnswer.name.inj (Except.ok.inj hok)
      exact .inr ⟨hw, hroom, n, hnone, hleast, rfl⟩

/-! ### Deleting -/

/-- A store that has emptied a slot has nothing there in its map. -/
theorem vacated (h : s.Mirrors folder m) {n : Nat} {file : Bytes}
    (hn : s.disk.node? (folder ++ [Slot.name n]) = some (.file file)) :
    (s.vacated folder n).Mirrors folder (m.remove (Slot.name n)) := by
  constructor
  case inStep => exact h.inStep.vacated hn
  case limit_eq => exact h.limit_eq
  case stored =>
    intro k o ho
    rw [SlotMap.remove] at ho
    by_cases hk : Slot.name k = Slot.name n
    · rw [if_pos hk] at ho
      cases ho
    · rw [if_neg hk] at ho
      have hne : folder ++ [Slot.name k] ≠ folder ++ [Slot.name n] := fun heq =>
        hk (List.singleton_inj.mp (List.append_cancel_left heq))
      rw [node?_vacated, if_neg hne]
      exact h.stored k o ho
  case mapped =>
    intro k hk
    rw [node?_vacated] at hk
    by_cases hkn : folder ++ [Slot.name k] = folder ++ [Slot.name n]
    · rw [if_pos hkn] at hk
      exact absurd rfl hk
    · rw [if_neg hkn] at hk
      obtain ⟨i, rfl, hi⟩ := h.mapped k hk
      refine ⟨i, rfl, ?_⟩
      rwa [SlotMap.remove, if_neg fun heq : Slot.name i = Slot.name n => hkn (heq ▸ rfl)]
  case clear =>
    intro k
    have hne := (Slot.append_name_ne_temporaryName folder n k).symm
    rw [Disk.HasFolder, node?_vacated, if_neg hne]
    exact h.clear k

/-- Deleting an object answers and does what it does on the map. -/
theorem remove (h : s.Mirrors folder m) (name : String) :
    m.Agrees ((StoreCall.remove name).run s).result (.remove name) ∧
      ((StoreCall.remove name).run s).state.Mirrors folder (m.next (.remove name)) := by
  have hrun : (StoreCall.remove name).run s =
      ⟨(ObjectStore.remove name s).result.map fun _ => .done,
        (ObjectStore.remove name s).state, (ObjectStore.remove name s).log⟩ :=
    Action.map_apply ..
  rw [hrun, SlotMap.next]
  dsimp only
  cases hslot : Slot.ofName? name with
  | none =>
    have hnot : ∀ n < Slot.bound, name ≠ Slot.name n := by
      intro n hlt heq
      rw [Slot.ofName?_eq_some_iff.mpr ⟨heq, hlt⟩] at hslot
      cases hslot
    have hsame : m.remove name = m :=
      SlotMap.remove_eq_self fun n heq => absurd heq (hnot n (h.lt_bound n))
    rw [ObjectStore.remove, removeOn_of_ofName?_eq_none hslot, hsame]
    exact ⟨.inr ⟨hnot, _, rfl⟩, h⟩
  | some n =>
    obtain ⟨rfl, hlt⟩ := Slot.ofName?_eq_some_iff.mp hslot
    by_cases hnone : s.disk.node? (folder ++ [Slot.name n]) = none
    · obtain ⟨hr, hs⟩ := h.inStep.remove_of_none hlt hnone
      have hsame : m.remove (Slot.name n) = m := by
        refine SlotMap.remove_eq_self fun k heq => ?_
        by_contra hk
        exact h.node?_ne_none_iff.mpr ⟨k, Slot.name_injective heq, hk⟩ hnone
      rw [hr, hs, hsame]
      exact ⟨.inl ⟨⟨n, hlt, rfl⟩, rfl⟩, h⟩
    · obtain ⟨k, rfl, hk⟩ := h.mapped n hnone
      obtain ⟨o, ho⟩ := Option.ne_none_iff_exists'.mp hk
      obtain ⟨header, -, hnode⟩ := h.stored k o ho
      obtain ⟨hr, hs⟩ := h.inStep.remove_apply hlt hnode
      rw [hr, hs]
      exact ⟨.inl ⟨⟨k, hlt, rfl⟩, rfl⟩, h.vacated hnode⟩

/-! ### Whole runs -/

/-- Reading an object answers as the map does. -/
theorem load (h : s.Mirrors folder m) (name : String) :
    m.Agrees ((s.object name).map .object) (.load name) := by
  rw [SlotMap.Agrees]
  cases hname : m.lookup name with
  | some o =>
    rw [h.object_of_lookup hname]
    rfl
  | none =>
    obtain ⟨e, he⟩ := h.inStep.object_eq_error (h.node?_of_lookup_eq_none hname)
    rw [he]
    exact ⟨e, rfl⟩

/-- Reading a body answers as the map does. -/
theorem loadBody (h : s.Mirrors folder m) (name : String) :
    m.Agrees ((s.body name).map .body) (.loadBody name) := by
  rw [SlotMap.Agrees]
  cases hname : m.lookup name with
  | some o =>
    rw [InStep.body_of_object (h.object_of_lookup hname)]
    rfl
  | none =>
    obtain ⟨e, he⟩ := h.inStep.body_eq_error (h.node?_of_lookup_eq_none hname)
    rw [he]
    exact ⟨e, rfl⟩

/-- A call answers and does what it does on the map, by one lemma for each of the calls that change
the store (`Mirrors.save`, `Mirrors.remove`) or read a file (`Mirrors.load`, `Mirrors.loadBody`). -/
theorem run (h : s.Mirrors folder m) (call : StoreCall) :
    m.Agrees (call.run s).result call ∧ (call.run s).state.Mirrors folder (m.next call) := by
  cases call with
  | save labels data => exact h.save labels data
  | remove name => exact h.remove name
  | load name =>
    rw [StoreCall.run, Action.map_apply, load_apply]
    exact ⟨h.load name, h⟩
  | loadBody name =>
    rw [StoreCall.run, Action.map_apply, loadBody_apply]
    exact ⟨h.loadBody name, h⟩
  | list =>
    have hlist : (StoreCall.list.run s).result = .ok (.names s.dir.filenames) := rfl
    refine ⟨?_, h⟩
    rw [SlotMap.Agrees, hlist, ObjectDir.filenames, h.toList_slots, List.map_map]
    rfl
  | count =>
    have hcount : (StoreCall.count.run s).result = .ok (.number s.dir.slots.toList.length) := rfl
    refine ⟨?_, h⟩
    rw [SlotMap.Agrees, hcount, h.toList_slots, List.length_map]
  | usage =>
    rw [StoreCall.run, Action.bind_apply, Action.get_apply]
    dsimp only
    rw [Action.map_apply, Action.ofExcept_apply, h.usage_eq]
    exact ⟨rfl, h⟩
  | rescan =>
    obtain ⟨hr, hs⟩ := h.inStep.rescan
    rw [StoreCall.run, Action.map_apply, hr, hs]
    exact ⟨rfl, h⟩

/-- After any calls, a store has the objects of the map after these calls. -/
theorem after (h : s.Mirrors folder m) (calls : List StoreCall) :
    (s.after calls).Mirrors folder (m.after calls) := by
  induction calls generalizing s m with
  | nil => exact h
  | cons call calls ih => exact ih (h.run call).2

end Mirrors

/-- A store that opens on an empty folder has the empty map. -/
theorem exists_openAt_of_empty {path : Path} {disk : Disk} (limit : UInt64)
    (hempty : disk.readFolder path = .ok []) :
    ∃ s folder, (openAt path limit.toNat disk).result = .ok s ∧
      s.Mirrors folder (SlotMap.empty : SlotMap limit.toNat) := by
  obtain ⟨folder, hfind, hfolder, hnames⟩ := Disk.find_of_readFolder hempty
  obtain ⟨s, hopen, hpath, hin, hdisk⟩ :=
    openAt_of_hasFolder hfind hfolder (Slot.toNat_le_bound limit)
  have hnone : ∀ name, s.disk.node? (folder ++ [name]) = none := by
    intro name
    have hne : folder ++ [name] ≠ folder := by simp
    have hnot : name ∉ disk.childNames folder := by
      rw [← hnames]
      exact List.not_mem_nil
    rw [hdisk, Disk.node?_put, if_neg hne]
    exact Decidable.not_not.mp (mt Disk.mem_childNames.mpr hnot)
  refine ⟨s, folder, hopen, ?_⟩
  constructor
  case inStep => exact hin
  case limit_eq => exact limit_of_openAt hopen
  case stored => exact fun n o ho => nomatch ho
  case mapped => exact fun n hn => absurd (hnone _) hn
  case clear => exact fun n => Disk.not_hasFolder_of_none (hnone _)

/-- **Refinement.** A directory that was opened on an empty folder answers every call as a map of
slots does, after whatever calls, and does not change when it is read again. The store that opens
mirrors the empty map, and a call takes a store and the map that it mirrors to a store and the map
that it mirrors then (`Mirrors.run`, `Mirrors.after`). A store that mirrors a map is in step with
its disk, so reading the folder tells it nothing new (`InStep.rescan`). -/
theorem refines_slotMap {path : Path} {disk : Disk} (limit : UInt64)
    (hempty : disk.readFolder path = .ok []) :
    ∃ s, (openAt path limit.toNat disk).result = .ok s ∧ ∀ calls : List StoreCall,
      (∀ call, ((SlotMap.empty : SlotMap limit.toNat).after calls).Agrees
        (call.run (s.after calls)).result call) ∧
      (StoreCall.rescan.run (s.after calls)).state = s.after calls := by
  obtain ⟨s, folder, hopen, h⟩ := exists_openAt_of_empty limit hempty
  refine ⟨s, hopen, fun calls => ⟨fun call => ((h.after calls).run call).1, ?_⟩⟩
  rw [StoreCall.run, Action.map_apply]
  exact (h.after calls).inStep.rescan.2

/-- A disk with a folder for objects. -/
def folderDisk : Disk where
  nodes := [([], .folder 0), (["o"], .folder 0)]

/-- A directory for two objects. -/
theorem refines_slotMap_two :
    folderDisk.readFolder ⟨"/o"⟩ = .ok [] ∧
      ∃ s, (openAt ⟨"/o"⟩ (2 : UInt64).toNat folderDisk).result = .ok s ∧
        ∀ calls : List StoreCall,
          (∀ call, ((SlotMap.empty : SlotMap (2 : UInt64).toNat).after calls).Agrees
            (call.run (s.after calls)).result call) ∧
          (StoreCall.rescan.run (s.after calls)).state = s.after calls := by
  have hempty : folderDisk.readFolder ⟨"/o"⟩ = .ok [] := by rfl
  exact ⟨hempty, refines_slotMap 2 hempty⟩

/-- Of two objects the first is deleted, and its slot goes to the next one, which has a zero byte in
its body. -/
example :
    let calls : List StoreCall := [.save ⟨[("k", "a")]⟩ [1], .save ⟨[("k", "b")]⟩ [2],
      .remove "0", .save ⟨[("k", "c")]⟩ [3, 0, 3]]
    (do
      let s ← (openAt ⟨"/o"⟩ 2 folderDisk).result
      let names ← (StoreCall.list.run (s.after calls)).result
      let object ← ((StoreCall.load "0").run (s.after calls)).result
      let usage ← (StoreCall.usage.run (s.after calls)).result
      return [names, object, usage]).toOption =
      some [.names ["0", "1"], .object ⟨⟨[("k", "c")]⟩, [3, 0, 3]⟩, .number 14] := by
  decide +kernel

end ObjectStore

end BlobCache
