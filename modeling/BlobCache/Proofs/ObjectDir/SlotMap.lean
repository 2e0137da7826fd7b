import BlobCache.ObjectDir.Basic
import BlobCache.Proofs.Labels.Format
import BlobCache.Proofs.ObjectDir.Slot
import Mathlib.Algebra.GroupWithZero.Nat
import Mathlib.Data.Fin.Tuple.Basic
import Mathlib.Data.List.FinRange
import Mathlib.Data.List.Sort

/-!
# Maps of slots

What an object directory is to its users: a map from the numbers below a limit to objects, without
disk, paths or files. `SlotMap.next` says what a call makes of the map, and `SlotMap.Agrees` what
the call answers.

* An object goes to the least number that has none (`free?_eq_some_iff`), unless every number has
  one (`free?_eq_none_iff`).
* The names of the objects are their numbers in decimal digits; any other name means nothing
  (`lookup_eq_some_iff`).
* The size of an object is that of its file: the header of its labels and its body.

`Refinement` proves that a directory answers as its map does.
-/

namespace BlobCache

/-- Number of bytes in the file of an object. -/
def StoredObject.fileSize (o : StoredObject) : Nat :=
  match o.labels.header with
  | .ok header => header.length + o.body.length
  | .error _ => o.body.length

/-! ### Calls -/

/-- A call of a store. -/
inductive StoreCall
  /-- Stores an object. -/
  | save (labels : Labels) (data : Bytes)
  /-- Deletes the object under a name. -/
  | remove (name : String)
  /-- Asks for the object under a name. -/
  | load (name : String)
  /-- Asks for the body of the object under a name. -/
  | loadBody (name : String)
  /-- Asks for the names of the objects. -/
  | list
  /-- Asks for the number of the objects. -/
  | count
  /-- Asks for the number of bytes that the objects take. -/
  | usage
  /-- Reads the directory again. -/
  | rescan
  deriving DecidableEq, Repr

/-- What a call answers if it does not fail. -/
inductive StoreAnswer
  /-- The name of the new object. -/
  | name (name : String)
  /-- An object. -/
  | object (o : StoredObject)
  /-- A body. -/
  | body (data : Bytes)
  /-- The names of the objects. -/
  | names (names : List String)
  /-- A number of objects or bytes. -/
  | number (n : Nat)
  /-- Nothing. -/
  | done
  deriving DecidableEq, Repr

/-- Makes a call. -/
def StoreCall.run : StoreCall → Action ObjectStore StoreAnswer
  | save labels data => StoreAnswer.name <$> Backend.save labels data
  | remove name => (fun _ => StoreAnswer.done) <$> Backend.remove name
  | load name => StoreAnswer.object <$> Backend.load name
  | loadBody name => StoreAnswer.body <$> Backend.loadBody name
  | list => StoreAnswer.names <$> Backend.list
  | count => (fun s => StoreAnswer.number s.dir.fileCount) <$> Action.get
  | usage => do StoreAnswer.number <$> Action.ofExcept (← Action.get).usage
  | rescan => (fun _ => StoreAnswer.done) <$> ObjectStore.rescan

/-- The store after some calls. -/
def ObjectStore.after (s : ObjectStore) : List StoreCall → ObjectStore
  | [] => s
  | call :: calls => (call.run s).state.after calls

/-! ### The map -/

/-- A map from the slots below a limit to the objects in them. -/
abbrev SlotMap (limit : Nat) : Type :=
  Fin limit → Option StoredObject

namespace SlotMap

variable {limit : Nat} {m : SlotMap limit} {n : Fin limit} {name : String} {o : StoredObject}

/-- The map without objects. -/
def empty : SlotMap limit := fun _ => none

/-- The slots that have an object, in ascending order. -/
def keys (m : SlotMap limit) : List (Fin limit) :=
  (List.finRange limit).filter fun n => (m n).isSome

/-- The least slot that has no object. -/
def free? (m : SlotMap limit) : Option (Fin limit) :=
  Fin.find? fun n => (m n).isNone

/-- The object in the slot that has a name. -/
def lookup (m : SlotMap limit) (name : String) : Option StoredObject :=
  (Fin.find? fun n : Fin limit => Slot.name n == name).bind m

/-- Number of bytes in the files of the objects. -/
def usage (m : SlotMap limit) : Nat :=
  (m.keys.map fun n => (m n).elim 0 StoredObject.fileSize).sum

/-- The map with an object in its least free slot. -/
def save (m : SlotMap limit) (o : StoredObject) : SlotMap limit :=
  match m.free? with
  | some n => Function.update m n (some o)
  | none => m

/-- The map without the object under a name. -/
def remove (m : SlotMap limit) (name : String) : SlotMap limit := fun n =>
  if Slot.name n = name then none else m n

theorem mem_keys : n ∈ m.keys ↔ m n ≠ none := by
  rw [keys, List.mem_filter, and_iff_right (List.mem_finRange n), Option.ne_none_iff_isSome]

/-- The keys ascend, as numbers. -/
theorem pairwise_keys (m : SlotMap limit) : (m.keys.map Fin.val).Pairwise (· < ·) :=
  List.pairwise_map.mpr ((List.pairwise_lt_finRange limit).filter _)

/-- The free slot is the least without an object. -/
theorem free?_eq_some_iff : m.free? = some n ↔ m n = none ∧ ∀ k < n, m k ≠ none := by
  rw [free?, Fin.find?_eq_some_iff, Option.isNone_iff_eq_none]
  refine and_congr_right fun _ => forall₂_congr fun k _ => ?_
  rw [Option.isNone_eq_false_iff, Option.ne_none_iff_isSome]

theorem length_keys_le (m : SlotMap limit) : m.keys.length ≤ limit :=
  (List.length_filter_le _ _).trans_eq List.length_finRange

theorem ne_none_of_free?_eq_none (h : m.free? = none) (n : Fin limit) : m n ≠ none :=
  Option.ne_none_iff_isSome.mpr (Option.isNone_eq_false_iff.mp (Fin.find?_eq_none_iff.mp h n))

/-- There is no free slot if there are as many objects as slots. -/
theorem free?_eq_none_iff : m.free? = none ↔ m.keys.length = limit := by
  have hall : m.keys.length = (List.finRange limit).length ↔
      ∀ n ∈ List.finRange limit, (m n).isSome := List.length_filter_eq_length_iff
  rw [List.length_finRange] at hall
  rw [free?, Fin.find?_eq_none_iff, hall]
  refine forall_congr' fun n => ?_
  rw [Option.isNone_eq_false_iff, forall_prop_of_true (List.mem_finRange n)]

/-- An object is found under the name of its slot, and under no other. -/
theorem lookup_eq_some_iff :
    m.lookup name = some o ↔ ∃ n : Fin limit, name = Slot.name n ∧ m n = some o := by
  rw [lookup, Option.bind_eq_some_iff]
  refine exists_congr fun n => and_congr_left fun _ => ?_
  rw [Fin.find?_eq_some_iff, beq_iff_eq]
  constructor
  · rintro ⟨rfl, -⟩
    rfl
  · rintro rfl
    refine ⟨rfl, fun k hk => beq_eq_false_iff_ne.mpr fun heq => ?_⟩
    exact absurd (Slot.name_injective heq) (Nat.ne_of_lt hk)

/-- Where there is nothing under a name, nothing is removed. -/
theorem remove_eq_self (h : ∀ n : Fin limit, name = Slot.name n → m n = none) :
    m.remove name = m := by
  funext n
  rw [remove]
  by_cases hn : Slot.name n = name
  · rw [if_pos hn, h n hn.symm]
  · rw [if_neg hn]

/-- Removing several objects empties their slots. -/
private theorem foldl_remove_apply (names : List String) (m : SlotMap limit) (n : Fin limit) :
    names.foldl remove m n = if Slot.name n ∈ names then none else m n := by
  induction names generalizing m with
  | nil => rfl
  | cons name names ih =>
    rw [List.foldl_cons, ih, remove]
    by_cases hn : Slot.name n ∈ names
    · rw [if_pos hn, if_pos (List.mem_cons_of_mem name hn)]
    · rw [if_neg hn]
      refine if_congr ?_ rfl rfl
      rw [List.mem_cons, or_iff_left hn]

/-! ### Objects with a label -/

/-- The slots whose objects have a label, in ascending order. -/
def matching (m : SlotMap limit) (key value : String) : List (Fin limit) :=
  m.keys.filter fun n => (m n).any (·.labels.hasLabel key value)

/-- The slots whose objects have the label; without one, those of all objects. -/
def selected (m : SlotMap limit) : Option (String × String) → List (Fin limit)
  | none => m.keys
  | some (key, value) => m.matching key value

/-- The names of the objects that have the label; without one, of all objects. -/
def names (m : SlotMap limit) (label : Option (String × String)) : List String :=
  (m.selected label).map fun n : Fin limit => Slot.name n

/-- The object with a label that is in the least slot. -/
def first? (m : SlotMap limit) (key value : String) : Option StoredObject :=
  (m.matching key value).head?.bind m

/-- The map without the objects that have a label. -/
def without (m : SlotMap limit) (key value : String) : SlotMap limit := fun n =>
  (m n).filter fun o => !o.labels.hasLabel key value

section Label

variable {key value : String}

theorem mem_matching :
    n ∈ m.matching key value ↔ ∃ o, m n = some o ∧ o.labels.hasLabel key value := by
  rw [matching, List.mem_filter, mem_keys, Option.any_eq_true, and_iff_right_iff_imp]
  rintro ⟨o, ho, -⟩
  rw [ho]
  exact Option.some_ne_none o

/-- The slots of the objects that have the label, if one is given. -/
theorem mem_selected {label : Option (String × String)} :
    n ∈ m.selected label ↔
      ∃ o, m n = some o ∧ ∀ l ∈ label, o.labels.hasLabel l.1 l.2 := by
  cases label with
  | none =>
    have hkeys : n ∈ m.selected none ↔ ∃ o, m n = some o :=
      mem_keys.trans Option.ne_none_iff_exists'
    simpa using hkeys
  | some label =>
    have hmatching : n ∈ m.selected (some label) ↔
        ∃ o, m n = some o ∧ o.labels.hasLabel label.1 label.2 := mem_matching
    simpa using hmatching

/-- The slots ascend. -/
theorem pairwise_selected (m : SlotMap limit) (label : Option (String × String)) :
    (m.selected label).Pairwise (· < ·) := by
  have hkeys : m.keys.Pairwise (· < ·) := (List.pairwise_lt_finRange limit).filter _
  cases label with
  | none => exact hkeys
  | some label => exact hkeys.filter _

theorem matching_eq_nil_iff :
    m.matching key value = [] ↔ ∀ n o, m n = some o → ¬o.labels.hasLabel key value := by
  rw [List.eq_nil_iff_forall_not_mem]
  refine forall_congr' fun n => ?_
  rw [mem_matching, not_exists]
  exact forall_congr' fun o => not_and

/-- There is no first object with a label if no object has the label. -/
theorem first?_eq_none_iff :
    m.first? key value = none ↔ ∀ n o, m n = some o → ¬o.labels.hasLabel key value := by
  rw [← matching_eq_nil_iff, first?]
  cases hall : m.matching key value with
  | nil => exact iff_of_true rfl rfl
  | cons n rest =>
    obtain ⟨o, ho, -⟩ := mem_matching.mp (hall ▸ List.mem_cons_self : n ∈ m.matching key value)
    refine iff_of_false ?_ (List.cons_ne_nil n rest)
    rw [List.head?_cons, Option.bind_some, ho]
    exact Option.some_ne_none o

/-- Of the objects with a label, the first is the one that has no other in a lesser slot. -/
theorem exists_of_first?_eq_some (h : m.first? key value = some o) :
    ∃ n, m n = some o ∧ o.labels.hasLabel key value ∧
      ∀ k < n, ∀ o', m k = some o' → ¬o'.labels.hasLabel key value := by
  rw [first?] at h
  cases hall : m.matching key value with
  | nil =>
    rw [hall] at h
    cases h
  | cons n rest =>
    have hn : n ∈ m.matching key value := hall ▸ List.mem_cons_self
    obtain ⟨o', ho, hlabel⟩ := mem_matching.mp hn
    rw [hall, List.head?_cons, Option.bind_some] at h
    obtain rfl := Option.some.inj (ho.symm.trans h)
    refine ⟨n, ho, hlabel, fun k hk o' ho' hlabel' => ?_⟩
    -- an object with the label in a lesser slot would come before the head
    have hpairwise : (n :: rest).Pairwise (· < ·) :=
      hall ▸ m.pairwise_selected (some (key, value))
    have hmem : k ∈ n :: rest := hall ▸ mem_matching.mpr ⟨o', ho', hlabel'⟩
    obtain rfl | hrest := List.mem_cons.mp hmem
    · exact lt_irrefl k hk
    · exact lt_asymm hk ((List.pairwise_cons.mp hpairwise).1 k hrest)

/-- To remove the objects with a label one by one is to remove them all. -/
theorem foldl_remove_matching (m : SlotMap limit) (key value : String) :
    ((m.matching key value).map fun n : Fin limit => Slot.name n).foldl remove m =
      m.without key value := by
  funext n
  have hmem : Slot.name n ∈ (m.matching key value).map (fun n : Fin limit => Slot.name n) ↔
      n ∈ m.matching key value := by
    rw [List.mem_map]
    refine ⟨fun ⟨k, hk, hname⟩ => ?_, fun hn => ⟨n, hn, rfl⟩⟩
    exact Fin.ext (Slot.name_injective hname) ▸ hk
  rw [foldl_remove_apply, without, if_congr (hmem.trans mem_matching) rfl rfl]
  cases ho : m n with
  | none => exact ite_self _
  | some o => cases hl : o.labels.hasLabel key value <;> simp [Option.filter, hl]

end Label

/-! ### What calls do to the map -/

/-- The map after a call. -/
def next (m : SlotMap limit) : StoreCall → SlotMap limit
  | .save labels data => if labels.Writable then m.save ⟨labels, data⟩ else m
  | .remove name => m.remove name
  | .load _ | .loadBody _ | .list | .count | .usage | .rescan => m

/-- A writable object goes to the least free slot. -/
theorem next_save_of_free {labels : Labels} (data : Bytes) (hw : labels.Writable)
    (hn : m n = none) (hleast : ∀ k < n, m k ≠ none) :
    m.next (.save labels data) = Function.update m n (some ⟨labels, data⟩) := by
  rw [next, if_pos hw, save, free?_eq_some_iff.mpr ⟨hn, hleast⟩]

/-- An object that is not writable, or for which there is no slot, is not stored. -/
theorem next_save_eq_self {labels : Labels} (data : Bytes)
    (h : ¬labels.Writable ∨ m.keys.length = limit) : m.next (.save labels data) = m := by
  rw [next]
  split
  · rw [save, free?_eq_none_iff.mpr (h.resolve_left (not_not_intro ‹_›))]
  · rfl

/-- The map after some calls. -/
def after (m : SlotMap limit) : List StoreCall → SlotMap limit
  | [] => m
  | call :: calls => (m.next call).after calls

/-- What a call answers on a map. -/
def Agrees (m : SlotMap limit) (result : Except CacheError StoreAnswer) : StoreCall → Prop
  | .save labels _ =>
    (¬labels.Writable ∧ ∃ reason, result = .error (.invalidArgument reason)) ∨
    (labels.Writable ∧ m.keys.length = limit ∧
      ∃ reason, result = .error (.writeFailed reason none)) ∨
    (labels.Writable ∧ m.keys.length ≠ limit ∧
      ∃ n, m n = none ∧ (∀ k < n, m k ≠ none) ∧ result = .ok (.name (Slot.name n)))
  | .remove name =>
    ((∃ n < Slot.bound, name = Slot.name n) ∧ result = .ok .done) ∨
    ((∀ n < Slot.bound, name ≠ Slot.name n) ∧ ∃ e, result = .error e)
  | .load name =>
    match m.lookup name with
    | some o => result = .ok (.object o)
    | none => ∃ e, result = .error e
  | .loadBody name =>
    match m.lookup name with
    | some o => result = .ok (.body o.body)
    | none => ∃ e, result = .error e
  | .list => result = .ok (.names (m.keys.map fun n : Fin limit => Slot.name n))
  | .count => result = .ok (.number m.keys.length)
  | .usage => result = .ok (.number m.usage)
  | .rescan => result = .ok .done

end SlotMap

end BlobCache
