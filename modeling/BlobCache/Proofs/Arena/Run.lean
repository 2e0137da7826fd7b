import Mathlib.Data.List.Sigma
import BlobCache.Proofs.Arena

/-!
# Arenas in use

An arena keeps account of its values in four places: the cells with their generations, the free
list and the number of values. `Arena.Consistent` says that they agree. A call keeps them in
agreement (`Arena.Consistent.call`), so they agree after any calls, whatever identifiers are to be
removed (`Arena.consistent_run`). What the next call does then is said by `Arena.Inserts` and
`Arena.Removes`, and `Arena.run_occupancy` puts it all together.
-/

namespace BlobCache.Arena

variable {α : Type} {a : Arena α} {id : EntryId} {value : α} {index : Nat}

/-! ### Cells in use -/

/-- Number of cells in use. -/
def occupied (a : Arena α) : Nat :=
  a.cells.countP fun cell => cell.value.isSome

/-- The identifiers of the cells in use. -/
def ids (a : Arena α) : List EntryId :=
  a.cells.toList.zipIdx.filterMap fun (cell, index) =>
    cell.value.map fun _ => ⟨index, cell.generation⟩

/-- Exactly the identifiers of the cells in use lead to values. -/
theorem mem_ids_iff : id ∈ a.ids ↔ a.get? id ≠ none := by
  rw [ids, List.mem_filterMap]
  constructor
  · rintro ⟨⟨cell, index⟩, hmem, hid⟩
    obtain ⟨value, hvalue, rfl⟩ := Option.map_eq_some_iff.mp hid
    have hcell : a.cells[index]? = some cell := by
      simpa using List.mem_zipIdx_iff_getElem?.mp hmem
    simp [get?, hcell, hvalue]
  · intro h
    obtain ⟨value, hvalue⟩ := Option.ne_none_iff_exists'.mp h
    refine ⟨(⟨id.generation, some value⟩, id.index), ?_, rfl⟩
    rw [List.mem_zipIdx_iff_getElem?, Array.getElem?_toList]
    exact cell_of_get? hvalue

/-- The cells in use have different identifiers. -/
theorem nodup_ids (a : Arena α) : a.ids.Nodup := by
  rw [ids, List.Nodup, List.pairwise_filterMap]
  refine (List.pairwise_map.mp (List.nodup_zipIdx_map_snd a.cells.toList)).imp ?_
  rintro ⟨cell, i⟩ ⟨cell', i'⟩ hne id hid _ hid' rfl
  obtain ⟨-, -, hi⟩ := Option.map_eq_some_iff.mp hid
  obtain ⟨-, -, hi'⟩ := Option.map_eq_some_iff.mp hid'
  exact hne ((congrArg EntryId.index hi).trans (congrArg EntryId.index hi').symm)

theorem length_ids (a : Arena α) : a.ids.length = a.occupied := by
  have hsome : (fun c : Cell α × Nat => (c.1.value.map fun _ =>
      (⟨c.2, c.1.generation⟩ : EntryId)).isSome) = (fun cell => cell.value.isSome) ∘ Prod.fst := by
    funext c
    rw [Option.isSome_map]
    rfl
  rw [ids, List.length_filterMap_eq_countP, hsome, ← List.countP_map, List.zipIdx_map_fst,
    Array.countP_toList]
  rfl

/-- Overwriting a cell changes the number of cells in use by what is in the cell before and
afterwards. -/
private theorem occupied_setCell {cell : Cell α} (h : a.cells[index]? = some cell) (new : Cell α)
    (free : List Nat) (size : Nat) :
    occupied { cells := a.cells.setIfInBounds index new, free, size } +
        (if cell.value.isSome then 1 else 0) =
      a.occupied + if new.value.isSome then 1 else 0 := by
  obtain ⟨hlt, hcell⟩ := Array.getElem?_eq_some_iff.mp h
  have hle : (if cell.value.isSome then 1 else 0) ≤ a.occupied := by
    split
    · rename_i hsome
      refine Array.countP_pos_iff.mpr ⟨cell, ?_, hsome⟩
      exact hcell ▸ Array.getElem_mem hlt
    · exact Nat.zero_le _
  rw [occupied, Array.setIfInBounds_def, dif_pos hlt, Array.countP_set, hcell]
  rw [occupied] at hle ⊢
  omega

/-! ### The accounts -/

/-- All accounts of an arena agree: the free list names the vacant cells, each of them once, and the
size is the number of the others. -/
structure Consistent (a : Arena α) : Prop extends Sound a where
  size_eq : a.size = a.occupied

theorem consistent_empty : Consistent ({} : Arena α) where
  toSound := sound_empty
  size_eq := rfl

namespace Consistent

/-- An insertion takes a cell into use. -/
theorem insert (h : a.Consistent) (value : α) : (a.insert value).2.Consistent where
  toSound := h.toSound.insert value
  size_eq := by
    cases hf : a.free with
    | cons index free =>
      obtain ⟨cell, hc, hv⟩ := h.exists_cell_of_free hf
      rw [insert_of_free hf hc]
      have hoccupied := occupied_setCell hc ⟨cell.generation, some value⟩ free (a.size + 1)
      simpa [hv, h.size_eq] using hoccupied.symm
    | nil =>
      rw [insert_of_full hf]
      simp [occupied, h.size_eq]

/-- A removal gives a cell up. -/
theorem remove (h : a.Consistent) (id : EntryId) : (a.remove id).Consistent where
  toSound := h.toSound.remove id
  size_eq := by
    cases hid : a.get? id with
    | none =>
      rw [remove_of_get?_eq_none hid]
      exact h.size_eq
    | some value =>
      have hoccupied := occupied_setCell (cell_of_get? hid) ⟨id.generation + 1, none⟩
        (id.index :: a.free) (a.size - 1)
      rw [Option.isSome_some, if_pos rfl, Option.isSome_none, if_neg Bool.false_ne_true,
        ← h.size_eq] at hoccupied
      rw [remove_of_get? hid]
      dsimp only
      omega

end Consistent

/-! ### Calls -/

/-- What may be done to an arena. -/
inductive Call (α : Type)
  /-- A value is put in. -/
  | insert (value : α)
  /-- The value of an identifier is taken out, whether there is one or not. -/
  | remove (id : EntryId)

/-- The arena after a call. -/
def call (a : Arena α) : Call α → Arena α
  | .insert value => (a.insert value).2
  | .remove id => a.remove id

/-- The arena after calls, the first of which finds it empty. -/
def run (calls : List (Call α)) : Arena α :=
  calls.foldl call {}

theorem Consistent.call (h : a.Consistent) (c : Call α) : (a.call c).Consistent := by
  cases c with
  | insert value => exact h.insert value
  | remove id => exact h.remove id

theorem Consistent.foldl_call (h : a.Consistent) (calls : List (Call α)) :
    (calls.foldl Arena.call a).Consistent := by
  induction calls generalizing a with
  | nil => exact h
  | cons c calls ih => exact ih (h.call c)

/-- The accounts agree after any calls. -/
theorem consistent_run (calls : List (Call α)) : (run calls).Consistent :=
  consistent_empty.foldl_call calls

/-! ### The next call -/

/-- An insertion gives out an identifier that led nowhere and puts the value there, in a cell that
was vacant or did not exist. Nothing else changes. -/
structure Inserts (a : Arena α) (value : α) (id : EntryId) (b : Arena α) : Prop where
  vacant : ∀ cell, a.cells[id.index]? = some cell → cell.value = none
  cells_eq : ∀ index ≠ id.index, b.cells[index]? = a.cells[index]?
  fresh : a.get? id = none
  get?_self : b.get? id = some value
  get?_other : ∀ other ≠ id, b.get? other = a.get? other

/-- A removal hands out what the identifier led to, if it led anywhere, and from then on it leads
nowhere. Nothing else changes. -/
structure Removes (a : Arena α) (id : EntryId) : Prop where
  remove?_eq : a.remove? id = (a.get? id).map fun value => (value, a.remove id)
  unchanged : a.get? id = none → a.remove id = a
  cells_eq : ∀ index ≠ id.index, (a.remove id).cells[index]? = a.cells[index]?
  get?_self : (a.remove id).get? id = none
  get?_other : ∀ other ≠ id, (a.remove id).get? other = a.get? other

theorem Sound.inserts (h : a.Sound) (value : α) :
    a.Inserts value (a.insert value).1 (a.insert value).2 where
  vacant := by
    intro cell hcell
    cases hf : a.free with
    | cons index free =>
      obtain ⟨cell', hc, hv⟩ := h.exists_cell_of_free hf
      rw [insert_of_free hf hc, hc] at hcell
      exact Option.some.inj hcell ▸ hv
    | nil => simp [insert_of_full hf] at hcell
  cells_eq := by
    intro i hi
    cases hf : a.free with
    | cons index free =>
      obtain ⟨cell, hc, -⟩ := h.exists_cell_of_free hf
      rw [insert_of_free hf hc] at hi ⊢
      exact Array.getElem?_setIfInBounds_ne (Ne.symm hi)
    | nil =>
      rw [insert_of_full hf] at hi ⊢
      rw [Array.getElem?_push, if_neg hi]
  fresh := h.get?_fst_insert value
  get?_self := by rw [h.get?_insert, if_pos rfl]
  get?_other other hother := by rw [h.get?_insert, if_neg hother]

theorem removes (a : Arena α) (id : EntryId) : a.Removes id where
  remove?_eq := by
    rw [remove, remove?]
    cases a.get? id <;> rfl
  unchanged := remove_of_get?_eq_none
  cells_eq := by
    intro i hi
    cases hid : a.get? id with
    | none => rw [remove_of_get?_eq_none hid]
    | some value =>
      rw [remove_of_get? hid]
      exact Array.getElem?_setIfInBounds_ne (Ne.symm hi)
  get?_self := by rw [get?_remove, if_pos rfl]
  get?_other other hother := by rw [get?_remove, if_neg hother]

/-- **Occupancy.** After any insertions and removals, also under identifiers that lead nowhere any
more or were never given out, the free list names the vacant cells, each of them once, and the size
is the number of the cells in use, whose identifiers are all different and are those that lead to
values. And the next insertion and the next removal do what they should. All of it is read off
`Arena.Consistent`, which every call keeps (`Consistent.call`, `consistent_run`). -/
theorem run_occupancy (calls : List (Call α)) :
    (run calls).free.Nodup ∧
      (∀ index, index ∈ (run calls).free ↔
        ∃ cell, (run calls).cells[index]? = some cell ∧ cell.value = none) ∧
      (run calls).size = (run calls).cells.countP (fun cell => cell.value.isSome) ∧
      (run calls).ids.length = (run calls).size ∧
      (run calls).ids.Nodup ∧
      (∀ id, id ∈ (run calls).ids ↔ (run calls).get? id ≠ none) ∧
      (∀ value, (run calls).Inserts value ((run calls).insert value).1
        ((run calls).insert value).2) ∧
      ∀ id, (run calls).Removes id := by
  have h := consistent_run calls
  exact ⟨h.free_nodup, h.mem_free_iff, h.size_eq, (length_ids _).trans h.size_eq.symm,
    nodup_ids _, fun _ => mem_ids_iff, h.toSound.inserts, removes _⟩

/-- A cell that is used again does not answer to its old identifier, which removes nothing then. -/
example :
    let a := run [.insert 'a', .insert 'b', .remove ⟨0, 0⟩, .insert 'c', .remove ⟨0, 0⟩]
    a.ids = [⟨0, 1⟩, ⟨1, 0⟩] ∧ a.get? ⟨0, 1⟩ = some 'c' ∧ a.free = [] ∧ a.size = 2 := by
  decide

end BlobCache.Arena
