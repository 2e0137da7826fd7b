/-!
# Arenas

An arena keeps values in numbered cells and gives out identifiers for them. A cell whose value was
removed is used again, the one freed last first, but under a new generation, so an identifier that
was given out for an earlier value does not lead to a later one.

The view of an arena is `Arena.get?`.
-/

namespace BlobCache

/-- A cell number together with the generation of the cell's use. -/
structure EntryId where
  /-- The number of the cell. -/
  index : Nat
  /-- How often the cell was freed before, as far as 32 bits tell. -/
  generation : UInt32
  deriving DecidableEq, Repr

/-- The text of an identifier. -/
def EntryId.text (id : EntryId) : String :=
  s!"#{id.index}v{id.generation.toNat}"

/-- A cell of an arena. -/
structure Cell (α : Type) where
  /-- The generation of the present or the next value. -/
  generation : UInt32
  /-- The value, unless the cell is free. -/
  value : Option α
  deriving Repr

/-- Values in numbered cells. -/
structure Arena (α : Type) where
  /-- All cells. -/
  cells : Array (Cell α) := #[]
  /-- The numbers of the free cells, the one freed last first. -/
  free : List Nat := []
  /-- Number of values. -/
  size : Nat := 0
  deriving Repr

namespace Arena

variable {α : Type}

/-- The value that an identifier leads to. -/
def get? (a : Arena α) (id : EntryId) : Option α :=
  match a.cells[id.index]? with
  | some cell => if cell.generation = id.generation then cell.value else none
  | none => none

/-- Whether an identifier leads to a value. -/
def contains (a : Arena α) (id : EntryId) : Bool :=
  (a.get? id).isSome

/-- Puts a value into the cell freed last, or into a new one. -/
def insert (a : Arena α) (value : α) : EntryId × Arena α :=
  match a.free with
  | index :: free =>
    let generation := ((a.cells[index]?).map Cell.generation).getD 0
    (⟨index, generation⟩,
      { cells := a.cells.setIfInBounds index ⟨generation, some value⟩
        free
        size := a.size + 1 })
  | [] =>
    (⟨a.cells.size, 0⟩, { a with cells := a.cells.push ⟨0, some value⟩, size := a.size + 1 })

/-- Takes a value out; its identifier leads nowhere from then on. -/
def remove? (a : Arena α) (id : EntryId) : Option (α × Arena α) :=
  match a.get? id with
  | some value =>
    some (value,
      { cells := a.cells.setIfInBounds id.index ⟨id.generation + 1, none⟩
        free := id.index :: a.free
        size := a.size - 1 })
  | none => none

/-- The arena after a removal; it stays the same if there is nothing to remove. -/
def remove (a : Arena α) (id : EntryId) : Arena α :=
  match a.remove? id with
  | some (_, a) => a
  | none => a

/-- Changes the value that an identifier leads to. -/
def update (a : Arena α) (id : EntryId) (f : α → α) : Arena α :=
  match a.get? id with
  | some value =>
    { a with cells := a.cells.setIfInBounds id.index ⟨id.generation, some (f value)⟩ }
  | none => a

/-! ### The view -/

/-- An identifier that leads to a value has the generation of its cell. -/
theorem cell_of_get? {a : Arena α} {id : EntryId} {value : α} (h : a.get? id = some value) :
    a.cells[id.index]? = some ⟨id.generation, some value⟩ := by
  unfold get? at h
  split at h
  · rename_i cell hcell
    split at h
    · rename_i hgen
      rw [hcell, ← hgen, ← h]
    · simp at h
  · simp at h

/-- What identifiers lead to after a cell was overwritten. -/
theorem get?_setCell (a : Arena α) {index : Nat} (hlt : index < a.cells.size) (cell : Cell α)
    (free : List Nat) (size : Nat) (other : EntryId) :
    get? { cells := a.cells.setIfInBounds index cell, free, size } other =
      if other.index = index then
        if cell.generation = other.generation then cell.value else none
      else a.get? other := by
  by_cases hi : other.index = index
  · subst hi
    simp [get?, hlt]
  · simp [get?, hi, Ne.symm hi]

/-- A change to one value is seen under its identifier alone. -/
theorem get?_update (a : Arena α) (id other : EntryId) (f : α → α) :
    (a.update id f).get? other = if other = id then (a.get? id).map f else a.get? other := by
  unfold update
  split
  · rename_i value h
    have hcell := cell_of_get? h
    rw [get?_setCell a (Array.getElem?_eq_some_iff.1 hcell).1]
    by_cases ho : other = id
    · simp [ho, h]
    · by_cases hi : other.index = id.index
      · have hg : id.generation ≠ other.generation := fun hg =>
          ho (by cases other; cases id; simp_all)
        simp [get?, ho, hi, hcell, hg]
      · simp [ho, hi]
  · rename_i h
    by_cases ho : other = id
    · simp [ho, h]
    · simp [ho]

end Arena

end BlobCache
