import BlobCache.Cache.Arena

/-!
# The cells of an arena

`Arena.Sound` says that the free list names the vacant cells, each once. Every operation keeps it
(`Sound.insert`, `Sound.remove`, `Sound.update`), and on its account an insertion never overwrites
a value: the identifier that it gives out led nowhere before (`Sound.get?_fst_insert`) and leads to
the new value afterwards, and no other identifier notices (`Sound.get?_insert`). A removal is
noticed under its own identifier alone (`get?_remove`); here nothing has to be assumed, since the
next generation of the cell starts without a value.

Changes to one cell are absorbed by the change that follows them (`update_update`,
`remove_update`), with the order in which the cells will be used again. This order is a part of the
layout of an arena (`Arena.layout`), which together with the view is all there is to an arena
(`eq_of_layout_of_get?`). A change is not seen in the layout (`layout_update`), and what removals do
to it does not depend on the values (`layout_foldl_remove`).
-/

namespace BlobCache.Arena

variable {α : Type}

/-- The free list names exactly the cells without a value, and each of them once. -/
structure Sound (a : Arena α) : Prop where
  free_nodup : a.free.Nodup
  mem_free_iff : ∀ index : Nat,
    index ∈ a.free ↔ ∃ cell, a.cells[index]? = some cell ∧ cell.value = none

/-- An arena without cells is sound. -/
theorem sound_empty : Sound ({} : Arena α) where
  free_nodup := List.nodup_nil
  mem_free_iff index := by simp

/-- Identifiers with the cell and the generation of another one are that one. -/
theorem eq_of_index_of_generation {id other : EntryId} (hi : other.index = id.index)
    (hg : other.generation = id.generation) : other = id := by
  cases other
  cases id
  simp_all

/-! ### Insertion -/

/-- An insertion uses the cell that was freed last, under the generation that waits there. -/
theorem insert_of_free {a : Arena α} {index : Nat} {free : List Nat} {cell : Cell α}
    (hf : a.free = index :: free) (hc : a.cells[index]? = some cell) (value : α) :
    a.insert value = (⟨index, cell.generation⟩,
      { cells := a.cells.setIfInBounds index ⟨cell.generation, some value⟩
        free
        size := a.size + 1 }) := by
  unfold insert
  rw [hf]
  simp [hc]

/-- Without a free cell, an insertion makes a new one. -/
theorem insert_of_full {a : Arena α} (hf : a.free = []) (value : α) :
    a.insert value = (⟨a.cells.size, 0⟩,
      { cells := a.cells.push ⟨0, some value⟩
        free := []
        size := a.size + 1 }) := by
  unfold insert
  rw [hf]

namespace Sound

variable {a : Arena α}

/-- A free cell at the head of the list is there, and vacant. -/
theorem exists_cell_of_free (h : a.Sound) {index : Nat} {free : List Nat}
    (hf : a.free = index :: free) : ∃ cell, a.cells[index]? = some cell ∧ cell.value = none :=
  (h.mem_free_iff index).mp (by simp [hf])

/-- The identifier that an insertion gives out led nowhere before. -/
theorem get?_fst_insert (h : a.Sound) (value : α) : a.get? (a.insert value).1 = none := by
  cases hf : a.free with
  | cons index free =>
    obtain ⟨cell, hc, hv⟩ := h.exists_cell_of_free hf
    rw [insert_of_free hf hc]
    simp [get?, hc, hv]
  | nil =>
    rw [insert_of_full hf]
    simp [get?]

/-- What identifiers lead to after an insertion. -/
theorem get?_insert (h : a.Sound) (value : α) (id : EntryId) :
    (a.insert value).2.get? id = if id = (a.insert value).1 then some value else a.get? id := by
  cases hf : a.free with
  | cons index free =>
    obtain ⟨cell, hc, hv⟩ := h.exists_cell_of_free hf
    have hlt : index < a.cells.size := (Array.getElem?_eq_some_iff.mp hc).1
    rw [insert_of_free hf hc]
    simp only
    rw [get?_setCell a hlt]
    -- an old identifier of the cell is told apart by its generation
    by_cases hi : id.index = index
    · subst hi
      by_cases hg : cell.generation = id.generation
      · have he : id = ⟨id.index, cell.generation⟩ := eq_of_index_of_generation rfl hg.symm
        rw [if_pos rfl, if_pos hg, if_pos he]
      · have hne : id ≠ ⟨id.index, cell.generation⟩ := fun he =>
          hg (congrArg EntryId.generation he).symm
        rw [if_pos rfl, if_neg hg, if_neg hne]
        simp [get?, hc, hg]
    · have hne : id ≠ ⟨index, cell.generation⟩ := fun he => hi (congrArg EntryId.index he)
      rw [if_neg hi, if_neg hne]
  | nil =>
    rw [insert_of_full hf]
    simp only [get?, Array.getElem?_push]
    by_cases hi : id.index = a.cells.size
    · by_cases hg : (0 : UInt32) = id.generation
      · rw [if_pos hi, if_pos (eq_of_index_of_generation hi hg.symm)]
        exact if_pos hg
      · have hne : id ≠ ⟨a.cells.size, 0⟩ := fun he => hg (congrArg EntryId.generation he).symm
        simp [hi, hg, hne]
    · have hne : id ≠ ⟨a.cells.size, 0⟩ := fun he => hi (congrArg EntryId.index he)
      rw [if_neg hi, if_neg hne]

/-- An insertion takes one cell off the free list at most. -/
theorem insert (h : a.Sound) (value : α) : (a.insert value).2.Sound := by
  cases hf : a.free with
  | cons index free =>
    obtain ⟨cell, hc, -⟩ := h.exists_cell_of_free hf
    have hlt : index < a.cells.size := (Array.getElem?_eq_some_iff.mp hc).1
    obtain ⟨hnot, hnodup⟩ := List.nodup_cons.mp (hf ▸ h.free_nodup)
    rw [insert_of_free hf hc]
    refine ⟨hnodup, fun i => ?_⟩
    simp only [Array.getElem?_setIfInBounds]
    by_cases hi : index = i
    · subst hi
      simp [hlt, hnot]
    · have hmem := h.mem_free_iff i
      rw [hf, List.mem_cons, or_iff_right (Ne.symm hi)] at hmem
      simpa [hi] using hmem
  | nil =>
    rw [insert_of_full hf]
    refine ⟨List.nodup_nil, fun i => ?_⟩
    have hmem := h.mem_free_iff i
    rw [hf] at hmem
    by_cases hi : i = a.cells.size
    · simp [hi]
    · simpa [Array.getElem?_push, hi] using hmem

end Sound

/-! ### Removal and change -/

/-- A removal of a value vacates its cell, and the cell waits for its next generation. -/
theorem remove_of_get? {a : Arena α} {id : EntryId} {value : α} (h : a.get? id = some value) :
    a.remove id =
      { cells := a.cells.setIfInBounds id.index ⟨id.generation + 1, none⟩
        free := id.index :: a.free
        size := a.size - 1 } := by
  simp [remove, remove?, h]

/-- There is nothing to remove under an identifier that leads nowhere. -/
theorem remove_of_get?_eq_none {a : Arena α} {id : EntryId} (h : a.get? id = none) :
    a.remove id = a := by
  simp [remove, remove?, h]

/-- What identifiers lead to after a removal. -/
theorem get?_remove (a : Arena α) (id other : EntryId) :
    (a.remove id).get? other = if other = id then none else a.get? other := by
  cases h : a.get? id with
  | none =>
    rw [remove_of_get?_eq_none h]
    by_cases ho : other = id
    · rw [if_pos ho, ho, h]
    · rw [if_neg ho]
  | some value =>
    have hcell := cell_of_get? h
    rw [remove_of_get? h, get?_setCell a (Array.getElem?_eq_some_iff.mp hcell).1]
    by_cases hi : other.index = id.index
    · by_cases hg : other.generation = id.generation
      · simp [eq_of_index_of_generation hi hg]
      · have hne : other ≠ id := fun he => hg (congrArg EntryId.generation he)
        rw [if_neg hne]
        simp [get?, hi, hcell, Ne.symm hg]
    · have hne : other ≠ id := fun he => hi (congrArg EntryId.index he)
      rw [if_neg hi, if_neg hne]

/-- Two changes to one value are one change. -/
theorem update_update (a : Arena α) (id : EntryId) (f g : α → α) :
    (a.update id f).update id g = a.update id (g ∘ f) := by
  cases h : a.get? id with
  | none =>
    have hf : a.update id f = a := by simp [update, h]
    rw [hf]
    simp [update, h]
  | some value =>
    have hf : (a.update id f).get? id = some (f value) := by simp [get?_update, h]
    unfold update at hf ⊢
    simp only [h] at hf ⊢
    rw [hf]
    simp

/-- A change to a value that is removed next leaves no trace. -/
theorem remove_update (a : Arena α) (id : EntryId) (f : α → α) :
    (a.update id f).remove id = a.remove id := by
  cases h : a.get? id with
  | none =>
    have hf : a.update id f = a := by simp [update, h]
    rw [hf]
  | some value =>
    have hf : (a.update id f).get? id = some (f value) := by simp [get?_update, h]
    rw [remove_of_get? hf, remove_of_get? h]
    simp [update, h]

namespace Sound

variable {a : Arena α}

/-- A removal puts the cell that it vacates on the free list. -/
theorem remove (h : a.Sound) (id : EntryId) : (a.remove id).Sound := by
  cases hid : a.get? id with
  | none => rwa [remove_of_get?_eq_none hid]
  | some value =>
    have hcell := cell_of_get? hid
    have hlt : id.index < a.cells.size := (Array.getElem?_eq_some_iff.mp hcell).1
    -- a cell in use is not free, so no cell is freed twice
    have hnot : id.index ∉ a.free := by
      rw [h.mem_free_iff]
      rintro ⟨cell, hc, hv⟩
      rw [hcell] at hc
      cases hc
      cases hv
    rw [remove_of_get? hid]
    refine ⟨List.nodup_cons.mpr ⟨hnot, h.free_nodup⟩, fun i => ?_⟩
    simp only [Array.getElem?_setIfInBounds, List.mem_cons]
    by_cases hi : id.index = i
    · simp [hi ▸ hlt, hi]
    · rw [or_iff_right (Ne.symm hi), h.mem_free_iff]
      simp [hi]

/-- A change to a value leaves its cell in use. -/
theorem update (h : a.Sound) (id : EntryId) (f : α → α) : (a.update id f).Sound := by
  cases hid : a.get? id with
  | none =>
    have hf : a.update id f = a := by simp [Arena.update, hid]
    rwa [hf]
  | some value =>
    have hcell := cell_of_get? hid
    have hlt : id.index < a.cells.size := (Array.getElem?_eq_some_iff.mp hcell).1
    refine ⟨by simpa [Arena.update, hid] using h.free_nodup, fun i => ?_⟩
    simp only [Arena.update, hid, Array.getElem?_setIfInBounds]
    rw [h.mem_free_iff]
    by_cases hi : id.index = i
    · subst hi
      rw [hcell]
      simp [hlt]
    · simp [hi]

end Sound

/-! ### Layout -/

/-- An arena apart from its values: the generations of the cells, which of them are free, and in
which order these will be used again. -/
def layout (a : Arena α) : Arena Unit :=
  { cells := a.cells.map fun cell => ⟨cell.generation, cell.value.map fun _ => ()⟩
    free := a.free
    size := a.size }

/-- A change to a value is not seen in the layout. -/
theorem layout_update (a : Arena α) (id : EntryId) (f : α → α) :
    (a.update id f).layout = a.layout := by
  cases h : a.get? id with
  | none =>
    have hf : a.update id f = a := by simp [update, h]
    rw [hf]
  | some value =>
    have hcell := cell_of_get? h
    have hlt : id.index < a.cells.size := (Array.getElem?_eq_some_iff.mp hcell).1
    have hcells : (a.update id f).layout.cells = a.layout.cells := by
      refine Array.ext_getElem? fun i => ?_
      simp only [layout, update, h, Array.getElem?_map, Array.getElem?_setIfInBounds]
      by_cases hi : id.index = i
      · subst hi
        rw [if_pos rfl, if_pos hlt, hcell]
        rfl
      · rw [if_neg hi]
    have hfree : (a.update id f).free = a.free := by simp [update, h]
    have hsize : (a.update id f).size = a.size := by simp [update, h]
    unfold layout at hcells ⊢
    rw [hfree, hsize]
    exact congrArg (fun cells => ({ cells, free := a.free, size := a.size } : Arena Unit)) hcells

/-- In the layout, the same identifiers lead somewhere. -/
theorem get?_layout (a : Arena α) (id : EntryId) :
    a.layout.get? id = (a.get? id).map fun _ => () := by
  simp only [get?, layout, Array.getElem?_map]
  cases a.cells[id.index]? with
  | none => rfl
  | some cell =>
    dsimp only [Option.map_some]
    split <;> rfl

/-- A removal does to the layout what it does to the arena. -/
theorem layout_remove (a : Arena α) (id : EntryId) : (a.remove id).layout = a.layout.remove id := by
  have hget := a.get?_layout id
  cases h : a.get? id with
  | none =>
    rw [h, Option.map_none] at hget
    rw [remove_of_get?_eq_none h, remove_of_get?_eq_none hget]
  | some value =>
    rw [h, Option.map_some] at hget
    rw [remove_of_get? h, remove_of_get? hget]
    simp [layout, Array.map_setIfInBounds]

/-- The layout after several removals depends on the layout before alone. -/
theorem layout_foldl_remove (a : Arena α) (ids : List EntryId) :
    (ids.foldl remove a).layout = ids.foldl remove a.layout := by
  induction ids generalizing a with
  | nil => rfl
  | cons id ids ih => rw [List.foldl_cons, List.foldl_cons, ih, layout_remove]

/-- An arena is its layout and what its identifiers lead to. -/
theorem eq_of_layout_of_get? {a b : Arena α} (hlayout : a.layout = b.layout)
    (hget : ∀ id, a.get? id = b.get? id) : a = b := by
  have hcells : a.cells = b.cells := by
    refine Array.ext_getElem? fun i => ?_
    have hi := congrArg (fun l => l.cells[i]?) hlayout
    simp only [layout, Array.getElem?_map] at hi
    cases ha : a.cells[i]? with
    | none =>
      rw [ha, Option.map_none, eq_comm, Option.map_eq_none_iff] at hi
      exact hi.symm
    | some cell =>
      rw [ha, Option.map_some, eq_comm, Option.map_eq_some_iff] at hi
      obtain ⟨cell', hb, hcell⟩ := hi
      have hgeneration : cell'.generation = cell.generation := (Cell.mk.inj hcell).1
      -- the identifier of the cell leads to its value
      have hvalue := hget ⟨i, cell.generation⟩
      simp only [get?, ha, hb, hgeneration, if_true] at hvalue
      cases cell
      cases cell'
      simp_all
  have hfree : a.free = b.free := congrArg (fun l => l.free) hlayout
  have hsize : a.size = b.size := congrArg (fun l => l.size) hlayout
  cases a
  cases b
  simp_all

end BlobCache.Arena
