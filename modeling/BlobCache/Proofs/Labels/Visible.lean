import BlobCache.Labels.Basic
import Mathlib.Data.String.Basic

/-!
# The labels that lookups find

`Labels.visible` goes through all labels and keeps the first one of every key; a lookup stops at the
first label with its key. The two agree on every list of labels, however often a key is repeated
(`Labels.mem_visible`), because putting a label in changes what lookups find as appending it does
(`Labels.lookup_insertIfAbsent`). That takes labels by ascending key, and they stay so.
-/

namespace BlobCache.Labels

variable {key value k v : String} {ls : List (String × String)}

/-- Labels by ascending key; no key is there twice. -/
def Ascending (ls : List (String × String)) : Prop :=
  ls.Pairwise (·.1 < ·.1)

/-- Putting a label in brings nothing else in. -/
private theorem eq_or_mem_of_mem_insertIfAbsent {p : String × String}
    (h : p ∈ insertIfAbsent key value ls) : p = (key, value) ∨ p ∈ ls := by
  induction ls with
  | nil => exact .inl (List.mem_singleton.mp h)
  | cons q ls ih =>
    rw [insertIfAbsent] at h
    split at h
    · exact List.mem_cons.mp h
    · split at h
      · exact .inr h
      · rcases List.mem_cons.mp h with rfl | h
        · exact .inr List.mem_cons_self
        · exact (ih h).imp_right (List.mem_cons_of_mem q)

theorem Ascending.insertIfAbsent (h : Ascending ls) (key value : String) :
    Ascending (insertIfAbsent key value ls) := by
  induction ls with
  | nil => exact List.pairwise_singleton _ _
  | cons q ls ih =>
    obtain ⟨hq, hls⟩ := List.pairwise_cons.mp h
    rw [Labels.insertIfAbsent]
    split
    · rename_i hlt
      refine List.pairwise_cons.mpr ⟨fun p hp => ?_, h⟩
      rcases List.mem_cons.mp hp with rfl | hp
      · exact hlt
      · exact String.lt_trans hlt (hq p hp)
    · split
      · exact h
      · rename_i hnot hne
        refine List.pairwise_cons.mpr ⟨fun p hp => ?_, ih hls⟩
        rcases eq_or_mem_of_mem_insertIfAbsent hp with rfl | hp
        · exact lt_of_le_of_ne (not_lt.mp hnot) (Ne.symm hne)
        · exact hq p hp

/-- A lookup passes over a label with another key. -/
private theorem lookup_cons_of_ne (h : k ≠ key) (value : String) (ls : List (String × String)) :
    ((key, value) :: ls).lookup k = ls.lookup k := by
  rw [List.lookup_cons, beq_eq_false_iff_ne.mpr h]

/-- A key that comes before all others is not among them. -/
private theorem lookup_eq_none_of_lt (h : ∀ p ∈ ls, key < p.1) : ls.lookup key = none :=
  List.lookup_eq_none_iff.mpr fun p hp => bne_iff_ne.mpr (ne_of_lt (h p hp))

/-- A label that is put in is found where its key is new, as if it came behind the others. -/
theorem lookup_insertIfAbsent (h : Ascending ls) (key value k : String) :
    (insertIfAbsent key value ls).lookup k = (ls ++ [(key, value)]).lookup k := by
  induction ls with
  | nil => rfl
  | cons q ls ih =>
    obtain ⟨hq, hls⟩ := List.pairwise_cons.mp h
    rw [insertIfAbsent]
    split
    · rename_i hlt
      -- the key is new, so it makes no difference where the label is
      have hnone : (q :: ls).lookup key = none := lookup_eq_none_of_lt fun p hp => by
        rcases List.mem_cons.mp hp with rfl | hp
        · exact hlt
        · exact String.lt_trans hlt (hq p hp)
      rw [List.lookup_append]
      by_cases hk : k = key
      · rw [hk, hnone, List.lookup_cons_self, List.lookup_cons_self, Option.none_or]
      · rw [lookup_cons_of_ne hk, lookup_cons_of_ne hk, List.lookup_nil, Option.or_none]
    · split
      · rename_i heq
        -- the key is there, and hides the label behind it
        rw [List.lookup_append]
        by_cases hk : k = key
        · rw [hk, heq, List.lookup_cons_self, Option.some_or]
        · rw [lookup_cons_of_ne hk, List.lookup_nil, Option.or_none]
      · rw [List.cons_append, List.lookup_cons, List.lookup_cons, ih hls]

/-- Labels that are put in one after the other are found as if they were appended. -/
private theorem lookup_foldl_insertIfAbsent (more : List (String × String)) (h : Ascending ls)
    (k : String) :
    (more.foldl (fun shown (key, value) => insertIfAbsent key value shown) ls).lookup k =
      (ls ++ more).lookup k := by
  induction more generalizing ls with
  | nil => rw [List.foldl_nil, List.append_nil]
  | cons p more ih =>
    rw [List.foldl_cons, ih (h.insertIfAbsent p.1 p.2), List.lookup_append,
      lookup_insertIfAbsent h, ← List.lookup_append, List.append_assoc]
    rfl

theorem Ascending.foldl_insertIfAbsent (more : List (String × String)) (h : Ascending ls) :
    Ascending
      (more.foldl (fun shown (key, value) => Labels.insertIfAbsent key value shown) ls) := by
  induction more generalizing ls with
  | nil => exact h
  | cons p more ih => exact ih (h.insertIfAbsent p.1 p.2)

theorem ascending_visible (ls : Labels) : Ascending ls.visible :=
  Ascending.foldl_insertIfAbsent ls.toList .nil

/-- What is shown under a key is what a lookup finds. -/
theorem lookup_visible (ls : Labels) (key : String) : ls.visible.lookup key = ls.value? key :=
  lookup_foldl_insertIfAbsent ls.toList .nil key

/-- Among labels by ascending key, every label is found under its key. -/
theorem Ascending.mem_iff (h : Ascending ls) : (k, v) ∈ ls ↔ ls.lookup k = some v := by
  constructor
  · intro hmem
    obtain ⟨above, below, rfl⟩ := List.append_of_mem hmem
    have habove := (List.pairwise_append.mp h).2.2
    refine List.lookup_eq_some_iff.mpr ⟨above, below, rfl, fun p hp => ?_⟩
    exact bne_iff_ne.mpr (ne_of_gt (habove p hp (k, v) List.mem_cons_self))
  · intro hlookup
    obtain ⟨above, below, rfl, -⟩ := List.lookup_eq_some_iff.mp hlookup
    exact List.mem_append_right _ List.mem_cons_self

/-- The labels that are shown are those that lookups find: the first value of every key, by
ascending key (`ascending_visible`). -/
theorem mem_visible {ls : Labels} : (k, v) ∈ ls.visible ↔ ls.value? k = some v := by
  rw [ls.ascending_visible.mem_iff, lookup_visible]

end BlobCache.Labels
