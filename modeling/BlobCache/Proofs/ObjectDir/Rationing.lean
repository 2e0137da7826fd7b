import BlobCache.Proofs.ObjectDir.Registration

/-!
# Registering a directory with a limited allowlist

A directory offers an allowlist seven rules for every slot, so it is registered exactly if there is
room for seven times its number of slots. Where there is not, the list is full in the end
(`Allowlist.forM_enter_of_exceeds`), and a full list refuses every rule from then on
(`Allowlist.IsFull`). `ObjectDir.register_rationed` tells what the list holds and permits
afterwards in either case.

Registering is entering the list of all rules (`ObjectDir.register_eq`), so where it stops is a
matter of counting: the rules that have room are a first piece of that list (`Allowlist.admitted`),
and the limit decides how long the piece is.
-/

namespace BlobCache

namespace Allowlist

variable {a : Allowlist}

/-- A full list: it refuses whatever is to be permitted, and stays as it is. -/
structure IsFull (a : Allowlist) : Prop where
  allow_eq : ∀ op path, a.allow op path =
    .error (.ruleRejected (op.name ++ " " ++ path.text ++ ": rule limit reached"))
  allowRename_eq : ∀ path target, a.allowRename path target =
    .error (.ruleRejected ("rename " ++ path.text ++ ": rule limit reached"))
  enter_eq : ∀ rule, enter rule a = ⟨.error (refusal rule), a, []⟩

private theorem isFull_of_not_hasRoom (h : a.hasRoom = false) : a.IsFull where
  allow_eq op path := by rw [allow, push, h, if_neg Bool.false_ne_true]
  allowRename_eq path target := by
    rw [allowRename, push, h, if_neg Bool.false_ne_true]
    rfl
  enter_eq := enter_of_not_hasRoom h

/-- What is permitted afterwards is what was permitted before and what the rules say that there was
room for. -/
private theorem permits_forM_enter_iff (a : Allowlist) (rules : List Rule) (op : FileOp)
    (path : Path) :
    (rules.forM enter a).state.permits op path ↔
      a.permits op path ∨ ∃ rule ∈ a.admitted rules, rule.op = op ∧ rule.path.SameFile path := by
  rw [(forM_enter a rules).1, permits_iff, permits_iff]
  simp only [Array.mem_append, List.mem_toArray, or_and_right, exists_or]

/-- Rules that there is room for are all taken. -/
private theorem forM_enter_of_fits {rules : List Rule}
    (h : ∀ limit, a.limit = some limit → a.rules.size + rules.length ≤ limit) :
    (rules.forM enter a).result = .ok () := by
  have hall : a.admitted rules = rules := by
    rw [admitted]
    cases hlimit : a.limit with
    | none => rfl
    | some limit =>
      have := h limit hlimit
      exact List.take_of_length_le (by omega)
  rw [(forM_enter a rules).2, hall, List.getElem?_eq_none (Nat.le_refl _)]

/-- Where there is no room for all rules, the list takes the first of them, refuses the one after
these, and is full in the end. -/
theorem forM_enter_of_exceeds {limit : Nat} {rules : List Rule} (hlimit : a.limit = some limit)
    (hsize : a.rules.size ≤ limit) (h : limit < a.rules.size + rules.length) :
    a.admitted rules = rules.take (limit - a.rules.size) ∧
      (∃ rule, rules[limit - a.rules.size]? = some rule ∧
        (rules.forM enter a).result = .error (refusal rule)) ∧
      (rules.forM enter a).state.hasRoom = false := by
  have hadmitted : a.admitted rules = rules.take (limit - a.rules.size) := by
    rw [admitted, hlimit]
  have hlength : (a.admitted rules).length = limit - a.rules.size := by
    rw [hadmitted, List.length_take]
    omega
  have hrule : limit - a.rules.size < rules.length := by omega
  refine ⟨hadmitted, ⟨rules[limit - a.rules.size], List.getElem?_eq_getElem hrule, ?_⟩, ?_⟩
  · rw [(forM_enter a rules).2, hlength, List.getElem?_eq_getElem hrule]
  · rw [(forM_enter a rules).1, hasRoom, hlimit]
    simp only [Array.size_append, List.size_toArray, hlength, decide_eq_false_iff_not]
    omega

end Allowlist

namespace ObjectDir

/-- The rules of all slots, slot by slot. -/
def rules (dir : ObjectDir) : List Rule :=
  (List.range dir.limit).flatMap dir.slotRules

theorem length_rules (dir : ObjectDir) : dir.rules.length = 7 * dir.limit := by
  rw [rules, List.length_flatMap]
  simp [slotRules, Nat.mul_comm]

/-- **Rationing.** A directory is registered exactly if the limit of the list leaves room for seven
rules for every slot; then these are put behind the others. Else the list takes as many of them as
there is room for, the first one left over is refused by its operation and its path, and the list is
full (`Allowlist.forM_enter_of_exceeds`). In either case, it permits what it permitted before and
what the rules say that it has taken. To register is to enter a list of rules
(`ObjectDir.register_eq`), whose length is all that the limit depends on (`ObjectDir.length_rules`).
-/
theorem register_rationed (dir : ObjectDir) (a : Allowlist)
    (h : ∀ limit, a.limit = some limit → a.rules.size ≤ limit) :
    ((dir.register a).result = .ok () ↔
      ∀ limit, a.limit = some limit → a.rules.size + 7 * dir.limit ≤ limit) ∧
    ((dir.register a).result = .ok () →
      dir.rules.length = 7 * dir.limit ∧
        (dir.register a).state = { a with rules := a.rules ++ dir.rules.toArray }) ∧
    (∀ limit, a.limit = some limit → limit < a.rules.size + 7 * dir.limit →
      (∃ rule, dir.rules[limit - a.rules.size]? = some rule ∧
        (dir.register a).result = .error
          (.ruleRejected (rule.op.name ++ " " ++ rule.path.text ++ ": rule limit reached"))) ∧
      (dir.register a).state =
        { a with rules := a.rules ++ (dir.rules.take (limit - a.rules.size)).toArray } ∧
      (dir.register a).state.IsFull) ∧
    ∀ op path, (dir.register a).state.permits op path ↔
      a.permits op path ∨
        ∃ rule ∈ (dir.register a).state.rules.toList.drop a.rules.size,
          rule.op = op ∧ rule.path.SameFile path := by
  have hregister : dir.register a = dir.rules.forM Allowlist.enter a := by rw [register_eq, rules]
  obtain ⟨hstate, -⟩ := Allowlist.forM_enter a dir.rules
  have hexceeds := fun limit (hlimit : a.limit = some limit)
      (hlt : limit < a.rules.size + 7 * dir.limit) =>
    Allowlist.forM_enter_of_exceeds hlimit (h limit hlimit) (dir.length_rules.symm ▸ hlt)
  have hfits : (dir.rules.forM Allowlist.enter a).result = .ok () →
      ∀ limit, a.limit = some limit → a.rules.size + dir.rules.length ≤ limit := by
    intro hok limit hlimit
    rw [length_rules]
    refine Nat.le_of_not_lt fun hlt => ?_
    obtain ⟨-, ⟨rule, -, hrefused⟩, -⟩ := hexceeds limit hlimit hlt
    rw [hok] at hrefused
    cases hrefused
  rw [hregister]
  refine ⟨⟨?_, fun hroom => ?_⟩, fun hok => ⟨dir.length_rules, ?_⟩, fun limit hlimit hlt => ?_,
    fun op path => ?_⟩
  · rw [← length_rules]
    exact hfits
  · rw [← length_rules] at hroom
    exact Allowlist.forM_enter_of_fits hroom
  · exact Allowlist.state_forM_enter hok
  · obtain ⟨hadmitted, hrefused, hfull⟩ := hexceeds limit hlimit hlt
    refine ⟨hrefused, ?_, Allowlist.isFull_of_not_hasRoom hfull⟩
    rw [hstate, hadmitted]
  · have happended : (a.rules ++ (a.admitted dir.rules).toArray).toList.drop a.rules.size =
        a.admitted dir.rules := by
      simp [← Array.length_toList]
    rw [Allowlist.permits_forM_enter_iff, hstate]
    dsimp only
    rw [happended]

/-- A directory with two slots. -/
def pairDir : ObjectDir where
  path := ⟨"/o"⟩
  limit := 2
  slots := .empty

/-- An allowlist that holds one rule and takes nine more. -/
def scarceList : Allowlist where
  rules := #[{ op := .stat, path := ⟨"/"⟩ }]
  limit := some 10

/-- Nine rules fit: those of the first slot and two of the second, whose third one is refused. -/
theorem register_rationed_scarce :
    (∀ limit, scarceList.limit = some limit → scarceList.rules.size ≤ limit) ∧
      (pairDir.register scarceList).result =
        .error (.ruleRejected "stat /o/1: rule limit reached") ∧
      (pairDir.register scarceList).state.IsFull ∧
      (pairDir.register scarceList).state.permits .unlink ⟨"/o//0"⟩ = true := by
  have hsize : ∀ limit, scarceList.limit = some limit → scarceList.rules.size ≤ limit := by
    rintro limit ⟨⟩
    decide
  have hrule : pairDir.rules[9]? = some { op := .stat, path := ⟨"/o/1"⟩ } := by decide +kernel
  obtain ⟨-, -, hexceeds, hpermits⟩ := register_rationed pairDir scarceList hsize
  obtain ⟨⟨rule, hmem, hrefused⟩, hstate, hfull⟩ := hexceeds 10 rfl (by decide)
  obtain rfl : _ = rule := Option.some.inj (hrule.symm.trans hmem)
  refine ⟨hsize, hrefused, hfull, (hpermits .unlink ⟨"/o//0"⟩).mpr (.inr ?_)⟩
  rw [hstate]
  decide +kernel

end ObjectDir

end BlobCache
