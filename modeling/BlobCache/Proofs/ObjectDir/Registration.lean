import BlobCache.ObjectDir.Basic
import BlobCache.Proofs.Action
import BlobCache.Proofs.ObjectDir.Store

/-!
# Registering a directory

An allowlist takes the rules that it is offered as long as there is room for them, and the first
one without room is refused (`Allowlist.forM_enter`). A directory that is registered takes seven
rules for each of its slots into the list, slot by slot (`ObjectDir.register_eq`). If there is room
for all of them, the list then permits what it permitted before and what the rules of the slots
below the limit permit (`ObjectDir.permits_register_iff`).
-/

namespace BlobCache

namespace Allowlist

variable {a : Allowlist} {rule : Rule} {rules : List Rule} {op : FileOp} {path : Path}

/-- Takes a rule into the list. -/
def enter (rule : Rule) : Action Allowlist Unit := do
  Action.set (← Action.ofExcept ((← Action.get).push rule))

/-- The rules that there is room for, out of those that are offered. -/
def admitted (a : Allowlist) (rules : List Rule) : List Rule :=
  match a.limit with
  | none => rules
  | some limit => rules.take (limit - a.rules.size)

/-- The refusal of a rule, which names its operation and its path. -/
def refusal (rule : Rule) : CacheError :=
  .ruleRejected (rule.op.name ++ " " ++ rule.path.text ++ ": rule limit reached")

/-! ### Single rules -/

theorem hasRoom_iff : a.hasRoom = true ↔ ∀ limit, a.limit = some limit → a.rules.size < limit := by
  rw [hasRoom]
  cases a.limit with
  | none => simp
  | some limit => simp

private theorem enter_of_hasRoom (h : a.hasRoom = true) (rule : Rule) :
    enter rule a = ⟨.ok (), { a with rules := a.rules.push rule }, []⟩ := by
  rw [enter, Action.bind_apply, Action.get_apply]
  dsimp only
  rw [Action.bind_apply, Action.ofExcept_apply, push, if_pos h]
  rfl

/-- A full list refuses every rule and stays as it is. -/
theorem enter_of_not_hasRoom (h : a.hasRoom = false) (rule : Rule) :
    enter rule a = ⟨.error (refusal rule), a, []⟩ := by
  rw [enter, Action.bind_apply, Action.get_apply]
  dsimp only
  rw [Action.bind_apply, Action.ofExcept_apply, push, h, if_neg Bool.false_ne_true]
  rfl

private theorem admitted_of_not_hasRoom (h : a.hasRoom = false) (rules : List Rule) :
    a.admitted rules = [] := by
  rw [hasRoom] at h
  rw [admitted]
  cases hlimit : a.limit with
  | none => simp [hlimit] at h
  | some limit =>
    rw [hlimit] at h
    have hle : limit ≤ a.rules.size := by simpa using h
    simp [Nat.sub_eq_zero_of_le hle]

/-- The first rule is taken if there is room, and the others find the room that it leaves. -/
private theorem admitted_cons (h : a.hasRoom = true) (rule : Rule) (rules : List Rule) :
    a.admitted (rule :: rules) =
      rule :: { a with rules := a.rules.push rule }.admitted rules := by
  rw [hasRoom_iff] at h
  rw [admitted, admitted]
  cases hlimit : a.limit with
  | none => rfl
  | some limit =>
    have hroom : limit - a.rules.size = limit - (a.rules.push rule).size + 1 := by
      have := h limit hlimit
      rw [Array.size_push]
      omega
    simp only [hroom, List.take_succ_cons]

/-! ### Rules one after the other -/

/-- Rules are taken as long as there is room, and the first one without room is refused. -/
theorem forM_enter (a : Allowlist) (rules : List Rule) :
    (rules.forM enter a).state = { a with rules := a.rules ++ (a.admitted rules).toArray } ∧
      (rules.forM enter a).result =
        match rules[(a.admitted rules).length]? with
        | none => .ok ()
        | some rule => .error (refusal rule) := by
  induction rules generalizing a with
  | nil =>
    have hnil : a.admitted [] = [] := by
      rw [admitted]
      cases a.limit <;> simp
    rw [hnil]
    simp [List.forM, Action.pure_apply]
  | cons rule rules ih =>
    rw [List.forM_eq_forM, List.forM_cons, Action.bind_apply]
    cases hroom : a.hasRoom with
    | true =>
      obtain ⟨hstate, hresult⟩ := ih { a with rules := a.rules.push rule }
      rw [enter_of_hasRoom hroom, admitted_cons hroom]
      dsimp only
      rw [← List.forM_eq_forM, hstate, hresult]
      simp
    | false =>
      rw [enter_of_not_hasRoom hroom, admitted_of_not_hasRoom hroom]
      simp

theorem admitted_prefix (a : Allowlist) (rules : List Rule) : a.admitted rules <+: rules := by
  rw [admitted]
  cases a.limit with
  | none => exact List.prefix_refl rules
  | some limit => exact List.take_prefix _ rules

/-- Rules that are all taken are put behind the others. -/
theorem state_forM_enter (h : (rules.forM enter a).result = .ok ()) :
    (rules.forM enter a).state = { a with rules := a.rules ++ rules.toArray } := by
  obtain ⟨hstate, hresult⟩ := forM_enter a rules
  have hall : a.admitted rules = rules := by
    refine (a.admitted_prefix rules).eq_of_length_le ?_
    rw [h] at hresult
    cases hnext : rules[(a.admitted rules).length]? with
    | none => exact List.getElem?_eq_none_iff.mp hnext
    | some rule =>
      rw [hnext] at hresult
      cases hresult
  rw [hstate, hall]

/-! ### What is permitted -/

theorem permits_iff :
    a.permits op path ↔ ∃ rule ∈ a.rules, rule.op = op ∧ rule.path.SameFile path := by
  rw [permits, Array.any_eq_true']
  simp only [Bool.and_eq_true, beq_iff_eq, decide_eq_true_eq]

end Allowlist

namespace ObjectDir

/-- What is permitted for the files of a slot. -/
def slotRules (dir : ObjectDir) (slot : Nat) : List Rule :=
  let path := dir.slotPath slot
  let temporary := dir.temporaryPath slot
  [{ op := .read, path }, { op := .read, path := temporary }, { op := .stat, path },
    { op := .stat, path := temporary }, { op := .unlink, path },
    { op := .unlink, path := temporary }, { op := .rename, path := temporary, target := some path }]

variable {dir : ObjectDir}

private theorem registerSlot_eq (dir : ObjectDir) (slot : Nat) :
    dir.registerSlot slot = (dir.slotRules slot).forM Allowlist.enter := by
  simp only [slotRules, List.forM_eq_forM, List.forM_cons, List.forM_nil, bind_pure_unit]
  rfl

/-- The slots are registered one after the other. -/
private theorem registerFrom_eq (dir : ObjectDir) (count slot : Nat) :
    dir.registerFrom count slot =
      ((List.range' slot count).flatMap dir.slotRules).forM Allowlist.enter := by
  induction count generalizing slot with
  | zero => rfl
  | succ count ih =>
    rw [registerFrom, registerSlot_eq, ih, List.range'_succ, List.flatMap_cons]
    simp only [List.forM_eq_forM, List.forM_append]

/-- To register a directory is to take the rules of its slots into the list. -/
theorem register_eq (dir : ObjectDir) :
    dir.register = ((List.range dir.limit).flatMap dir.slotRules).forM Allowlist.enter := by
  rw [register, registerFrom_eq, List.range_eq_range']

/-! ### Telling the files of slots apart -/

/-- The steps of a path in the directory. -/
private theorem components_join_isPlain {name : String} (h : Path.IsPlain name) (p : Path) :
    (p.join name).components = p.components ++ [name.toList] := by
  refine p.components_join h.no_slash ?_
  have hdot : name.toList ≠ ['.'] := fun heq => h.ne_dot (String.toList_inj.mp heq)
  simp [Path.isIdle, h.ne_nil, hdot]

theorem sameFile_join_iff {name other : String} (h : Path.IsPlain name) (h' : Path.IsPlain other)
    (p : Path) : (p.join name).SameFile (p.join other) ↔ name = other := by
  rw [Path.SameFile, components_join_isPlain h, components_join_isPlain h',
    List.append_cancel_left_eq, List.singleton_inj, String.toList_inj]

/-- A path is that of a file of a slot. -/
def IsFileOf (dir : ObjectDir) (slot : Nat) (path : Path) : Prop :=
  path = dir.slotPath slot ∨ path = dir.temporaryPath slot

/-- A file belongs to one slot. -/
private theorem IsFileOf.slot_eq {m n : Nat} {p q : Path} (hp : dir.IsFileOf m p)
    (hq : dir.IsFileOf n q) (h : p.SameFile q) : m = n := by
  rcases hp with rfl | rfl <;> rcases hq with rfl | rfl
  · exact Slot.name_injective
      ((sameFile_join_iff (Slot.isPlain_name m) (Slot.isPlain_name n) _).mp h)
  · exact absurd
      ((sameFile_join_iff (Slot.isPlain_name m) (Slot.isPlain_temporaryName n) _).mp h).symm
      (Slot.temporaryName_ne_name n m)
  · exact absurd ((sameFile_join_iff (Slot.isPlain_temporaryName m) (Slot.isPlain_name n) _).mp h)
      (Slot.temporaryName_ne_name m n)
  · exact Slot.temporaryName_injective
      ((sameFile_join_iff (Slot.isPlain_temporaryName m) (Slot.isPlain_temporaryName n) _).mp h)

theorem isFileOf_of_mem_slotRules {slot : Nat} {rule : Rule} (h : rule ∈ dir.slotRules slot) :
    dir.IsFileOf slot rule.path := by
  simp only [slotRules, List.mem_cons, List.not_mem_nil, or_false] at h
  rcases h with rfl | rfl | rfl | rfl | rfl | rfl | rfl
  · exact .inl rfl
  · exact .inr rfl
  · exact .inl rfl
  · exact .inr rfl
  · exact .inl rfl
  · exact .inr rfl
  · exact .inr rfl

/-! ### What is permitted in the end -/

/-- Of the files of slots, a registered directory has those below the limit permitted, as far as
rules speak of them, and has no others permitted that were not so before. -/
theorem permits_register_iff {rules : Allowlist} {slot : Nat} {op : FileOp} {path : Path}
    (h : (dir.register rules).result = .ok ()) (hpath : dir.IsFileOf slot path) :
    (dir.register rules).state.permits op path ↔
      rules.permits op path ∨
        slot < dir.limit ∧ ∃ rule ∈ dir.slotRules slot, rule.op = op ∧ rule.path.SameFile path := by
  rw [register_eq] at h ⊢
  rw [Allowlist.state_forM_enter h, Allowlist.permits_iff, Allowlist.permits_iff]
  dsimp only
  constructor
  · rintro ⟨rule, hrule, hop, hsame⟩
    rw [Array.mem_append] at hrule
    obtain hrule | hrule := hrule
    · exact .inl ⟨rule, hrule, hop, hsame⟩
    · obtain ⟨m, hm, hrule⟩ := List.mem_flatMap.mp (List.mem_toArray.mp hrule)
      obtain rfl := (isFileOf_of_mem_slotRules hrule).slot_eq hpath hsame
      exact .inr ⟨List.mem_range.mp hm, rule, hrule, hop, hsame⟩
  · rintro (⟨rule, hrule, hop, hsame⟩ | ⟨hlt, rule, hrule, hop, hsame⟩)
    · exact ⟨rule, Array.mem_append_left _ hrule, hop, hsame⟩
    · refine ⟨rule, Array.mem_append_right _ (List.mem_toArray.mpr ?_), hop, hsame⟩
      exact List.mem_flatMap.mpr ⟨slot, List.mem_range.mpr hlt, hrule⟩

end ObjectDir

end BlobCache
