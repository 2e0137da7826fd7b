import BlobCache.Proofs.Cache.Deletion
import BlobCache.Proofs.Cache.Generations
import BlobCache.Proofs.Cache.Lookup

/-!
# What lookups find

There are three ways to look for entries with a label: all of them, the first of them, and a filter
of any list of identifiers. The first two pass over retired entries and entries off the list, the
third looks at labels alone. `Cache.Finds` says what each of them gives, and that they agree where
they overlap.

An entry that is retired is hidden from lookups for good, while it stays listed until a purge takes
it (`Cache.Hides`): no call takes the mark off an entry (`Entry.TurnsInto.retired`), and no call but
a purge takes an entry off the list (`Sound.mem_members_run`). A run may give the identifier of the
entry to another one, which is not hidden, but not before the entry is gone and its cell was freed
2³² times.

`finds_after` has both for every cache that a run can reach.
-/

namespace BlobCache

namespace Cache

variable {β : Type}

/-- What the lookups in a cache give. -/
structure Finds (c : Cache β) : Prop where
  /-- No entry is found twice. -/
  nodup : ∀ key value, (c.findAll (some key) value).Nodup
  /-- Entries are found in the order of the list. -/
  sublist : ∀ key value, (c.findAll (some key) value).Sublist c.members
  /-- Found are the listed entries that are not retired and whose first value under the key is the
  one that is looked for. -/
  mem_iff : ∀ key value id, id ∈ c.findAll (some key) value ↔
    id ∈ c.members ∧
      ∃ e, c.get? id = some e ∧ e.retired = false ∧ e.labels.value? key = some value
  /-- A lookup for one entry gives the first of them. -/
  find?_eq : ∀ key value, c.find? key value = (c.findAll (some key) value).head?
  /-- To filter all current entries is to look for those with the label. -/
  narrow_findAll : ∀ key value any,
    c.narrow (c.findAll none any) (some key) value = c.findAll (some key) value
  /-- A filter keeps the order of a list. -/
  narrow_sublist : ∀ ids key value, (c.narrow ids key value).Sublist ids
  /-- It keeps every occurrence of an entry whose first value under the key is the one that is asked
  for, and drops all others. -/
  count_narrow : ∀ ids key value id, (c.narrow ids (some key) value).count id =
    if c.label? id key = some value then ids.count id else 0
  /-- To filter twice is to filter once. -/
  narrow_idem : ∀ ids key value,
    c.narrow (c.narrow ids key value) key value = c.narrow ids key value
  /-- Two filters may change places. -/
  narrow_comm : ∀ ids key value key' value',
    c.narrow (c.narrow ids key value) key' value' = c.narrow (c.narrow ids key' value') key value
  /-- A filter does not see marks, nor anything else but labels. -/
  narrow_eq : ∀ c' : Cache β, (∀ id, (c'.get? id).map (·.labels) = (c.get? id).map (·.labels)) →
    ∀ ids key value, c'.narrow ids key value = c.narrow ids key value

/-! ### Filters -/

section Narrow

variable (c : Cache β) (ids : List EntryId)

theorem narrow_sublist (key : Option String) (value : String) :
    (c.narrow ids key value).Sublist ids := by
  cases key with
  | none => exact List.Sublist.refl ids
  | some key => exact List.filter_sublist

/-- Two filters are one filter that asks for both labels, in whatever order. -/
theorem narrow_comm (key : Option String) (value : String) (key' : Option String)
    (value' : String) :
    c.narrow (c.narrow ids key value) key' value' =
      c.narrow (c.narrow ids key' value') key value := by
  cases key with
  | none => rfl
  | some key =>
    cases key' with
    | none => rfl
    | some key' => exact List.filter_comm ..

theorem narrow_idem (key : Option String) (value : String) :
    c.narrow (c.narrow ids key value) key value = c.narrow ids key value := by
  cases key with
  | none => rfl
  | some key =>
    simp only [narrow, List.filter_filter, Bool.and_self]

/-- What a filter asks an entry for is the value of its label. -/
private theorem any_hasLabel_iff (id : EntryId) (key value : String) :
    (c.get? id).any (·.labels.hasLabel key value) ↔ c.label? id key = some value := by
  rw [label?]
  cases c.get? id with
  | none => simp
  | some e => simp [Labels.hasLabel_iff]

private theorem count_narrow (key value : String) (id : EntryId) :
    (c.narrow ids (some key) value).count id =
      if c.label? id key = some value then ids.count id else 0 := by
  by_cases hlabel : c.label? id key = some value
  · rw [if_pos hlabel]
    exact List.count_filter ((c.any_hasLabel_iff id key value).mpr hlabel)
  · rw [if_neg hlabel, List.count_eq_zero]
    intro hmem
    exact hlabel ((c.any_hasLabel_iff id key value).mp (List.mem_filter.mp hmem).2)

/-- Filters agree in caches in which the entries have the same labels. -/
private theorem narrow_congr {c c' : Cache β}
    (h : ∀ id, (c'.get? id).map (·.labels) = (c.get? id).map (·.labels)) (ids : List EntryId)
    (key : Option String) (value : String) : c'.narrow ids key value = c.narrow ids key value := by
  cases key with
  | none => rfl
  | some key =>
    refine List.filter_congr fun id _ => ?_
    have hany : ∀ e : Option Entry, e.any (·.labels.hasLabel key value) =
        (e.map (·.labels)).any (·.hasLabel key value) := by
      intro e
      cases e <;> rfl
    rw [hany, hany, h]

end Narrow

/-! ### Lookups -/

/-- To filter all current entries is to look for those with the label. -/
private theorem narrow_findAll_none (c : Cache β) (key value any : String) :
    c.narrow (c.findAll none any) (some key) value = c.findAll (some key) value := by
  rw [findAll_eq, findAll_eq, narrow, List.filter_filter]
  refine List.filter_congr fun id _ => ?_
  cases c.get? id with
  | none => rfl
  | some e => simp [Bool.and_comm]

/-- The lookups in a sound cache agree. All of them are filters of lists of identifiers
(`findAll_some`, `find?_eq_head?`), and soundness is what makes every listed identifier lead to an
entry. -/
theorem Sound.finds {ledger : Ledger} {c : Cache β} (h : c.Sound ledger []) : c.Finds where
  nodup key value := by
    have hnodup : c.members.Nodup := h.nodup
    rw [findAll_eq]
    exact hnodup.filter _
  sublist key value := by
    rw [findAll_eq]
    exact List.filter_sublist
  mem_iff key value id := by
    simp only [mem_findAll, Option.all_some, Labels.hasLabel_iff]
  find?_eq := c.find?_eq_head?
  narrow_findAll := c.narrow_findAll_none
  narrow_sublist := c.narrow_sublist
  count_narrow := c.count_narrow
  narrow_idem := c.narrow_idem
  narrow_comm := c.narrow_comm
  narrow_eq _ := narrow_congr

end Cache

/-! ### Retired entries -/

section

variable {β : Type} [Backend β]

/-- Whether a call takes a listed entry off the list: it is a purge, or a sweep that is made, and
the entry is condemned. -/
def Call.takes (c : Cache β) (id : EntryId) : Call → Prop
  | purge force => id ∈ c.condemned force
  | sweep now maxIdle => now.add? (-maxIdle) ≠ none ∧ id ∈ c.condemned false
  | _ => False

namespace Cache

/-- Whether a run takes an entry off the list. -/
def takes (c : Cache β) (id : EntryId) : List Call → Prop
  | [] => False
  | call :: calls => call.takes c id ∨ (call.run c).state.takes id calls

/-- Whether a run gives an identifier to a new entry. -/
def reissues (c : Cache β) (id : EntryId) : List Call → Prop
  | [] => False
  | call :: calls =>
    (call.run c).result = .ok (.entry id) ∨ (call.run c).state.reissues id calls

/-- What becomes of a retired entry in the runs that begin at `c`. -/
structure Hides (c : Cache β) (id : EntryId) : Prop where
  /-- No lookup gives it, neither while it is there nor afterwards. -/
  unseen : ∀ later, ¬c.reissues id later →
    (∀ key value, (c.after later).find? key value ≠ some id) ∧
      ∀ key value, id ∉ (c.after later).findAll key value
  /-- It stays listed until a purge takes it. -/
  listed_iff : ∀ later, ¬c.reissues id later →
    (id ∈ (c.after later).members ↔ id ∈ c.members ∧ ¬c.takes id later)
  /-- Its identifier is given to another entry only after it was freed, and its cell 2³² times. -/
  reissued : ∀ later, c.reissues id later →
    2 ^ 32 ≤ c.frees id.index later ∧
      ∃ earlier, earlier <+: later ∧ (c.after earlier).get? id = none

variable {ledger : Ledger} {c : Cache β} {id : EntryId}

/-- A run that gives an identifier to a new entry does so with one of its calls. -/
private theorem exists_of_reissues {calls : List Call} (h : c.reissues id calls) :
    ∃ earlier call, earlier ++ [call] <+: calls ∧
      (call.run (c.after earlier)).result = .ok (.entry id) := by
  induction calls generalizing c with
  | nil => exact absurd h not_false
  | cons call calls ih =>
    obtain hnow | hlater := h
    · exact ⟨[], call, List.prefix_append [call] calls, hnow⟩
    · obtain ⟨earlier, next, hprefix, hresult⟩ := ih hlater
      exact ⟨call :: earlier, next, List.cons_prefix_cons.mpr ⟨rfl, hprefix⟩, hresult⟩

namespace Sound

/-- Adding lists one entry more. -/
private theorem mem_members_add (labels : Labels) (data : Bytes)
    (hnot : ((Call.add labels data).run c).result ≠ .ok (.entry id)) :
    id ∈ ((Call.add labels data).run c).state.members ↔ id ∈ c.members := by
  rw [Call.run, Action.map_apply] at hnot ⊢
  obtain ⟨error, -, -, hs⟩ | ⟨filename, -, hr, hs⟩ := add_cases labels data c
  · rw [hs]
    rfl
  · rw [hr] at hnot
    have hne : id ≠ (c.arena.insert (c.stored filename labels)).1 := by
      rintro rfl
      exact hnot rfl
    have hmembers : (Cache.add labels data c).state.members =
        c.members ++ [(c.arena.insert (c.stored filename labels)).1] := by
      rw [hs]
      rfl
    rw [hmembers, List.mem_append, List.mem_singleton, or_iff_left hne]

/-- Calls about one entry leave the list alone. -/
private theorem members_run_of_target (c : Cache β) {call : Call} {target : EntryId}
    (hcall : call.target? = some target) : (call.run c).state.members = c.members := by
  cases call with
  | add labels data => cases hcall
  | unmapIdle cutoff => cases hcall
  | purge force => cases hcall
  | sweep now maxIdle => cases hcall
  | release now other => exact members_release c now other
  | acquire other =>
    rw [Call.run, Action.map_apply]
    obtain ⟨-, -, hs⟩ | ⟨e, references, -, -, -, hs⟩ := acquire_cases other c
    · rw [hs]
    · rw [hs, change_members]
  | retire other =>
    rw [Call.run, Action.map_apply]
    obtain ⟨-, -, hs⟩ | ⟨e, -, -, hs⟩ := retire_cases other c
    · rw [hs]
    · rw [hs, change_members]
  | markEager other =>
    rw [Call.run, Action.map_apply]
    obtain ⟨-, -, hs⟩ | ⟨e, -, -, hs⟩ := markEager_cases other c
    · rw [hs]
    · rw [hs, change_members]
  | body other =>
    rw [Call.run, Action.map_apply]
    obtain hs | ⟨e, -, hs | ⟨-, data, -, hs⟩⟩ := body_cases other c
    · rw [hs]
    · rw [hs]
      rfl
    · rw [hs]
      rfl

/-- A sweep takes the entries off the list that a purge without force would have taken. -/
private theorem mem_members_sweep (h : c.Sound ledger []) (now : Instant) (maxIdle : Duration) :
    id ∈ ((Call.sweep now maxIdle).run c).state.members ↔
      id ∈ c.members ∧ ¬(now.add? (-maxIdle) ≠ none ∧ id ∈ c.condemned false) := by
  cases hcutoff : now.add? (-maxIdle) with
  | none =>
    have hnone : (sweep? now maxIdle : Option (Action (Cache β) SweepReport)) = none := by
      rw [sweep?, hcutoff, Option.map_none]
    rw [Call.run, hnone]
    simp [Action.pure_apply]
  | some cutoff =>
    obtain ⟨both, -, -, hboth, -, -, -, hs⟩ := h.sweep_apply hcutoff
    have hmembers := ((h.unmapIdle cutoff).2.purges false).members_eq
    rw [h.condemned_unmapIdle, (h.unmapIdle_effect cutoff).1] at hmembers
    rw [Call.run, hboth]
    dsimp only
    rw [Action.map_apply, hs, hmembers]
    simp [List.mem_filter]

/-- An entry is listed after a call if it was before, unless the call took it off the list or gave
its identifier to a new entry. -/
theorem mem_members_run (h : c.Sound ledger []) (call : Call)
    (hnot : (call.run c).result ≠ .ok (.entry id)) :
    id ∈ (call.run c).state.members ↔ id ∈ c.members ∧ ¬call.takes c id := by
  cases call with
  | add labels data => exact (mem_members_add labels data hnot).trans (and_iff_left not_false).symm
  | unmapIdle cutoff =>
    rw [Call.run, Action.map_apply, (h.unmapIdle_effect cutoff).1]
    exact (and_iff_left not_false).symm
  | purge force =>
    rw [Call.run, Action.map_apply, (h.purges force).members_eq, List.mem_filter,
      decide_eq_true_iff]
    rfl
  | sweep now maxIdle => exact h.mem_members_sweep now maxIdle
  | _ =>
    rw [members_run_of_target c rfl]
    exact (and_iff_left not_false).symm

/-- No call takes the mark off a retired entry. -/
private theorem retired_run (h : c.Sound ledger []) (call : Call)
    (hnot : (call.run c).result ≠ .ok (.entry id))
    (hretired : ∀ e, c.get? id = some e → e.retired) :
    ∀ e, (call.run c).state.get? id = some e → e.retired := by
  intro e' he'
  by_cases hadd : ∃ labels data, call = .add labels data
  · obtain ⟨labels, data, rfl⟩ := hadd
    -- what is under the identifier was there before, since it is not the new entry
    have hthere : c.get? id ≠ none := fun hnone =>
      hnot ((h.created_add labels data id).mpr ⟨hnone, by rw [he']; exact Option.some_ne_none _⟩)
    rw [Call.run, Action.map_apply] at he'
    obtain ⟨error, -, -, hs⟩ | ⟨filename, -, -, hs⟩ := add_cases labels data c
    · rw [hs] at he'
      exact hretired e' he'
    · rw [hs, get?_withBackend_enlisted h.arena] at he'
      have hne : id ≠ (c.arena.insert (c.stored filename labels)).1 := by
        rintro rfl
        exact hthere (h.arena.get?_fst_insert _)
      rw [if_neg hne] at he'
      exact hretired e' he'
  · obtain ⟨e, he, hturns⟩ :=
      h.turnsInto_run (fun labels data heq => hadd ⟨labels, data, heq⟩) he'
    exact hturns.retired (hretired e he)

/-- An entry is listed after a run if it was before, unless the run took it off the list. -/
private theorem mem_members_after (h : c.Sound ledger []) {later : List Call}
    (hnot : ¬c.reissues id later) :
    id ∈ (c.after later).members ↔ id ∈ c.members ∧ ¬c.takes id later := by
  induction later generalizing ledger c with
  | nil => exact (and_iff_left not_false).symm
  | cons call later ih =>
    rw [reissues, not_or] at hnot
    rw [Cache.after, ih (h.run call) hnot.2, h.mem_members_run call hnot.1, takes, not_or,
      and_assoc]

/-- No run takes the mark off a retired entry. -/
theorem retired_after (h : c.Sound ledger []) {later : List Call} (hnot : ¬c.reissues id later)
    (hretired : ∀ e, c.get? id = some e → e.retired) :
    ∀ e, (c.after later).get? id = some e → e.retired := by
  induction later generalizing ledger c with
  | nil => exact hretired
  | cons call later ih =>
    rw [reissues, not_or] at hnot
    exact ih (h.run call) hnot.2 (h.retired_run call hnot.1 hretired)

/-- An identifier is given to a new entry only after its entry was freed, and its cell 2³² times. -/
private theorem freed_of_reissues (h : c.Sound ledger []) (hid : c.get? id ≠ none)
    {later : List Call} (hreissues : c.reissues id later) :
    2 ^ 32 ≤ c.frees id.index later ∧
      ∃ earlier, earlier <+: later ∧ (c.after earlier).get? id = none := by
  obtain ⟨earlier, call, hprefix, hresult⟩ := exists_of_reissues hreissues
  obtain ⟨hnone, hsome⟩ := ((h.after earlier).created_iff call id).mp hresult
  have hearlier : earlier <+: earlier ++ [call] := List.prefix_append earlier [call]
  refine ⟨Nat.le_of_not_lt fun hlt => ?_, earlier, hearlier.trans hprefix, hnone⟩
  -- with fewer frees, what is there after the call was there all the time
  obtain ⟨rest, rfl⟩ := hprefix
  rw [frees_append] at hlt
  have hthere : (c.after (earlier ++ [call])).arena.contains id := by
    rw [after_append]
    exact Option.isSome_iff_ne_none.mpr hsome
  have hbefore := (contains_after_iff_forall (Option.isSome_iff_ne_none.mpr hid)
    (Nat.lt_of_le_of_lt (Nat.le_add_right _ _) hlt)).mp hthere earlier hearlier
  exact Option.isSome_iff_ne_none.mp hbefore hnone

/-- A retired entry of a sound cache is hidden: it stays on the list until a purge
(`Sound.mem_members_run`), and in any later run what is found under its identifier is retired as
well, unless the identifier was given out again. -/
theorem hides (h : c.Sound ledger []) {e : Entry} (he : c.get? id = some e)
    (hretired : e.retired) : c.Hides id where
  unseen later hnot := by
    have hmarked := h.retired_after hnot fun e' he' =>
      Option.some.inj (he.symm.trans he') ▸ hretired
    have hall : ∀ key value, id ∉ (c.after later).findAll key value := by
      intro key value hmem
      obtain ⟨-, e', he', hcurrent, -⟩ := mem_findAll.mp hmem
      exact Bool.eq_false_iff.mp hcurrent (hmarked e' he')
    refine ⟨fun key value hfind => ?_, hall⟩
    rw [find?_eq_head?] at hfind
    exact hall (some key) value (List.mem_of_mem_head? hfind)
  listed_iff _ := h.mem_members_after
  reissued _ := h.freed_of_reissues (by rw [he]; exact Option.some_ne_none e)

end Sound

/-- **Lookups.** In every run the lookups agree with each other (`Sound.finds`), and an entry that
is retired is hidden from them for good, although it stays listed until a purge takes it
(`Sound.hides`). To retire an entry is to change its mark and nothing else (`retire_cases`). -/
theorem finds_after {id : CacheId} {backend : β} {hint : Nat}
    (hopen : (openOver id backend hint).result = .ok ()) (calls : List Call) :
    let c := (openOver id backend hint).state.after calls
    c.Finds ∧ ∀ entry, (retire entry c).result = .ok () →
      (retire entry c).state.members = c.members ∧ (retire entry c).state.Hides entry := by
  intro c
  have h := sound_after hopen calls
  refine ⟨h.finds, fun entry hretire => ?_⟩
  obtain ⟨reason, herror, -⟩ | ⟨e, he, -, hs⟩ := retire_cases entry c
  · exact absurd (herror.symm.trans hretire) nofun
  · have hmarked : (retire entry c).state.get? entry = some { e with retired := true } := by
      rw [hs, get?_change_self he]
    exact ⟨by rw [hs, change_members], (h.retire entry).hides hmarked rfl⟩

end Cache

end

namespace Cache

/-- An object is added with two values under one key, and its user gives it back. -/
def shadowing : List Call :=
  [.add ⟨[("k", "v"), ("k", "w")]⟩ [1, 2], .release .epoch ⟨1, 0⟩]

/-- An object is deleted and another one added, which has the same labels and the same cell. -/
def replacing : List Call :=
  [.purge false, .add ⟨[("k", "v"), ("k", "w")]⟩ [3]]

/-- The object is found under the first value. Once it is retired and another one has its place,
lookups find the other one. -/
theorem finds_after_shadowing :
    (openOver ⟨1⟩ smallStore 2).result = .ok () ∧
      let c := (openOver ⟨1⟩ smallStore 2).state.after shadowing
      let c' := (retire ⟨1, 0⟩ c).state
      (c.findAll (some "k") "v" = [⟨1, 0⟩] ∧ c.findAll (some "k") "w" = []) ∧
        (retire ⟨1, 0⟩ c).result = .ok () ∧ ¬c'.reissues ⟨1, 0⟩ replacing ∧
        (c'.after replacing).findAll (some "k") "v" = [⟨1, 1⟩] ∧
        c.Finds ∧ c'.members = c.members ∧ c'.Hides ⟨1, 0⟩ := by
  have hopen : (openOver ⟨1⟩ smallStore 2).result = .ok () := by rfl
  refine ⟨hopen, ?_⟩
  intro c c'
  have hretire : (retire ⟨1, 0⟩ c).result = .ok () := by rfl
  obtain ⟨hfinds, hhides⟩ := finds_after hopen shadowing
  obtain ⟨hmembers, hhidden⟩ := hhides ⟨1, 0⟩ hretire
  have hfrees : c'.frees 1 replacing = 1 := by decide +kernel
  refine ⟨by decide +kernel, hretire, fun hreissues => ?_, by decide +kernel, hfinds, hmembers,
    hhidden⟩
  have hmany := (hhidden.reissued replacing hreissues).1
  rw [hfrees] at hmany
  exact absurd hmany (by decide)

end Cache

end BlobCache
