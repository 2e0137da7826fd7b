import BlobCache.Proofs.Cache.Conservation
import Mathlib.Algebra.Group.Nat.Defs

/-!
# Generations

A cell of an arena counts how often it was freed, as far as 32 bits tell, and the count is all that
tells an identifier for the present value of the cell from identifiers for earlier ones. This module
proves that the count is right, for every call and wherever it frees entries.

* `Arena.Wanes` is what happens to an arena into which nothing is put: a cell keeps its generation,
  or is freed, once, and has the next one. Every call but `add` lets the arena of the cache wane
  (`Cache.onlyFrees_run`), and `add` frees nothing.
* `Cache.frees` counts the calls of a run that freed a cell, and the generation of the cell grows by
  this number (`Cache.exists_cell_after`).
* A weak reference therefore leads to its entry as long as the entry was not freed, and nowhere
  afterwards, however often the cell is used again, until the count has come full circle
  (`Cache.resolve?_after`).
-/

namespace BlobCache

namespace Cell

variable {α : Type} {cell cell' cell'' : Cell α}

/-- What may become of a cell that is not filled. -/
inductive Wanes (cell cell' : Cell α) : Prop
  /-- It has its value still, or has none still; the value may have changed. -/
  | kept (hgeneration : cell'.generation = cell.generation)
      (hvalue : cell'.value.isSome = cell.value.isSome)
  /-- Its value was taken out. -/
  | freed (hgeneration : cell'.generation = cell.generation + 1) (hbefore : cell.value.isSome)
      (hafter : cell'.value.isSome = false)

theorem Wanes.refl (cell : Cell α) : cell.Wanes cell :=
  .kept rfl rfl

/-- A cell that is not filled is freed once at most. -/
theorem Wanes.trans (h : cell.Wanes cell') (h' : cell'.Wanes cell'') : cell.Wanes cell'' := by
  cases h with
  | kept hg hv =>
    cases h' with
    | kept hg' hv' => exact .kept (hg'.trans hg) (hv'.trans hv)
    | freed hg' hb ha => exact .freed (hg ▸ hg') (hv ▸ hb) ha
  | freed hg hb ha =>
    cases h' with
    | kept hg' hv' => exact .freed (hg'.trans hg) hb (hv'.trans ha)
    | freed _ hb' _ =>
      rw [ha] at hb'
      cases hb'

end Cell

namespace Arena

variable {α : Type} {a a' : Arena α} {index : Nat} {cell : Cell α}

/-- Whether a cell has a value, of whatever generation. -/
def isOccupied (a : Arena α) (index : Nat) : Bool :=
  (a.cells[index]?).any (·.value.isSome)

private theorem isOccupied_of_cell (h : a.cells[index]? = some cell) :
    a.isOccupied index = cell.value.isSome := by
  rw [isOccupied, h, Option.any_some]

/-- An identifier leads to a value if its cell is occupied and has its generation. -/
theorem contains_iff {id : EntryId} (h : a.cells[id.index]? = some cell) :
    a.contains id ↔ a.isOccupied id.index ∧ cell.generation = id.generation := by
  rw [contains, get?, isOccupied, h, Option.any_some]
  by_cases hg : cell.generation = id.generation
  · simp [hg]
  · simp [hg]

/-! ### Arenas into which nothing is put -/

/-- What may become of an arena into which nothing is put: its cells are still there, and were freed
or not. -/
def Wanes (a a' : Arena α) : Prop :=
  ∀ (index : Nat) (cell : Cell α), a.cells[index]? = some cell →
    ∃ cell', a'.cells[index]? = some cell' ∧ cell.Wanes cell'

namespace Wanes

theorem refl (a : Arena α) : a.Wanes a :=
  fun _ cell h => ⟨cell, h, .refl cell⟩

theorem trans {a'' : Arena α} (h : a.Wanes a') (h' : a'.Wanes a'') : a.Wanes a'' := by
  intro index cell hc
  obtain ⟨cell', hc', hw⟩ := h index cell hc
  obtain ⟨cell'', hc'', hw'⟩ := h' index cell' hc'
  exact ⟨cell'', hc'', hw.trans hw'⟩

/-- A cell is overwritten. -/
theorem set (h : a.cells[index]? = some cell) {cell' : Cell α} (hw : cell.Wanes cell')
    (free : List Nat) (size : Nat) :
    a.Wanes { cells := a.cells.setIfInBounds index cell', free, size } := by
  intro i other hi
  by_cases hn : index = i
  · subst hn
    obtain rfl : cell = other := Option.some.inj (h.symm.trans hi)
    have hlt := (Array.getElem?_eq_some_iff.mp h).1
    exact ⟨cell', by rw [Array.getElem?_setIfInBounds_self_of_lt hlt], hw⟩
  · exact ⟨other, by rw [Array.getElem?_setIfInBounds_ne hn, hi], .refl other⟩

theorem update (a : Arena α) (id : EntryId) (f : α → α) : a.Wanes (a.update id f) := by
  rw [Arena.update]
  cases h : a.get? id with
  | none => exact .refl a
  | some value =>
    have hw : Cell.Wanes ⟨id.generation, some value⟩ ⟨id.generation, some (f value)⟩ :=
      .kept rfl rfl
    exact .set (cell_of_get? h) hw a.free a.size

theorem remove (a : Arena α) (id : EntryId) : a.Wanes (a.remove id) := by
  cases h : a.get? id with
  | none =>
    rw [remove_of_get?_eq_none h]
    exact .refl a
  | some value =>
    rw [remove_of_get? h]
    exact .set (cell_of_get? h) (.freed rfl rfl rfl) _ _

end Wanes

/-- To put a value into an arena is to free nothing: cells keep their generations, and have values
if they had. -/
private theorem exists_cell_insert (h : a.cells[index]? = some cell) (value : α) :
    ∃ cell', (a.insert value).2.cells[index]? = some cell' ∧
      cell'.generation = cell.generation ∧ (cell.value.isSome → cell'.value.isSome) := by
  have hlt := (Array.getElem?_eq_some_iff.mp h).1
  unfold insert
  split
  · rename_i next free _
    dsimp only
    by_cases hn : next = index
    · subst hn
      rw [Array.getElem?_setIfInBounds_self_of_lt hlt, h]
      exact ⟨_, rfl, rfl, fun _ => rfl⟩
    · exact ⟨cell, by rw [Array.getElem?_setIfInBounds_ne hn, h], rfl, id⟩
  · exact ⟨cell, by rw [Array.getElem?_push_lt hlt, ← Array.getElem?_eq_getElem hlt, h], rfl, id⟩

end Arena

/-- Whether a call frees a cell: there is no value in it any more. -/
def Call.frees {β : Type} [Backend β] (call : Call) (c : Cache β) (index : Nat) : Bool :=
  c.arena.isOccupied index && !(call.run c).state.arena.isOccupied index

/-- The entry that a call is about, if it is about one. -/
def Call.target? : Call → Option EntryId
  | acquire id => some id
  | release _ id => some id
  | retire id => some id
  | markEager id => some id
  | body id => some id
  | add _ _ | unmapIdle _ | purge _ | sweep _ _ => none

namespace Cache

variable {β α γ : Type}

/-! ### Actions that put nothing into the arena -/

/-- What may become of a cache that takes in no entry. -/
def Wanes (c c' : Cache β) : Prop :=
  c'.id = c.id ∧ c.arena.Wanes c'.arena

/-- An action that takes in no entry, whether it fails or not. -/
def OnlyFrees (x : Action (Cache β) α) : Prop :=
  ∀ c : Cache β, c.Wanes (x c).state

namespace OnlyFrees

theorem of_state {x : Action (Cache β) α} (h : ∀ c, (x c).state.id = c.id)
    (ha : ∀ c, (x c).state.arena = c.arena) : OnlyFrees x :=
  fun c => ⟨h c, ha c ▸ .refl c.arena⟩

theorem pure (a : α) : OnlyFrees (Pure.pure a : Action (Cache β) α) :=
  .of_state (fun _ => rfl) fun _ => rfl

theorem fail (e : CacheError) : OnlyFrees (Action.fail e : Action (Cache β) α) :=
  .of_state (fun _ => rfl) fun _ => rfl

theorem get : OnlyFrees (Action.get : Action (Cache β) (Cache β)) :=
  .of_state (fun _ => rfl) fun _ => rfl

theorem log (level : LogLevel) (message : String) :
    OnlyFrees (Action.log level message : Action (Cache β) Unit) :=
  .of_state (fun _ => rfl) fun _ => rfl

theorem bind {x : Action (Cache β) α} {f : α → Action (Cache β) γ} (hx : OnlyFrees x)
    (hf : ∀ a, OnlyFrees (f a)) : OnlyFrees (x >>= f) := by
  intro c
  obtain ⟨hid, hw⟩ := hx c
  rw [Action.bind_apply]
  cases (x c).result with
  | error e => exact ⟨hid, hw⟩
  | ok a =>
    obtain ⟨hid', hw'⟩ := hf a (x c).state
    exact ⟨hid'.trans hid, hw.trans hw'⟩

theorem attempt {x : Action (Cache β) α} (hx : OnlyFrees x) : OnlyFrees x.attempt := hx

theorem mapError {x : Action (Cache β) α} (hx : OnlyFrees x) (f : CacheError → CacheError) :
    OnlyFrees (x.mapError f) := hx

theorem map {x : Action (Cache β) α} (hx : OnlyFrees x) (f : α → γ) : OnlyFrees (f <$> x) := by
  intro c
  rw [Action.map_apply]
  exact hx c

theorem violation (message : String) : OnlyFrees (Action.violation message : Action (Cache β) α) :=
  .bind (.log _ _) fun _ => .fail _

theorem onBackend (x : Action β α) : OnlyFrees (Cache.onBackend x) :=
  .of_state (fun _ => rfl) fun _ => rfl

theorem updateEntry (id : EntryId) (f : Entry → Entry) :
    OnlyFrees (Cache.updateEntry id f : Action (Cache β) Unit) :=
  fun c => ⟨rfl, .update c.arena id f⟩

theorem live (operation : String) (id : EntryId) :
    OnlyFrees (Cache.live operation id : Action (Cache β) Entry) := by
  refine .bind .get fun c => ?_
  cases c.get? id with
  | none => exact .violation _
  | some e => exact .pure e

theorem acquire (id : EntryId) : OnlyFrees (Cache.acquire id : Action (Cache β) Nat) := by
  refine .bind (.live _ id) fun e => ?_
  cases e.references.increment with
  | error refusal => exact .violation _
  | ok references => exact .bind (.updateEntry id _) fun _ => .pure _

theorem dropReference (id : EntryId) (e : Entry) :
    OnlyFrees (Cache.dropReference id e : Action (Cache β) Liveness) := by
  rw [Cache.dropReference]
  cases e.references.decrement with
  | error refusal => exact .violation _
  | ok references =>
    have hremove : OnlyFrees (Action.modify fun c : Cache β =>
        { c with arena := c.arena.remove id }) := fun c => ⟨rfl, .remove c.arena id⟩
    dsimp only
    by_cases hz : references.count = 0
    · rw [if_pos hz]
      exact .bind hremove fun _ => .bind (.log _ _) fun _ => .pure _
    · rw [if_neg hz]
      exact .bind (.updateEntry id _) fun _ => .pure _

theorem becomeIdle (now : Instant) (id : EntryId) (e : Entry) :
    OnlyFrees (Cache.becomeIdle now id e : Action (Cache β) Unit) := by
  rw [Cache.becomeIdle]
  by_cases hm : e.isMapped
  · rw [if_pos hm]
    by_cases hg : e.eager
    · rw [if_pos hg]
      exact .bind (.updateEntry id _) fun _ => .log _ _
    · rw [if_neg hg]
      exact .updateEntry id _
  · rw [if_neg hm]
    exact .pure ()

theorem release (now : Instant) (id : EntryId) :
    OnlyFrees (Cache.release now id : Action (Cache β) Liveness) := by
  refine .bind (.live _ id) fun e => ?_
  by_cases hguard : e.references.count = 1 ∧ e.isAttached
  · rw [if_pos hguard]
    exact .violation _
  · rw [if_neg hguard]
    refine .bind (.dropReference id e) fun left => ?_
    by_cases hidle : left = .alive 1 ∧ e.isAttached
    · dsimp only
      rw [if_pos hidle]
      exact .bind (.becomeIdle now id e) fun _ => .pure left
    · dsimp only
      rw [if_neg hidle]
      exact .pure left

theorem letGo (id : EntryId) : OnlyFrees (Cache.letGo id : Action (Cache β) Liveness) :=
  .bind (.updateEntry id _) fun _ => .bind (.live _ id) fun e => .dropReference id e

theorem retire (id : EntryId) : OnlyFrees (Cache.retire id : Action (Cache β) Unit) :=
  .bind (.live _ id) fun _ => .updateEntry id _

theorem markEager (id : EntryId) : OnlyFrees (Cache.markEager id : Action (Cache β) Unit) :=
  .bind (.live _ id) fun _ => .updateEntry id _

theorem body [Backend β] (id : EntryId) :
    OnlyFrees (Cache.body id : Action (Cache β) Bytes) := by
  refine .bind (.live _ id) fun e => ?_
  cases e.mapping with
  | some data => exact .pure data
  | none =>
    refine .bind .get fun c => ?_
    by_cases ho : e.owner ≠ some c.id
    · rw [if_pos ho]
      exact .fail _
    · rw [if_neg ho]
      exact .bind (.mapError (.onBackend _) _) fun data =>
        .bind (.updateEntry id _) fun _ => .bind (.log _ _) fun _ => .pure data

/-! ### Sweeps -/

theorem sweepEach {treat : EntryId → Action (Cache β) SweepReport}
    (h : ∀ id, OnlyFrees (treat id)) (ids : List EntryId) :
    OnlyFrees (Cache.sweepEach treat ids) := by
  induction ids with
  | nil => exact .pure ({} : SweepReport)
  | cons id ids ih => exact .bind (h id) fun _ => .bind ih fun _ => .pure _

theorem inconsistency (message : String) :
    OnlyFrees (Cache.inconsistency message : Action (Cache β) SweepReport) :=
  .bind (.log _ _) fun _ => .pure _

theorem unmapOne (cutoff : Instant) (id : EntryId) :
    OnlyFrees (Cache.unmapOne cutoff id : Action (Cache β) SweepReport) := by
  refine .bind .get fun c => ?_
  cases c.get? id with
  | none => exact .inconsistency _
  | some e =>
    dsimp only
    by_cases hheld : 1 < e.references.count
    · rw [if_pos hheld]
      exact .pure _
    rw [if_neg hheld]
    by_cases ho : e.owner ≠ some c.id
    · rw [if_pos ho]
      exact .inconsistency _
    rw [if_neg ho]
    by_cases hidle : e.isIdleAt cutoff && e.isMapped
    · rw [if_pos hidle]
      exact .bind (.updateEntry id _) fun _ => .pure _
    · rw [if_neg hidle]
      exact .pure _

theorem unmapIdle (cutoff : Instant) :
    OnlyFrees (Cache.unmapIdle cutoff : Action (Cache β) SweepReport) := by
  refine .bind .get fun c => .bind (.sweepEach (.unmapOne cutoff) _) fun report => ?_
  by_cases hu : 0 < report.unmapped
  · dsimp only
    rw [if_pos hu]
    exact .bind (.log _ _) fun _ => .pure report
  · dsimp only
    rw [if_neg hu]
    exact .pure report

theorem judge (force : Bool) (id : EntryId) :
    OnlyFrees (Cache.judge force id : Action (Cache β) SweepReport) := by
  refine .bind .get fun c => ?_
  cases c.fate force id with
  | inconsistent message => exact .inconsistency message
  | keep => exact .pure _
  | retain => exact .pure _
  | delete => exact .pure _

variable [Backend β]

theorem discard (id : EntryId) : OnlyFrees (Cache.discard id : Action (Cache β) SweepReport) := by
  refine .bind .get fun c => ?_
  cases c.get? id with
  | none => exact .pure _
  | some e =>
    refine .bind (.attempt (.letGo id)) fun left =>
      .bind (.attempt (.onBackend _)) fun removed => ?_
    cases removed with
    | ok _ => exact .pure _
    | error error => exact .bind (.log _ _) fun _ => .pure _

theorem purge (force : Bool) :
    OnlyFrees (Cache.purge force : Action (Cache β) SweepReport) := by
  refine .bind .get fun c => .bind (.sweepEach (.judge force) _) fun passed => ?_
  refine .bind (.of_state (fun _ => rfl) fun _ => rfl) fun _ => ?_
  refine .bind (.sweepEach .discard _) fun removed => ?_
  by_cases hd : 0 < (passed + removed).deleted
  · dsimp only
    rw [if_pos hd]
    exact .bind (.log _ _) fun _ => .pure _
  · dsimp only
    rw [if_neg hd]
    exact .pure _

theorem sweep {now : Instant} {maxIdle : Duration} {both : Action (Cache β) SweepReport}
    (h : sweep? now maxIdle = some both) : OnlyFrees both := by
  obtain ⟨cutoff, -, rfl⟩ := Option.map_eq_some_iff.mp h
  exact .bind (.unmapIdle cutoff) fun _ => .bind (.purge false) fun _ => .pure _

end OnlyFrees

variable [Backend β]

/-- A call that adds nothing puts nothing into the arena. -/
theorem onlyFrees_run {call : Call} (hcall : ∀ labels data, call ≠ .add labels data) :
    OnlyFrees (call.run : Action (Cache β) Answer) := by
  cases call with
  | add labels data => exact absurd rfl (hcall labels data)
  | acquire id => exact .map (.acquire id) _
  | release now id => exact .map (.release now id) _
  | retire id => exact .map (.retire id) _
  | markEager id => exact .map (.markEager id) _
  | body id => exact .map (.body id) _
  | unmapIdle cutoff => exact .map (.unmapIdle cutoff) _
  | purge force => exact .map (.purge force) _
  | sweep now maxIdle =>
    rw [Call.run]
    cases hboth : (sweep? now maxIdle : Option (Action (Cache β) SweepReport)) with
    | none => exact .pure _
    | some both => exact .map (.sweep hboth) _

/-! ### The count of a cell -/

/-- No call changes the identity of the cache. -/
private theorem id_run (call : Call) (c : Cache β) : (call.run c).state.id = c.id := by
  by_cases hadd : ∃ labels data, call = .add labels data
  · obtain ⟨labels, data, rfl⟩ := hadd
    rw [Call.run, Action.map_apply]
    obtain ⟨error, -, -, hs⟩ | ⟨filename, -, -, hs⟩ := add_cases labels data c
    · rw [hs]
      rfl
    · rw [hs]
      rfl
  · exact (onlyFrees_run (fun labels data heq => hadd ⟨labels, data, heq⟩) c).1

/-- A call leaves every cell where it is, and in the next generation if it frees it. -/
theorem exists_cell_run (call : Call) {c : Cache β} {index : Nat} {cell : Cell Entry}
    (h : c.arena.cells[index]? = some cell) :
    ∃ cell', (call.run c).state.arena.cells[index]? = some cell' ∧
      cell'.generation = cell.generation + UInt32.ofNat (call.frees c index).toNat := by
  by_cases hadd : ∃ labels data, call = .add labels data
  · obtain ⟨labels, data, rfl⟩ := hadd
    -- a cell that has a value still has one, so adding does not count
    have hcell : ∃ cell', ((Call.add labels data).run c).state.arena.cells[index]? = some cell' ∧
        cell'.generation = cell.generation ∧ (cell.value.isSome → cell'.value.isSome) := by
      rw [Call.run, Action.map_apply]
      obtain ⟨error, -, -, hs⟩ | ⟨filename, -, -, hs⟩ := add_cases labels data c
      · rw [hs]
        exact ⟨cell, h, rfl, fun hv => hv⟩
      · rw [hs]
        exact Arena.exists_cell_insert h _
    obtain ⟨cell', hc', hg, hv⟩ := hcell
    refine ⟨cell', hc', ?_⟩
    have hnot : (Call.add labels data).frees c index = false := by
      rw [Call.frees, Arena.isOccupied_of_cell h, Arena.isOccupied_of_cell hc']
      cases hb : cell.value.isSome with
      | false => rfl
      | true => rw [hv hb]; rfl
    rw [hnot, hg]
    simp
  · have hw := (onlyFrees_run (fun labels data heq => hadd ⟨labels, data, heq⟩) c).2
    obtain ⟨cell', hc', hw⟩ := hw index cell h
    refine ⟨cell', hc', ?_⟩
    rw [Call.frees, Arena.isOccupied_of_cell h, Arena.isOccupied_of_cell hc']
    cases hw with
    | kept hg hv =>
      rw [hv, Bool.and_not_self, hg]
      simp
    | freed hg hb ha =>
      rw [hb, ha, hg]
      rfl

/-- How many calls of a run free a cell. -/
def frees (c : Cache β) (index : Nat) : List Call → Nat
  | [] => 0
  | call :: calls => (call.frees c index).toNat + (call.run c).state.frees index calls

/-- A run is counted part by part. -/
theorem frees_append (c : Cache β) (index : Nat) (earlier later : List Call) :
    c.frees index (earlier ++ later) =
      c.frees index earlier + (c.after earlier).frees index later := by
  induction earlier generalizing c with
  | nil => exact (Nat.zero_add _).symm
  | cons call earlier ih =>
    rw [List.cons_append, frees, frees, ih, Nat.add_assoc]
    rfl

/-- No run changes the identity of the cache. -/
private theorem id_after (c : Cache β) (calls : List Call) : (c.after calls).id = c.id := by
  induction calls generalizing c with
  | nil => rfl
  | cons call calls ih => exact (ih _).trans (id_run call c)

/-- After a run, the generation of a cell has grown by the number of times that it was freed, as far
as 32 bits can tell. By induction on the run: calls other than `add` let the arena wane, one cell at
a time (`Cache.onlyFrees_run`), and `add` leaves the generations alone. -/
theorem exists_cell_after (calls : List Call) {c : Cache β} {index : Nat} {cell : Cell Entry}
    (h : c.arena.cells[index]? = some cell) :
    ∃ cell', (c.after calls).arena.cells[index]? = some cell' ∧
      cell'.generation = cell.generation + UInt32.ofNat (c.frees index calls) := by
  induction calls generalizing c cell with
  | nil => exact ⟨cell, h, (UInt32.add_zero _).symm⟩
  | cons call calls ih =>
    obtain ⟨next, hnext, hg⟩ := exists_cell_run call h
    obtain ⟨cell', hc', hg'⟩ := ih hnext
    refine ⟨cell', hc', ?_⟩
    rw [hg', hg, frees, UInt32.ofNat_add, UInt32.add_assoc]

/-- A cell that is never freed keeps its value. -/
theorem isOccupied_after {calls : List Call} {c : Cache β} {index : Nat}
    (h : c.arena.isOccupied index) (hfrees : c.frees index calls = 0) :
    (c.after calls).arena.isOccupied index := by
  induction calls generalizing c with
  | nil => exact h
  | cons call calls ih =>
    rw [frees, Nat.add_eq_zero_iff] at hfrees
    obtain ⟨hcall, hcalls⟩ := hfrees
    refine ih ?_ hcalls
    have hnot : call.frees c index = false := by simpa using hcall
    rw [Call.frees, h, Bool.true_and, Bool.not_eq_false'] at hnot
    exact hnot

/-! ### Weak references -/

section Weak

variable {c : Cache β} {id : EntryId} {w : WeakEntry}

omit [Backend β] in
/-- A weak reference is made for an entry that is there. -/
private theorem of_weak? (hw : c.weak? id = some w) : w = ⟨c.id, id⟩ ∧ c.arena.contains id := by
  unfold weak? at hw
  split at hw
  · rename_i hcontains
    exact ⟨(Option.some.inj hw).symm, hcontains⟩
  · cases hw

/-- In the cache that it comes from, a weak reference leads to its entry if the arena has it. -/
theorem resolve?_eq_some_iff (hw : c.weak? id = some w) (later : List Call) :
    (c.after later).resolve? w = some id ↔ (c.after later).arena.contains id := by
  obtain ⟨rfl, -⟩ := of_weak? hw
  rw [resolve?, id_after]
  by_cases hcontains : (c.after later).arena.contains id
  · simp [hcontains]
  · simp [hcontains]

/-- A value is there after a run if its cell is occupied and has come full circle. -/
theorem contains_after_iff (h : c.arena.contains id) (later : List Call) :
    (c.after later).arena.contains id ↔
      (c.after later).arena.isOccupied id.index ∧ 2 ^ 32 ∣ c.frees id.index later := by
  obtain ⟨e, he⟩ := Option.isSome_iff_exists.mp h
  obtain ⟨cell', hc', hg⟩ := exists_cell_after later (Arena.cell_of_get? he)
  rw [Arena.contains_iff hc', hg, UInt32.add_eq_left, UInt32.ofNat_eq_iff_mod_eq_toNat,
    Nat.dvd_iff_mod_eq_zero]
  rfl

/-- As long as the count has not come full circle, an entry is there if its cell was never freed. -/
theorem contains_after_iff_of_lt (h : c.arena.contains id) {later : List Call}
    (hlt : c.frees id.index later < 2 ^ 32) :
    (c.after later).arena.contains id ↔ c.frees id.index later = 0 := by
  rw [contains_after_iff h]
  constructor
  · rintro ⟨-, hdvd⟩
    exact Nat.eq_zero_of_dvd_of_lt hdvd hlt
  · intro hzero
    obtain ⟨e, he⟩ := Option.isSome_iff_exists.mp h
    have hoccupied : c.arena.isOccupied id.index := by
      rw [Arena.isOccupied_of_cell (Arena.cell_of_get? he)]
      rfl
    exact ⟨isOccupied_after hoccupied hzero, hzero ▸ Nat.dvd_zero _⟩

/-- An entry that is there was there at every moment before. -/
theorem contains_after_iff_forall (h : c.arena.contains id) {later : List Call}
    (hlt : c.frees id.index later < 2 ^ 32) :
    (c.after later).arena.contains id ↔
      ∀ earlier, earlier <+: later → (c.after earlier).arena.contains id := by
  refine ⟨fun hthere => ?_, fun hall => hall later (List.prefix_refl later)⟩
  have hzero := (contains_after_iff_of_lt h hlt).mp hthere
  rintro earlier ⟨rest, rfl⟩
  rw [frees_append] at hlt hzero
  exact (contains_after_iff_of_lt h (by omega)).mpr (by omega)

omit [Backend β] in
/-- What starts with `live` fails under an identifier that leads nowhere, whatever its answer would
have been. -/
private theorem refused {α : Type} (hid : c.get? id = none) (operation : String)
    (f : Entry → Action (Cache β) α) (answer : α → Answer) :
    ((answer <$> (live operation id >>= f)) c).result =
        .error (.integrity s!"{operation} on freed entry {id.text}") ∧
      ((answer <$> (live operation id >>= f)) c).state = c := by
  obtain ⟨hr, hs⟩ := live_bind_of_get?_eq_none hid operation f
  rw [Action.map_apply, hr]
  exact ⟨rfl, hs⟩

/-- A call about an identifier that leads nowhere breaks its contract and changes nothing. -/
theorem run_of_get?_eq_none (hid : c.get? id = none) {call : Call}
    (hcall : call.target? = some id) :
    ∃ operation : String,
      (call.run c).result = .error (.integrity s!"{operation} on freed entry {id.text}") ∧
        (call.run c).state = c := by
  cases call with
  | add labels data => cases hcall
  | unmapIdle cutoff => cases hcall
  | purge force => cases hcall
  | sweep now maxIdle => cases hcall
  | acquire other =>
    obtain rfl := Option.some.inj hcall
    exact ⟨"incref", refused hid "incref" _ Answer.count⟩
  | release now other =>
    obtain rfl := Option.some.inj hcall
    exact ⟨"decref", refused hid "decref" _ Answer.left⟩
  | retire other =>
    obtain rfl := Option.some.inj hcall
    exact ⟨"mark_for_removal", refused hid "mark_for_removal" _ fun _ => .done⟩
  | markEager other =>
    obtain rfl := Option.some.inj hcall
    exact ⟨"mark_for_aggressive_release",
      refused hid "mark_for_aggressive_release" _ fun _ => .done⟩
  | body other =>
    obtain rfl := Option.some.inj hcall
    exact ⟨"get_body", refused hid "get_body" _ Answer.body⟩

/-- **Weak references.** A weak reference to an entry leads to it after a run if and only if the
cell of the entry is occupied and was freed a multiple of 2³² times. With fewer frees than that, it
leads to the entry as long as the entry is there, and from then on nowhere, and all calls under the
old identifier are refused. Other caches do not know it, whatever they have under the identifier.
The count of frees is tied to the generation by `exists_cell_after`, which `contains_after_iff` and
its two variants turn into what a lookup finds. -/
theorem resolve?_after (hw : c.weak? id = some w) (later : List Call) :
    ((c.after later).resolve? w = some id ↔
      (c.after later).arena.isOccupied id.index ∧ 2 ^ 32 ∣ c.frees id.index later) ∧
    (c.frees id.index later < 2 ^ 32 →
      ((c.after later).resolve? w = some id ↔ c.frees id.index later = 0) ∧
      ((c.after later).resolve? w = some id ↔
        ∀ earlier, earlier <+: later → (c.after earlier).get? id ≠ none) ∧
      (c.frees id.index later ≠ 0 →
        (c.after later).resolve? w = none ∧
        ∀ call : Call, call.target? = some id → ∃ operation : String,
          (call.run (c.after later)).result =
              .error (.integrity s!"{operation} on freed entry {id.text}") ∧
            (call.run (c.after later)).state = c.after later)) ∧
    ∀ {γ : Type} (other : Cache γ), other.id ≠ c.id → other.resolve? w = none := by
  obtain ⟨hweak, hthere⟩ := of_weak? hw
  have hresolve := resolve?_eq_some_iff hw later
  refine ⟨hresolve.trans (contains_after_iff hthere later), fun hlt => ⟨?_, ?_, fun hfreed => ?_⟩,
    fun other hother => ?_⟩
  · exact hresolve.trans (contains_after_iff_of_lt hthere hlt)
  · have hget : ∀ calls, (c.after calls).arena.contains id ↔ (c.after calls).get? id ≠ none :=
      fun calls => Option.isSome_iff_ne_none
    rw [hresolve, contains_after_iff_forall hthere hlt]
    exact forall₂_congr fun earlier _ => hget earlier
  · have hgone : (c.after later).arena.contains id = false :=
      Bool.eq_false_iff.mpr fun h => hfreed ((contains_after_iff_of_lt hthere hlt).mp h)
    refine ⟨?_, fun call hcall => run_of_get?_eq_none ?_ hcall⟩
    · rw [hweak, resolve?, hgone]
      simp
    · exact Option.not_isSome_iff_eq_none.mp (Bool.eq_false_iff.mp hgone)
  · rw [hweak, resolve?, if_neg fun h => hother h.1.symm]

end Weak

/-- An object is deleted and its cell is used again. -/
def recycling : List Call :=
  [.retire ⟨0, 0⟩, .purge false, .add ⟨[("k", "v")]⟩ [1, 2]]

/-- A weak reference to a deleted object leads nowhere, neither to the object that has the cell then
nor, in another cache, to one under the same identifier. -/
theorem resolve?_after_recycling :
    let c := (openOver ⟨1⟩ smallStore 2).state
    let w : WeakEntry := ⟨⟨1⟩, ⟨0, 0⟩⟩
    c.weak? ⟨0, 0⟩ = some w ∧ c.frees 0 recycling = 1 ∧
      (c.after recycling).arena.contains ⟨0, 1⟩ ∧ (c.after recycling).resolve? w = none ∧
      (openOver ⟨2⟩ smallStore 2).state.arena.contains ⟨0, 0⟩ ∧
      (openOver ⟨2⟩ smallStore 2).state.resolve? w = none := by
  intro c w
  have hw : c.weak? ⟨0, 0⟩ = some w := by decide +kernel
  have hfrees : c.frees 0 recycling = 1 := by decide +kernel
  obtain ⟨-, hfewer, hothers⟩ := resolve?_after hw recycling
  rw [hfrees] at hfewer
  obtain ⟨-, -, hfreed⟩ := hfewer (by decide)
  have hother : (openOver ⟨2⟩ smallStore 2).state.id ≠ c.id := by decide +kernel
  exact ⟨hw, hfrees, by decide +kernel, (hfreed (by decide)).1, by decide +kernel,
    hothers _ hother⟩

end Cache

end BlobCache
