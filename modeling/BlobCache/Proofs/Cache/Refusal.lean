import BlobCache.Proofs.Cache.Conservation
import BlobCache.Proofs.Cache.Generations

/-!
# Calls that fail

A failure does not take back what an operation did before it, so that a failed call leaves the cache
alone is a matter of the order of its steps. It does: the list, the entries, the identifiers that
lead to them and the order in which cells are used again are as before, and the backend may have
changed only if it was the backend that failed (`Spares`).

When a call fails, and with which error, is `Cache.refusal?`. It leaves out the complaints about
counts below zero and about entries of other caches, for which there is no occasion: no run leads
there (`failsCleanly_after`).
-/

namespace BlobCache

/-- The error with which an action ended, if it failed. -/
def Outcome.error? {σ α : Type} (o : Outcome σ α) : Option CacheError :=
  match o.result with
  | .error error => some error
  | .ok _ => none

namespace Outcome

variable {σ α : Type} {o : Outcome σ α}

theorem error?_of_error {error : CacheError} (h : o.result = .error error) :
    o.error? = some error := by
  rw [error?, h]

theorem error?_of_ok {a : α} (h : o.result = .ok a) : o.error? = none := by
  rw [error?, h]

theorem error?_eq_some_iff {error : CacheError} :
    o.error? = some error ↔ o.result = .error error := by
  rw [error?]
  cases o.result with
  | ok a => exact ⟨nofun, nofun⟩
  | error e =>
    constructor
    · intro h
      rw [Option.some.inj h]
    · intro h
      rw [Except.error.inj h]

end Outcome

/-- A function on the result does not see an error. -/
theorem Action.error?_map {σ α β : Type} (f : α → β) (x : Action σ α) (s : σ) :
    ((f <$> x) s).error? = (x s).error? := by
  rw [Action.map_apply, Outcome.error?, Outcome.error?]
  cases (x s).result <;> rfl

namespace Cache

variable {α β γ : Type}

/-! ### What a failed call leaves -/

/-- If the action failed, the cache is as before, except that the backend may have changed; and not
even that if the failure is a broken contract. -/
def Spares (c : Cache β) (o : Outcome (Cache β) α) : Prop :=
  ∀ error, o.result = .error error →
    o.state = c.withBackend o.state.backend ∧ (error.isIntegrity → o.state = c)

namespace Spares

variable {c : Cache β} {o : Outcome (Cache β) α}

theorem of_ok {a : α} (h : o.result = .ok a) : c.Spares o := fun _ herror =>
  absurd (h.symm.trans herror) nofun

theorem of_error? (h : o.error? = none) : c.Spares o := fun _ herror =>
  absurd ((Outcome.error?_of_error herror).symm.trans h) nofun

theorem of_state (h : o.state = c) : c.Spares o := by
  intro error _
  refine ⟨?_, fun _ => h⟩
  rw [h]
  rfl

/-- A failure of the backend is not a broken contract. -/
theorem of_withBackend {error : CacheError} {b : β} (hr : o.result = .error error)
    (hs : o.state = c.withBackend b) (herror : error.isIntegrity = false) : c.Spares o := by
  intro error' hr'
  obtain rfl := Except.error.inj (hr.symm.trans hr')
  refine ⟨?_, fun h => absurd (herror.symm.trans h) Bool.false_ne_true⟩
  rw [hs]
  rfl

theorem map {x : Action (Cache β) α} (h : c.Spares (x c)) (f : α → γ) :
    c.Spares ((f <$> x) c) := by
  intro error herror
  rw [← Outcome.error?_eq_some_iff, Action.error?_map, Outcome.error?_eq_some_iff] at herror
  rw [Action.map_apply]
  exact h error herror

end Spares

/-- An error of the backend is reported as a failure to store, or as an unusable argument. -/
private theorem storeError_cases (error : CacheError) :
    (∃ reason cause, storeError error = .writeFailed reason cause) ∨
      ∃ reason, storeError error = .invalidArgument reason := by
  cases error
  case invalidArgument reason => exact .inr ⟨reason, rfl⟩
  all_goals exact .inl ⟨_, _, rfl⟩

section

variable [Backend β]

private theorem spares_add (labels : Labels) (data : Bytes) (c : Cache β) :
    c.Spares (add labels data c) := by
  obtain ⟨error, -, hr, hs⟩ | ⟨filename, -, hr, -⟩ := add_cases labels data c
  · refine .of_withBackend hr hs ?_
    obtain ⟨reason, cause, h⟩ | ⟨reason, h⟩ := storeError_cases error
    · rw [h]
      rfl
    · rw [h]
      rfl
  · exact .of_ok hr

private theorem spares_body (id : EntryId) (c : Cache β) : c.Spares (body id c) := by
  cases he : c.get? id with
  | none => exact .of_state (body_of_get?_eq_none he).2
  | some e =>
    obtain ⟨data, -, hr, -⟩ | ⟨-, -, -, hs⟩ | ⟨-, -, ⟨error, -, hr, hs⟩ | ⟨data, -, hr, -⟩⟩ :=
      body_of_get? he
    · exact .of_ok hr
    · exact .of_state hs
    · exact .of_withBackend hr hs rfl
    · exact .of_ok hr

end

private theorem spares_acquire (id : EntryId) (c : Cache β) : c.Spares (acquire id c) := by
  obtain ⟨-, -, hs⟩ | ⟨-, references, -, -, hr, -⟩ := acquire_cases id c
  · exact .of_state hs
  · exact .of_ok hr

private theorem spares_release (now : Instant) (id : EntryId) (c : Cache β) :
    c.Spares (release now id c) := by
  obtain ⟨-, -, hs⟩ | ⟨e, -, -, -, hr, -⟩ | ⟨e, left, -, -, -, hr, -⟩ := release_cases now id c
  · exact .of_state hs
  · exact .of_ok hr
  · exact .of_ok hr

private theorem spares_retire (id : EntryId) (c : Cache β) : c.Spares (retire id c) := by
  obtain ⟨-, -, hs⟩ | ⟨e, -, hr, -⟩ := retire_cases id c
  · exact .of_state hs
  · exact .of_ok hr

private theorem spares_markEager (id : EntryId) (c : Cache β) : c.Spares (markEager id c) := by
  obtain ⟨-, -, hs⟩ | ⟨e, -, hr, -⟩ := markEager_cases id c
  · exact .of_state hs
  · exact .of_ok hr

/-! ### When a call fails -/

/-- The error of an operation on an entry: a complaint, if there is no entry, or what `f` has to say
about it. -/
def refusalAt (c : Cache β) (operation : String) (id : EntryId) (f : Entry → Option CacheError) :
    Option CacheError :=
  match c.get? id with
  | none => some (.integrity s!"{operation} on freed entry {id.text}")
  | some e => f e

/-- The error with which a call fails, if it does. -/
def refusal? [Backend β] (c : Cache β) : Call → Option CacheError
  | .add labels data => (Backend.save labels data c.backend).error?.map storeError
  | .acquire id => c.refusalAt "incref" id fun e =>
    if e.references.count = 4294967295 then some (.integrity "reference count overflow") else none
  | .release _ id => c.refusalAt "decref" id fun e =>
    if e.references.count = 1 ∧ e.isAttached then
      some (.integrity s!"decref would free {id.text} while the cache still holds it")
    else none
  | .retire id => c.refusalAt "mark_for_removal" id fun _ => none
  | .markEager id => c.refusalAt "mark_for_aggressive_release" id fun _ => none
  | .body id => c.refusalAt "get_body" id fun e =>
    if e.isMapped then none
    else if e.isAttached then
      (Backend.loadBody e.filename c.backend).error?.map
        fun error => .notAvailable e.filename error.message
    else some (.notAvailable e.filename "entry is detached from the cache")
  | .unmapIdle _ | .purge _ | .sweep _ _ => none

/-- How the calls on a cache fail. -/
structure FailsCleanly [Backend β] (c : Cache β) : Prop where
  /-- A call fails exactly with the error that there is reason for. -/
  error_eq : ∀ call : Call, (call.run c).error? = c.refusal? call
  /-- A failed call leaves everything but the backend as it was. -/
  unchanged : ∀ (call : Call) error, (call.run c).result = .error error →
    (call.run c).state = c.withBackend (call.run c).state.backend
  /-- A broken contract leaves the backend as it was, too. -/
  untouched : ∀ (call : Call) reason, (call.run c).result = .error (.integrity reason) →
    (call.run c).state = c
  /-- An identifier that leads nowhere breaks the contract of every call about it. -/
  unresolved : ∀ (call : Call) id, call.target? = some id → c.get? id = none →
    ∃ reason, (call.run c).result = .error (.integrity reason)
  /-- Whatever the backend says, adding fails to store or has unusable arguments. -/
  add : ∀ labels data error, (add labels data c).result = .error error →
    (∃ reason cause, error = .writeFailed reason cause) ∨
      ∃ reason, error = .invalidArgument reason
  /-- The body of an entry that is there is not available, or is given. -/
  body : ∀ id e error, c.get? id = some e → (body id c).result = .error error →
    ∃ reason, error = .notAvailable e.filename reason
  /-- The cache's own reference cannot be given back. -/
  release : ∀ id ∈ c.members, ∀ e, c.get? id = some e → e.references.count = 1 → ∀ now,
    ∃ reason, (release now id c).result = .error (.integrity reason)

/-- What starts with `live` fails without an entry, or as the rest does. -/
private theorem error?_live_bind (operation : String) (id : EntryId)
    (f : Entry → Action (Cache β) α) (c : Cache β) :
    ((live operation id >>= f) c).error? = c.refusalAt operation id fun e => (f e c).error? := by
  rw [refusalAt]
  cases he : c.get? id with
  | none => exact Outcome.error?_of_error (live_bind_of_get?_eq_none he operation f).1
  | some e => rw [live_bind_of_get? he]

private theorem refusalAt_congr {c : Cache β} {id : EntryId} {f g : Entry → Option CacheError}
    (h : ∀ e, c.get? id = some e → f e = g e) (operation : String) :
    c.refusalAt operation id f = c.refusalAt operation id g := by
  rw [refusalAt, refusalAt]
  cases he : c.get? id with
  | none => rfl
  | some e => exact h e he

private theorem error?_acquire [Backend β] (id : EntryId) (c : Cache β) :
    (acquire id c).error? = c.refusal? (.acquire id) := by
  rw [acquire, error?_live_bind, refusal?]
  refine refusalAt_congr (fun e _ => ?_) "incref"
  have hle := e.references.le_max
  rw [RefCount.increment]
  by_cases hmax : e.references.count = 4294967295
  · rw [if_pos hmax, dif_neg (by omega)]
    rfl
  · rw [if_neg hmax, dif_pos (by omega)]
    rfl

private theorem error?_retire [Backend β] (id : EntryId) (c : Cache β) :
    (retire id c).error? = c.refusal? (.retire id) :=
  error?_live_bind ..

private theorem error?_markEager [Backend β] (id : EntryId) (c : Cache β) :
    (markEager id c).error? = c.refusal? (.markEager id) :=
  error?_live_bind ..

namespace Sound

variable [Backend β] {ledger : Ledger} {c : Cache β}

/-- The last reference of a listed entry is the cache's own; all others can be given back. -/
private theorem error?_release (h : c.Sound ledger []) (now : Instant) (id : EntryId) :
    (Cache.release now id c).error? = c.refusal? (.release now id) := by
  rw [Cache.release, error?_live_bind, refusal?]
  refine refusalAt_congr (fun e he => ?_) "decref"
  by_cases hguard : e.references.count = 1 ∧ e.isAttached
  · rw [if_pos hguard, if_pos hguard]
    rfl
  · rw [if_neg hguard, if_neg hguard]
    -- there is a reference to give back
    have hpos : 1 ≤ e.references.count := h.references_pos he
    rcases Nat.eq_or_lt_of_le hpos with hlast | hheld
    · obtain ⟨hr, -⟩ := dropReference_last hlast.symm id c
      have hleft : ¬(Liveness.destroyed = .alive 1 ∧ e.isAttached) := fun h =>
        Liveness.noConfusion h.1
      rw [Action.bind_apply, hr]
      dsimp only
      rw [if_neg hleft]
      rfl
    · obtain ⟨left, -, hr, -⟩ := release_of_held now he hheld
      rw [Cache.release, live_bind_of_get? he, if_neg hguard] at hr
      exact Outcome.error?_of_ok hr

/-- The body of an entry cannot be had if the backend does not give it, or if the entry has left the
list without it. -/
private theorem error?_body (h : c.Sound ledger []) (id : EntryId) :
    (Cache.body id c).error? = c.refusal? (.body id) := by
  rw [Cache.body, error?_live_bind, refusal?]
  refine refusalAt_congr (fun e he => ?_) "get_body"
  rw [Entry.isMapped]
  cases e.mapping with
  | some data => rfl
  | none =>
    rw [Option.isSome_none, if_neg Bool.false_ne_true]
    dsimp only
    rw [Action.bind_apply, Action.get_apply]
    dsimp only
    by_cases ho : e.owner = some c.id
    · rw [if_neg (not_not_intro ho), if_pos (Entry.isAttached_of_owner ho), Action.bind_apply,
        Action.mapError_apply, onBackend_apply, Outcome.error?, Outcome.error?]
      cases (Backend.loadBody e.filename c.backend).result with
      | error error => rfl
      | ok data => rfl
    · have hdetached : ¬e.isAttached := fun ha => by
        obtain ⟨owner, howner⟩ := Option.isSome_iff_exists.mp ha
        exact ho (h.owner_eq he howner ▸ howner)
      rw [if_pos ho, if_neg hdetached]
      rfl

/-- Every call on a sound cache fails for the reasons that are known, or not at all. -/
theorem error?_run (h : c.Sound ledger []) (call : Call) :
    (call.run c).error? = c.refusal? call := by
  cases call with
  | add labels data =>
    rw [Call.run, Action.error?_map, refusal?]
    obtain ⟨error, herror, hr, -⟩ | ⟨filename, hok, hr, -⟩ := add_cases labels data c
    · rw [Outcome.error?_of_error hr, Outcome.error?_of_error herror, Option.map_some]
    · rw [Outcome.error?_of_ok hr, Outcome.error?_of_ok hok, Option.map_none]
  | acquire id =>
    rw [Call.run, Action.error?_map]
    exact error?_acquire id c
  | release now id =>
    rw [Call.run, Action.error?_map]
    exact h.error?_release now id
  | retire id =>
    rw [Call.run, Action.error?_map]
    exact error?_retire id c
  | markEager id =>
    rw [Call.run, Action.error?_map]
    exact error?_markEager id c
  | body id =>
    rw [Call.run, Action.error?_map]
    exact h.error?_body id
  | unmapIdle cutoff =>
    obtain ⟨⟨r, hr, -⟩, -⟩ := h.unmapIdle cutoff
    rw [Call.run, Action.error?_map]
    exact Outcome.error?_of_ok hr
  | purge force =>
    obtain ⟨⟨r, hr, -⟩, -⟩ := h.purge force
    rw [Call.run, Action.error?_map]
    exact Outcome.error?_of_ok hr
  | sweep now maxIdle =>
    rw [Call.run]
    cases hb : (sweep? now maxIdle : Option (Action (Cache β) SweepReport)) with
    | none => rfl
    | some both =>
      obtain ⟨⟨r, hr, -⟩, -⟩ := h.sweep hb
      rw [Action.error?_map]
      exact Outcome.error?_of_ok hr

/-- A failed call spares a sound cache; sweeps do not fail. -/
theorem spares_run (h : c.Sound ledger []) (call : Call) : c.Spares (call.run c) := by
  cases call with
  | add labels data => exact (spares_add labels data c).map _
  | acquire id => exact (spares_acquire id c).map _
  | release now id => exact (spares_release now id c).map _
  | retire id => exact (spares_retire id c).map _
  | markEager id => exact (spares_markEager id c).map _
  | body id => exact (spares_body id c).map _
  | unmapIdle cutoff => exact .of_error? (h.error?_run _)
  | purge force => exact .of_error? (h.error?_run _)
  | sweep now maxIdle => exact .of_error? (h.error?_run _)

/-- Calls on a sound cache fail cleanly. When a call fails is `error?_run`, that it spares the cache
then is `spares_run`; soundness excludes the complaints that `Cache.refusal?` leaves out. -/
theorem failsCleanly (h : c.Sound ledger []) : c.FailsCleanly where
  error_eq := h.error?_run
  unchanged call error herror := (h.spares_run call error herror).1
  untouched call reason herror := (h.spares_run call _ herror).2 rfl
  unresolved call id htarget hid := by
    obtain ⟨operation, hr, -⟩ := run_of_get?_eq_none hid htarget
    exact ⟨_, hr⟩
  add labels data error herror := by
    obtain ⟨cause, -, hr, -⟩ | ⟨filename, -, hr, -⟩ := add_cases labels data c
    · obtain rfl := Except.error.inj (hr.symm.trans herror)
      exact storeError_cases cause
    · exact absurd (hr.symm.trans herror) nofun
  body id e error he herror := by
    obtain ⟨data, -, hr, -⟩ | ⟨-, -, ⟨reason, hr⟩, -⟩ |
      ⟨-, -, ⟨cause, -, hr, -⟩ | ⟨data, -, hr, -⟩⟩ := body_of_get? he
    · exact absurd (hr.symm.trans herror) nofun
    · exact ⟨reason, Except.error.inj (herror.symm.trans hr)⟩
    · exact ⟨cause.message, Except.error.inj (herror.symm.trans hr)⟩
    · exact absurd (hr.symm.trans herror) nofun
  release id hid e he hone now := by
    obtain ⟨e', he', ho, -⟩ := h.exists_of_listed hid
    obtain rfl := Option.some.inj (he.symm.trans he')
    have hrefused := h.error?_release now id
    rw [refusal?, refusalAt, he] at hrefused
    dsimp only at hrefused
    rw [if_pos ⟨hone, Entry.isAttached_of_owner ho⟩] at hrefused
    exact ⟨_, Outcome.error?_eq_some_iff.mp hrefused⟩

end Sound

/-- **Clean failure.** In every run and over every backend, a call that fails has a reason to
(`Cache.refusal?`), and leaves the list, the entries, the identifiers that lead to them and the
order in which cells are used again as they were. The backend itself may have changed, but only if
it was the one that failed. The argument is one case for each operation (`spares_run`,
`Sound.failsCleanly`). -/
theorem failsCleanly_after [Backend β] {id : CacheId} {backend : β} {hint : Nat}
    (hopen : (openOver id backend hint).result = .ok ()) (calls : List Call) :
    ((openOver id backend hint).state.after calls).FailsCleanly :=
  (sound_after hopen calls).failsCleanly

/-- The directory of `smallStore` on a disk that takes no further file. -/
def fullStore : FaultyStore ObjectStore where
  store := smallStore
  faults := { save := some (.io "no space left" (.other "disk full")) }

/-- An object is detached without its body, and the user keeps it. -/
def detaching : List Call :=
  [.acquire ⟨0, 0⟩, .retire ⟨0, 0⟩, .purge true]

/-- The error of the disk is reported as a failure to store, a detached body cannot be had any more,
and other generations of the cell lead nowhere. -/
theorem failsCleanly_after_detaching :
    (openOver ⟨1⟩ fullStore 2).result = .ok () ∧
      let c := (openOver ⟨1⟩ fullStore 2).state.after detaching
      c.refusal? (.add ⟨[]⟩ [1]) = some (.writeFailed "IO error: no space left" none) ∧
        c.refusal? (.body ⟨0, 0⟩) =
          some (.notAvailable "0" "entry is detached from the cache") ∧
        c.refusal? (.acquire ⟨0, 7⟩) = some (.integrity "incref on freed entry #0v7") ∧
        c.FailsCleanly := by
  have hopen : (openOver ⟨1⟩ fullStore 2).result = .ok () := by rfl
  exact ⟨hopen, by decide +kernel, by decide +kernel, by decide +kernel,
    failsCleanly_after hopen detaching⟩

end Cache

end BlobCache
