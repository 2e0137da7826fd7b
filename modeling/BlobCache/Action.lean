import BlobCache.Error

/-!
# Actions

An `Action σ α` is a step of a program that works on a state `σ`: it ends with a result or with a
`CacheError`, and in either case with a new state and the messages that were logged on the way. A
failure does not take back what was done before it. `Action.zoom` runs an action on a part of a
larger state.

The laws `bind_apply`, `attempt_apply` and their companions say what an action does to a
state; with them no proof unfolds the definitions.
-/

namespace BlobCache

/-- How important a log message is. -/
inductive LogLevel
  | error
  | warn
  | info
  | debug
  deriving DecidableEq, Repr

/-- A logged message. -/
structure LogEvent where
  /-- How important it is. -/
  level : LogLevel
  /-- Its text. -/
  message : String
  deriving DecidableEq, Repr

/-- How an action ends. -/
structure Outcome (σ α : Type) where
  /-- The result or the error. -/
  result : Except CacheError α
  /-- The state afterwards. -/
  state : σ
  /-- What was logged, oldest first. -/
  log : List LogEvent

/-- A step that works on a state, may log and may fail. -/
def Action (σ α : Type) : Type :=
  σ → Outcome σ α

namespace Action

variable {σ τ α β : Type}

/-- Runs an action. -/
def run (x : Action σ α) (s : σ) : Outcome σ α := x s

/-- Does nothing and gives `a`. -/
protected def pure (a : α) : Action σ α := fun s => ⟨.ok a, s, []⟩

/-- Runs `x`, and then what its result calls for. -/
protected def bind (x : Action σ α) (f : α → Action σ β) : Action σ β := fun s =>
  match x s with
  | ⟨.ok a, s, log⟩ =>
    let next := f a s
    ⟨next.result, next.state, log ++ next.log⟩
  | ⟨.error e, s, log⟩ => ⟨.error e, s, log⟩

instance : Monad (Action σ) where
  pure := Action.pure
  bind := Action.bind

/-- Fails. -/
def fail (e : CacheError) : Action σ α := fun s => ⟨.error e, s, []⟩

/-- The state. -/
def get : Action σ σ := fun s => ⟨.ok s, s, []⟩

/-- Replaces the state. -/
def set (s : σ) : Action σ Unit := fun _ => ⟨.ok (), s, []⟩

/-- Changes the state. -/
def modify (f : σ → σ) : Action σ Unit := fun s => ⟨.ok (), f s, []⟩

/-- Logs a message. -/
def log (level : LogLevel) (message : String) : Action σ Unit := fun s =>
  ⟨.ok (), s, [⟨level, message⟩]⟩

/-- Gives a result or an error that is known already. -/
def ofExcept : Except CacheError α → Action σ α
  | .ok a => Action.pure a
  | .error e => fail e

/-- Runs an action and gives its error instead of failing with it. -/
def attempt (x : Action σ α) : Action σ (Except CacheError α) := fun s =>
  let o := x s
  ⟨.ok o.result, o.state, o.log⟩

/-- Runs `x` and, if it fails, `cleanup` before failing with the same error. -/
def onFailure (x : Action σ α) (cleanup : Action σ Unit) : Action σ α := do
  match ← x.attempt with
  | .ok a => pure a
  | .error e => do cleanup; fail e

/-- Runs `x` and then, whether it fails or not, `cleanup`. -/
def andFinally (x : Action σ α) (cleanup : Action σ Unit) : Action σ α := do
  match ← x.attempt with
  | .ok a => do cleanup; pure a
  | .error e => do cleanup; fail e

/-- Fails with another error where `x` fails. -/
def mapError (f : CacheError → CacheError) (x : Action σ α) : Action σ α := fun s =>
  let o := x s
  ⟨o.result.mapError f, o.state, o.log⟩

/-- Runs an action on a part of the state. -/
def zoom (part : σ → τ) (put : τ → σ → σ) (x : Action τ α) : Action σ α := fun s =>
  let o := x (part s)
  ⟨o.result, put o.state s, o.log⟩

/-- Reports a broken contract: it is logged where it is noticed, and then the action fails. -/
def violation (message : String) : Action σ α := do
  log .error ("integrity violation: " ++ message)
  fail (.integrity message)

/-! ### What actions do to a state -/

theorem pure_apply (a : α) (s : σ) : (pure a : Action σ α) s = ⟨.ok a, s, []⟩ := rfl

theorem bind_apply (x : Action σ α) (f : α → Action σ β) (s : σ) :
    (x >>= f) s =
      match (x s).result with
      | .ok a =>
        ⟨(f a (x s).state).result, (f a (x s).state).state, (x s).log ++ (f a (x s).state).log⟩
      | .error e => ⟨.error e, (x s).state, (x s).log⟩ := by
  change Action.bind x f s = _
  unfold Action.bind
  rcases hx : x s with ⟨r, t, l⟩
  cases r <;> rfl

theorem get_apply (s : σ) : (get : Action σ σ) s = ⟨.ok s, s, []⟩ := rfl

theorem set_apply (s t : σ) : (set t : Action σ Unit) s = ⟨.ok (), t, []⟩ := rfl

theorem modify_apply (f : σ → σ) (s : σ) :
    (modify f : Action σ Unit) s = ⟨.ok (), f s, []⟩ := rfl

theorem log_apply (level : LogLevel) (message : String) (s : σ) :
    (log level message : Action σ Unit) s = ⟨.ok (), s, [⟨level, message⟩]⟩ := rfl

theorem attempt_apply (x : Action σ α) (s : σ) :
    x.attempt s = ⟨.ok (x s).result, (x s).state, (x s).log⟩ := rfl

theorem mapError_apply (f : CacheError → CacheError) (x : Action σ α) (s : σ) :
    x.mapError f s = ⟨(x s).result.mapError f, (x s).state, (x s).log⟩ := rfl

theorem violation_apply (message : String) (s : σ) :
    (violation message : Action σ α) s =
      ⟨.error (.integrity message), s, [⟨.error, "integrity violation: " ++ message⟩]⟩ := rfl

instance : LawfulMonad (Action σ) :=
  LawfulMonad.mk' (Action σ)
    (fun x => by
      funext s
      change Action.bind x _ s = _
      unfold Action.bind
      rcases hx : x s with ⟨r, t, l⟩
      cases r <;> simp [Action.pure])
    (fun _ _ => rfl)
    (fun x f g => by
      funext s
      simp only [bind_apply]
      rcases (x s).result with e | a
      · rfl
      · dsimp only
        rcases (f a (x s).state).result with e | b
        · rfl
        · simp [List.append_assoc])

end Action

end BlobCache
