import BlobCache.Action

/-!
# More on actions

How the result of an action hangs together with the results of its steps. `forM_rule` carries a
property through a list that is gone through step by step; `onFailure_of_ok` and
`result_of_onFailure_eq_ok` say that cleaning up is for failures only and does not hide them, and
`andFinally_of_ok` that cleaning up at the end leaves the result.
-/

namespace BlobCache.Action

variable {σ α β : Type}

/-- A function on the result sees neither the state nor the log. -/
theorem map_apply (f : α → β) (x : Action σ α) (s : σ) :
    (f <$> x) s = ⟨(x s).result.map f, (x s).state, (x s).log⟩ := by
  change (x >>= fun a => pure (f a)) s = _
  rw [bind_apply]
  cases (x s).result with
  | ok a => simp [Except.map, pure_apply]
  | error e => rfl

theorem ofExcept_apply (x : Except CacheError α) (s : σ) :
    (ofExcept x : Action σ α) s = ⟨x, s, []⟩ := by
  cases x <;> rfl

/-- A step that succeeds hands its result and its state on. -/
theorem bind_of_ok {x : Action σ α} {s : σ} {a : α} (h : (x s).result = .ok a)
    (f : α → Action σ β) :
    ((x >>= f) s).result = (f a (x s).state).result ∧
      ((x >>= f) s).state = (f a (x s).state).state := by
  rw [bind_apply, h]
  exact ⟨rfl, rfl⟩

/-- An action succeeds when its steps do. -/
theorem result_bind_eq_ok_iff {x : Action σ α} {f : α → Action σ β} {s : σ} {b : β} :
    ((x >>= f) s).result = .ok b ↔
      ∃ a, (x s).result = .ok a ∧ (f a (x s).state).result = .ok b := by
  cases h : (x s).result with
  | ok a =>
    rw [(bind_of_ok h f).1]
    exact ⟨fun hb => ⟨a, rfl, hb⟩, fun ⟨_, ha, hb⟩ => Except.ok.inj ha ▸ hb⟩
  | error e =>
    rw [bind_apply, h]
    exact ⟨nofun, nofun⟩

/-- If a sequence succeeds that starts with something computed, so did the computation, and the rest
of the sequence has done all that was done. -/
theorem exists_of_ofExcept_bind {x : Except CacheError α} {f : α → Action σ β} {s : σ} {b : β}
    (h : ((ofExcept x >>= f) s).result = .ok b) :
    ∃ a, x = .ok a ∧ (f a s).result = .ok b ∧ ((ofExcept x >>= f) s).state = (f a s).state := by
  rw [bind_apply, ofExcept_apply] at h ⊢
  cases x with
  | error e => cases h
  | ok a => exact ⟨a, rfl, h, rfl⟩

/-- A property of the state and of the values to come that every step hands on holds in the end. -/
theorem forM_rule (f : α → Action σ Unit) {P : List α → σ → Prop}
    (hstep : ∀ a as s, P (a :: as) s → (f a s).result = .ok () ∧ P as (f a s).state)
    (as : List α) {s : σ} (h : P as s) :
    (as.forM f s).result = .ok () ∧ P [] (as.forM f s).state := by
  induction as generalizing s with
  | nil => exact ⟨rfl, h⟩
  | cons a as ih =>
    obtain ⟨hr, hp⟩ := hstep a as s h
    obtain ⟨hrs, hps⟩ := ih hp
    have hcons : ((a :: as).forM f) s =
        ⟨(as.forM f (f a s).state).result, (as.forM f (f a s).state).state,
          (f a s).log ++ (as.forM f (f a s).state).log⟩ := by
      change (f a >>= fun _ => as.forM f) s = _
      rw [bind_apply, hr]
    rw [hcons]
    exact ⟨hrs, hps⟩

/-- An action that does not fail needs no cleaning up. -/
theorem onFailure_of_ok {x : Action σ α} {cleanup : Action σ Unit} {s : σ} {a : α}
    (h : (x s).result = .ok a) :
    (x.onFailure cleanup s).result = .ok a ∧ (x.onFailure cleanup s).state = (x s).state := by
  rw [onFailure, bind_apply, attempt_apply, h]
  exact ⟨rfl, rfl⟩

/-- Cleaning up at the end does not change the result, unless it fails itself. -/
theorem andFinally_of_ok {x : Action σ α} {cleanup : Action σ Unit} {s : σ}
    (h : (cleanup (x s).state).result = .ok ()) :
    (x.andFinally cleanup s).result = (x s).result ∧
      (x.andFinally cleanup s).state = (cleanup (x s).state).state := by
  rw [andFinally, bind_apply, attempt_apply]
  cases hr : (x s).result with
  | ok a =>
    dsimp only
    rw [bind_apply, h]
    exact ⟨rfl, rfl⟩
  | error e =>
    dsimp only
    rw [bind_apply, h]
    exact ⟨rfl, rfl⟩

/-- Cleaning up does not turn a failure into a success. -/
theorem result_of_onFailure_eq_ok {x : Action σ α} {cleanup : Action σ Unit} {s : σ} {a : α}
    (h : (x.onFailure cleanup s).result = .ok a) : (x s).result = .ok a := by
  cases hr : (x s).result with
  | ok b =>
    rw [(onFailure_of_ok hr).1] at h
    exact h
  | error e =>
    rw [onFailure, bind_apply, attempt_apply, hr] at h
    dsimp only at h
    rw [bind_apply] at h
    cases hc : (cleanup (x s).state).result with
    | ok _ =>
      rw [hc] at h
      cases h
    | error e' =>
      rw [hc] at h
      cases h

end BlobCache.Action
