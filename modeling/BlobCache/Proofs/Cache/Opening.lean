import BlobCache.Proofs.Cache.Soundness

/-!
# Opening and closing a cache

A cache that opens lists an entry for every object that it can read (`enroll_cases`), with nothing
on its user's account (`sound_openOver`). Together with `Sound.after` this makes every cache that
a run can reach sound (`sound_after`).

Closing purges with force and then lets go of what is left. It keeps the cache sound as well, with
nothing listed any more (`Sound.clear`), so what survives is what users hold.
-/

namespace BlobCache

namespace Cache

variable {β : Type} [Backend β]

/-! ### Opening -/

/-- The entry that the cache makes for an object that it finds. -/
def loaded (c : Cache β) (filename : String) (labels : Labels) : Entry :=
  { filename, labels, references := .one, owner := some c.id }

/-- An object that the backend has is listed if it can be read. -/
theorem enroll_cases (filename : String) (c : Cache β) :
    (enroll filename c).result = .ok () ∧
      ((∃ error, (Backend.load filename c.backend).result = .error error ∧
          (enroll filename c).state =
            c.withBackend (Backend.load filename c.backend).state) ∨
        ∃ object, (Backend.load filename c.backend).result = .ok object ∧
          (enroll filename c).state =
            (c.withBackend (Backend.load filename c.backend).state).enlisted
              (c.loaded filename object.labels)) := by
  rw [enroll, Action.bind_apply, Action.attempt_apply, onBackend_apply]
  cases h : (Backend.load filename c.backend).result with
  | error error => exact ⟨rfl, .inl ⟨error, rfl, rfl⟩⟩
  | ok object => exact ⟨rfl, .inr ⟨object, rfl, rfl⟩⟩

/-- Populating goes through the names that the backend gives, and skips what cannot be read. -/
theorem populate_of_list {c : Cache β} {names : List String}
    (h : (Backend.list c.backend).result = .ok names) :
    (populate c).result = .ok () ∧
      (populate c).state =
        (names.forM enroll (c.withBackend (Backend.list c.backend).state)).state := by
  have hall := (Action.forM_rule enroll (P := fun _ _ => True)
    (fun name _ c _ => ⟨(enroll_cases name c).1, trivial⟩) names
    (s := c.withBackend (Backend.list c.backend).state) trivial).1
  rw [populate, Action.bind_apply, onBackend_apply, h]
  dsimp only
  rw [Action.bind_apply, hall]
  exact ⟨rfl, rfl⟩

/-- Populating fails where the backend cannot list its objects. -/
theorem populate_of_list_error {c : Cache β} {error : CacheError}
    (h : (Backend.list c.backend).result = .error error) :
    (populate c).result = .error error := by
  rw [populate, Action.bind_apply, onBackend_apply, h]

/-- A cache that opened has asked its backend for the names of all objects and gone through them. -/
theorem openOver_of_ok {id : CacheId} {backend : β} {hint : Nat}
    (h : (openOver id backend hint).result = .ok ()) :
    ∃ names, (Backend.list backend).result = .ok names ∧
      (openOver id backend hint).state =
        (names.forM enroll ((fresh id backend hint).withBackend
          (Backend.list backend).state)).state := by
  have hp := Action.result_of_onFailure_eq_ok h
  cases hl : (Backend.list backend).result with
  | error error =>
    rw [populate_of_list_error (c := fresh id backend hint) hl] at hp
    cases hp
  | ok names =>
    refine ⟨names, rfl, ?_⟩
    rw [openOver, (Action.onFailure_of_ok hp).2]
    exact (populate_of_list (c := fresh id backend hint) hl).2

namespace Sound

omit [Backend β] in
/-- Nothing is wrong with a cache that lists nothing. -/
theorem fresh (id : CacheId) (backend : β) (hint : Nat) :
    (fresh id backend hint).Sound Ledger.blank [] where
  arena := Arena.sound_empty
  nodup := List.nodup_nil
  mem_iff other := by simp [Cache.fresh, Cache.get?, Arena.get?]
  owner_eq he := by simp [Cache.fresh, Cache.get?, Arena.get?] at he
  references_eq he := by simp [Cache.fresh, Cache.get?, Arena.get?] at he
  references_pos he := by simp [Cache.fresh, Cache.get?, Arena.get?] at he
  settled _ := rfl
  idle he := by simp [Cache.fresh, Cache.get?, Arena.get?] at he
  running := rfl

/-- An object that the cache finds is nobody's to give back. -/
theorem enroll {c : Cache β} (h : c.Sound Ledger.blank []) (filename : String) :
    (enroll filename c).state.Sound Ledger.blank [] := by
  obtain ⟨-, ⟨error, -, hs⟩ | ⟨object, -, hs⟩⟩ := enroll_cases filename c
  · rw [hs]
    exact h.withBackend _
  · rw [hs]
    have hb := h.withBackend (Backend.load filename c.backend).state
    exact hb.enlisted rfl rfl (fun _ _ => rfl) rfl (Nat.le_refl 1)

end Sound

/-- A cache that opened is sound, with nothing on its user's account: enrolling an object lists one
entry more, with one reference that is the cache's (`Sound.enroll`). -/
theorem sound_openOver {id : CacheId} {backend : β} {hint : Nat}
    (h : (openOver id backend hint).result = .ok ()) :
    (openOver id backend hint).state.Sound Ledger.blank [] := by
  obtain ⟨names, -, hs⟩ := openOver_of_ok h
  rw [hs]
  exact (Action.forM_rule Cache.enroll (P := fun _ c => c.Sound Ledger.blank [])
    (fun name _ c hc => ⟨(enroll_cases name c).1, hc.enroll name⟩) names
    ((Sound.fresh id backend hint).withBackend _)).2

/-- A cache that opened has the identity that it was given. -/
theorem id_openOver {id : CacheId} {backend : β} {hint : Nat}
    (h : (openOver id backend hint).result = .ok ()) :
    (openOver id backend hint).state.id = id := by
  obtain ⟨names, -, hs⟩ := openOver_of_ok h
  rw [hs]
  refine (Action.forM_rule Cache.enroll (P := fun _ c => c.id = id) (fun name _ c hc => ?_) names
    rfl).2
  obtain ⟨hr, ⟨error, -, hs⟩ | ⟨object, -, hs⟩⟩ := enroll_cases name c
  · exact ⟨hr, by rw [hs]; exact hc⟩
  · exact ⟨hr, by rw [hs]; exact hc⟩

/-- Every cache that a run can reach is sound, over any backend. This is where all results about
runs of a cache start (`sound_openOver`, `Sound.after`). -/
theorem sound_after {id : CacheId} {backend : β} {hint : Nat}
    (h : (openOver id backend hint).result = .ok ()) (calls : List Call) :
    ((openOver id backend hint).state.after calls).Sound
      (Ledger.blank.after (openOver id backend hint).state calls) [] :=
  (sound_openOver h).after calls

/-! ### Closing -/

namespace Sound

variable {ledger : Ledger} {c : Cache β}

omit [Backend β] in
/-- All listed entries may be taken off the list; they are pending then. -/
theorem unlistAll (h : c.Sound ledger []) :
    Sound ledger c.members { c with members := [] } where
  arena := h.arena
  nodup := by simpa using h.nodup
  mem_iff id := by
    rw [List.append_nil]
    exact h.mem_iff id
  owner_eq := h.owner_eq
  references_eq := h.references_eq
  references_pos := h.references_pos
  settled := h.settled
  idle := h.idle
  running := h.running

/-- Clearing a cache keeps it sound. It lists nothing any more, and the backend is as the purge at
the start of it leaves it. -/
theorem clear (h : c.Sound ledger []) :
    (clear c).result = .ok () ∧ (clear c).state.Sound ledger [] ∧
      (clear c).state.members = [] ∧
      (clear c).state.backend = (Cache.purge true c).state.backend := by
  obtain ⟨⟨r, hr, -⟩, hs⟩ := h.purge true
  rw [Cache.clear, Action.bind_apply, hr]
  dsimp only
  rw [Action.bind_apply, Action.get_apply]
  dsimp only
  rw [Action.bind_apply, Action.modify_apply]
  exact Action.forM_rule _
    (P := fun ids (c' : Cache β) => c'.Sound ledger ids ∧ c'.members = [] ∧
      c'.backend = (Cache.purge true c).state.backend)
    (fun id ids c' ⟨hc, hm, hb⟩ => by
      obtain ⟨e, he, -, hpos⟩ := hc.exists_of_pending
      obtain ⟨-, hlb, hlm⟩ := letGo_frame he hpos
      rw [Action.bind_apply, Action.attempt_apply]
      exact ⟨rfl, hc.letGo, hlm.trans hm, hlb.trans hb⟩)
    _ ⟨hs.unlistAll, rfl, rfl⟩

/-- A running cache that closes is cleared. -/
theorem close (h : c.Sound ledger []) :
    (close c).result = .ok () ∧
      (close c).state = { (Cache.clear c).state with closed := true } := by
  rw [Cache.close, Action.bind_apply, Action.get_apply]
  dsimp only
  rw [h.running, if_neg Bool.false_ne_true, Action.bind_apply, h.clear.1]
  exact ⟨rfl, rfl⟩

end Sound

/-- Closing a closed cache does nothing. -/
theorem close_of_closed {c : Cache β} (h : c.closed = true) : close c = ⟨.ok (), c, []⟩ := by
  rw [close, Action.bind_apply, Action.get_apply]
  dsimp only
  rw [if_pos h]
  rfl

/-- To close a cache twice is to close it once. -/
theorem close_close {ledger : Ledger} {c : Cache β} (h : c.Sound ledger []) :
    (close >>= fun _ => close) c = close c := by
  obtain ⟨hr, hs⟩ := h.close
  have hagain : close (close c).state = ⟨.ok (), (close c).state, []⟩ :=
    close_of_closed (by rw [hs])
  rw [Action.bind_apply, hr]
  dsimp only
  rw [hagain, List.append_nil, ← hr]

end Cache

end BlobCache
