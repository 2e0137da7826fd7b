import BlobCache.Proofs.Cache.Deletion
import BlobCache.Proofs.Cache.Persistence
import BlobCache.Proofs.ObjectDir.Refinement

/-!
# Removing objects

Objects are removed in two steps: their entries are retired, and a purge deletes what is retired.
Over a directory that mirrors a map, the purge deletes every object that it is to delete, counts
them, and nothing fails (`Sound.purge_report`).

Closing is a purge as well, but one that has nothing to do as long as nobody retires an entry
(`Settled.close`).
-/

namespace BlobCache

namespace ObjectStore.Mirrors

variable {limit : Nat} {s : ObjectStore} {folder : Location} {m : SlotMap limit}

/-- Deleting under the name of a slot does not fail. -/
private theorem remove_name (h : s.Mirrors folder m) {n : Nat} (hn : n < Slot.bound) :
    (ObjectStore.remove (Slot.name n) s).result = .ok () ∧
      (ObjectStore.remove (Slot.name n) s).state.Mirrors folder (m.remove (Slot.name n)) := by
  obtain ⟨hagrees, hmirrors⟩ := h.remove (Slot.name n)
  rw [StoreCall.run, Action.map_apply] at hagrees hmirrors
  refine ⟨?_, hmirrors⟩
  obtain ⟨-, hok⟩ | ⟨hnot, -⟩ := hagrees
  · cases hr : (ObjectStore.remove (Slot.name n) s).result with
    | ok _ => rfl
    | error e =>
      have hfailed : ((Backend.remove (Slot.name n) s).result.map fun _ => StoreAnswer.done) =
          .error e := congrArg (Except.map fun _ => StoreAnswer.done) hr
      cases hfailed.symm.trans hok
  · exact absurd rfl (hnot n hn)

/-- Nor does deleting under the names of several slots. -/
private theorem isOk_of_mem_removals (h : s.Mirrors folder m) {names : List String}
    (hnames : ∀ name ∈ names, ∃ n < Slot.bound, name = Slot.name n) :
    ∀ answer ∈ Backend.removals s names, answer.isOk := by
  induction names generalizing s m with
  | nil => exact fun _ hanswer => absurd hanswer List.not_mem_nil
  | cons name names ih =>
    obtain ⟨n, hn, rfl⟩ := hnames name List.mem_cons_self
    obtain ⟨hremove, hmirrors⟩ := h.remove_name hn
    intro answer hanswer
    obtain rfl | hrest := List.mem_cons.mp hanswer
    · rw [show (Backend.remove (Slot.name n) s).result = .ok () from hremove]
      rfl
    · exact ih hmirrors (fun other hother => hnames other (List.mem_cons_of_mem _ hother))
        answer hrest

/-- Deleting under several names leaves the map without them. -/
theorem removeAll (h : s.Mirrors folder m) (names : List String) :
    (Backend.removeAll s names).Mirrors folder (names.foldl SlotMap.remove m) := by
  induction names generalizing s m with
  | nil => exact h
  | cons name names ih =>
    obtain ⟨-, hmirrors⟩ := h.remove name
    rw [StoreCall.run, Action.map_apply] at hmirrors
    exact ih hmirrors

end ObjectStore.Mirrors

namespace Cache

variable {ledger : Ledger}

/-! ### Retiring -/

section Retiring

variable {β : Type}

/-- Retiring marks one entry, if it is there. -/
theorem retire_effect (id : EntryId) (c : Cache β) :
    (retire id c).state.members = c.members ∧ (retire id c).state.backend = c.backend ∧
      ∀ other, (retire id c).state.get? other =
        (c.get? other).map fun e => if other = id then { e with retired := true } else e := by
  rw [retire]
  cases he : c.get? id with
  | none =>
    rw [(live_bind_of_get?_eq_none he _ _).2]
    refine ⟨rfl, rfl, fun other => ?_⟩
    by_cases hn : other = id
    · rw [hn, he, Option.map_none]
    · simp only [hn, if_false, Option.map_id']
  | some e =>
    rw [live_bind_of_get? he, updateEntry_apply]
    refine ⟨change_members .., change_backend .., fun other => ?_⟩
    rw [get?_change]
    by_cases hn : other = id
    · simp only [hn, if_true]
    · simp only [hn, if_false, Option.map_id']

/-- Retiring several entries marks them, and does nothing else. -/
theorem after_retire [Backend β] (c : Cache β) (ids : List EntryId) :
    (c.after (ids.map .retire)).members = c.members ∧
      (c.after (ids.map .retire)).backend = c.backend ∧
      ∀ other, (c.after (ids.map .retire)).get? other =
        (c.get? other).map fun e => if other ∈ ids then { e with retired := true } else e := by
  induction ids generalizing c with
  | nil =>
    refine ⟨rfl, rfl, fun other => ?_⟩
    simp only [List.not_mem_nil, if_false, Option.map_id']
    rfl
  | cons id ids ih =>
    obtain ⟨hm, hb, hget⟩ := retire_effect id c
    obtain ⟨hms, hbs, hgets⟩ := ih (retire id c).state
    rw [List.map_cons, after, Call.run, Action.map_apply]
    refine ⟨hms.trans hm, hbs.trans hb, fun other => ?_⟩
    rw [hgets, hget, Option.map_map]
    refine congrArg (Option.map · (c.get? other)) (funext fun e => ?_)
    rw [Function.comp_apply]
    by_cases hn : other = id
    · simp [hn]
    · simp [hn]

/-- No entry waits for its deletion. -/
def Unretired (c : Cache β) : Prop :=
  ∀ id e, c.get? id = some e → e.retired = false

namespace Unretired

variable {c : Cache β}

/-- A change that is none to the mark keeps entries from being retired. -/
theorem change (h : c.Unretired) (id : EntryId) {f : Entry → Entry}
    (hf : ∀ e, (f e).retired = e.retired) : (c.change id f).Unretired := by
  intro other e' he'
  rw [get?_change] at he'
  by_cases hn : other = id
  · rw [if_pos hn] at he'
    obtain ⟨e, he, rfl⟩ := Option.map_eq_some_iff.mp he'
    exact (hf e).trans (h id e he)
  · rw [if_neg hn] at he'
    exact h other e' he'

theorem acquire (h : c.Unretired) (id : EntryId) : (acquire id c).state.Unretired := by
  obtain ⟨-, -, hs⟩ | ⟨e, references, -, -, -, hs⟩ := acquire_cases id c
  · rwa [hs]
  · rw [hs]
    exact h.change id fun _ => rfl

theorem release (h : c.Unretired) (now : Instant) (id : EntryId) :
    (release now id c).state.Unretired := by
  obtain ⟨-, -, hs⟩ | ⟨-, -, -, -, -, hs⟩ | ⟨e, left, -, -, -, -, hs⟩ := release_cases now id c
  · rwa [hs]
  · rw [hs]
    exact fun other e he => h other e (get?_free_eq_some.mp he).2
  · rw [hs]
    refine h.change id fun e => ?_
    rw [Entry.released]
    split
    · split <;> rfl
    · rfl

theorem body [Backend β] (h : c.Unretired) (id : EntryId) : (body id c).state.Unretired := by
  obtain hs | ⟨e, -, hs | ⟨-, data, -, hs⟩⟩ := body_cases id c
  · rwa [hs]
  · rw [hs]
    exact h
  · rw [hs]
    exact change (c := c.withBackend _) h id fun _ => rfl

end Unretired

end Retiring

/-! ### What a purge reports -/

section Reports

variable {limit : Nat} {folder : Location} {m : SlotMap limit} {c : Cache ObjectStore}

/-- If nobody but the cache holds its entries, a purge deletes every retired one with its object. -/
theorem Sound.purge_report (hs : c.Sound ledger []) (hm : c.backend.Mirrors folder m)
    (hunheld : ∀ id ∈ c.members, ∀ e, c.get? id = some e → e.references.count = 1)
    (hnames : ∀ id ∈ c.members, ∀ e, c.get? id = some e →
      ∃ n < Slot.bound, e.filename = Slot.name n) :
    (Cache.purge false c).result = .ok { deleted := (c.doomed false).length } := by
  have hpurges := hs.purges false
  have hslots : ∀ name ∈ c.filenames (c.condemned false), ∃ n < Slot.bound, name = Slot.name n := by
    intro name hname
    obtain ⟨id, hid, hsome⟩ := List.mem_filterMap.mp hname
    obtain ⟨e, he, rfl⟩ := Option.map_eq_some_iff.mp hsome
    exact hnames id (List.mem_filter.mp hid).1 e he
  have hok := hm.isOk_of_mem_removals hslots
  -- every answer counts as a deletion, and nobody has to wait
  have hdeleted : (Backend.removals c.backend (c.filenames (c.condemned false))).countP (·.isOk) =
      (c.doomed false).length := by
    rw [List.countP_eq_length.mpr hok, Backend.length_removals, hpurges.length_filenames,
      hs.doomed_eq]
  have hfailed : (Backend.removals c.backend (c.filenames (c.condemned false))).countP
      (!·.isOk) = 0 := by
    refine List.countP_eq_zero.mpr fun answer hanswer => ?_
    rw [hok answer hanswer]
    exact Bool.false_ne_true
  have hwithheld : c.withheld = [] := by
    refine List.filter_eq_nil_iff.mpr fun id hid => ?_
    obtain ⟨e, he, -, -⟩ := hs.exists_of_listed hid
    rw [he, Option.any_some, hunheld id hid e he]
    simp
  rw [hpurges.result_eq, hdeleted, hfailed, hwithheld]
  rfl

end Reports

/-! ### Closing -/

/-- A cache that has nothing to delete when it closes. -/
def Settled (c : Cache ObjectStore) : Prop :=
  (∃ ledger, c.Sound ledger []) ∧ c.Unretired

namespace Settled

variable {c : Cache ObjectStore}

/-- A settled cache closes and leaves the directory alone. -/
theorem close (h : c.Settled) :
    (close c).result = .ok () ∧ (close c).state.backend = c.backend := by
  obtain ⟨⟨ledger, hs⟩, hunretired⟩ := h
  obtain ⟨hr, hb⟩ := hs.backend_close
  have hnone : c.members.filter (c.fate true · == .delete) = [] := by
    refine List.filter_eq_nil_iff.mpr fun id hid => ?_
    obtain ⟨e, he, -, -⟩ := hs.exists_of_listed hid
    rw [hs.fate_true hid he, hunretired id e he]
    exact Bool.false_ne_true
  rw [hnone] at hb
  exact ⟨hr, hb⟩

theorem add (h : c.Settled) (labels : Labels) (data : Bytes) :
    (add labels data c).state.Settled := by
  obtain ⟨⟨ledger, hs⟩, hunretired⟩ := h
  have hs' := hs.add labels data
  rw [Call.run, Action.map_apply] at hs'
  refine ⟨⟨_, hs'⟩, fun id e he => ?_⟩
  obtain ⟨error, -, -, hstate⟩ | ⟨filename, -, -, hstate⟩ := add_cases labels data c
  · rw [hstate, withBackend_get?] at he
    exact hunretired id e he
  · rw [hstate, get?_withBackend_enlisted hs.arena] at he
    by_cases hn : id = (c.arena.insert (c.stored filename labels)).1
    · rw [if_pos hn] at he
      obtain rfl := Option.some.inj he
      rfl
    · rw [if_neg hn] at he
      exact hunretired id e he

theorem acquire (h : c.Settled) (id : EntryId) : (acquire id c).state.Settled := by
  obtain ⟨⟨ledger, hs⟩, hunretired⟩ := h
  have hs' := hs.acquire id
  rw [Call.run, Action.map_apply] at hs'
  exact ⟨⟨_, hs'⟩, hunretired.acquire id⟩

theorem release (h : c.Settled) (now : Instant) (id : EntryId) :
    (release now id c).state.Settled := by
  obtain ⟨⟨ledger, hs⟩, hunretired⟩ := h
  have hs' := hs.release now id
  rw [Call.run, Action.map_apply] at hs'
  exact ⟨⟨_, hs'⟩, hunretired.release now id⟩

theorem body (h : c.Settled) (id : EntryId) : (body id c).state.Settled := by
  obtain ⟨⟨ledger, hs⟩, hunretired⟩ := h
  exact ⟨⟨_, hs.body id⟩, hunretired.body id⟩

/-- Asking for bodies leaves a cache settled, and the directory alone. -/
theorem after_body (h : c.Settled) (ids : List EntryId) :
    (c.after (ids.map .body)).Settled ∧
      (c.after (ids.map .body)).backend = c.backend := by
  induction ids generalizing c with
  | nil => exact ⟨h, rfl⟩
  | cons id ids ih =>
    have hbackend : (Cache.body id c).state.backend = c.backend := by
      obtain hs | ⟨e, -, hs | ⟨-, data, -, hs⟩⟩ := body_cases id c
      · rw [hs]
      · rw [hs, ObjectStore.loadBody_apply]
        rfl
      · rw [hs, ObjectStore.loadBody_apply]
        rfl
    obtain ⟨hsettled, hb⟩ := ih (h.body id)
    rw [List.map_cons, after, Call.run, Action.map_apply]
    exact ⟨hsettled, hb.trans hbackend⟩

end Settled

end Cache

end BlobCache
