import BlobCache.Proofs.Cache.Descent

/-!
# Conservation of references

Every reference to an entry belongs to somebody: one to the cache as long as it lists the entry, and
the others to the user, whose account the `Ledger` keeps (`Accounted`). An entry therefore lives
exactly as long as the one or the other holds it: calls make entries by adding them only, and free
an entry in the very step after which it is off the list and nothing of it is left to give back
(`Conserving`). Neither does the user get at the cache's reference by giving back too much, nor
does a purge with force get at the user's.

* `Sound.live_iff`: an entry of a sound cache is there as long as the cache lists it or its user has
  something to give back.
* `Sound.created_iff`: an entry comes about when it is added, and in no other way.
* `Sound.conserving` puts these together for the call that may come next, for any number of releases
  in a row, for a purge with force and for closing.

`references_conserved` has this for every run of a cache over any backend.
-/

namespace BlobCache.Cache

variable {β : Type}

/-- The references to every entry are the cache's and those of the account. -/
structure Accounted (ledger : Ledger) (c : Cache β) : Prop where
  /-- A count is made of the cache's own reference, the one that the entry came with, and those
  taken and given back. -/
  references_eq : ∀ id e, c.get? id = some e →
    (e.references.count : Int) = (if e.isAttached then 1 else 0) + (ledger id).granted +
      (ledger id).taken - (ledger id).returned
  /-- The attached entries are the listed ones. -/
  attached_iff : ∀ id e, c.get? id = some e → (e.isAttached ↔ id ∈ c.members)
  /-- Nobody gives back more than they got. -/
  returned_le : ∀ id, (ledger id).returned ≤ (ledger id).granted + (ledger id).taken
  /-- An entry is there exactly as long as it is listed or something of it is left to give back. -/
  live_iff : ∀ id, c.get? id ≠ none ↔ id ∈ c.members ∨ 0 < (ledger id).share

/-- What the calls that may come next do to the lives of entries. -/
structure Conserving [Backend β] (ledger : Ledger) (c : Cache β) : Prop where
  /-- An entry comes into being by being added, under an identifier that led nowhere. -/
  created_iff : ∀ (call : Call) (id : EntryId),
    (call.run c).result = .ok (.entry id) ↔
      c.get? id = none ∧ (call.run c).state.get? id ≠ none
  /-- An entry is freed by the call after which the cache does not list it and nothing of it is left
  to give back, and by no other. -/
  freed_iff : ∀ (call : Call) (id : EntryId), c.get? id ≠ none →
    ((call.run c).state.get? id = none ↔
      id ∉ (call.run c).state.members ∧
        (ledger.record call (call.run c).result id).share = 0)
  /-- Whatever references are given back, the cache keeps its own. -/
  released : ∀ (gifts : List (Instant × EntryId)) (id : EntryId), id ∈ c.members →
    id ∈ (c.after (gifts.map fun gift => .release gift.1 gift.2)).members ∧
      ∃ e, (c.after (gifts.map fun gift => .release gift.1 gift.2)).get? id = some e ∧
        e.isAttached ∧ 1 ≤ e.references.count
  /-- A purge with force leaves users what they hold. -/
  forced : ∀ id, 0 < (ledger id).share →
    ∃ e, (purge true c).state.get? id = some e ∧ (ledger id).share ≤ e.references.count
  /-- So does closing, after which nothing is listed and all references are the user's. -/
  closed : (close c).state.members = [] ∧ (close c).state.Accounted ledger

/-! ### Answers -/

/-- An answer of another kind is not an entry. -/
private theorem map_ne_entry {α : Type} {f : α → Answer} {c : Cache β} {id : EntryId}
    (hf : ∀ a, f a ≠ .entry id) (x : Action (Cache β) α) :
    ((f <$> x) c).result ≠ .ok (.entry id) := by
  rw [Action.map_apply]
  intro heq
  cases hx : (x c).result with
  | ok a =>
    rw [hx] at heq
    exact hf a (Except.ok.inj heq)
  | error error =>
    rw [hx] at heq
    cases heq

/-- Calls that add nothing do not answer with an entry. -/
private theorem run_ne_entry [Backend β] {c : Cache β} {id : EntryId} {call : Call}
    (hcall : ∀ labels data, call ≠ .add labels data) :
    (call.run c).result ≠ .ok (.entry id) := by
  cases call with
  | add labels data => exact absurd rfl (hcall labels data)
  | acquire other => exact map_ne_entry (f := Answer.count) (by simp) (Cache.acquire other)
  | release now other =>
    exact map_ne_entry (f := Answer.left) (by simp) (Cache.release now other)
  | retire other =>
    exact map_ne_entry (f := fun _ => .done) (by simp) (Cache.retire other)
  | markEager other =>
    exact map_ne_entry (f := fun _ => .done) (by simp) (Cache.markEager other)
  | body other => exact map_ne_entry (f := Answer.body) (by simp) (Cache.body other)
  | unmapIdle cutoff =>
    exact map_ne_entry (f := Answer.report) (by simp) (Cache.unmapIdle cutoff)
  | purge force => exact map_ne_entry (f := Answer.report) (by simp) (Cache.purge force)
  | sweep now maxIdle =>
    rw [Call.run]
    cases (sweep? now maxIdle : Option (Action (Cache β) SweepReport)) with
    | none =>
      intro heq
      cases heq
    | some both => exact map_ne_entry (f := Answer.report) (by simp) both

/-! ### Sound caches -/

namespace Sound

variable {ledger : Ledger} {c : Cache β} {id : EntryId}

/-- An entry that is there is the cache's or its user's. -/
theorem live_iff (h : c.Sound ledger []) (id : EntryId) :
    c.get? id ≠ none ↔ id ∈ c.members ∨ 0 < (ledger id).share := by
  have hlive := h.exists_iff id
  rw [List.nil_append] at hlive
  rw [← hlive, Option.ne_none_iff_exists']

/-- The references to the entries of a sound cache are accounted for: its counts are those of
`Sound.references_eq`, where the cache's own reference counts for one. -/
theorem accounted (h : c.Sound ledger []) : c.Accounted ledger where
  references_eq id e he := by
    have hcount := h.references_eq he
    rw [Account.share] at hcount
    omega
  attached_iff id e he := by
    constructor
    · intro ha
      exact h.mem_of_isAttached he ha
    · intro hm
      obtain ⟨e', he', ha⟩ := (h.mem_iff id).mp hm
      rw [he] at he'
      cases he'
      exact ha
  returned_le id := by
    have hshare := h.share_nonneg id
    rw [Account.share] at hshare
    omega
  live_iff := h.live_iff

section Calls

variable [Backend β]

/-- Calls that add nothing make no entry. -/
private theorem get?_run_eq_none (h : c.Sound ledger []) {call : Call}
    (hcall : ∀ labels data, call ≠ .add labels data) (hid : c.get? id = none) :
    (call.run c).state.get? id = none := by
  cases he' : (call.run c).state.get? id with
  | none => rfl
  | some e' =>
    obtain ⟨e, he, -⟩ := h.becomes_run hcall he'
    rw [hid] at he
    cases he

/-- Adding makes the entry that it answers with. -/
theorem created_add (h : c.Sound ledger []) (labels : Labels) (data : Bytes) (id : EntryId) :
    ((Call.add labels data).run c).result = .ok (.entry id) ↔
      c.get? id = none ∧ ((Call.add labels data).run c).state.get? id ≠ none := by
  rw [Call.run, Action.map_apply]
  obtain ⟨error, -, hr, hs⟩ | ⟨filename, -, hr, hs⟩ := add_cases labels data c
  · rw [hr, hs, withBackend_get?]
    constructor
    · intro hfailed
      cases hfailed
    · rintro ⟨hnone, hsome⟩
      exact absurd hnone hsome
  · have hfresh := h.arena.get?_fst_insert (c.stored filename labels)
    have hget := get?_withBackend_enlisted h.arena (Backend.save labels data c.backend).state
      (c.stored filename labels) id
    rw [hr, hs, hget]
    constructor
    · rintro ⟨⟩
      exact ⟨hfresh, by rw [if_pos rfl]; exact Option.some_ne_none _⟩
    · rintro ⟨hnone, hsome⟩
      by_cases hn : id = (c.arena.insert (c.stored filename labels)).1
      · rw [hn]
        rfl
      · rw [if_neg hn] at hsome
        exact absurd hnone hsome

/-- Entries come into being by being added. -/
theorem created_iff (h : c.Sound ledger []) (call : Call) (id : EntryId) :
    (call.run c).result = .ok (.entry id) ↔
      c.get? id = none ∧ (call.run c).state.get? id ≠ none := by
  by_cases hadd : ∃ labels data, call = .add labels data
  · obtain ⟨labels, data, rfl⟩ := hadd
    exact h.created_add labels data id
  · have hcall : ∀ labels data, call ≠ .add labels data := fun labels data heq =>
      hadd ⟨labels, data, heq⟩
    constructor
    · intro hr
      exact absurd hr (run_ne_entry hcall)
    · rintro ⟨hnone, hsome⟩
      exact absurd (h.get?_run_eq_none hcall hnone) hsome

/-- Giving a reference back does not touch the list. -/
theorem members_release (c : Cache β) (now : Instant) (id : EntryId) :
    ((Call.release now id).run c).state.members = c.members := by
  rw [Call.run, Action.map_apply]
  obtain ⟨-, -, hs⟩ | ⟨-, -, -, -, -, hs⟩ | ⟨e, left, -, -, -, -, hs⟩ := release_cases now id c
  · rw [hs]
  · rw [hs, free_members]
  · rw [hs, change_members]

/-- Nor do several references that are given back. -/
private theorem members_releases (c : Cache β) (gifts : List (Instant × EntryId)) :
    (c.after (gifts.map fun gift => .release gift.1 gift.2)).members = c.members := by
  induction gifts generalizing c with
  | nil => rfl
  | cons gift gifts ih => exact (ih _).trans (members_release c gift.1 gift.2)

/-- The calls that may come next conserve the references of a sound cache. The cache after the call
is sound again, with the account after the call, and an entry of a sound cache is there exactly as
long as the cache lists it or its user has something to give back (`Sound.live_iff`). -/
theorem conserving (h : c.Sound ledger []) : c.Conserving ledger where
  created_iff := h.created_iff
  freed_iff call id _ := by
    have hs := h.run call
    have hnonneg := hs.share_nonneg id
    have hlive := hs.live_iff id
    constructor
    · intro hnone
      -- nobody holds an entry that is gone, and nobody owes a reference
      have hnot := mt hlive.mpr (not_not_intro hnone)
      rw [not_or] at hnot
      exact ⟨hnot.1, by omega⟩
    · rintro ⟨hm, hz⟩
      have hnot : ¬(id ∈ (call.run c).state.members ∨
          0 < (ledger.record call (call.run c).result id).share) := by
        rintro (hin | hpos)
        · exact hm hin
        · omega
      exact Decidable.not_not.mp (mt hlive.mp hnot)
  released gifts id hm := by
    -- giving back is no way off the list, and listed entries are there
    have hs := h.after (gifts.map fun gift => .release gift.1 gift.2)
    have hm' : id ∈ (c.after (gifts.map fun gift => .release gift.1 gift.2)).members := by
      rw [members_releases]
      exact hm
    obtain ⟨e, he, ho, hpos⟩ := hs.exists_of_listed hm'
    exact ⟨hm', e, he, Entry.isAttached_of_owner ho, hpos⟩
  forced id hshare := by
    have hs := (h.purge true).2
    obtain ⟨e, he⟩ := (hs.exists_iff id).mpr (.inr hshare)
    have hcount := hs.references_eq he
    refine ⟨e, he, ?_⟩
    split at hcount <;> omega
  closed := by
    obtain ⟨-, hs, hm, -⟩ := h.clear
    have hall := hs.accounted
    rw [h.close.2]
    exact ⟨hm, hall.references_eq, hall.attached_iff, hall.returned_le, hall.live_iff⟩

end Calls

end Sound

/-- **Conservation of references.** In every run the references to every entry are accounted for,
and no call frees an entry before or after its time: neither a user who gives back too much nor a
purge with force gets at references of the other side. The `Ledger` is written beside the run, and
soundness ties the counts to it (`Sound.accounted`, `Sound.conserving`). -/
theorem references_conserved [Backend β] {id : CacheId} {backend : β} {hint : Nat}
    (hopen : (openOver id backend hint).result = .ok ()) (calls : List Call) :
    ((openOver id backend hint).state.after calls).Accounted
        (Ledger.blank.after (openOver id backend hint).state calls) ∧
      ((openOver id backend hint).state.after calls).Conserving
        (Ledger.blank.after (openOver id backend hint).state calls) := by
  have h := sound_after hopen calls
  exact ⟨h.accounted, h.conserving⟩

/-- A directory of two slots, of which the first holds an object. -/
def smallStore : ObjectStore where
  dir := { path := ⟨"/o"⟩, limit := 2, slots := SlotSet.empty.insert 0 }
  disk := { nodes := [([], .folder 0), (["o"], .folder 0), (["o", "0"], .file [0, 7])] }

/-- An entry is added, retired and purged by force while it is held, and given back too often. -/
theorem references_conserved_held :
    (openOver ⟨1⟩ smallStore 2).result = .ok () ∧
      let calls : List Call := [.add ⟨[("k", "v")]⟩ [1, 2], .acquire ⟨1, 0⟩, .retire ⟨1, 0⟩,
        .purge true, .release .epoch ⟨1, 0⟩, .release .epoch ⟨1, 0⟩, .release .epoch ⟨1, 0⟩]
      let c := (openOver ⟨1⟩ smallStore 2).state.after calls
      let ledger := Ledger.blank.after (openOver ⟨1⟩ smallStore 2).state calls
      c.Accounted ledger ∧ c.Conserving ledger := by
  have hopen : (openOver ⟨1⟩ smallStore 2).result = .ok () := by rfl
  exact ⟨hopen, references_conserved hopen _⟩

end BlobCache.Cache
