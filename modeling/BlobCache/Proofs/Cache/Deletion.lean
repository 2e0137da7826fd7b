import BlobCache.Proofs.Cache.Consistency
import BlobCache.Proofs.Cache.Housekeeping

/-!
# Deleting retired entries

A purge without force condemns the retired entries that nobody but the cache holds; with force it
condemns all retired entries (`Cache.condemned`). What it does to a cache is `Cache.Purges`: the
condemned entries are off the list, freed if nobody else holds them and detached if someone does;
the backend is told to delete the object of each of them, once and in the order of the list,
whatever it answers; and the report counts the answers and the retired entries that had to wait.

The report adds up as the entries are treated one by one (`sweepEach_judge`,
`Sound.sweepEach_discard`). Which entries are condemned, and which have to wait, does not depend on
idle bodies (`Sound.filter_unmapIdle`). `purges_after` has what a purge does for every cache that a
run can reach.
-/

namespace BlobCache

/-- What a backend answers when objects are deleted one by one. -/
def Backend.removals {β : Type} [Backend β] (b : β) : List String → List (Except CacheError Unit)
  | [] => []
  | name :: names =>
    (Backend.remove name b).result :: removals (Backend.remove name b).state names

theorem Backend.length_removals {β : Type} [Backend β] (b : β) (names : List String) :
    (Backend.removals b names).length = names.length := by
  induction names generalizing b with
  | nil => rfl
  | cons name names ih => exact congrArg Nat.succ (ih _)

namespace Cache

variable {β : Type}

/-- The listed entries that a purge is to delete: the retired ones and, without force, of these only
those that nobody but the cache holds. -/
def condemned (c : Cache β) (force : Bool) : List EntryId :=
  c.members.filter fun id => (c.get? id).any fun e =>
    e.retired && (force || e.references.count == 1)

/-- The listed entries that are retired and held by someone besides the cache. -/
def withheld (c : Cache β) : List EntryId :=
  c.members.filter fun id => (c.get? id).any fun e => e.retired && decide (1 < e.references.count)

/-- What a purge does to a cache. -/
structure Purges [Backend β] (c : Cache β) (force : Bool) (o : Outcome (Cache β) SweepReport) :
    Prop where
  /-- The condemned entries are taken off the list, and the others keep their order. -/
  members_eq : o.state.members = c.members.filter (· ∉ c.condemned force)
  /-- A condemned entry that nobody else holds is freed. -/
  freed : ∀ id ∈ c.condemned force, ∀ e, c.get? id = some e → e.references.count = 1 →
    o.state.get? id = none
  /-- A condemned entry that someone else holds loses its owner and the owner's reference. -/
  detached : ∀ id ∈ c.condemned force, ∀ e, c.get? id = some e → 1 < e.references.count →
    ∃ left, left.count + 1 = e.references.count ∧
      o.state.get? id = some { e with owner := none, references := left }
  /-- All other entries stay as they are. -/
  others : ∀ id, id ∉ c.condemned force → o.state.get? id = c.get? id
  /-- The backend is told to delete the objects of the condemned entries, in the order of the list,
  and nothing else. -/
  backend_eq : o.state.backend = Backend.removeAll c.backend (c.filenames (c.condemned force))
  /-- There is one object for each of them. -/
  length_filenames : (c.filenames (c.condemned force)).length = (c.condemned force).length
  /-- The report counts the answers of the backend, and the entries that have to wait. -/
  result_eq :
    let answers := Backend.removals c.backend (c.filenames (c.condemned force))
    o.result = .ok
      { unmapped := 0
        deleted := answers.countP (·.isOk)
        retained := if force then 0 else c.withheld.length
        failedRemovals := answers.countP (!·.isOk)
        violations := 0 }
  /-- Every condemned entry is counted. -/
  counted : ∀ r, o.result = .ok r → r.deleted + r.failedRemovals = (c.condemned force).length
  /-- The cache is otherwise the same. -/
  state_eq : o.state =
    { c with arena := o.state.arena, members := o.state.members, backend := o.state.backend }

/-- Without force, only entries of one reference are condemned. -/
theorem references_of_condemned {c : Cache β} {id : EntryId} {e : Entry}
    (hid : id ∈ c.condemned false) (he : c.get? id = some e) : e.references.count = 1 := by
  have hany := (List.mem_filter.mp hid).2
  rw [he, Option.any_some, Bool.false_or, Bool.and_eq_true, beq_iff_eq] at hany
  exact hany.2

/-- Each of several entries that are there has one object. -/
private theorem filenames_length {c : Cache β} {ids : List EntryId}
    (h : ∀ id ∈ ids, (c.get? id).isSome) : (c.filenames ids).length = ids.length := by
  induction ids with
  | nil => rfl
  | cons id ids ih =>
    obtain ⟨e, he⟩ := Option.isSome_iff_exists.mp (h id List.mem_cons_self)
    have hrest := ih fun other hother => h other (List.mem_cons_of_mem id hother)
    rw [filenames_cons he, List.length_cons, List.length_cons, hrest]

namespace Sound

variable {ledger : Ledger} {pending : List EntryId} {c : Cache β} {id : EntryId}

/-- A purge condemns the entries whose fate it is to be deleted. -/
theorem doomed_eq (h : c.Sound ledger []) (force : Bool) : c.doomed force = c.condemned force := by
  refine List.filter_congr fun id hid => ?_
  obtain ⟨e, he, ho, hpos⟩ := h.exists_of_listed hid
  rw [he, Option.any_some, Bool.eq_iff_iff, beq_iff_eq, fate_eq_delete_iff he ho hpos]
  simp

/-- The condemned entries may be taken off the list, to be discarded next. -/
theorem unlist_condemned (h : c.Sound ledger []) (force : Bool) :
    (c.unlist (c.condemned force)).Sound ledger (c.condemned force) := by
  rw [← h.doomed_eq]
  exact h.unlist _

/-- The entries that have to wait are those whose fate it is to be retained. -/
private theorem countP_retain (h : c.Sound ledger []) (force : Bool) :
    c.members.countP (c.fate force · == .retain) = if force then 0 else c.withheld.length := by
  have hretain : ∀ id ∈ c.members, (c.fate force id == .retain) =
      (!force && (c.get? id).any fun e => e.retired && decide (1 < e.references.count)) := by
    intro id hid
    obtain ⟨e, he, ho, hpos⟩ := h.exists_of_listed hid
    rw [fate_listed he ho hpos, he, Option.any_some]
    cases force with
    | true => cases e.retired <;> simp
    | false =>
      by_cases hheld : 1 < e.references.count
      · cases e.retired <;> simp [hheld]
      · cases e.retired <;> simp [hheld]
  have hcount := List.countP_congr fun id hid => Bool.eq_iff_iff.mp (hretain id hid)
  rw [hcount]
  cases force with
  | true => simp
  | false =>
    rw [withheld, ← List.countP_eq_length_filter]
    simp

/-- Unmapping idle bodies is not noticed by those who look for anything but bodies and idle
times. -/
theorem filter_unmapIdle (h : c.Sound ledger []) (cutoff : Instant) {p : Entry → Bool}
    (hp : ∀ e : Entry, p e.unmapped = p e) :
    (Cache.unmapIdle cutoff c).state.members.filter
        (fun id => ((Cache.unmapIdle cutoff c).state.get? id).any p) =
      c.members.filter fun id => (c.get? id).any p := by
  obtain ⟨hmembers, -, hget⟩ := h.unmapIdle_effect cutoff
  rw [hmembers]
  refine List.filter_congr fun id _ => ?_
  rw [hget]
  cases c.get? id with
  | none => rfl
  | some e =>
    rw [Option.map_some, Option.any_some, Option.any_some, Entry.unmappedAt]
    split
    · exact hp e
    · rfl

/-- Unmapping idle bodies saves no entry from a purge, and condemns none. -/
theorem condemned_unmapIdle (h : c.Sound ledger []) (cutoff : Instant) (force : Bool) :
    (Cache.unmapIdle cutoff c).state.condemned force = c.condemned force :=
  h.filter_unmapIdle cutoff fun _ => rfl

/-- Nor does it change which entries have to wait. -/
theorem withheld_unmapIdle (h : c.Sound ledger []) (cutoff : Instant) :
    (Cache.unmapIdle cutoff c).state.withheld = c.withheld :=
  h.filter_unmapIdle cutoff fun _ => rfl

variable [Backend β]

/-- Discarding entries has the backend delete one object after the other, and the report counts its
answers. -/
theorem sweepEach_discard {ids : List EntryId} (h : c.Sound ledger ids) :
    (sweepEach Cache.discard ids c).result =
        .ok (SweepReport.ofRemovals (Backend.removals c.backend (c.filenames ids))) ∧
      (sweepEach Cache.discard ids c).state =
        { c with
          arena := (sweepEach Cache.discard ids c).state.arena
          backend := (sweepEach Cache.discard ids c).state.backend } := by
  induction ids generalizing c with
  | nil => exact ⟨rfl, rfl⟩
  | cons id ids ih =>
    obtain ⟨e, he, -, hpos⟩ := h.exists_of_pending
    obtain ⟨hfirst, hdiscarded⟩ := discard_listed he hpos
    obtain ⟨hrs, hstates⟩ := ih h.discard.2
    have hstate : (Cache.discard id c).state =
        { c with
          arena := (Cache.letGo id c).state.arena
          backend := (Backend.remove e.filename c.backend).state } := by
      rw [hdiscarded, letGo_state he hpos]
      rfl
    have hbackend : (Cache.discard id c).state.backend =
        (Backend.remove e.filename c.backend).state := by rw [hstate]
    obtain ⟨hall, hlast⟩ := sweepEach_cons hfirst hrs
    -- the names to come are as they were, and the backend goes on from the first answer
    rw [hall, hlast, hstates, h.filenames_discard, hbackend, filenames_cons he, Backend.removals,
      ← SweepReport.ofRemovals_cons]
    exact ⟨rfl, by rw [hstate]⟩

/-- A purge takes the condemned entries off the list and discards them. -/
theorem purge_eq (h : c.Sound ledger []) (force : Bool) :
    (Cache.purge force c).result =
        .ok ({ retained := if force then 0 else c.withheld.length } +
          SweepReport.ofRemovals (Backend.removals c.backend (c.filenames (c.condemned force)))) ∧
      (Cache.purge force c).state =
        (sweepEach Cache.discard (c.condemned force) (c.unlist (c.condemned force))).state := by
  obtain ⟨hp, hc⟩ := sweepEach_judge (fun _ hid => h.exists_of_listed hid) force
  obtain ⟨hr, -⟩ := (h.unlist_condemned force).sweepEach_discard
  rw [← h.countP_retain]
  rw [← h.doomed_eq] at hr ⊢
  exact purge_of_ok hp hc hr

/-- A purge of a sound cache deletes the condemned entries. What it leaves is known from
`Sound.purge_effect`, and what it reports from `Sound.purge_eq`; here both are said without the
order in which entries are judged and discarded. -/
theorem purges (h : c.Sound ledger []) (force : Bool) : c.Purges force (Cache.purge force c) := by
  have hdoomed := h.doomed_eq force
  obtain ⟨hmembers, hbackend, hget⟩ := h.purge_effect force
  obtain ⟨-, hstate⟩ := (h.unlist_condemned force).sweepEach_discard
  obtain ⟨hresult, hs⟩ := h.purge_eq force
  rw [hdoomed] at hbackend hget
  have hnames : (c.filenames (c.condemned force)).length = (c.condemned force).length := by
    refine filenames_length fun id hid => ?_
    obtain ⟨e, he, -⟩ := h.exists_of_listed (List.mem_filter.mp hid).1
    rw [he]
    rfl
  constructor
  case members_eq =>
    rw [hmembers]
    refine List.filter_congr fun id hid => ?_
    rw [← contains_doomed hid, hdoomed]
    simp
  case freed =>
    intro id hid e he hone
    rw [hget, if_pos hid, he, Option.bind_some, Entry.surrender?_of_last hone]
  case detached =>
    intro id hid e he hheld
    obtain ⟨left, hcount, hsome⟩ := Entry.surrender?_of_held hheld
    refine ⟨left, hcount, ?_⟩
    rw [hget, if_pos hid, he, Option.bind_some, hsome]
    rfl
  case others =>
    intro id hid
    rw [hget, if_neg hid]
  case backend_eq => exact hbackend
  case length_filenames => exact hnames
  case result_eq =>
    rw [hresult, SweepReport.add_eq]
    simp only [SweepReport.ofRemovals, Nat.zero_add, Nat.add_zero]
  case counted =>
    intro r hr
    have hr' := Except.ok.inj (hresult.symm.trans hr)
    have hcounted := SweepReport.deleted_add_failedRemovals
      (Backend.removals c.backend (c.filenames (c.condemned force)))
    rw [Backend.length_removals, hnames] at hcounted
    rw [← hr', SweepReport.add_eq]
    simpa using hcounted
  case state_eq =>
    rw [hs, hstate]
    rfl

end Sound

/-- **Deletion.** In every run, a purge with or without force takes exactly the condemned entries
off the list, frees those that nobody else holds and detaches the others, and has the backend delete
the object of each of them once, whatever it answers. All that a purge needs of the cache is that it
is sound (`Sound.purges`). -/
theorem purges_after [Backend β] {id : CacheId} {backend : β} {hint : Nat}
    (hopen : (openOver id backend hint).result = .ok ()) (calls : List Call) (force : Bool) :
    let c := (openOver id backend hint).state.after calls
    c.Purges force (purge force c) :=
  (sound_after hopen calls).purges force

/-- A second object is added and held, and both are retired. -/
def retiringBoth : List Call :=
  [.add ⟨[("k", "v")]⟩ [1, 2], .retire ⟨0, 0⟩, .retire ⟨1, 0⟩]

/-- Without force the held entry waits, with force it is detached; no object can be deleted. -/
theorem purges_after_retiringBoth :
    (openOver ⟨1⟩ stubbornStore 2).result = .ok () ∧
      let c := (openOver ⟨1⟩ stubbornStore 2).state.after retiringBoth
      c.condemned false = [⟨0, 0⟩] ∧ c.condemned true = [⟨0, 0⟩, ⟨1, 0⟩] ∧
        c.withheld = [⟨1, 0⟩] ∧ c.Purges false (purge false c) ∧ c.Purges true (purge true c) := by
  have hopen : (openOver ⟨1⟩ stubbornStore 2).result = .ok () := by rfl
  exact ⟨hopen, by decide +kernel, by decide +kernel, by decide +kernel,
    purges_after hopen retiringBoth false, purges_after hopen retiringBoth true⟩

end Cache

end BlobCache
