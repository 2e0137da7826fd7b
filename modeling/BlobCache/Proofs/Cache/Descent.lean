import BlobCache.Proofs.Cache.Housekeeping

/-!
# What becomes of entries

Between two calls an entry may be marked, lose references, lose its body or get it mapped, leave the
list, or be freed. `Entry.TurnsInto` has one case for each of these ends that the entry lives to
see, and the one lemma about it, `Sound.turnsInto_run`, holds of every call except `add`, whose new
entries are described by `add_cases`.

Through all of this an entry keeps the name of its object and its labels, and it does not come back
to the list; its body is unmapped or mapped only while it is attached, and mapped only from the
object in the backend (`Entry.Becomes`). Nor does it lose the mark of an entry that is to be deleted
(`Entry.TurnsInto.retired`).
-/

namespace BlobCache

namespace Entry

variable {β : Type} [Backend β]

/-- What a call over the backend `b` may do to an entry that it does not free. -/
inductive TurnsInto (b : β) (e : Entry) : Entry → Prop
  | kept : TurnsInto b e e
  | acquired (references : RefCount) : TurnsInto b e { e with references, idleSince := none }
  | released (now : Instant) (left : RefCount) : TurnsInto b e (e.released now left)
  | markedRetired : TurnsInto b e { e with retired := true }
  | markedEager : TurnsInto b e { e with eager := true }
  | mapped {data : Bytes} (ha : e.isAttached)
      (hload : (Backend.loadBody e.filename b).result = .ok data) :
      TurnsInto b e { e with mapping := some data, idleSince := none }
  | unmapped (ha : e.isAttached) : TurnsInto b e e.unmapped
  | surrendered (left : RefCount) : TurnsInto b e (e.surrendered left)

/-- What a call over the backend `b` may make of an entry that it does not free. -/
structure Becomes (b : β) (e e' : Entry) : Prop where
  filename_eq : e'.filename = e.filename
  labels_eq : e'.labels = e.labels
  /-- An entry stays off the list. -/
  isAttached : e'.isAttached → e.isAttached
  /-- A body is unmapped or mapped only while the entry is attached. -/
  mapping : e'.mapping = e.mapping ∨ e'.isAttached ∧
    (e'.mapping = none ∨
      ∃ data, e'.mapping = some data ∧ (Backend.loadBody e.filename b).result = .ok data)

/-- An entry keeps its object as long as its owner and its body stay. -/
private theorem becomes_of_eq (b : β) {e e' : Entry} (hf : e'.filename = e.filename)
    (hl : e'.labels = e.labels) (ho : e'.owner = e.owner) (hm : e'.mapping = e.mapping) :
    e.Becomes b e' := by
  refine ⟨hf, hl, fun ha => ?_, .inl hm⟩
  rw [isAttached, ← ho]
  exact ha

/-- What becomes of an entry that a reference is given back of. -/
private theorem becomes_released (e : Entry) (now : Instant) (left : RefCount) (b : β) :
    e.Becomes b (e.released now left) := by
  rw [Entry.released]
  by_cases hall : left.count = 1 ∧ e.isAttached ∧ e.isMapped
  · rw [if_pos hall]
    by_cases hg : e.eager
    · rw [if_pos hg]
      exact ⟨rfl, rfl, fun ha => ha, .inr ⟨hall.2.1, .inl rfl⟩⟩
    · rw [if_neg hg]
      exact becomes_of_eq _ rfl rfl rfl rfl
  · rw [if_neg hall]
    exact becomes_of_eq _ rfl rfl rfl rfl

namespace TurnsInto

variable {b : β} {e e' : Entry}

/-- No call changes the object of an entry, or lists it again. -/
theorem becomes (h : e.TurnsInto b e') : e.Becomes b e' := by
  cases h with
  | kept => exact becomes_of_eq b rfl rfl rfl rfl
  | acquired references => exact becomes_of_eq b rfl rfl rfl rfl
  | released now left => exact becomes_released e now left b
  | markedRetired => exact becomes_of_eq b rfl rfl rfl rfl
  | markedEager => exact becomes_of_eq b rfl rfl rfl rfl
  | mapped ha hload => exact ⟨rfl, rfl, fun ha => ha, .inr ⟨ha, .inr ⟨_, rfl, hload⟩⟩⟩
  | unmapped ha => exact ⟨rfl, rfl, fun ha => ha, .inr ⟨ha, .inl rfl⟩⟩
  | surrendered left => exact ⟨rfl, rfl, nofun, .inl rfl⟩

/-- No call takes the mark off an entry that is to be deleted. -/
theorem retired (h : e.TurnsInto b e') (hr : e.retired) : e'.retired := by
  cases h with
  | released now left =>
    rw [Entry.released]
    split
    · split <;> exact hr
    · exact hr
  | markedRetired => rfl
  | _ => exact hr

end TurnsInto

end Entry

namespace Cache

variable {β : Type} [Backend β]

/-- If one entry turned into something, every entry did or stayed as it was. -/
private theorem turnsInto_of_change {c : Cache β} {id other : EntryId} {e e' : Entry}
    {f : Entry → Entry} {b : β} (he : c.get? id = some e) (hf : e.TurnsInto b (f e))
    (he' : (c.change id f).get? other = some e') :
    ∃ e, c.get? other = some e ∧ e.TurnsInto b e' := by
  obtain ⟨rfl, rfl⟩ | ⟨-, he'⟩ := eq_or_of_get?_change he he'
  · exact ⟨e, he, hf⟩
  · exact ⟨e', he', .kept⟩

namespace Sound

variable {ledger : Ledger} {c : Cache β} {id : EntryId} {e' : Entry}

/-- What is left after a purge without force was there before. -/
private theorem get?_of_purge_false (h : c.Sound ledger [])
    (he' : (Cache.purge false c).state.get? id = some e') : c.get? id = some e' := by
  rw [h.get?_purge_false] at he'
  exact (Option.ite_none_left_eq_some.mp he').2

/-- What the entries turn into in a purge. -/
theorem turnsInto_purge (h : c.Sound ledger []) {force : Bool}
    (he' : (Cache.purge force c).state.get? id = some e') :
    ∃ e, c.get? id = some e ∧ e.TurnsInto c.backend e' := by
  obtain ⟨-, -, hget⟩ := h.purge_effect force
  rw [hget] at he'
  by_cases hd : id ∈ c.doomed force
  · rw [if_pos hd] at he'
    obtain ⟨e, he, hs⟩ := Option.bind_eq_some_iff.mp he'
    obtain ⟨left, -, -, rfl⟩ := Entry.eq_of_surrender? hs
    exact ⟨e, he, .surrendered left⟩
  · rw [if_neg hd] at he'
    exact ⟨e', he', .kept⟩

/-- What the entries turn into when idle bodies are unmapped. -/
theorem turnsInto_unmapIdle (h : c.Sound ledger []) {cutoff : Instant}
    (he' : (Cache.unmapIdle cutoff c).state.get? id = some e') :
    ∃ e, c.get? id = some e ∧ e.TurnsInto c.backend e' := by
  obtain ⟨-, -, hget⟩ := h.unmapIdle_effect cutoff
  rw [hget] at he'
  obtain ⟨e, he, rfl⟩ := Option.map_eq_some_iff.mp he'
  refine ⟨e, he, ?_⟩
  -- idle entries are attached, so they may lose their bodies
  by_cases hidle : e.isIdleAt cutoff
  · have ha := (h.idle he (Entry.isSome_of_isIdleAt hidle)).1
    rw [Entry.unmappedAt, if_pos hidle]
    exact .unmapped ha
  · rw [Entry.unmappedAt, if_neg hidle]
    exact .kept

/-- Whatever is there after a call that adds nothing was there before, and the call did one thing to
it at most. One case for each call, by the lemma that says what the call does (`acquire_cases` and
so on); sweeps are `turnsInto_purge` and `turnsInto_unmapIdle`. -/
theorem turnsInto_run (h : c.Sound ledger []) {call : Call}
    (hcall : ∀ labels data, call ≠ .add labels data)
    (he' : (call.run c).state.get? id = some e') :
    ∃ e, c.get? id = some e ∧ e.TurnsInto c.backend e' := by
  have hsame : c.get? id = some e' → ∃ e, c.get? id = some e ∧ e.TurnsInto c.backend e' :=
    fun he => ⟨e', he, .kept⟩
  cases call with
  | add labels data => exact absurd rfl (hcall labels data)
  | acquire other =>
    rw [Call.run, Action.map_apply] at he'
    obtain ⟨-, -, hs⟩ | ⟨e, references, he, -, -, hs⟩ := acquire_cases other c
    · exact hsame (hs ▸ he')
    · exact turnsInto_of_change he (.acquired references) (hs ▸ he')
  | release now other =>
    rw [Call.run, Action.map_apply] at he'
    obtain ⟨-, -, hs⟩ | ⟨-, -, -, -, -, hs⟩ | ⟨e, left, he, -, -, -, hs⟩ :=
      release_cases now other c
    · exact hsame (hs ▸ he')
    · rw [hs] at he'
      exact hsame (get?_free_eq_some.mp he').2
    · exact turnsInto_of_change he (.released now left) (hs ▸ he')
  | retire other =>
    rw [Call.run, Action.map_apply] at he'
    obtain ⟨-, -, hs⟩ | ⟨e, he, -, hs⟩ := retire_cases other c
    · exact hsame (hs ▸ he')
    · exact turnsInto_of_change he .markedRetired (hs ▸ he')
  | markEager other =>
    rw [Call.run, Action.map_apply] at he'
    obtain ⟨-, -, hs⟩ | ⟨e, he, -, hs⟩ := markEager_cases other c
    · exact hsame (hs ▸ he')
    · exact turnsInto_of_change he .markedEager (hs ▸ he')
  | body other =>
    rw [Call.run, Action.map_apply] at he'
    obtain hs | ⟨e, he, hs | ⟨ho, data, hload, hs⟩⟩ := body_cases other c
    · exact hsame (hs ▸ he')
    · rw [hs] at he'
      exact hsame he'
    · rw [hs] at he'
      have hmapped : e.TurnsInto c.backend { e with mapping := some data, idleSince := none } :=
        .mapped (Entry.isAttached_of_owner ho) hload
      exact turnsInto_of_change (c := c.withBackend _) he hmapped he'
  | unmapIdle cutoff =>
    rw [Call.run, Action.map_apply] at he'
    exact h.turnsInto_unmapIdle he'
  | purge force =>
    rw [Call.run, Action.map_apply] at he'
    exact h.turnsInto_purge he'
  | sweep now maxIdle =>
    rw [Call.run] at he'
    cases hb : (sweep? now maxIdle : Option (Action (Cache β) SweepReport)) with
    | none =>
      rw [hb] at he'
      exact hsame he'
    | some both =>
      rw [hb] at he'
      dsimp only at he'
      rw [Action.map_apply] at he'
      obtain ⟨cutoff, hs⟩ := h.sweep_effect hb
      rw [hs] at he'
      exact h.turnsInto_unmapIdle ((h.unmapIdle cutoff).2.get?_of_purge_false he')

/-- Whatever is there after a call that adds nothing has become of what was there before. -/
theorem becomes_run (h : c.Sound ledger []) {call : Call}
    (hcall : ∀ labels data, call ≠ .add labels data)
    (he' : (call.run c).state.get? id = some e') :
    ∃ e, c.get? id = some e ∧ e.Becomes c.backend e' := by
  obtain ⟨e, he, hturns⟩ := h.turnsInto_run hcall he'
  exact ⟨e, he, hturns.becomes⟩

end Sound

end Cache

end BlobCache
