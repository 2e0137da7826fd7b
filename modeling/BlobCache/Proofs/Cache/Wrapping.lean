import BlobCache.Proofs.Cache.Loading
import BlobCache.Proofs.ObjectDir.Crash
import BlobCache.Proofs.ObjectDir.FastPath

/-!
# Caches over wrapped backends

A backend may be wrapped into another one that passes calls on. A cache sees of its backend what the
calls answer, so a cache over the wrapper and a cache over the backend itself make the same run as
long as the calls answer the same.

* `Action.Tracks` relates an action to one on another type of states that does the same there. It is
  closed under the ways in which actions are put together, so it holds of the operations of a cache
  if it holds of those of the backends (`Backend.Tracks`, `Cache.tracks_run`).
* A wrapper that keeps the default way to a body, through the labels, answers as an object directory
  does if every header there can be read. This is the agreement of the two ways to a body
  (`ObjectStore.body_eq_map_object`), and calls keep the headers readable.
-/

namespace BlobCache

variable {σ τ α ε : Type}

namespace Action

/-- On what `view` makes of a state with the property, the second action does what the first one
does on the state, and the property is kept. -/
def Tracks (view : σ → τ) (P : σ → Prop) (x : Action σ α) (y : Action τ α) : Prop :=
  ∀ s, P s → (y (view s)).result = (x s).result ∧ (y (view s)).state = view (x s).state ∧
    P (x s).state

namespace Tracks

variable {view : σ → τ} {P : σ → Prop} {x : Action σ α} {y : Action τ α}

theorem pure (a : α) : Tracks view P (Pure.pure a : Action σ α) (Pure.pure a) :=
  fun _ hs => ⟨rfl, rfl, hs⟩

theorem fail (e : CacheError) : Tracks view P (Action.fail e : Action σ α) (Action.fail e) :=
  fun _ hs => ⟨rfl, rfl, hs⟩

theorem log (level : LogLevel) (message : String) :
    Tracks view P (Action.log level message) (Action.log level message) :=
  fun _ hs => ⟨rfl, rfl, hs⟩

theorem modify {f : σ → σ} {g : τ → τ} (h : ∀ s, g (view s) = view (f s))
    (hP : ∀ s, P s → P (f s)) : Tracks view P (Action.modify f) (Action.modify g) :=
  fun s hs => ⟨rfl, h s, hP s hs⟩

theorem bind {f : α → Action σ ε} {g : α → Action τ ε} (hx : Tracks view P x y)
    (hf : ∀ a, Tracks view P (f a) (g a)) : Tracks view P (x >>= f) (y >>= g) := by
  intro s hs
  obtain ⟨hr, hstate, hP⟩ := hx s hs
  rw [bind_apply, bind_apply, hr]
  cases (x s).result with
  | error e => exact ⟨rfl, hstate, hP⟩
  | ok a =>
    dsimp only
    rw [hstate]
    exact hf a (x s).state hP

/-- What is done with the state is to be the same for the state and for what is made of it. -/
private theorem bind_get {f : σ → Action σ ε} {g : τ → Action τ ε}
    (hf : ∀ s, Tracks view P (f s) (g (view s))) :
    Tracks view P (Action.get >>= f) (Action.get >>= g) :=
  fun s hs => hf s s hs

theorem attempt (hx : Tracks view P x y) : Tracks view P x.attempt y.attempt := by
  intro s hs
  obtain ⟨hr, hstate, hP⟩ := hx s hs
  rw [attempt_apply, attempt_apply, hr]
  exact ⟨rfl, hstate, hP⟩

theorem mapError (hx : Tracks view P x y) (f : CacheError → CacheError) :
    Tracks view P (x.mapError f) (y.mapError f) := by
  intro s hs
  obtain ⟨hr, hstate, hP⟩ := hx s hs
  rw [mapError_apply, mapError_apply, hr]
  exact ⟨rfl, hstate, hP⟩

theorem map (hx : Tracks view P x y) (f : α → ε) : Tracks view P (f <$> x) (f <$> y) := by
  intro s hs
  obtain ⟨hr, hstate, hP⟩ := hx s hs
  rw [map_apply, map_apply, hr]
  exact ⟨rfl, hstate, hP⟩

theorem violation (message : String) :
    Tracks view P (Action.violation message : Action σ α) (Action.violation message) :=
  .bind (.log _ _) fun _ => .fail _

theorem onFailure {x' : Action σ Unit} {y' : Action τ Unit} (hx : Tracks view P x y)
    (hx' : Tracks view P x' y') : Tracks view P (x.onFailure x') (y.onFailure y') := by
  refine .bind (.attempt hx) fun answer => ?_
  cases answer with
  | ok a => exact .pure a
  | error e => exact .bind hx' fun _ => .fail e

theorem forM {f : ε → Action σ Unit} {g : ε → Action τ Unit} (hf : ∀ a, Tracks view P (f a) (g a))
    (as : List ε) : Tracks view P (as.forM f) (as.forM g) := by
  induction as with
  | nil => exact .pure ()
  | cons a as ih => exact .bind (hf a) fun _ => ih

end Tracks

end Action

variable {β γ : Type}

namespace Cache

/-- The same cache over another backend. -/
def wrapped (wrap : β → γ) (c : Cache β) : Cache γ :=
  { id := c.id, backend := wrap c.backend, arena := c.arena, members := c.members,
    capacityHint := c.capacityHint, closed := c.closed }

/-- An operation of caches does on caches over one backend what it does over another. -/
abbrev Tracks (wrap : β → γ) (P : β → Prop) (x : Action (Cache β) α) (y : Action (Cache γ) α) :
    Prop :=
  Action.Tracks (wrapped wrap) (fun c => P c.backend) x y

variable {wrap : β → γ} {P : β → Prop}

private theorem get?_wrapped (c : Cache β) (id : EntryId) :
    (c.wrapped wrap).get? id = c.get? id := rfl

private theorem fate_wrapped (c : Cache β) (force : Bool) (id : EntryId) :
    (c.wrapped wrap).fate force id = c.fate force id := rfl

/-! ### Operations that leave the backend alone -/

private theorem tracks_onBackend {x : Action β α} {y : Action γ α} (h : Action.Tracks wrap P x y) :
    Tracks wrap P (onBackend x) (onBackend y) := by
  intro c hc
  obtain ⟨hr, hstate, hP⟩ := h c.backend hc
  refine ⟨hr, ?_, hP⟩
  change (c.wrapped wrap).withBackend (y (wrap c.backend)).state = _
  rw [hstate]
  rfl

private theorem tracks_updateEntry (id : EntryId) (f : Entry → Entry) :
    Tracks wrap P (updateEntry id f) (updateEntry id f) :=
  .modify (fun _ => rfl) fun _ hc => hc

private theorem tracks_enlist (e : Entry) : Tracks wrap P (enlist e) (enlist e) :=
  fun _ hc => ⟨rfl, rfl, hc⟩

private theorem tracks_live (operation : String) (id : EntryId) :
    Tracks wrap P (live operation id) (live operation id) := by
  refine .bind_get fun c => ?_
  rw [get?_wrapped]
  cases c.get? id with
  | none => exact .violation _
  | some e => exact .pure e

private theorem tracks_acquire (id : EntryId) : Tracks wrap P (acquire id) (acquire id) := by
  refine .bind (tracks_live _ id) fun e => ?_
  cases e.references.increment with
  | error refusal => exact .violation _
  | ok references => exact .bind (tracks_updateEntry id _) fun _ => .pure _

private theorem tracks_dropReference (id : EntryId) (e : Entry) :
    Tracks wrap P (dropReference id e) (dropReference id e) := by
  rw [dropReference, dropReference]
  cases e.references.decrement with
  | error refusal => exact .violation _
  | ok references =>
    dsimp only
    split
    · exact .bind (.modify (fun _ => rfl) fun _ hc => hc) fun _ => .bind (.log _ _) fun _ => .pure _
    · exact .bind (tracks_updateEntry id _) fun _ => .pure _

private theorem tracks_becomeIdle (now : Instant) (id : EntryId) (e : Entry) :
    Tracks wrap P (becomeIdle now id e) (becomeIdle now id e) := by
  rw [becomeIdle, becomeIdle]
  split
  · split
    · exact .bind (tracks_updateEntry id _) fun _ => .log _ _
    · exact tracks_updateEntry id _
  · exact .pure ()

private theorem tracks_release (now : Instant) (id : EntryId) :
    Tracks wrap P (release now id) (release now id) := by
  refine .bind (tracks_live _ id) fun e => ?_
  split
  · exact .violation _
  · refine .bind (tracks_dropReference id e) fun left => ?_
    dsimp only
    split
    · exact .bind (tracks_becomeIdle now id e) fun _ => .pure left
    · exact .pure left

private theorem tracks_letGo (id : EntryId) : Tracks wrap P (letGo id) (letGo id) :=
  .bind (tracks_updateEntry id _) fun _ => .bind (tracks_live _ id) fun e =>
    tracks_dropReference id e

private theorem tracks_retire (id : EntryId) : Tracks wrap P (retire id) (retire id) :=
  .bind (tracks_live _ id) fun _ => tracks_updateEntry id _

private theorem tracks_markEager (id : EntryId) : Tracks wrap P (markEager id) (markEager id) :=
  .bind (tracks_live _ id) fun _ => tracks_updateEntry id _

private theorem tracks_sweepEach {treat : EntryId → Action (Cache β) SweepReport}
    {treat' : EntryId → Action (Cache γ) SweepReport}
    (h : ∀ id, Tracks wrap P (treat id) (treat' id)) (ids : List EntryId) :
    Tracks wrap P (sweepEach treat ids) (sweepEach treat' ids) := by
  induction ids with
  | nil => exact .pure ({} : SweepReport)
  | cons id ids ih => exact .bind (h id) fun _ => .bind ih fun _ => .pure _

private theorem tracks_inconsistency (message : String) :
    Tracks wrap P (inconsistency message) (inconsistency message) :=
  .bind (.log _ _) fun _ => .pure _

private theorem tracks_unmapOne (cutoff : Instant) (id : EntryId) :
    Tracks wrap P (unmapOne cutoff id) (unmapOne cutoff id) := by
  refine .bind_get fun c => ?_
  rw [get?_wrapped]
  cases c.get? id with
  | none => exact tracks_inconsistency _
  | some e =>
    have hid : (c.wrapped wrap).id = c.id := rfl
    rw [hid]
    dsimp only
    split
    · exact .pure _
    · split
      · exact tracks_inconsistency _
      · split
        · exact .bind (tracks_updateEntry id _) fun _ => .pure _
        · exact .pure _

private theorem tracks_unmapIdle (cutoff : Instant) :
    Tracks wrap P (unmapIdle cutoff) (unmapIdle cutoff) := by
  refine .bind_get fun c => .bind (tracks_sweepEach (tracks_unmapOne cutoff) _) fun report => ?_
  dsimp only
  split
  · exact .bind (.log _ _) fun _ => .pure report
  · exact .pure report

private theorem tracks_judge (force : Bool) (id : EntryId) :
    Tracks wrap P (judge force id) (judge force id) := by
  refine .bind_get fun c => ?_
  rw [fate_wrapped]
  cases c.fate force id with
  | inconsistent message => exact tracks_inconsistency message
  | _ => exact .pure _

end Cache

/-! ### Operations that ask the backend -/

variable [Backend β] [Backend γ]

/-- A wrapper does all that a cache asks for as the backend in it does. -/
structure Backend.Tracks (wrap : β → γ) (P : β → Prop) : Prop where
  save : ∀ labels data,
    Action.Tracks wrap P (Backend.save labels data) (Backend.save labels data)
  list : Action.Tracks wrap P Backend.list Backend.list
  load : ∀ name, Action.Tracks wrap P (Backend.load name) (Backend.load name)
  loadBody : ∀ name, Action.Tracks wrap P (Backend.loadBody name) (Backend.loadBody name)
  remove : ∀ name, Action.Tracks wrap P (Backend.remove name) (Backend.remove name)

namespace Cache

variable {wrap : β → γ} {P : β → Prop} (h : Backend.Tracks wrap P)
include h

private theorem tracks_add (labels : Labels) (data : Bytes) :
    Tracks wrap P (add labels data) (add labels data) := by
  refine .bind (.mapError (tracks_onBackend (h.save labels data)) _) fun filename => ?_
  refine .bind_get fun c => .bind (tracks_enlist _) fun id => ?_
  exact .bind (.log _ _) fun _ => .pure id

private theorem tracks_body (id : EntryId) : Tracks wrap P (body id) (body id) := by
  refine .bind (tracks_live _ id) fun e => ?_
  cases e.mapping with
  | some data => exact .pure data
  | none =>
    refine .bind_get fun c => ?_
    have hid : (c.wrapped wrap).id = c.id := rfl
    rw [hid]
    split
    · exact .fail _
    · exact .bind (.mapError (tracks_onBackend (h.loadBody e.filename)) _) fun data =>
        .bind (tracks_updateEntry id _) fun _ => .bind (.log _ _) fun _ => .pure data

private theorem tracks_discard (id : EntryId) : Tracks wrap P (discard id) (discard id) := by
  refine .bind_get fun c => ?_
  rw [get?_wrapped]
  cases c.get? id with
  | none => exact .pure _
  | some e =>
    refine .bind (.attempt (tracks_letGo id)) fun left => ?_
    refine .bind (.attempt (tracks_onBackend (h.remove e.filename))) fun removed => ?_
    cases removed with
    | ok _ => exact .pure _
    | error error => exact .bind (.log _ _) fun _ => .pure _

private theorem tracks_purge (force : Bool) : Tracks wrap P (purge force) (purge force) := by
  refine .bind_get fun c => .bind (tracks_sweepEach (tracks_judge force) _) fun passed => ?_
  refine .bind (.modify (fun _ => rfl) fun _ hc => hc) fun _ => ?_
  refine .bind (tracks_sweepEach (tracks_discard h) _) fun removed => ?_
  dsimp only
  split
  · exact .bind (.log _ _) fun _ => .pure _
  · exact .pure _

/-- Every call does on a cache over the wrapper what it does over the backend. Each operation is put
together of steps that do, one lemma for each. -/
theorem tracks_run (call : Call) : Tracks wrap P call.run call.run := by
  cases call with
  | add labels data => exact .map (tracks_add h labels data) _
  | acquire id => exact .map (tracks_acquire id) _
  | release now id => exact .map (tracks_release now id) _
  | retire id => exact .map (tracks_retire id) _
  | markEager id => exact .map (tracks_markEager id) _
  | body id => exact .map (tracks_body h id) _
  | unmapIdle cutoff => exact .map (tracks_unmapIdle cutoff) _
  | purge force => exact .map (tracks_purge h force) _
  | sweep now maxIdle =>
    rw [Call.run, Call.run, sweep?, sweep?]
    cases now.add? (-maxIdle) with
    | none => exact .pure _
    | some cutoff =>
      refine .map (.bind (tracks_unmapIdle cutoff) fun unmapped => ?_) _
      exact .bind (tracks_purge h false) fun purged => .pure _

private theorem tracks_close : Tracks wrap P close close := by
  refine .bind_get fun c => ?_
  have hclosed : (c.wrapped wrap).closed = c.closed := rfl
  rw [hclosed]
  split
  · exact .pure ()
  · have hclear : Tracks wrap P clear clear := by
      refine .bind (tracks_purge h true) fun _ => .bind_get fun c => ?_
      refine .bind (.modify (fun _ => rfl) fun _ hc => hc) fun _ => ?_
      exact .forM (fun id => .bind (.attempt (tracks_letGo id)) fun _ => .pure ()) _
    exact .bind hclear fun _ => .bind (.modify (fun _ => rfl) fun _ hc => hc) fun _ => .log _ _

private theorem tracks_enroll (filename : String) :
    Tracks wrap P (enroll filename) (enroll filename) := by
  refine .bind (.attempt (tracks_onBackend (h.load filename))) fun found => ?_
  cases found with
  | error e => exact .log _ _
  | ok object => exact .bind_get fun c => .bind (tracks_enlist _) fun _ => .pure ()

private theorem tracks_populate : Tracks wrap P populate populate := by
  refine .bind (tracks_onBackend h.list) fun names => ?_
  refine .bind (.forM (tracks_enroll h) names) fun _ => .bind_get fun c => .log _ _

/-- A cache opens over the wrapper as it opens over the backend. -/
theorem openOver_wrap (id : CacheId) {b : β} (hb : P b) (hint : Nat) :
    (openOver id (wrap b) hint).result = (openOver id b hint).result ∧
      (openOver id (wrap b) hint).state = (openOver id b hint).state.wrapped wrap ∧
      P (openOver id b hint).state.backend :=
  (Action.Tracks.onFailure (tracks_populate h) (tracks_close h)) (fresh id b hint) hb

/-- After the same calls, the cache over the wrapper is the one over the backend. -/
theorem after_wrapped {c : Cache β} (hc : P c.backend) (calls : List Call) :
    (c.wrapped wrap).after calls = (c.after calls).wrapped wrap ∧ P (c.after calls).backend := by
  induction calls generalizing c with
  | nil => exact ⟨rfl, hc⟩
  | cons call calls ih =>
    obtain ⟨-, hstate, hP⟩ := tracks_run h call c hc
    rw [after, after, hstate]
    exact ih hP

end Cache

/-! ### Wrappers that keep the default way to a body -/

/-- A wrapper passes every call on and has no way of its own to a body without the labels. -/
structure Backend.PassesOn (wrap : β → γ) : Prop where
  save : ∀ labels data,
    Action.Tracks wrap (fun _ => True) (Backend.save labels data) (Backend.save labels data)
  list : Action.Tracks wrap (fun _ => True) Backend.list Backend.list
  load : ∀ name, Action.Tracks wrap (fun _ => True) (Backend.load name) (Backend.load name)
  loadBody : ∀ name,
    (Backend.loadBody name : Action γ Bytes) = StoredObject.body <$> Backend.load name
  remove : ∀ name, Action.Tracks wrap (fun _ => True) (Backend.remove name) (Backend.remove name)

omit [Backend γ] in
/-- A store of which nothing is to fail passes every call on. -/
theorem FaultyStore.passesOn :
    Backend.PassesOn fun b : β => ({ store := b, faults := {} } : FaultyStore β) where
  save _ _ _ _ := ⟨rfl, rfl, trivial⟩
  list _ _ := ⟨rfl, rfl, trivial⟩
  load _ _ _ := ⟨rfl, rfl, trivial⟩
  loadBody _ := rfl
  remove _ _ _ := ⟨rfl, rfl, trivial⟩

omit [Backend β] in
/-- Where every header can be read, the default way to a body answers as that of the directory. -/
theorem Backend.PassesOn.tracks {wrap : ObjectStore → γ} (h : Backend.PassesOn wrap) :
    Backend.Tracks wrap ObjectStore.HeadersWellFormed where
  save labels data s hs := by
    obtain ⟨hr, hstate, -⟩ := h.save labels data s trivial
    exact ⟨hr, hstate, hs.save labels data⟩
  list s hs := by
    obtain ⟨hr, hstate, -⟩ := h.list s trivial
    exact ⟨hr, hstate, hs⟩
  load name s hs := by
    obtain ⟨hr, hstate, -⟩ := h.load name s trivial
    rw [ObjectStore.load_apply] at hr hstate ⊢
    exact ⟨hr, hstate, hs⟩
  loadBody name s hs := by
    obtain ⟨hr, hstate, -⟩ := h.load name s trivial
    rw [ObjectStore.load_apply] at hr hstate
    rw [h.loadBody, Action.map_apply, ObjectStore.loadBody_apply, hr]
    exact ⟨(ObjectStore.body_eq_map_object (hs name)).symm, hstate, hs⟩
  remove name s hs := by
    obtain ⟨hr, hstate, -⟩ := h.remove name s trivial
    exact ⟨hr, hstate, hs.remove name⟩

namespace Cache

omit [Backend β] [Backend γ] in
/-- **The two ways to a body.** A body is read without the labels as it is read with them. It is the
body of the object, if one is there; the error is the same, unless the header is not UTF-8, and then
there is the body behind it (`ObjectStore.body_eq_map_object`,
`ObjectStore.of_hasParts_of_not_wellFormed`). So in a directory where every header can be read, a
cache over a wrapper that asks for the labels with every body opens and answers as one over the
directory does, after any calls (`openOver_wrap`, `after_wrapped`, `tracks_run`). -/
theorem body_agrees :
    (∀ (s : ObjectStore) (filename : String),
      (∀ o, s.object filename = .ok o → s.body filename = .ok o.body ∧
        (Backend.loadBody filename : Action ObjectStore Bytes) s =
          (StoredObject.body <$> Backend.load filename) s) ∧
      (∀ error, s.object filename = .error error →
        (∀ header body, s.HasParts filename header body → Utf8.WellFormed header) →
          s.body filename = .error error) ∧
      ∀ header body, s.HasParts filename header body → ¬Utf8.WellFormed header →
        (∃ fault, s.object filename =
            .error (.malformedObject filename (Labels.unreadableHeader fault))) ∧
          s.body filename = .ok body) ∧
    ∀ {γ : Type} [Backend γ] (wrap : ObjectStore → γ), Backend.PassesOn wrap →
      ∀ s : ObjectStore, s.HeadersWellFormed → ∀ (id : CacheId) (hint : Nat),
        (openOver id (wrap s) hint).result = (openOver id s hint).result ∧
        ∀ calls,
          let c := (openOver id s hint).state.after calls
          let c' := (openOver id (wrap s) hint).state.after calls
          (∀ member, (body member c').result = (body member c).result) ∧
            ∀ call : Call, (call.run c').result = (call.run c).result := by
  constructor
  · intro s filename
    refine ⟨fun o ho => ?_, fun error herror hheaders => ?_, fun header body =>
      ObjectStore.of_hasParts_of_not_wellFormed⟩
    · have hbody := ObjectStore.InStep.body_of_object ho
      rw [ObjectStore.loadBody_apply, Action.map_apply, ObjectStore.load_apply, ho, hbody]
      exact ⟨rfl, rfl⟩
    · rw [ObjectStore.body_eq_map_object hheaders, herror]
      rfl
  · intro γ _ wrap hwrap s hs id hint
    have htracks := hwrap.tracks
    obtain ⟨hresult, hstate, hopened⟩ := openOver_wrap htracks id hs hint
    refine ⟨hresult, fun calls => ?_⟩
    obtain ⟨hafter, hkept⟩ := after_wrapped htracks hopened calls
    rw [hstate, hafter]
    exact ⟨fun member => (tracks_body htracks member _ hkept).1,
      fun call => (tracks_run htracks call _ hkept).1⟩

omit [Backend β] [Backend γ] in
/-- The one object of this store has no labels, and so an empty header. -/
private theorem headersWellFormed_litteredStore : ObjectStore.litteredStore.HeadersWellFormed := by
  rintro filename header body ⟨n, hname, hstat, hzero⟩
  have hrecords := ObjectStore.records_litteredStore
  have hfind := Disk.find_join hrecords.find_path hrecords.hasFolder (Slot.isPlain_name n)
  obtain ⟨l, hl, hnode⟩ := Disk.find_of_stat hstat
  obtain rfl := Except.ok.inj (hfind.symm.trans hl)
  have hlt := (Slot.ofName?_eq_some_iff.mp hname).2
  have hmem := hrecords.mem_slots n hlt (by rw [hnode]; exact Option.some_ne_none _)
  obtain rfl : n = 0 := List.mem_singleton.mp hmem
  have hfile : ObjectStore.litteredStore.disk.node? (["o"] ++ [Slot.name 0]) =
      some (.file [0, 7]) := by rfl
  have hbytes : header ++ 0 :: body = [0, 7] := by
    rw [hfile] at hnode
    exact (Node.file.inj (Option.some.inj hnode)).symm
  cases header with
  | nil => exact ⟨[], rfl⟩
  | cons b header =>
    obtain ⟨rfl, -⟩ := List.cons.inj hbytes
    exact absurd List.mem_cons_self hzero

omit [Backend β] [Backend γ] in
/-- The body is asked for twice, over the directory and over the wrapper. -/
theorem body_agrees_faultyStore :
    let faulty : FaultyStore ObjectStore := { store := ObjectStore.litteredStore, faults := {} }
    let c := (openOver ⟨1⟩ ObjectStore.litteredStore 3).state.after [.body ⟨0, 0⟩]
    let c' := (openOver ⟨1⟩ faulty 3).state.after [.body ⟨0, 0⟩]
    ObjectStore.litteredStore.HeadersWellFormed ∧
      (body ⟨0, 0⟩ c').result = (body ⟨0, 0⟩ c).result ∧ (body ⟨0, 0⟩ c).result = .ok [7] := by
  have hall := body_agrees.2 _ FaultyStore.passesOn ObjectStore.litteredStore
    headersWellFormed_litteredStore ⟨1⟩ 3
  exact ⟨headersWellFormed_litteredStore, (hall.2 [.body ⟨0, 0⟩]).1 ⟨0, 0⟩, by rfl⟩

end Cache

end BlobCache
