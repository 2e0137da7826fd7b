import BlobCache.Proofs.Cache.Housekeeping
import BlobCache.Report.Listing
import Mathlib.Data.List.Basic

/-!
# Lookups and listings

A lookup goes through the list and picks the entries that it is for: `findAll` is a filter of the
listed entries (`findAll_some`), and `find?` gives the first one of it (`find?_eq_head?`).

To ask for the body of an entry does nothing to the entries except map that body (`maps_body`). A
listing asks for the bodies of its entries one after the other and has a row for each, in the same
order, whether its body can be had or not (`rows_apply`).
-/

namespace BlobCache.Cache

variable {β : Type}

/-! ### Lookups -/

/-- A lookup picks the listed entries that have the label and do not wait for their deletion. -/
theorem findAll_eq (c : Cache β) (key : Option String) (value : String) :
    c.findAll key value = c.members.filter fun id =>
      (c.get? id).any fun e => !e.retired && key.all (e.labels.hasLabel · value) := by
  rw [findAll, current, List.filter_filterMap, List.map_filterMap, ← List.filterMap_eq_filter]
  refine List.filterMap_congr fun id _ => ?_
  rw [Option.guard]
  cases c.get? id with
  | none => rfl
  | some e =>
    -- the entry is kept if it passes both tests, one after the other
    cases hr : e.retired <;> cases hl : key.all (e.labels.hasLabel · value) <;>
      simp [Option.filter, hr, hl]

theorem findAll_some (c : Cache β) (key value : String) :
    c.findAll (some key) value = c.members.filter fun id =>
      (c.get? id).any fun e => !e.retired && e.labels.hasLabel key value :=
  c.findAll_eq (some key) value

theorem mem_findAll {c : Cache β} {key : Option String} {value : String} {id : EntryId} :
    id ∈ c.findAll key value ↔ id ∈ c.members ∧ ∃ e, c.get? id = some e ∧ e.retired = false ∧
      key.all (e.labels.hasLabel · value) := by
  rw [findAll_eq, List.mem_filter, Option.any_eq_true]
  simp only [Bool.and_eq_true, Bool.not_eq_true']

/-- A new entry is found behind the others, under the labels that it has. -/
theorem findAll_of_enlisted {c c' : Cache β} {ledger : Ledger} (h : c.Sound ledger [])
    {new : EntryId} {e : Entry} (hfresh : c.get? new = none)
    (hmembers : c'.members = c.members ++ [new])
    (hget : ∀ id, c'.get? id = if id = new then some e else c.get? id)
    (hretired : e.retired = false) (key value : String) :
    c'.findAll (some key) value = c.findAll (some key) value ++
      if e.labels.value? key = some value then [new] else [] := by
  -- to the lookup, the listed entries are as they were
  have hold : (c.members.filter fun id =>
      (c'.get? id).any fun e => !e.retired && e.labels.hasLabel key value) =
      c.members.filter fun id =>
        (c.get? id).any fun e => !e.retired && e.labels.hasLabel key value := by
    refine List.filter_congr fun id hid => ?_
    obtain ⟨e', he', -⟩ := h.exists_of_listed hid
    have hne : id ≠ new := by
      rintro rfl
      exact absurd (hfresh.symm.trans he') nofun
    rw [hget, if_neg hne]
  have hnew : (c'.get? new).any (fun e => !e.retired && e.labels.hasLabel key value) =
      e.labels.hasLabel key value := by
    rw [hget, if_pos rfl, Option.any_some, hretired]
    rfl
  rw [findAll_some, findAll_some, hmembers, List.filter_append, hold, List.filter_cons, hnew,
    List.filter_nil]
  simp only [Labels.hasLabel_iff]

/-- Of the entries with a label, a lookup for one gives the first. -/
theorem find?_eq_head? (c : Cache β) (key value : String) :
    c.find? key value = (c.findAll (some key) value).head? := by
  rw [find?, findAll, List.head?_map, List.head?_filter]
  rfl

/-! ### Bodies that are mapped -/

/-- `c'` is `c` after the bodies of some entries under `ids` were mapped. -/
structure Maps (c : Cache β) (ids : List EntryId) (c' : Cache β) : Prop where
  /-- The list is the same, and so is all else but the entries and the backend. -/
  state_eq : c' = { c with arena := c'.arena, backend := c'.backend }
  /-- No entry is made or freed. -/
  layout_eq : c'.arena.layout = c.arena.layout
  /-- An entry is as it was, or its body was mapped and nothing else done to it. -/
  get?_cases : ∀ id, c'.get? id = c.get? id ∨
    id ∈ ids ∧ ∃ e data, c.get? id = some e ∧ e.mapping = none ∧ e.owner = some c.id ∧
      c'.get? id = some { e with mapping := some data, idleSince := none }

namespace Maps

variable {c c' c'' : Cache β} {ids more : List EntryId}

theorem refl (c : Cache β) (ids : List EntryId) : c.Maps ids c :=
  ⟨rfl, rfl, fun _ => .inl rfl⟩

theorem id_eq (h : c.Maps ids c') : c'.id = c.id := by
  rw [h.state_eq]

theorem trans (h : c.Maps ids c') (h' : c'.Maps more c'') : c.Maps (ids ++ more) c'' := by
  refine ⟨?_, h'.layout_eq.trans h.layout_eq, fun id => ?_⟩
  · rw [h'.state_eq, h.state_eq]
  · obtain hsecond | ⟨hmore, e', data, he', hm', ho', hmapped⟩ := h'.get?_cases id
    · rw [hsecond]
      exact (h.get?_cases id).imp_right fun ⟨hid, hm⟩ => ⟨List.mem_append_left _ hid, hm⟩
    · obtain hfirst | ⟨-, e, other, -, -, -, hother⟩ := h.get?_cases id
      · refine .inr ⟨List.mem_append_right _ hmore, e', data, hfirst ▸ he', hm', ?_, hmapped⟩
        rw [ho', h.id_eq]
      · -- what is mapped already is not mapped again
        rw [hother] at he'
        cases he'
        cases hm'

/-- Apart from their bodies, the entries are as they were. -/
theorem map_unmapped (h : c.Maps ids c') (id : EntryId) :
    (c'.get? id).map Entry.unmapped = (c.get? id).map Entry.unmapped := by
  obtain hsame | ⟨-, e, data, he, -, -, hmapped⟩ := h.get?_cases id
  · rw [hsame]
  · rw [hmapped, he]
    rfl

theorem isSome_get? (h : c.Maps ids c') (id : EntryId) :
    (c'.get? id).isSome = (c.get? id).isSome := by
  rw [← Option.isSome_map (f := Entry.unmapped), h.map_unmapped, Option.isSome_map]

/-- An entry that is there now was there before. -/
theorem exists_get? (h : c.Maps ids c') {id : EntryId} {e' : Entry} (he' : c'.get? id = some e') :
    ∃ e, c.get? id = some e ∧ e'.unmapped = e.unmapped := by
  have hmap := h.map_unmapped id
  rw [he', Option.map_some, eq_comm, Option.map_eq_some_iff] at hmap
  obtain ⟨e, he, heq⟩ := hmap
  exact ⟨e, he, heq.symm⟩

end Maps

variable [Backend β]

/-- To ask for a body is to map it, at most. -/
theorem maps_body (id : EntryId) (c : Cache β) : c.Maps [id] (body id c).state := by
  cases he : c.get? id with
  | none =>
    rw [(body_of_get?_eq_none he).2]
    exact .refl c [id]
  | some e =>
    obtain ⟨-, -, -, hs⟩ | ⟨-, -, -, hs⟩ | ⟨hm, ho, ⟨-, -, -, hs⟩ | ⟨data, -, -, hs⟩⟩ :=
      body_of_get? he
    · rw [hs]
      exact .refl c [id]
    · rw [hs]
      exact .refl c [id]
    · rw [hs]
      exact ⟨rfl, rfl, fun _ => .inl rfl⟩
    · rw [hs]
      refine ⟨rfl, Arena.layout_update _ _ _, fun other => ?_⟩
      by_cases hn : other = id
      · subst hn
        exact .inr ⟨List.mem_singleton_self _, e, data, he, hm, ho, get?_change_self he _⟩
      · rw [get?_change, if_neg hn]
        exact .inl rfl

/-- To ask for a body is not to rename anything. -/
theorem filenames_body (id : EntryId) (c : Cache β) (ids : List EntryId) :
    (body id c).state.filenames ids = c.filenames ids := by
  refine filenames_congr fun other _ => ?_
  have hmap := congrArg (Option.map Entry.filename) ((maps_body id c).map_unmapped other)
  rw [Option.map_map, Option.map_map] at hmap
  exact hmap

/-! ### Listings -/

/-- The row of an entry that is asked for its body now, if there is one. -/
def row? (c : Cache β) (id : EntryId) : Option Row :=
  (c.get? id).map fun e =>
    { filename := e.filename
      labels := e.labels.visible
      labelText := e.labels.text
      size := (body id c).result.toOption.map List.length }

/-- A body that cannot be had is no reason to fail. -/
theorem sizeOf?_apply (id : EntryId) (filename : String) (c : Cache β) :
    (sizeOf? id filename c).result = .ok ((body id c).result.toOption.map List.length) ∧
      (sizeOf? id filename c).state = (body id c).state := by
  rw [sizeOf?, Action.bind_apply, Action.attempt_apply]
  cases (body id c).result with
  | ok data => exact ⟨rfl, rfl⟩
  | error e => exact ⟨rfl, rfl⟩

/-- An identifier that leads to an entry adds the row of the entry, and any other adds nothing. The
listing goes on from the cache that asking for the body leaves. -/
theorem rows_cons (id : EntryId) (ids : List EntryId) (c : Cache β) :
    (rows (id :: ids) c).result =
        ((rows ids (body id c).state).result.map ((c.row? id).toList ++ ·)) ∧
      (rows (id :: ids) c).state = (rows ids (body id c).state).state := by
  rw [rows, Action.bind_apply, Action.get_apply, row?]
  dsimp only
  cases he : c.get? id with
  | none =>
    -- nothing is asked about an identifier that leads nowhere
    rw [(body_of_get?_eq_none he).2]
    cases (rows ids c).result <;> exact ⟨rfl, rfl⟩
  | some e =>
    obtain ⟨hsize, hstate⟩ := sizeOf?_apply id e.filename c
    dsimp only
    rw [Action.bind_apply, hsize, hstate]
    dsimp only
    rw [Action.bind_apply]
    cases (rows ids (body id c).state).result <;> exact ⟨rfl, rfl⟩

/-- A listing has a row for every entry, and leaves the cache as asking for the bodies does. -/
theorem rows_apply (ids : List EntryId) (c : Cache β) :
    ∃ rs, (rows ids c).result = .ok rs ∧ rs.map (·.filename) = c.filenames ids ∧
      (rows ids c).state = c.after (ids.map .body) := by
  induction ids generalizing c with
  | nil => exact ⟨[], rfl, rfl, rfl⟩
  | cons id ids ih =>
    obtain ⟨rs, hr, hnames, hs⟩ := ih (body id c).state
    obtain ⟨hcons, hstate⟩ := rows_cons id ids c
    have hafter : c.after ((id :: ids).map .body) = (body id c).state.after (ids.map .body) := by
      rw [List.map_cons, after, Call.run, Action.map_apply]
    have hfirst : c.filenames (id :: ids) =
        (c.row? id).toList.map (·.filename) ++ c.filenames ids := by
      rw [filenames, filenames, List.filterMap_cons, row?]
      cases c.get? id <;> rfl
    rw [hcons, hstate, hr, hs, hafter]
    refine ⟨_, rfl, ?_, rfl⟩
    rw [List.map_append, hnames, filenames_body, hfirst]

end BlobCache.Cache
