import BlobCache.Proofs.Cache.Lookup
import BlobCache.Proofs.Labels.Visible
import BlobCache.Proofs.ObjectDir.Store

/-!
# What a listing tells

A listing works through its identifiers and asks for a body under each of them, so every row but the
first is made in another cache than the one that the listing started with. Still the rows tell of
the entries what lookups in the first cache do (`Row.Describes`), because asking for a body does
nothing to an entry except map it (`Cache.Maps`, `Cache.maps_body`), and a run of the listing is a
series of such steps (`Cache.maps_rows`).

The size in a row is that of the body at the moment when it is asked for (`Row.Measures`). A body
that cannot be had is no matter to the other rows: they are the rows of a listing that passes over
the entry (`Cache.Stands.of_error`), and, as long as reading does nothing to the backend, each of
them is what its entry alone would have shown at the start (`Cache.rows_of_readsQuietly`).
`Cache.rows_agree` has all of this, for every state of a cache and any identifiers.
-/

namespace BlobCache

/-! ### Backends that reading leaves alone -/

/-- Reading a body does nothing to the backend. -/
def Backend.ReadsQuietly (β : Type) [Backend β] : Prop :=
  ∀ (name : String) (b : β), (Backend.loadBody name b).state = b

theorem ObjectStore.readsQuietly : Backend.ReadsQuietly ObjectStore := fun name s => by
  rw [loadBody_apply]

/-! ### Rows -/

namespace Row

/-- What a row tells of an entry, whatever becomes of its body. -/
structure Describes (row : Row) (e : Entry) : Prop where
  filename_eq : row.filename = e.filename
  labelText_eq : row.labelText = e.labels.text
  /-- The labels are those that lookups find. -/
  mem_labels : ∀ key value, (key, value) ∈ row.labels ↔ e.labels.value? key = some value
  /-- The keys ascend, so none of them is there twice. -/
  ascending : Labels.Ascending row.labels

/-- The size in a row is that of the body, and is left open exactly if the body cannot be had. -/
structure Measures (row : Row) (answer : Except CacheError Bytes) : Prop where
  size_eq : ∀ data, answer = .ok data → row.size = some data.length
  size_eq_none_iff : row.size = none ↔ ∃ error, answer = .error error

/-- The name and the labels of an entry are no matter of its body. -/
theorem Describes.of_unmapped_eq {row : Row} {e e' : Entry} (h : row.Describes e)
    (heq : e.unmapped = e'.unmapped) : row.Describes e' := by
  have hname : e.filename = e'.filename := (congrArg Entry.filename heq :)
  have hlabels : e.labels = e'.labels := (congrArg Entry.labels heq :)
  obtain ⟨hf, ht, hmem, hasc⟩ := h
  exact ⟨hf.trans hname, hlabels ▸ ht, hlabels ▸ hmem, hasc⟩

end Row

namespace Cache

variable {β : Type}

variable [Backend β]

/-! ### What is left as it is -/

/-- A listing does to the cache what asking for the bodies does. -/
theorem maps_rows (ids : List EntryId) (c : Cache β) : c.Maps ids (rows ids c).state := by
  induction ids generalizing c with
  | nil => exact .refl c []
  | cons id ids ih =>
    rw [(rows_cons id ids c).2]
    exact (maps_body id c).trans (ih (body id c).state)

/-- Where a body cannot be had, only the backend may have changed. -/
private theorem state_body_of_error {id : EntryId} {c : Cache β} {error : CacheError}
    (h : (body id c).result = .error error) :
    ∃ b, (body id c).state = c.withBackend b ∧ (Backend.ReadsQuietly β → b = c.backend) := by
  cases he : c.get? id with
  | none => exact ⟨c.backend, (body_of_get?_eq_none he).2, fun _ => rfl⟩
  | some e =>
    obtain ⟨data, -, hr, -⟩ | ⟨-, -, -, hs⟩ | ⟨-, -, ⟨-, -, -, hs⟩ | ⟨data, -, hr, -⟩⟩ :=
      body_of_get? he
    · exact absurd (hr.symm.trans h) nofun
    · exact ⟨c.backend, hs, fun _ => rfl⟩
    · exact ⟨_, hs, fun hquiet => hquiet e.filename c.backend⟩
    · exact absurd (hr.symm.trans h) nofun

/-! ### The row of one entry -/

/-- A body is the one that is mapped; without it, it is the one in the backend, for listed entries
only. -/
private theorem toOption_body {c : Cache β} {id : EntryId} {e : Entry} (he : c.get? id = some e) :
    (body id c).result.toOption = e.mapping.or
      (if e.owner = some c.id then (Backend.loadBody e.filename c.backend).result.toOption
        else none) := by
  obtain ⟨data, hm, hr, -⟩ | ⟨hm, ho, ⟨reason, hr⟩, -⟩ |
    ⟨hm, ho, ⟨error, hl, hr, -⟩ | ⟨data, hl, hr, -⟩⟩ := body_of_get? he
  · rw [hr, hm]
    rfl
  · rw [hr, hm, if_neg ho]
    rfl
  · rw [hr, hm, if_pos ho, hl]
    rfl
  · rw [hr, hm, if_pos ho, hl]
    rfl

/-- The row of an entry is a matter of the entry and the backend. -/
private theorem row?_congr {c c' : Cache β} {id : EntryId} (hget : c'.get? id = c.get? id)
    (hid : c'.id = c.id) (hbackend : c'.backend = c.backend) : c'.row? id = c.row? id := by
  rw [row?, row?]
  cases he : c.get? id with
  | none => rw [hget, he]; rfl
  | some e =>
    rw [toOption_body he, toOption_body (hget.trans he), hget, he, hid, hbackend]

/-- Every entry has a row, and the row tells what lookups say of the entry. -/
private theorem exists_row? {c : Cache β} {id : EntryId} {e : Entry} (he : c.get? id = some e) :
    ∃ row, c.row? id = some row ∧ row.Describes e := by
  refine ⟨_, by rw [row?, he, Option.map_some], ?_⟩
  exact ⟨rfl, rfl, fun _ _ => Labels.mem_visible, e.labels.ascending_visible⟩

/-- A row has the size of the body that is given when it is asked for. -/
private theorem measures_of_row? {c : Cache β} {id : EntryId} {row : Row}
    (h : c.row? id = some row) :
    row.Measures (body id c).result := by
  rw [row?, Option.map_eq_some_iff] at h
  obtain ⟨e, -, rfl⟩ := h
  cases (body id c).result with
  | ok data =>
    refine ⟨fun other hother => ?_, ?_⟩
    · cases hother
      rfl
    · simp [Except.toOption]
  | error error =>
    refine ⟨fun other hother => ?_, ?_⟩
    · cases hother
    · simp [Except.toOption]

/-- As long as reading does nothing to the backend, a body that was asked for before is no matter to
a row, whether it was had or not. -/
private theorem row?_body (hquiet : Backend.ReadsQuietly β) (id : EntryId) (c : Cache β)
    (other : EntryId) :
    (body id c).state.row? other = c.row? other := by
  cases he : c.get? id with
  | none => rw [(body_of_get?_eq_none he).2]
  | some e =>
    obtain ⟨-, -, -, hs⟩ | ⟨-, -, -, hs⟩ | ⟨hm, ho, ⟨-, -, -, hs⟩ | ⟨data, hload, -, hs⟩⟩ :=
      body_of_get? he
    · rw [hs]
    · rw [hs]
    · rw [hs, hquiet]
      rfl
    · rw [hquiet] at hs
      have hget : ∀ other, (body id c).state.get? other =
          if other = id then some { e with mapping := some data, idleSince := none }
          else c.get? other := fun other => by
        rw [hs, get?_change, withBackend_get?, withBackend_get?, he, Option.map_some]
      by_cases hn : other = id
      · -- the body that is mapped now is the one that would have been asked for
        have hself := hget id
        rw [if_pos rfl] at hself
        rw [hn, row?, row?, toOption_body hself, toOption_body he, hself, he, hm, if_pos ho, hload]
        rfl
      · have hother := hget other
        rw [if_neg hn] at hother
        exact row?_congr hother (by rw [hs]; rfl) (by rw [hs]; rfl)

/-! ### All rows -/

/-- The rows of a longer listing are those of its two parts, the second one starting where the first
one ends. -/
private theorem rows_append {before behind : List EntryId} {c : Cache β} {above below : List Row}
    (habove : (rows before c).result = .ok above)
    (hbelow : (rows behind (rows before c).state).result = .ok below) :
    (rows (before ++ behind) c).result = .ok (above ++ below) := by
  induction before generalizing c above with
  | nil =>
    cases habove
    exact hbelow
  | cons id before ih =>
    obtain ⟨hcons, hstate⟩ := rows_cons id before c
    obtain ⟨rest, hrest, -⟩ := rows_apply before (body id c).state
    rw [hstate] at hbelow
    rw [hcons, hrest] at habove
    cases habove
    rw [List.cons_append, (rows_cons id (before ++ behind) c).1, ih hrest hbelow, List.append_assoc]
    rfl

/-- There is a row for every identifier that leads to an entry, in the same order, and it tells of
that entry. -/
private theorem describes_rows (ids : List EntryId) {c : Cache β} {rs : List Row}
    (h : (rows ids c).result = .ok rs) :
    List.Forall₂ (fun id row => ∃ e, c.get? id = some e ∧ row.Describes e)
      (ids.filter fun id => (c.get? id).isSome) rs := by
  induction ids generalizing c rs with
  | nil =>
    cases h
    exact .nil
  | cons id ids ih =>
    obtain ⟨rest, hrest, -⟩ := rows_apply ids (body id c).state
    rw [(rows_cons id ids c).1, hrest] at h
    cases h
    have hmaps := maps_body id c
    -- what the rows below tell of the entries after the body was asked for, they tell of those now
    have hbelow : List.Forall₂ (fun id row => ∃ e, c.get? id = some e ∧ row.Describes e)
        (ids.filter fun id => (c.get? id).isSome) rest := by
      rw [← funext hmaps.isSome_get?]
      refine (ih hrest).imp fun other row ⟨e', he', hdescribes⟩ => ?_
      obtain ⟨e, he, heq⟩ := hmaps.exists_get? he'
      exact ⟨e, he, hdescribes.of_unmapped_eq heq⟩
    cases he : c.get? id with
    | none =>
      rw [List.filter_cons_of_neg (by simp [he]), row?, he]
      exact hbelow
    | some e =>
      obtain ⟨row, hrow, hdescribes⟩ := exists_row? he
      rw [List.filter_cons_of_pos (by simp [he]), hrow]
      exact .cons ⟨e, he, hdescribes⟩ hbelow

/-- As long as reading does nothing to the backend, every row is the one that its entry has before
the listing. -/
theorem rows_of_readsQuietly (hquiet : Backend.ReadsQuietly β) (ids : List EntryId) (c : Cache β) :
    (rows ids c).result = .ok (ids.filterMap c.row?) := by
  induction ids generalizing c with
  | nil => rfl
  | cons id ids ih =>
    rw [(rows_cons id ids c).1, ih, funext (row?_body hquiet id c), List.filterMap_cons]
    cases c.row? id <;> rfl

/-! ### Listings and lookups -/

/-- How the row of the entry under `id` comes about between the rows above and below it. -/
structure Stands (c : Cache β) (before : List EntryId) (id : EntryId) (behind : List EntryId)
    (above : List Row) (row : Row) (below : List Row) : Prop where
  above_eq : (rows before c).result = .ok above
  /-- The body is asked for when the rows above are done. -/
  measures : row.Measures (body id (rows before c).state).result
  below_eq : (rows behind (body id (rows before c).state).state).result = .ok below
  /-- If the body cannot be had, the rows below are made in a cache in which only the backend may be
  another. If reading does nothing to it, the other rows are those of a listing without the
  entry. -/
  of_error : ∀ error, (body id (rows before c).state).result = .error error →
    (∃ b, (rows behind ((rows before c).state.withBackend b)).result = .ok below) ∧
      (Backend.ReadsQuietly β → (rows (before ++ behind) c).result = .ok (above ++ below))

/-- What the rows `rs` of a listing that turns the cache `c` into `c'` tell, and what it leaves as
it is. -/
structure Lists (c : Cache β) (ids : List EntryId) (rs : List Row) (c' : Cache β) : Prop where
  /-- Every identifier that leads to an entry has a row, in the same order, that agrees with lookups
  on the entry. -/
  describes : List.Forall₂ (fun id row => ∃ e, c.get? id = some e ∧ row.Describes e)
    (ids.filter fun id => (c.get? id).isSome) rs
  /-- Wherever an entry is in the listing, its row is between those of the entries before and of
  those behind, with the size of the body at that point. -/
  stands : ∀ before id behind e, ids = before ++ id :: behind → c.get? id = some e →
    ∃ above row below, rs = above ++ row :: below ∧ row.Describes e ∧
      c.Stands before id behind above row below
  /-- If reading does nothing to the backend, no row depends on the rest of the listing. -/
  rows_eq : Backend.ReadsQuietly β → rs = ids.filterMap c.row?
  /-- The list stays, and no entry changes but for its body. -/
  maps : c.Maps ids c'

/-- The row of an entry is between the rows of two shorter listings. -/
private theorem exists_stands (before : List EntryId) {id : EntryId} (behind : List EntryId)
    {c : Cache β} {e : Entry} (he : c.get? id = some e) :
    ∃ above row below, (rows (before ++ id :: behind) c).result = .ok (above ++ row :: below) ∧
      row.Describes e ∧ c.Stands before id behind above row below := by
  obtain ⟨above, habove, -⟩ := rows_apply before c
  have hmaps := maps_rows before c
  generalize hhere : (rows before c).state = here at *
  obtain ⟨below, hbelow, -⟩ := rows_apply behind (body id here).state
  -- the entry is still there when the rows above are done
  obtain ⟨e', he'⟩ : ∃ e', here.get? id = some e' := by
    rw [← Option.isSome_iff_exists, hmaps.isSome_get?, he, Option.isSome_some]
  obtain ⟨row, hrow, htells⟩ := exists_row? he'
  have hdescribes : row.Describes e := by
    obtain ⟨first, hfirst, heq⟩ := hmaps.exists_get? he'
    obtain rfl := Option.some.inj (he.symm.trans hfirst)
    exact htells.of_unmapped_eq heq
  have hrest : (rows (id :: behind) here).result = .ok (row :: below) := by
    rw [(rows_cons id behind here).1, hbelow, hrow]
    rfl
  refine ⟨above, row, below, rows_append habove (hhere ▸ hrest), hdescribes, habove, ?_, ?_, ?_⟩
  · rw [hhere]
    exact measures_of_row? hrow
  · rw [hhere]
    exact hbelow
  · rw [hhere]
    intro error herror
    obtain ⟨b, hs, hb⟩ := state_body_of_error herror
    rw [hs] at hbelow
    refine ⟨⟨b, hbelow⟩, fun hquiet => rows_append habove ?_⟩
    rw [hb hquiet] at hbelow
    rw [hhere]
    exact hbelow

/-- **Listings.** A listing agrees with lookups, whatever the state of the cache and the identifiers
are: it has a row for every identifier that leads to an entry, and each row tells of the entry what
a lookup does. Making a row changes no entry but for its body (`maps_rows`), so a listing may be cut
before and behind any entry, which is how the size in its row is explained (`Cache.Stands`), and
over a backend that reads quietly the rows do not depend on each other
(`rows_of_readsQuietly`). -/
theorem rows_agree (ids : List EntryId) (c : Cache β) :
    ∃ rs, (rows ids c).result = .ok rs ∧ c.Lists ids rs (rows ids c).state := by
  obtain ⟨rs, hrs, -⟩ := rows_apply ids c
  refine ⟨rs, hrs, describes_rows ids hrs, fun before id behind e hids he => ?_, fun hquiet => ?_,
    maps_rows ids c⟩
  · obtain ⟨above, row, below, hall, hstands⟩ := exists_stands before behind he
    rw [← hids, hrs] at hall
    exact ⟨above, row, below, Except.ok.inj hall, hstands⟩
  · exact Except.ok.inj (hrs.symm.trans (rows_of_readsQuietly hquiet ids c))

/-- A cache that lists three objects and has mapped the last one, whose file is gone, as is that of
the second one. A key of the first one is there twice. -/
def gappedCache : Cache ObjectStore where
  id := ⟨1⟩
  capacityHint := 3
  members := [⟨0, 0⟩, ⟨1, 0⟩, ⟨2, 0⟩]
  arena :=
    { cells := #[
        ⟨0, some { filename := "0", labels := ⟨[("k", "v"), ("k", "w"), ("a", "b")]⟩,
                   references := .one, owner := some ⟨1⟩ }⟩,
        ⟨0, some { filename := "1", labels := ⟨[("k", "w")]⟩, references := .two, retired := true,
                   owner := some ⟨1⟩ }⟩,
        ⟨0, some { filename := "2", labels := ⟨[]⟩, references := .two, owner := some ⟨1⟩,
                   mapping := some [7] }⟩]
      size := 3 }
  backend :=
    { dir := { path := ⟨"/o"⟩, limit := 3, slots := .ofList [0, 1, 2] }
      disk :=
        { nodes := [([], .folder 0), (["o"], .folder 0), (["o", "0"], .file [107, 0, 5, 6])] } }

theorem rows_agree_gap :
    (∃ error, (body ⟨1, 0⟩ (rows [⟨0, 0⟩] gappedCache).state).result = .error error) ∧
    ∃ rs, (rows [⟨0, 0⟩, ⟨1, 0⟩, ⟨1, 7⟩, ⟨2, 0⟩, ⟨0, 0⟩] gappedCache).result = .ok rs ∧
      gappedCache.Lists [⟨0, 0⟩, ⟨1, 0⟩, ⟨1, 7⟩, ⟨2, 0⟩, ⟨0, 0⟩] rs
        (rows [⟨0, 0⟩, ⟨1, 0⟩, ⟨1, 7⟩, ⟨2, 0⟩, ⟨0, 0⟩] gappedCache).state ∧
      rs = [⟨"0", [("a", "b"), ("k", "v")], "k=v,k=w,a=b", some 2⟩,
        ⟨"1", [("k", "w")], "k=w", none⟩, ⟨"2", [], "", some 1⟩,
        ⟨"0", [("a", "b"), ("k", "v")], "k=v,k=w,a=b", some 2⟩] := by
  obtain ⟨rs, hrs, hlists⟩ :=
    rows_agree [⟨0, 0⟩, ⟨1, 0⟩, ⟨1, 7⟩, ⟨2, 0⟩, ⟨0, 0⟩] gappedCache
  refine ⟨⟨_, rfl⟩, rs, hrs, hlists, ?_⟩
  rw [hlists.rows_eq ObjectStore.readsQuietly]
  decide +kernel

end Cache

end BlobCache
