import BlobCache.Proofs.Cache.Loading

/-!
# Bodies

What whoever asks a cache over an object directory for a body can rely on (`Cache.Faithful`): a
listed entry has its body, an entry that left the list has it if it was mapped at that moment, and
no entry ever has another body than its own. Names of files are used for one object after the other,
so this is about more than the cache: an entry off the list has the name of a file that may be
another's by now.

What body was put under an identifier is on record in a `Chronicle`. A listed entry is read from its
file, which has the body on record (`Filed.body_of_mem`). An entry off the list is never read from a
file again, so all that is to be had is the body that is mapped (`body_of_unlisted`), and whether
there is one was decided when the entry left the list. `faithful_after` holds for every run, since
every cache that a run can reach is filed; `faithful_after_reuse` is a run in which the file of a
held entry becomes another's.
-/

namespace BlobCache.Cache

/-- The bodies that a cache gives are those on record. -/
structure Faithful (c : Cache ObjectStore) (chronicle : Chronicle) : Prop where
  /-- Listed entries have different files. -/
  eq_of_filename : ∀ id ∈ c.members, ∀ id' ∈ c.members, ∀ e e', c.get? id = some e →
    c.get? id' = some e' → e.filename = e'.filename → id = id'
  /-- The file of a listed entry is one of the directory's. -/
  mem_filenames : ∀ id ∈ c.members, ∃ e, c.get? id = some e ∧ e.filename ∈ c.backend.dir.filenames
  /-- A body that the cache gives is the one on record. -/
  body_eq : ∀ id data, (body id c).result = .ok data → data = (chronicle id).body
  /-- A listed entry has its body. -/
  body_of_mem : ∀ id ∈ c.members, (body id c).result = .ok (chronicle id).body
  /-- An entry off the list has its body if it was mapped when it left. -/
  body_of_not_mem : ∀ id e, c.get? id = some e → id ∉ c.members →
    ((∃ data, (body id c).result = .ok data) ↔ (chronicle id).partedMapped)

variable {c : Cache ObjectStore} {chronicle : Chronicle} {folder : Location} {ledger : Ledger}
  {id : EntryId}

/-- An entry off the list has at most the body that is mapped. -/
private theorem body_of_unlisted (hs : c.Sound ledger []) {e : Entry} (he : c.get? id = some e)
    (hid : id ∉ c.members) {data : Bytes} :
    (body id c).result = .ok data ↔ e.mapping = some data := by
  have hforeign : e.owner ≠ some c.id := fun ho =>
    hid (hs.mem_of_isAttached he (Entry.isAttached_of_owner ho))
  obtain ⟨data', hdata, hr, -⟩ | ⟨hnone, -, ⟨reason, hr⟩, -⟩ | ⟨-, ho, -⟩ := body_of_get? he
  · rw [hr, hdata]
    exact ⟨fun h => congrArg some (Except.ok.inj h),
      fun h => congrArg Except.ok (Option.some.inj h)⟩
  · rw [hr, hnone]
    constructor
    · intro hfailed
      cases hfailed
    · intro hmapped
      cases hmapped
  · exact absurd ho hforeign

namespace Filed

/-- A listed entry of a filed cache has the body on record. -/
theorem body_of_mem (h : c.Filed chronicle folder) (hs : c.Sound ledger []) (hid : id ∈ c.members) :
    (body id c).result = .ok (chronicle id).body := by
  obtain ⟨e, he, ho, -⟩ := hs.exists_of_listed hid
  have hload : (Backend.loadBody e.filename c.backend).result = .ok (chronicle id).body := by
    rw [ObjectStore.loadBody_apply]
    exact ObjectStore.InStep.body_of_object (h.stored id hid e he)
  obtain ⟨data, hdata, hr, -⟩ | ⟨-, hforeign, -⟩ |
    ⟨-, -, ⟨error, herror, -⟩ | ⟨data, hdata, hr, -⟩⟩ :=
    body_of_get? he
  · rw [hr, h.mapped id e data he hdata]
  · exact absurd ho hforeign
  · rw [hload] at herror
    cases herror
  · rw [hr, ← hdata, hload]

/-- A filed cache gives the bodies on record. Those of listed entries are read from their files
(`Filed.body_of_mem`); off the list, a body is to be had only if it is mapped, and mapped bodies are
those on record. -/
theorem faithful (h : c.Filed chronicle folder) (hs : c.Sound ledger []) :
    c.Faithful chronicle where
  eq_of_filename id hid id' hid' e e' he he' := eq_of_filename_eq h.nodup hid hid' he he'
  mem_filenames id hid := by
    obtain ⟨e, he, -, -⟩ := hs.exists_of_listed hid
    exact ⟨e, he, h.inStep.mem_filenames_of_object (h.stored id hid e he)⟩
  body_eq id data hr := by
    -- a body comes from the file of a listed entry, or it is mapped
    by_cases hid : id ∈ c.members
    · rw [h.body_of_mem hs hid] at hr
      exact (Except.ok.inj hr).symm
    · cases he : c.get? id with
      | none =>
        obtain ⟨⟨reason, herror⟩, -⟩ := body_of_get?_eq_none he
        rw [herror] at hr
        cases hr
      | some e => exact h.mapped id e data he ((body_of_unlisted hs he hid).mp hr)
  body_of_mem _ := h.body_of_mem hs
  body_of_not_mem id e he hid := by
    rw [← h.parted id e he hid, Entry.isMapped, Option.isSome_iff_exists]
    exact exists_congr fun data => body_of_unlisted hs he hid

end Filed

/-- **Bodies.** In every run of a cache over an object directory, whoever asks for a body gets the
one that was put there, even when the file of the entry has become another's. The `Chronicle` has
the bodies on record, beside the run; that every cache which a run can reach is filed with this
record is an induction on the calls (`filed_openOver`, `Filed.after`), and filed caches are faithful
(`Filed.faithful`). -/
theorem faithful_after {id : CacheId} {path : Path} {hint : UInt64} {disk : Disk}
    {c : Cache ObjectStore} (hopen : (openAt id path hint.toNat disk).result = .ok c)
    (calls : List Call) : (c.after calls).Faithful ((Chronicle.opening c).after c calls) := by
  obtain ⟨s, hstore, rfl⟩ := openAt_eq_ok_iff.mp hopen
  obtain ⟨-, folder, hin⟩ := ObjectStore.inStep_openAt (Slot.toNat_le_bound hint) hstore
  have hs := sound_openOver (openOver_store id s hint.toNat).1
  exact ((filed_openOver hin _ _).after hs calls).faithful (hs.after calls)

/-- A disk with one object in a folder. -/
def smallDisk : Disk where
  nodes := [([], .folder 0), (["o"], .folder 0), (["o", "0"], .file [0, 7])]

/-- A held entry loses its file to another object. -/
def reuse : List Call :=
  [.acquire ⟨0, 0⟩, .body ⟨0, 0⟩, .retire ⟨0, 0⟩, .purge true, .add ⟨[("k", "v")]⟩ [9]]

/-- A file was deleted under its holder and its name given to a new object. Both entries have the
file name `0` then, only one of them is listed, and each has its own body. -/
theorem faithful_after_reuse :
    ∃ c, (openAt ⟨1⟩ ⟨"/o"⟩ (2 : UInt64).toNat smallDisk).result = .ok c ∧
      (add ⟨[("k", "v")]⟩ [9] (c.after reuse.dropLast)).result = .ok ⟨1, 0⟩ ∧
      (c.after reuse).members = [⟨1, 0⟩] ∧
      ((c.after reuse).get? ⟨0, 0⟩).map (·.filename) = some "0" ∧
      ((c.after reuse).get? ⟨1, 0⟩).map (·.filename) = some "0" ∧
      (body ⟨0, 0⟩ (c.after reuse)).result = .ok [7] ∧
      (body ⟨1, 0⟩ (c.after reuse)).result = .ok [9] ∧
      (c.after reuse).Faithful ((Chronicle.opening c).after c reuse) := by
  obtain ⟨c, hopen, hadd, hmembers, hheld, hnew, hold, hbody⟩ :
      ∃ c, (openAt ⟨1⟩ ⟨"/o"⟩ (2 : UInt64).toNat smallDisk).result = .ok c ∧
        (add ⟨[("k", "v")]⟩ [9] (c.after reuse.dropLast)).result = .ok ⟨1, 0⟩ ∧
        (c.after reuse).members = [⟨1, 0⟩] ∧
        ((c.after reuse).get? ⟨0, 0⟩).map (·.filename) = some "0" ∧
        ((c.after reuse).get? ⟨1, 0⟩).map (·.filename) = some "0" ∧
        (body ⟨0, 0⟩ (c.after reuse)).result = .ok [7] ∧
        (body ⟨1, 0⟩ (c.after reuse)).result = .ok [9] :=
    ⟨_, rfl, rfl, rfl, rfl, rfl, rfl, rfl⟩
  exact ⟨c, hopen, hadd, hmembers, hheld, hnew, hold, hbody, faithful_after hopen reuse⟩

end BlobCache.Cache
