import BlobCache.Proofs.Cache.Chronicle
import BlobCache.Proofs.Cache.Descent
import BlobCache.Proofs.ObjectDir.Opening

/-!
# Entries and their files

A cache over an object directory is filed when every listed entry has its object in a file of its
own, with the labels of the entry and the body on record, and every mapped body is the one on
record (`Cache.Filed`). File names are used again as soon as their slot is free, and entries off the
list keep the old name; but a slot is free only when nothing is in it, and only listed entries have
their files deleted. So no call on one entry reaches the file of another, and every call keeps the
cache filed (`Filed.run`).

Calls that add nothing have one effect on the disk: the objects of the entries that leave the list
are deleted (`Sound.backend_run`). `Filed.delete` says what that leaves of the folder, and
`Filed.run_of_ne_add` that it leaves the cache filed; adding is `Filed.add`, where the file is put
into a slot in which there was nothing, so that it is no entry's (`Filed.ne_of_freeSlot`).
-/

namespace BlobCache

/-! ### Deleting several objects -/

namespace ObjectStore.InStep

variable {s : ObjectStore} {folder : Location}

/-- Deleting several objects takes their files away, and nothing else. -/
theorem removeAll (h : s.InStep folder) {names : List String} (hnodup : names.Nodup)
    (hfiles : ∀ name ∈ names, ∃ o, s.object name = .ok o) :
    (Backend.removeAll s names).InStep folder ∧
      (Backend.removeAll s names).dir.path = s.dir.path ∧
      ∀ l, (Backend.removeAll s names).disk.node? l =
        if l ∈ names.map (folder ++ [·]) then none else s.disk.node? l := by
  induction names generalizing s with
  | nil => exact ⟨h, rfl, fun l => rfl⟩
  | cons name names ih =>
    obtain ⟨hnot, hnodup'⟩ := List.nodup_cons.mp hnodup
    obtain ⟨o, ho⟩ := hfiles name List.mem_cons_self
    obtain ⟨n, file, -, rfl, hlt, hnode, -, -⟩ := h.object_eq_ok_iff.mp ho
    have hstate := (h.remove_apply hlt hnode).2
    have hstep := h.vacated hnode
    have hrest : ∀ name ∈ names, ∃ o, (s.vacated folder n).object name = .ok o := by
      intro other hother
      obtain ⟨o, ho⟩ := hfiles other (List.mem_cons_of_mem _ hother)
      refine ⟨o, h.object_of_node hstep ho ?_⟩
      have hne : folder ++ [other] ≠ folder ++ [Slot.name n] := fun heq =>
        hnot (List.singleton_inj.mp (List.append_cancel_left heq) ▸ hother)
      rw [node?_vacated, if_neg hne]
    obtain ⟨hin, hpath, hnodes⟩ := ih hstep hnodup' hrest
    have hcons : Backend.removeAll s (Slot.name n :: names) =
        Backend.removeAll (s.vacated folder n) names := by
      rw [← hstate]
      rfl
    rw [hcons]
    refine ⟨hin, hpath, fun l => ?_⟩
    have hmem : l ∈ (Slot.name n :: names).map (folder ++ [·]) ↔
        l = folder ++ [Slot.name n] ∨ l ∈ names.map (folder ++ [·]) := by
      rw [List.map_cons, List.mem_cons]
    rw [hnodes, node?_vacated]
    by_cases hl : l ∈ names.map (folder ++ [·])
    · rw [if_pos hl, if_pos (hmem.mpr (.inr hl))]
    · rw [if_neg hl]
      by_cases hl' : l = folder ++ [Slot.name n]
      · rw [if_pos hl', if_pos (hmem.mpr (.inl hl'))]
      · rw [if_neg hl', if_neg fun h => (hmem.mp h).elim hl' hl]

end ObjectStore.InStep

namespace Cache

variable {c : Cache ObjectStore} {ledger : Ledger}

/-! ### What calls do to the directory -/

/-- A name is that of the object of an entry. -/
theorem mem_filenames {β : Type} {c : Cache β} {ids : List EntryId} {name : String} :
    name ∈ c.filenames ids ↔ ∃ id ∈ ids, ∃ e, c.get? id = some e ∧ e.filename = name := by
  simp only [filenames, List.mem_filterMap, Option.map_eq_some_iff]

/-- Entries whose objects have different names are told apart by the names. -/
theorem eq_of_filename_eq {β : Type} {c : Cache β} {ids : List EntryId}
    (h : (c.filenames ids).Nodup) {id id' : EntryId} {e e' : Entry} (hid : id ∈ ids)
    (hid' : id' ∈ ids) (he : c.get? id = some e) (he' : c.get? id' = some e')
    (hname : e.filename = e'.filename) : id = id' := by
  have hpair := List.pairwise_filterMap.mp h
  have hsame : (c.get? id).map (·.filename) = some e.filename := by rw [he, Option.map_some]
  have hsame' : (c.get? id').map (·.filename) = some e.filename := by
    rw [he', Option.map_some, hname]
  refine List.Pairwise.forall_of_forall_of_flip
    (R := fun a b => ∀ name, (c.get? a).map (·.filename) = some name →
      (c.get? b).map (·.filename) = some name → a = b)
    (fun _ _ _ _ _ => rfl) (hpair.imp ?_) (hpair.imp ?_) hid hid' _ hsame hsame'
  · intro a b hne name ha hb
    exact absurd rfl (hne name ha name hb)
  · intro a b hne name ha hb
    exact absurd rfl (hne name hb name ha)

/-- Calls that add nothing delete the objects of the entries that leave the list, and do nothing
else to the disk. Only purges take entries off the list, and they tell the backend of each one
(`Sound.purge_effect`). -/
theorem Sound.backend_run (h : c.Sound ledger []) {call : Call}
    (hcall : ∀ labels data, call ≠ .add labels data) :
    ∃ leaves : EntryId → Bool,
      (call.run c).state.members = c.members.filter (!leaves ·) ∧
      (call.run c).state.backend =
        Backend.removeAll c.backend (c.filenames (c.members.filter leaves)) := by
  have hnobody : ∀ c' : Cache ObjectStore, c'.members = c.members → c'.backend = c.backend →
      ∃ leaves : EntryId → Bool, c'.members = c.members.filter (!leaves ·) ∧
        c'.backend = Backend.removeAll c.backend (c.filenames (c.members.filter leaves)) := by
    intro c' hm hb
    have hall : c.members.filter (fun _ => !false) = c.members :=
      List.filter_eq_self.mpr fun _ _ => rfl
    have hnone : c.members.filter (fun _ => false) = [] :=
      List.filter_eq_nil_iff.mpr fun _ _ => Bool.false_ne_true
    refine ⟨fun _ => false, hm.trans hall.symm, ?_⟩
    rw [hnone]
    exact hb
  cases call with
  | add labels data => exact absurd rfl (hcall labels data)
  | acquire id =>
    rw [Call.run, Action.map_apply]
    obtain ⟨-, -, hs⟩ | ⟨e, references, -, -, -, hs⟩ := acquire_cases id c
    · exact hnobody _ (by rw [hs]) (by rw [hs])
    · exact hnobody _ (by rw [hs]; rfl) (by rw [hs]; rfl)
  | release now id =>
    rw [Call.run, Action.map_apply]
    obtain ⟨-, -, hs⟩ | ⟨-, -, -, -, -, hs⟩ | ⟨e, left, -, -, -, -, hs⟩ := release_cases now id c
    · exact hnobody _ (by rw [hs]) (by rw [hs])
    · exact hnobody _ (by rw [hs]; rfl) (by rw [hs]; rfl)
    · exact hnobody _ (by rw [hs]; rfl) (by rw [hs]; rfl)
  | retire id =>
    rw [Call.run, Action.map_apply]
    obtain ⟨-, -, hs⟩ | ⟨e, -, -, hs⟩ := retire_cases id c
    · exact hnobody _ (by rw [hs]) (by rw [hs])
    · exact hnobody _ (by rw [hs]; rfl) (by rw [hs]; rfl)
  | markEager id =>
    rw [Call.run, Action.map_apply]
    obtain ⟨-, -, hs⟩ | ⟨e, -, -, hs⟩ := markEager_cases id c
    · exact hnobody _ (by rw [hs]) (by rw [hs])
    · exact hnobody _ (by rw [hs]; rfl) (by rw [hs]; rfl)
  | body id =>
    rw [Call.run, Action.map_apply]
    obtain hs | ⟨e, -, hs | ⟨-, data, -, hs⟩⟩ := body_cases id c
    · exact hnobody _ (by rw [hs]) (by rw [hs])
    · rw [ObjectStore.loadBody_apply] at hs
      exact hnobody _ (by rw [hs]; rfl) (by rw [hs]; rfl)
    · rw [ObjectStore.loadBody_apply] at hs
      exact hnobody _ (by rw [hs]; rfl) (by rw [hs]; rfl)
  | unmapIdle cutoff =>
    rw [Call.run, Action.map_apply]
    obtain ⟨hm, hb, -⟩ := h.unmapIdle_effect cutoff
    exact hnobody _ hm hb
  | purge force =>
    rw [Call.run, Action.map_apply]
    obtain ⟨hm, hb, -⟩ := h.purge_effect force
    exact ⟨(c.fate force · == .delete), hm, hb⟩
  | sweep now maxIdle =>
    rw [Call.run]
    cases hs : (sweep? now maxIdle : Option (Action (Cache ObjectStore) SweepReport)) with
    | none => exact hnobody _ rfl rfl
    | some both =>
      dsimp only
      rw [Action.map_apply]
      obtain ⟨cutoff, heffect⟩ := h.sweep_effect hs
      obtain ⟨hm, hb, -⟩ := h.unmapIdle_effect cutoff
      obtain ⟨hm', hb', -⟩ := (h.unmapIdle cutoff).2.purge_effect false
      rw [doomed, hm, hb, h.filenames_unmapIdle] at hb'
      rw [hm] at hm'
      rw [heffect]
      exact ⟨_, hm', hb'⟩

/-- Calls that add nothing do not change the names of what stays listed. -/
theorem Sound.filenames_run (h : c.Sound ledger []) {call : Call}
    (hcall : ∀ labels data, call ≠ .add labels data) :
    (call.run c).state.filenames (call.run c).state.members =
      c.filenames (call.run c).state.members := by
  refine filenames_congr fun id hid => ?_
  obtain ⟨e', he', -, -⟩ := (h.run call).exists_of_listed hid
  obtain ⟨e, he, hbecomes⟩ := h.becomes_run hcall he'
  rw [he, he', Option.map_some, Option.map_some, hbecomes.filename_eq]

/-- `add` fails and changes nothing, or puts an object into a file of its own and lists an entry for
it. -/
theorem Sound.add_effect {folder : Location} (h : c.Sound ledger [])
    (hin : c.backend.InStep folder) (labels : Labels) (data : Bytes) :
    (∃ error, (Cache.add labels data c).result = .error error ∧
        (Cache.add labels data c).state = c) ∨
      ∃ n disk new, (Cache.add labels data c).result = .ok new ∧ c.get? new = none ∧
        (Cache.add labels data c).state.members = c.members ++ [new] ∧
        (∀ id, (Cache.add labels data c).state.get? id =
          if id = new then some (c.stored (Slot.name n) labels) else c.get? id) ∧
        (Cache.add labels data c).state.backend = c.backend.filled n disk ∧
        c.backend.Stored folder n labels data disk := by
  obtain ⟨error, hsave, hr, hs⟩ | ⟨filename, hsave, hr, hs⟩ := add_cases labels data c
  · obtain ⟨-, -, hsame⟩ | ⟨n, -, hok, -⟩ := hin.save_cases labels data
    · exact .inl ⟨_, hr, hs.trans (congrArg c.withBackend hsame)⟩
    · exact absurd (hok.symm.trans hsave) nofun
  · obtain ⟨_, hfailed, -⟩ | ⟨n, disk, hok, hbackend, hstored⟩ := hin.save_cases labels data
    · exact absurd (hfailed.symm.trans hsave) nofun
    · obtain rfl : Slot.name n = filename := Except.ok.inj (hok.symm.trans hsave)
      refine .inr ⟨n, disk, _, hr, h.arena.get?_fst_insert _, ?_, ?_, ?_, hstored⟩
      · rw [hs]
        rfl
      · rw [hs]
        exact get?_withBackend_enlisted h.arena _ _
      · rw [hs]
        exact hbackend

/-- The names of the listed entries after another one was listed. -/
theorem Sound.filenames_of_enlisted (h : c.Sound ledger []) {c' : Cache ObjectStore}
    {new : EntryId} {e : Entry} (hfresh : c.get? new = none)
    (hmembers : c'.members = c.members ++ [new])
    (hget : ∀ id, c'.get? id = if id = new then some e else c.get? id) :
    c'.filenames c'.members = c.filenames c.members ++ [e.filename] := by
  have hnew : c'.filenames [new] = [e.filename] := by
    rw [filenames, List.filterMap_cons, hget, if_pos rfl]
    rfl
  have hold : c'.filenames c.members = c.filenames c.members := by
    refine filenames_congr fun id hid => ?_
    obtain ⟨e', he', -, -⟩ := h.exists_of_listed hid
    have hne : id ≠ new := by
      rintro rfl
      rw [hfresh] at he'
      cases he'
    rw [hget, if_neg hne]
  rw [hmembers, filenames, List.filterMap_append]
  exact congr (congrArg _ hold) hnew

/-! ### The invariant -/

/-- A cache with its listed entries in the files of a folder, as the chronicle has it. -/
structure Filed (c : Cache ObjectStore) (chronicle : Chronicle) (folder : Location) : Prop where
  inStep : c.backend.InStep folder
  /-- No two listed entries share a file. -/
  nodup : (c.filenames c.members).Nodup
  /-- A listed entry has its object in its file. -/
  stored : ∀ id ∈ c.members, ∀ e, c.get? id = some e →
    c.backend.object e.filename = .ok ⟨e.labels, (chronicle id).body⟩
  /-- A mapped body is the one that was put there. -/
  mapped : ∀ id e data, c.get? id = some e → e.mapping = some data → data = (chronicle id).body
  /-- An entry off the list has its body as it had when it left. -/
  parted : ∀ id e, c.get? id = some e → id ∉ c.members →
    e.isMapped = (chronicle id).partedMapped

namespace Filed

variable {chronicle : Chronicle} {folder : Location}

/-- When entries leave the list and their objects are deleted, their files go, and nothing else. -/
theorem delete (h : c.Filed chronicle folder) (leaves : EntryId → Bool) :
    (Backend.removeAll c.backend (c.filenames (c.members.filter leaves))).InStep folder ∧
      (Backend.removeAll c.backend (c.filenames (c.members.filter leaves))).dir.path =
        c.backend.dir.path ∧
      ∀ l, (Backend.removeAll c.backend (c.filenames (c.members.filter leaves))).disk.node? l =
        if l ∈ (c.filenames (c.members.filter leaves)).map (folder ++ [·]) then none
        else c.backend.disk.node? l := by
  refine h.inStep.removeAll (h.nodup.sublist (List.filter_sublist.filterMap _)) fun name hname => ?_
  obtain ⟨id, hid, e, he, rfl⟩ := mem_filenames.mp hname
  exact ⟨_, h.stored id (List.mem_filter.mp hid).1 e he⟩

/-- The files that go are those of the entries that leave. -/
theorem mem_deleted_iff (h : c.Filed chronicle folder) {leaves : EntryId → Bool} {id : EntryId}
    {e : Entry} (hid : id ∈ c.members) (he : c.get? id = some e) :
    folder ++ [e.filename] ∈ (c.filenames (c.members.filter leaves)).map (folder ++ [·]) ↔
      leaves id = true := by
  constructor
  · intro hmem
    obtain ⟨name, hname, heq⟩ := List.mem_map.mp hmem
    obtain ⟨other, hother, eo, heo, rfl⟩ := mem_filenames.mp hname
    obtain ⟨hom, hleaves⟩ := List.mem_filter.mp hother
    have hsame := eq_of_filename_eq h.nodup hom hid heo he
      (List.singleton_inj.mp (List.append_cancel_left heq))
    exact hsame ▸ hleaves
  · intro hleaves
    exact List.mem_map_of_mem
      (mem_filenames.mpr ⟨id, List.mem_filter.mpr ⟨hid, hleaves⟩, e, he, rfl⟩)

/-- Calls that add nothing keep a cache filed. -/
theorem run_of_ne_add (h : c.Filed chronicle folder) (hs : c.Sound ledger []) {call : Call}
    (hcall : ∀ labels data, call ≠ .add labels data) :
    (call.run c).state.Filed (chronicle.record call c (call.run c)) folder := by
  obtain ⟨leaves, hm, hb⟩ := hs.backend_run hcall
  have hs' := hs.run call
  obtain ⟨hin, -, hnodes⟩ := h.delete leaves
  rw [← hb] at hin hnodes
  rw [chronicle.record_of_ne_add hcall]
  constructor
  case inStep => exact hin
  case nodup =>
    rw [hs.filenames_run hcall, hm]
    exact h.nodup.sublist (List.filter_sublist.filterMap _)
  case stored =>
    intro id hid e' he'
    rw [hm, List.mem_filter, Bool.not_eq_true'] at hid
    obtain ⟨e, he, hbecomes⟩ := hs.becomes_run hcall he'
    rw [Chronicle.body_part, hbecomes.filename_eq, hbecomes.labels_eq]
    -- the entry stays, so its file is not one of those that go
    refine h.inStep.object_of_node hin (h.stored id hid.1 e he) ?_
    have hnot := mt (h.mem_deleted_iff hid.1 he).mp (Bool.eq_false_iff.mp hid.2)
    rw [hnodes, if_neg hnot]
  case mapped =>
    intro id e' data he' hdata
    rw [Chronicle.body_part]
    obtain ⟨e, he, hbecomes⟩ := hs.becomes_run hcall he'
    obtain hkept | ⟨hattached, hnone | ⟨data', hdata', hload⟩⟩ := hbecomes.mapping
    · exact h.mapped id e data he (hkept ▸ hdata)
    · rw [hnone] at hdata
      cases hdata
    · -- a body that was mapped just now comes from the file of a listed entry
      obtain rfl : data' = data := Option.some.inj (hdata'.symm.trans hdata)
      have hid := hs.mem_of_isAttached he (hbecomes.isAttached hattached)
      have hbody := ObjectStore.InStep.body_of_object (h.stored id hid e he)
      rw [ObjectStore.loadBody_apply] at hload
      exact Except.ok.inj (hload.symm.trans hbody)
  case parted =>
    intro id e' he' hid
    obtain ⟨e, he, hbecomes⟩ := hs.becomes_run hcall he'
    have hkept : e'.mapping = e.mapping :=
      hbecomes.mapping.resolve_right fun ⟨ha, _⟩ => hid (hs'.mem_of_isAttached he' ha)
    have hsame : e'.isMapped = e.isMapped := by rw [Entry.isMapped, hkept, Entry.isMapped]
    -- either the entry leaves with this call, or it had left before
    by_cases hlisted : id ∈ c.members
    · rw [Chronicle.partedMapped_part chronicle hlisted hid he, hsame]
    · rw [Chronicle.part_of_not_mem chronicle hlisted, hsame]
      exact h.parted id e he hlisted

/-- A new entry with an object in a file of its own keeps a cache filed. -/
private theorem of_enlisted (h : c.Filed chronicle folder) (hs : c.Sound ledger [])
    {c' : Cache ObjectStore} (hin : c'.backend.InStep folder) {new : EntryId} {e : Entry}
    (hfresh : c.get? new = none) (hmembers : c'.members = c.members ++ [new])
    (hget : ∀ id, c'.get? id = if id = new then some e else c.get? id) {data : Bytes}
    (hobject : c'.backend.object e.filename = .ok ⟨e.labels, data⟩) (hmapping : e.mapping = none)
    (hothers : ∀ id ∈ c.members, ∀ e', c.get? id = some e' → e'.filename ≠ e.filename ∧
      c'.backend.disk.node? (folder ++ [e'.filename]) =
        c.backend.disk.node? (folder ++ [e'.filename])) :
    c'.Filed (chronicle.write new { body := data }) folder := by
  constructor
  case inStep => exact hin
  case nodup =>
    rw [hs.filenames_of_enlisted hfresh hmembers hget, List.nodup_append]
    refine ⟨h.nodup, List.pairwise_singleton _ _, fun name hname name' hname' => ?_⟩
    obtain ⟨id, hid, e', he', rfl⟩ := mem_filenames.mp hname
    rw [List.mem_singleton.mp hname']
    exact (hothers id hid e' he').1
  case stored =>
    intro id hid e' he'
    rw [hget] at he'
    by_cases hn : id = new
    · rw [if_pos hn] at he'
      obtain rfl : e = e' := Option.some.inj he'
      rw [hn, Chronicle.write_self]
      exact hobject
    · rw [if_neg hn] at he'
      have hold : id ∈ c.members := by
        rw [hmembers, List.mem_append, List.mem_singleton] at hid
        exact hid.resolve_right hn
      rw [Chronicle.write_of_ne _ hn]
      exact h.inStep.object_of_node hin (h.stored id hold e' he') (hothers id hold e' he').2
  case mapped =>
    intro id e' data' he' hdata
    rw [hget] at he'
    by_cases hn : id = new
    · rw [if_pos hn] at he'
      obtain rfl : e = e' := Option.some.inj he'
      rw [hmapping] at hdata
      cases hdata
    · rw [if_neg hn] at he'
      rw [Chronicle.write_of_ne _ hn]
      exact h.mapped id e' data' he' hdata
  case parted =>
    intro id e' he' hid
    have hnot : id ∉ c.members ∧ id ≠ new := by
      rw [hmembers, List.mem_append, List.mem_singleton, not_or] at hid
      exact hid
    rw [hget, if_neg hnot.2] at he'
    rw [Chronicle.write_of_ne _ hnot.2]
    exact h.parted id e' he' hnot.1

/-- The file of a listed entry is none that storing an object writes or deletes. -/
theorem ne_of_freeSlot (h : c.Filed chronicle folder) {id : EntryId} {e : Entry}
    (hid : id ∈ c.members) (he : c.get? id = some e) {n : Nat}
    (hfree : c.backend.dir.freeSlot? = some n) :
    folder ++ [e.filename] ≠ folder ++ [Slot.name n] ∧
      folder ++ [e.filename] ≠ folder ++ [Slot.temporaryName n] := by
  obtain ⟨m, file, -, hname, -, hfile, -, -⟩ :=
    h.inStep.object_eq_ok_iff.mp (h.stored id hid e he)
  obtain ⟨-, -, hnone⟩ := h.inStep.freeSlot hfree
  constructor
  · intro heq
    rw [heq, hnone] at hfile
    cases hfile
  · rw [hname]
    exact Slot.append_name_ne_temporaryName folder m n

/-- Adding an entry keeps a cache filed. -/
theorem add (h : c.Filed chronicle folder) (hs : c.Sound ledger []) (labels : Labels)
    (data : Bytes) :
    ((Call.add labels data).run c).state.Filed
      (chronicle.record (.add labels data) c ((Call.add labels data).run c)) folder := by
  rw [Call.run, Action.map_apply]
  obtain ⟨error, hr, hsame⟩ | ⟨n, disk, new, hr, hfresh, hmembers, hget, hb, hstored⟩ :=
    hs.add_effect h.inStep labels data
  · have hrecord : chronicle.record (.add labels data) c
        ⟨(Cache.add labels data c).result.map Answer.entry, (Cache.add labels data c).state,
          (Cache.add labels data c).log⟩ = chronicle := by
      rw [hr, hsame]
      exact chronicle.part_of_members_eq rfl
    rw [hrecord, hsame]
    exact h
  · have hin := h.inStep.filled hstored
    have hobject := h.inStep.object_filled hstored
    rw [← hb] at hin hobject
    rw [hr]
    refine h.of_enlisted hs hin hfresh hmembers hget hobject rfl fun id hid e he => ?_
    obtain ⟨hne, htmp⟩ := h.ne_of_freeSlot hid he hstored.freeSlot
    refine ⟨fun heq => hne (congrArg (folder ++ [·]) heq), ?_⟩
    rw [hb]
    exact hstored.others _ hne htmp

/-- Every call keeps a cache filed. Adding puts a file where none was (`Filed.add`), and the others
take away at most the files of entries that leave the list (`Filed.run_of_ne_add`). -/
theorem run (h : c.Filed chronicle folder) (hs : c.Sound ledger []) (call : Call) :
    (call.run c).state.Filed (chronicle.record call c (call.run c)) folder := by
  by_cases hadd : ∃ labels data, call = .add labels data
  · obtain ⟨labels, data, rfl⟩ := hadd
    exact h.add hs labels data
  · exact h.run_of_ne_add hs fun labels data heq => hadd ⟨labels, data, heq⟩

/-- A cache that is filed stays so. -/
theorem after (h : c.Filed chronicle folder) (hs : c.Sound ledger []) (calls : List Call) :
    (c.after calls).Filed (chronicle.after c calls) folder := by
  induction calls generalizing chronicle ledger c with
  | nil => exact h
  | cons call calls ih => exact ih (h.run hs call) (hs.run call)

end Filed

end Cache

end BlobCache
