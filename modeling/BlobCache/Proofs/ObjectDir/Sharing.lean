import BlobCache.Proofs.ObjectDir.Effect

/-!
# Openers of one directory

Several users have a directory open at the same time (`SharedDir`). They have the disk in common,
and each remembers for itself which slots are taken: what it found when it last read the folder, and
what it has done since. Beside a run stands a record, kept from the calls and their answers alone,
of the files that each opener has not seen (`SharedDir.unseen`): files that others have put in slots
since it last read the folder, and that nobody has deleted.

A save replaces a file if and only if the opener has not seen the file
(`SharedDir.replaces_iff_unseen`). What was saved can be read by every opener until its name is
removed or answered to another save. Of two openers that save one object each, the second replaces
the object of the first (`SharedDir.second_save_replaces`): it has not read the folder since.
-/

namespace BlobCache

/-- The names that an opener has not seen after a call, its own or another's. -/
def StoreCall.unseen (own : Bool) (answer : Except CacheError StoreAnswer)
    (before : List String) : StoreCall → List String
  | save _ _ =>
    match answer with
    | .ok (.name name) => if own then before.filter (· != name) else name :: before
    | _ => before
  | remove name =>
    match answer with
    | .ok _ => before.filter (· != name)
    | .error _ => before
  | rescan =>
    match answer with
    | .ok _ => if own then [] else before
    | .error _ => before
  | load _ | loadBody _ | list | count | usage => before

theorem StoreCall.unseen_of_isIdle {call : StoreCall} {answer : Except CacheError StoreAnswer}
    (h : call.IsIdle answer) (own : Bool) (before : List String) :
    call.unseen own answer before = before := by
  cases call with
  | save labels data =>
    obtain ⟨e, rfl⟩ := h
    rfl
  | remove name =>
    obtain ⟨e, rfl⟩ := h
    rfl
  | rescan =>
    obtain ⟨e, rfl⟩ := h
    rfl
  | _ => rfl

/-- Who works alone has seen everything. -/
private theorem StoreCall.unseen_own_nil (call : StoreCall)
    (answer : Except CacheError StoreAnswer) :
    call.unseen true answer [] = [] := by
  cases call with
  | save labels data =>
    rcases answer with e | answer
    · rfl
    · cases answer <;> rfl
  | remove name => cases answer <;> rfl
  | rescan => cases answer <;> rfl
  | _ => rfl

private theorem Slot.name_mem_filter_ne {l : List String} {m k : Nat} :
    Slot.name m ∈ l.filter (· != Slot.name k) ↔ Slot.name m ∈ l ∧ m ≠ k := by
  rw [List.mem_filter, bne_iff_ne]
  exact and_congr_right fun _ => not_congr ⟨Slot.name_injective, fun h => h ▸ rfl⟩

namespace ObjectStore

variable {s s' : ObjectStore} {folder : Location} {unseen : List String} {n : Nat}
  {call : StoreCall} {answer : Except CacheError StoreAnswer}

/-- There is a file in a slot. -/
def HasFile (s : ObjectStore) (folder : Location) (n : Nat) : Prop :=
  ∃ file, s.disk.node? (folder ++ [Slot.name n]) = some (.file file)

private theorem hasFile_congr
    (h : s'.disk.node? (folder ++ [Slot.name n]) = s.disk.node? (folder ++ [Slot.name n])) :
    s'.HasFile folder n ↔ s.HasFile folder n := by
  rw [HasFile, HasFile, h]

/-- The names that an opener has not seen stay names of files. -/
private theorem Effect.hasFile_of_unseen (heffect : s.Effect folder call answer s') (own : Bool)
    (h : ∀ name ∈ unseen, ∃ n, name = Slot.name n ∧ s.HasFile folder n) :
    ∀ name ∈ call.unseen own answer unseen, ∃ n, name = Slot.name n ∧ s'.HasFile folder n := by
  -- a file stays where the node does
  have hkeep : ∀ k, (∀ m, m ≠ k → s'.disk.node? (folder ++ [Slot.name m]) =
      s.disk.node? (folder ++ [Slot.name m])) → ∀ name ∈ unseen, name ≠ Slot.name k →
        ∃ n, name = Slot.name n ∧ s'.HasFile folder n := by
    intro k hothers name hname hne
    obtain ⟨m, rfl, hm⟩ := h name hname
    exact ⟨m, rfl, (hasFile_congr (hothers m fun heq => hne (heq ▸ rfl))).mpr hm⟩
  cases heffect with
  | none hcall hslots hnodes =>
    rw [StoreCall.unseen_of_isIdle hcall]
    intro name hname
    obtain ⟨m, rfl, hm⟩ := h name hname
    exact ⟨m, rfl, (hasFile_congr (hnodes m)).mpr hm⟩
  | @filled labels header data k hcall hheader hfree hanswer hslots hfolder hfile hothers =>
    subst hcall hanswer
    intro name hname
    by_cases hk : name = Slot.name k
    · exact ⟨k, hk, _, hfile⟩
    · refine hkeep k hothers name ?_ hk
      cases own with
      | true => exact (List.mem_filter.mp hname).1
      | false => exact (List.mem_cons.mp hname).resolve_left hk
  | @vacated k hcall hanswer hslots hnone hothers =>
    subst hcall hanswer
    intro name hname
    obtain ⟨hmem, hne⟩ := List.mem_filter.mp hname
    exact hkeep k hothers name hmem (bne_iff_ne.mp hne)
  | reread hcall hanswer hdisk hslots =>
    subst hcall hanswer
    intro name hname
    cases own with
    | true => cases hname
    | false =>
      obtain ⟨m, rfl, hm⟩ := h name hname
      exact ⟨m, rfl, (hasFile_congr (by rw [hdisk])).mpr hm⟩

/-- A store that knows of the files in its folder, apart from those under some names. -/
structure Knows (s : ObjectStore) (folder : Location) (unseen : List String) : Prop where
  liesIn : s.LiesIn folder
  seen : ∀ n < Slot.bound, s.HasFile folder n → n ∈ s.dir.slots ∨ Slot.name n ∈ unseen
  hasFile : ∀ name ∈ unseen, ∃ n, name = Slot.name n ∧ s.HasFile folder n

namespace Knows

/-- A store that is in step has seen all files. -/
theorem of_inStep (h : s.InStep folder) : s.Knows folder [] := by
  refine ⟨h.liesIn, fun n hlt ⟨file, hfile⟩ => .inl ?_, nofun⟩
  rw [h.mem_slots_iff, hfile]
  exact ⟨hlt, Option.some_ne_none _⟩

/-- In the slot that is to be filled there is a file if and only if the store has not seen it. -/
theorem hasFile_iff (h : s.Knows folder unseen) (hfree : s.dir.freeSlot? = some n) :
    s.HasFile folder n ↔ Slot.name n ∈ unseen := by
  obtain ⟨hnot, hlt⟩ := ObjectDir.of_freeSlot? hfree
  have hbound := Nat.lt_of_lt_of_le hlt h.liesIn.limit_le
  refine ⟨fun hfile => (h.seen n hbound hfile).resolve_left hnot, fun hname => ?_⟩
  obtain ⟨m, hm, hfile⟩ := h.hasFile _ hname
  exact Slot.name_injective hm ▸ hfile

/-- A store knows what it does itself. -/
theorem own (h : s.Knows folder unseen) (responses : List Response) (call : StoreCall) :
    (call.runOn responses s).state.Knows folder
      (call.unseen true (call.runOn responses s).result unseen) := by
  obtain ⟨hlies, -, -, heffect⟩ := h.liesIn.runOn responses call
  generalize (call.runOn responses s).result = answer at heffect ⊢
  generalize (call.runOn responses s).state = s' at hlies heffect ⊢
  refine ⟨hlies, fun m hlt hm => ?_, heffect.hasFile_of_unseen true h.hasFile⟩
  cases heffect with
  | none hcall hslots hnodes =>
    rw [StoreCall.unseen_of_isIdle hcall]
    obtain ⟨file, hfile⟩ := (hasFile_congr (hnodes m)).mp hm
    exact (h.seen m hlt ⟨file, hfile⟩).imp_left (hslots m file hfile)
  | @filled labels header data k hcall hheader hfree hanswer hslots hfolder hfile hothers =>
    subst hcall hanswer
    rw [hslots, SlotSet.mem_insert]
    by_cases hk : m = k
    · exact .inl (.inl hk)
    · exact (h.seen m hlt ((hasFile_congr (hothers m hk)).mp hm)).imp .inr fun hname =>
        Slot.name_mem_filter_ne.mpr ⟨hname, hk⟩
  | @vacated k hcall hanswer hslots hnone hothers =>
    subst hcall hanswer
    obtain ⟨file, hfile⟩ := hm
    have hk : m ≠ k := by
      rintro rfl
      rw [hnone] at hfile
      cases hfile
    rw [hslots, SlotSet.mem_erase]
    exact (h.seen m hlt ⟨file, (hothers m hk).symm.trans hfile⟩).imp (fun hm => ⟨hm, hk⟩)
      fun hname => Slot.name_mem_filter_ne.mpr ⟨hname, hk⟩
  | reread hcall hanswer hdisk hslots =>
    obtain ⟨file, hfile⟩ := hm
    rw [hdisk] at hfile
    refine .inl (hslots m hlt ?_)
    rw [hfile]
    exact Option.some_ne_none _

/-- A store does not see what another does. -/
theorem other (h : s.Knows folder unseen) {dir : ObjectDir} (hdir : LiesIn { s with dir } folder)
    (responses : List Response) (call : StoreCall) :
    Knows { s with disk := (call.runOn responses { s with dir }).state.disk } folder
      (call.unseen false (call.runOn responses { s with dir }).result unseen) := by
  obtain ⟨-, -, hkeeps, heffect⟩ := hdir.runOn responses call
  generalize (call.runOn responses { s with dir }).result = answer at heffect ⊢
  generalize (call.runOn responses { s with dir }).state = s' at hkeeps heffect ⊢
  refine ⟨h.liesIn.keepsFolders hkeeps, fun m hlt hm => ?_,
    heffect.hasFile_of_unseen false h.hasFile⟩
  cases heffect with
  | none hcall hslots hnodes =>
    rw [StoreCall.unseen_of_isIdle hcall]
    exact h.seen m hlt ((hasFile_congr (hnodes m)).mp hm)
  | @filled labels header data k hcall hheader hfree hanswer hslots hfolder hfile hothers =>
    subst hcall hanswer
    by_cases hk : m = k
    · exact .inr (hk ▸ List.mem_cons_self)
    · exact (h.seen m hlt ((hasFile_congr (hothers m hk)).mp hm)).imp_right
        (List.mem_cons_of_mem _)
  | @vacated k hcall hanswer hslots hnone hothers =>
    subst hcall hanswer
    obtain ⟨file, hfile⟩ := hm
    have hk : m ≠ k := by
      rintro rfl
      rw [hnone] at hfile
      cases hfile
    exact (h.seen m hlt ⟨file, (hothers m hk).symm.trans hfile⟩).imp_right fun hname =>
      Slot.name_mem_filter_ne.mpr ⟨hname, hk⟩
  | reread hcall hanswer hdisk hslots =>
    subst hcall hanswer
    obtain ⟨file, hfile⟩ := hm
    exact h.seen m hlt ⟨file, (hdisk ▸ hfile :)⟩

/-- A store that works alone goes on knowing of every file. -/
theorem after (h : s.Knows folder []) (calls : List StoreCall) :
    (s.after calls).Knows folder [] := by
  induction calls generalizing s with
  | nil => exact h
  | cons call calls ih =>
    have hown := h.own [] call
    rw [StoreCall.unseen_own_nil, StoreCall.runOn_nil] at hown
    exact ih hown

/-- The directory stays where it is. -/
private theorem path_after (h : s.Knows folder []) (calls : List StoreCall) :
    (s.after calls).dir.path = s.dir.path := by
  induction calls generalizing s with
  | nil => rfl
  | cons call calls ih =>
    have hown := h.own [] call
    have hpath := (h.liesIn.runOn [] call).path_eq
    rw [StoreCall.unseen_own_nil, StoreCall.runOn_nil] at hown
    rw [StoreCall.runOn_nil] at hpath
    exact (ih hown).trans hpath

/-- When folders are made or changed, the files stay known. -/
theorem altersFolders (h : s.Knows folder unseen) {disk : Disk}
    (halters : s.disk.AltersFolders disk) : Knows { s with disk } folder unseen := by
  have hfile : ∀ m, HasFile { s with disk } folder m ↔ s.HasFile folder m := fun m =>
    exists_congr fun file => halters.file_iff
  refine ⟨h.liesIn.keepsFolders halters.keepsFolders,
    fun m hlt hm => h.seen m hlt ((hfile m).mp hm), fun name hname => ?_⟩
  obtain ⟨m, rfl, hm⟩ := h.hasFile name hname
  exact ⟨m, rfl, (hfile m).mpr hm⟩

end Knows

/-- A file stays until its name is removed or answered to a save. -/
theorem Effect.node?_eq (heffect : s.Effect folder call answer s')
    (hcall : call ≠ .remove (Slot.name n)) (hanswer : answer ≠ .ok (.name (Slot.name n))) :
    s'.disk.node? (folder ++ [Slot.name n]) = s.disk.node? (folder ++ [Slot.name n]) := by
  cases heffect with
  | none _ _ hnodes => exact hnodes n
  | filled _ _ _ hname _ _ _ hothers =>
    exact hothers n fun heq => hanswer (heq ▸ hname)
  | vacated hremove _ _ _ hothers => exact hothers n fun heq => hcall (heq ▸ hremove)
  | reread _ _ hdisk _ => rw [hdisk]

/-- A save that succeeds has put a file into the free slot. -/
private theorem Effect.of_save {labels : Labels} {data : Bytes} {name : String}
    (heffect : s.Effect folder call answer s') (hcall : call = .save labels data)
    (hanswer : answer = .ok (.name name)) :
    ∃ header n, name = Slot.name n ∧ labels.header = .ok header ∧ s.dir.freeSlot? = some n ∧
      s'.disk.node? (folder ++ [Slot.name n]) = some (.file (header ++ data)) := by
  subst hcall hanswer
  cases heffect with
  | none hidle _ _ =>
    obtain ⟨e, he⟩ := hidle
    cases he
  | @filled _ header _ n hsame hheader hfree hname _ _ hfile _ =>
    cases hsame
    cases hname
    exact ⟨header, n, rfl, hheader, hfree, hfile⟩
  | vacated hremove _ _ _ _ => cases hremove
  | reread hrescan _ _ _ => cases hrescan

/-- There is a file in a slot if the path of the slot leads to one. -/
private theorem LiesIn.hasFile_iff_stat (h : s.LiesIn folder) (n : Nat) :
    s.HasFile folder n ↔ ∃ file, s.disk.stat (s.dir.slotPath n) = .ok (.file file) := by
  refine exists_congr fun file => ⟨Disk.stat_of_find (h.find_slotPath n), fun hstat => ?_⟩
  obtain ⟨loc, hfind, hnode⟩ := Disk.find_of_stat hstat
  rw [h.find_slotPath n] at hfind
  cases hfind
  exact hnode

end ObjectStore

/-! ### Several openers -/

/-- A directory that several users have open: what each of them remembers, and the disk. -/
structure SharedDir (ι : Type) where
  /-- The directory as an opener remembers it. -/
  views : ι → ObjectDir
  /-- The disk. -/
  disk : Disk

/-- A call of an opener. -/
structure SharedCall (ι : Type) where
  /-- Who makes it. -/
  opener : ι
  /-- What is called. -/
  call : StoreCall
  /-- What the device answers. -/
  responses : List Response := []
  deriving DecidableEq, Repr

namespace SharedDir

variable {ι : Type}

/-- The store of an opener. -/
def store (d : SharedDir ι) (i : ι) : ObjectStore :=
  { dir := d.views i, disk := d.disk }

/-- What a call answers. -/
def answer (d : SharedDir ι) (c : SharedCall ι) : Except CacheError StoreAnswer :=
  (c.call.runOn c.responses (d.store c.opener)).result

variable [DecidableEq ι]

/-- The directory after a call. -/
def next (d : SharedDir ι) (c : SharedCall ι) : SharedDir ι :=
  let s := (c.call.runOn c.responses (d.store c.opener)).state
  { views := Function.update d.views c.opener s.dir, disk := s.disk }

/-- The directory after some calls. -/
def after (d : SharedDir ι) : List (SharedCall ι) → SharedDir ι
  | [] => d
  | c :: calls => (d.next c).after calls

/-- The names of the files that each opener has not seen after some calls. -/
def unseen (d : SharedDir ι) (before : ι → List String) : List (SharedCall ι) → ι → List String
  | [] => before
  | c :: calls =>
    (d.next c).unseen (fun i => c.call.unseen (i = c.opener) (d.answer c) (before i)) calls

/-- Some calls neither remove a name nor answer it to a save. -/
def Spares (d : SharedDir ι) (name : String) : List (SharedCall ι) → Prop
  | [] => True
  | c :: calls =>
    c.call ≠ .remove name ∧ d.answer c ≠ .ok (.name name) ∧ (d.next c).Spares name calls

variable {d : SharedDir ι} {folder : Location} {unseen : ι → List String}

private theorem store_next_self (d : SharedDir ι) (c : SharedCall ι) :
    (d.next c).store c.opener = (c.call.runOn c.responses (d.store c.opener)).state := by
  simp only [store, next, Function.update_self]

private theorem store_next_of_ne (d : SharedDir ι) (c : SharedCall ι) {i : ι} (h : i ≠ c.opener) :
    (d.next c).store i =
      { d.store i with disk := (c.call.runOn c.responses (d.store c.opener)).state.disk } := by
  simp only [store, next, Function.update_of_ne h]

/-- The openers know of the files, apart from those that they have not seen. -/
private theorem knows_next (h : ∀ i, (d.store i).Knows folder (unseen i)) (c : SharedCall ι)
    (i : ι) :
    ((d.next c).store i).Knows folder
      (c.call.unseen (i = c.opener) (d.answer c) (unseen i)) := by
  by_cases hi : i = c.opener
  · subst hi
    rw [store_next_self, decide_eq_true rfl]
    exact (h c.opener).own c.responses c.call
  · rw [store_next_of_ne d c hi, decide_eq_false hi]
    exact (h i).other (h c.opener).liesIn c.responses c.call

/-- After any calls of anyone, every opener knows of every file but those on its record. -/
theorem knows_after (h : ∀ i, (d.store i).Knows folder (unseen i)) (calls : List (SharedCall ι))
    (i : ι) : ((d.after calls).store i).Knows folder (d.unseen unseen calls i) := by
  induction calls generalizing d unseen with
  | nil => exact h i
  | cons c calls ih => exact ih (knows_next h c)

/-- An object stays, for every opener, until its name is removed or answered to a save. By induction
on the calls: whoever makes a call, it changes no slot but the one that it answers or removes. -/
private theorem object_of_spares (h : ∀ i, (d.store i).LiesIn folder) {labels : Labels}
    {header data : Bytes} {n : Nat} (hheader : labels.header = .ok header) (hlt : n < Slot.bound)
    (hfile : d.disk.node? (folder ++ [Slot.name n]) = some (.file (header ++ data)))
    {calls : List (SharedCall ι)} (hspares : d.Spares (Slot.name n) calls) (i : ι) :
    ((d.after calls).store i).object (Slot.name n) = .ok ⟨labels, data⟩ := by
  induction calls generalizing d with
  | nil => exact (h i).object_of_file hheader hlt hfile
  | cons c calls ih =>
    obtain ⟨hcall, hanswer, hrest⟩ := hspares
    obtain ⟨hlies, -, hkeeps, heffect⟩ := (h c.opener).runOn c.responses c.call
    refine ih (fun j => ?_) ((heffect.node?_eq hcall hanswer).trans hfile) hrest
    by_cases hj : j = c.opener
    · rw [hj, store_next_self]
      exact hlies
    · rw [store_next_of_ne d c hj]
      exact (h j).keepsFolders hkeeps

end SharedDir

/-! ### Two openers -/

/-- Who has a directory open. -/
inductive Opener
  /-- The one that came first. -/
  | first
  /-- The one that came second. -/
  | second
  deriving DecidableEq, Repr

namespace SharedDir

/-- A directory at the time when the second opener comes. -/
def ofPair (first second : ObjectStore) : SharedDir Opener where
  views
    | .first => first.dir
    | .second => second.dir
  disk := second.disk

variable {path₁ path₂ : Path} {limit₁ limit₂ : UInt64} {disk : Disk} {first second : ObjectStore}
  {before : List StoreCall}

/-- Two who have opened the same directory know of the files in it. -/
private theorem exists_knows_ofPair
    (hfirst : (ObjectStore.openAt path₁ limit₁.toNat disk).result = .ok first)
    (hsecond : (ObjectStore.openAt path₂ limit₂.toNat (first.after before).disk).result =
      .ok second)
    (hsame : second.disk.find path₁ = second.disk.find path₂) :
    ∃ folder, ∀ i, ((ofPair (first.after before) second).store i).Knows folder [] := by
  obtain ⟨rfl, folder, hin⟩ := ObjectStore.inStep_openAt (Slot.toNat_le_bound limit₁) hfirst
  obtain ⟨rfl, folder', hin'⟩ := ObjectStore.inStep_openAt (Slot.toNat_le_bound limit₂) hsecond
  have hknows := (ObjectStore.Knows.of_inStep hin).after before
  have hlater := hknows.altersFolders (ObjectStore.altersFolders_of_openAt hsecond)
  obtain rfl : folder = folder' := by
    have hfind := hlater.liesIn.find_path
    rw [(ObjectStore.Knows.of_inStep hin).path_after before, hsame, hin'.find_path] at hfind
    exact (Except.ok.inj hfind).symm
  refine ⟨folder, fun i => ?_⟩
  cases i with
  | first => exact hlater
  | second => exact .of_inStep hin'

/-- **Two openers.** Of two who have the same directory open, one stores an object successfully,
after whatever calls of both on whatever devices. There was a file under the name before if and only
if the opener had not seen it, and both can read the object until its name is removed or answered to
another save. What an opener takes for a file and what it has not seen make up what is in the slots,
and every call of either keeps it so (`SharedDir.knows_after`). -/
theorem replaces_iff_unseen
    (hfirst : (ObjectStore.openAt path₁ limit₁.toNat disk).result = .ok first)
    (hsecond : (ObjectStore.openAt path₂ limit₂.toNat (first.after before).disk).result =
      .ok second)
    (hsame : second.disk.find path₁ = second.disk.find path₂)
    (calls : List (SharedCall Opener)) {c : SharedCall Opener} {labels : Labels} {data : Bytes}
    {name : String} (hcall : c.call = .save labels data)
    (hanswer : ((ofPair (first.after before) second).after calls).answer c = .ok (.name name)) :
    let start := ofPair (first.after before) second
    let d := start.after calls
    ((∃ file, d.disk.stat ((d.views c.opener).path.join name) = .ok (.file file)) ↔
        name ∈ start.unseen (fun _ => []) calls c.opener) ∧
      ∀ later, (d.next c).Spares name later →
        ∀ i, (((d.next c).after later).store i).object name = .ok ⟨labels, data⟩ := by
  intro start d
  obtain ⟨folder, hstart⟩ := exists_knows_ofPair hfirst hsecond hsame
  have hknows := knows_after hstart calls
  have hlies := (hknows c.opener).liesIn
  have heffect := (hlies.runOn c.responses c.call).effect
  obtain ⟨header, n, rfl, hheader, hfree, hfile⟩ := heffect.of_save hcall hanswer
  constructor
  · exact (hlies.hasFile_iff_stat n).symm.trans ((hknows c.opener).hasFile_iff hfree)
  · intro later hspares i
    have hnext := knows_next hknows c
    have hlt := Nat.lt_of_lt_of_le (ObjectDir.of_freeSlot? hfree).2 hlies.limit_le
    exact object_of_spares (fun j => (hnext j).liesIn) hheader hlt hfile hspares i

/-- A disk with an empty folder that is closed to others. -/
def emptyFolderDisk : Disk where
  nodes := [(["o"], .folder 0o700), ([], .folder 0)]

/-- The store of who opens the folder for two objects. -/
def emptyFolderStore : ObjectStore where
  dir := { path := ⟨"/o"⟩, limit := 2, slots := .empty }
  disk := emptyFolderDisk

/-- The first opener saves an object. -/
def firstSave : SharedCall Opener where
  opener := .first
  call := .save ⟨[("k", "a")]⟩ [1]

/-- The second opener saves another one. -/
def secondSave : SharedCall Opener where
  opener := .second
  call := .save ⟨[("k", "b")]⟩ [2]

/-- The second opener has not seen the object of the first, and can read its own. -/
theorem replaces_iff_unseen_second :
    ((ObjectStore.openAt ⟨"/o"⟩ (2 : UInt64).toNat emptyFolderDisk).result = .ok emptyFolderStore ∧
      (ObjectStore.openAt ⟨"/o"⟩ (2 : UInt64).toNat (emptyFolderStore.after []).disk).result =
        .ok emptyFolderStore ∧
      emptyFolderStore.disk.find ⟨"/o"⟩ = emptyFolderStore.disk.find ⟨"/o"⟩ ∧
      secondSave.call = .save ⟨[("k", "b")]⟩ [2] ∧
      ((ofPair (emptyFolderStore.after []) emptyFolderStore).after [firstSave]).answer secondSave =
        .ok (.name "0")) ∧
    let start := ofPair (emptyFolderStore.after []) emptyFolderStore
    let d := start.after [firstSave]
    ((∃ file, d.disk.stat ((d.views secondSave.opener).path.join "0") = .ok (.file file)) ↔
        "0" ∈ start.unseen (fun _ => []) [firstSave] secondSave.opener) ∧
      ∀ later, (d.next secondSave).Spares "0" later →
        ∀ i, (((d.next secondSave).after later).store i).object "0" =
          .ok ⟨⟨[("k", "b")]⟩, [2]⟩ := by
  have hopen : (ObjectStore.openAt ⟨"/o"⟩ (2 : UInt64).toNat emptyFolderDisk).result =
      .ok emptyFolderStore := by rfl
  have hlater : (ObjectStore.openAt ⟨"/o"⟩ (2 : UInt64).toNat
      (emptyFolderStore.after []).disk).result = .ok emptyFolderStore := by rfl
  have hsame : emptyFolderStore.disk.find ⟨"/o"⟩ = emptyFolderStore.disk.find ⟨"/o"⟩ := rfl
  have hcall : secondSave.call = .save ⟨[("k", "b")]⟩ [2] := rfl
  have hanswer : ((ofPair (emptyFolderStore.after []) emptyFolderStore).after [firstSave]).answer
      secondSave = .ok (.name "0") := by rfl
  exact ⟨⟨hopen, hlater, hsame, hcall, hanswer⟩,
    replaces_iff_unseen hopen hlater hsame [firstSave] hcall hanswer⟩

/-- Two have an empty directory open, and each saves an object. Both saves answer the same name, at
the second there is a file under it already, and afterwards the first opener reads the object of the
second in place of its own. -/
theorem second_save_replaces :
    let start := ofPair emptyFolderStore emptyFolderStore
    let d := start.next firstSave
    (ObjectStore.openAt ⟨"/o"⟩ (2 : UInt64).toNat emptyFolderDisk).result = .ok emptyFolderStore ∧
      (ObjectStore.openAt ⟨"/o"⟩ (2 : UInt64).toNat emptyFolderStore.disk).result =
        .ok emptyFolderStore ∧
      start.answer firstSave = .ok (.name "0") ∧
      (d.store .first).object "0" = .ok ⟨⟨[("k", "a")]⟩, [1]⟩ ∧
      d.disk.stat ⟨"/o/0"⟩ = .ok (.file [107, 32, 97, 10, 0, 1]) ∧
      d.answer secondSave = .ok (.name "0") ∧
      ((d.next secondSave).store .first).object "0" = .ok ⟨⟨[("k", "b")]⟩, [2]⟩ :=
  ⟨by rfl, by rfl, by rfl, by rfl, by rfl, by rfl, by rfl⟩

end SharedDir

end BlobCache
