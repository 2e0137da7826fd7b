import BlobCache.CommandLine.Run
import BlobCache.Proofs.Session.Work

/-!
# What runs of the program do to the map

Runs of the program over one object directory have nothing in common but the files in it. Still,
whoever looks at them sees a map of slots that the runs work on one after the other: every run
answers from the map that the runs before have left (`Launch.Turns`), as long as nobody else touches
the directory (`Chained`).

`Launch.exists_turns` is the step: a run that finds a map answers from it and leaves the map after
it. `exists_maps_of_represents` carries it through any number of runs, and
`launches_refine_slotMap` starts with a directory that is empty or not even there.
-/

namespace BlobCache

/-- The same files, with the same contents. -/
def Disk.SameFiles (d d' : Disk) : Prop :=
  ∀ loc data, d'.node? loc = some (.file data) ↔ d.node? loc = some (.file data)

/-! ### Loading settings -/

/-- Loading settings only reads. -/
theorem Settings.state_load (path : Path) (disk : Disk) : (load path disk).state = disk := by
  rw [load, Action.bind_apply, Action.get_apply]
  dsimp only
  split
  · rw [loadFile, Action.bind_apply, Action.get_apply]
    dsimp only
    rw [Action.bind_apply, Action.ofExcept_apply]
    cases disk.readFile path with
    | error e => rfl
    | ok bytes =>
      dsimp only [Except.mapError]
      cases Utf8.decode bytes with
      | error e => rfl
      | ok text =>
        dsimp only
        cases ofText? text with
        | none => rfl
        | some settings => rfl
  · rfl

/-- The options of an invocation do not touch the disk. -/
private theorem Invocation.state_override (i : Invocation) (settings : Settings) (disk : Disk) :
    (i.override settings disk).state = disk := by
  rw [override]
  cases i.directory with
  | none => rfl
  | some directory => rfl

/-! ### Runs -/

/-- A run of the program. -/
structure Launch where
  /-- What is asked for. -/
  invocation : Invocation
  /-- The environment. -/
  environment : Environment
  /-- The standard input. -/
  input : Bytes
  /-- The disk when the run starts. -/
  disk : Disk

namespace Launch

variable {limit : UInt64} {folder : Location} {m : SlotMap limit.toNat} {r : Launch}

/-- How the run ends. -/
def outcome (r : Launch) : Outcome Disk Bytes :=
  r.invocation.run r.environment r.input r.disk

/-- The settings in force. -/
def settings (r : Launch) : Except CacheError Settings :=
  ((Settings.load (r.invocation.configPath r.environment) >>= r.invocation.override) r.disk).result

/-- With its settings, a run carries out its command. -/
private theorem outcome_of_settings {settings : Settings} (h : r.settings = .ok settings) :
    let performed := r.invocation.perform ⟨r.environment, r.input, settings⟩ r.disk
    r.outcome.result = performed.result ∧ r.outcome.state = performed.state := by
  obtain ⟨loaded, hload, hoverride⟩ := Action.result_bind_eq_ok_iff.mp h
  have hstate := Settings.state_load (r.invocation.configPath r.environment) r.disk
  rw [hstate] at hoverride
  have hunlogged : ((Settings.load (r.invocation.configPath r.environment)).unlogged
      r.disk).result = .ok loaded := hload
  have hleft : ((Settings.load (r.invocation.configPath r.environment)).unlogged
      r.disk).state = r.disk := hstate
  have hperform := Action.bind_of_ok hoverride fun settings =>
    r.invocation.perform ⟨r.environment, r.input, settings⟩
  rw [Invocation.state_override] at hperform
  rw [outcome, Invocation.run, Action.bind_apply, hunlogged, hleft]
  exact hperform

/-- A run that works on the objects in a folder, for which it has room up to a limit. -/
structure WorksOn (r : Launch) (folder : Location) (limit : Nat) : Prop where
  /-- It does not see to the configuration. -/
  command : ∀ action, r.invocation.command ≠ .config action
  /-- Its settings have the limit, and its object directory is the folder. -/
  settings : ∃ settings, r.settings = .ok settings ∧ settings.capacityHint = limit ∧
    r.disk.Leads (settings.objectDir r.environment) folder

/-- What a run answers on a map of slots, and the map afterwards. -/
def Turns {limit : Nat} (r : Launch) (m m' : SlotMap limit) : Prop :=
  match r.invocation.command with
  | .add labels file =>
    -- an object that can be read and written goes to the least free slot, if there is one
    (∃ data n, r.disk.source r.input file = .ok data ∧ Labels.Writable ⟨labels⟩ ∧
      m.keys.length < limit ∧ m n = none ∧ (∀ k < n, m k ≠ none) ∧
      r.outcome.result = .ok (Session.written (Slot.name n ++ "\n")) ∧
      m' = Function.update m n (some ⟨⟨labels⟩, data⟩)) ∨
    (((∃ e, r.disk.source r.input file = .error e) ∨ ¬Labels.Writable ⟨labels⟩ ∨
        m.keys.length = limit) ∧
      (∃ e, r.outcome.result = .error e) ∧ m' = m)
  | .list label format =>
    m' = m ∧ r.disk.SameFiles r.outcome.state ∧
      ∃ bytes, r.outcome.result = .ok bytes ∧ ∃ ns : List (Fin limit),
        ns.Pairwise (· < ·) ∧
        (∀ n, n ∈ ns ↔ ∃ o, m n = some o ∧ ∀ l ∈ label, o.labels.hasLabel l.1 l.2) ∧
        (format = .plain → bytes = Session.written
          (String.join (ns.map fun n : Fin limit => Slot.name n ++ "\n")))
  | .cat key value =>
    m' = m ∧ r.disk.SameFiles r.outcome.state ∧
      ((∃ n o, m n = some o ∧ o.labels.hasLabel key value ∧
          (∀ k < n, ∀ o', m k = some o' → ¬o'.labels.hasLabel key value) ∧
          r.outcome.result = .ok o.body) ∨
        ((∀ n o, m n = some o → ¬o.labels.hasLabel key value) ∧
          r.outcome.result = .error (.noEntry key value)))
  | .remove key value =>
    m' = m.without key value ∧ r.outcome.result = .ok (Session.written
      (if m.matching key value = [] then Status.info.line s!"No objects with {key}={value}"
      else Status.ok.line s!"Removed {(m.matching key value).length} object(s)"))
  | .stats =>
    m' = m ∧ r.disk.SameFiles r.outcome.state ∧ ∃ bytes, r.outcome.result = .ok bytes
  | .config _ => False

/-! ### What a run does to the map -/

section Turns

variable {settings : Settings} (hsettings : r.settings = .ok settings)
  (hlimit : settings.capacityHint = limit.toNat)
  (hleads : r.disk.Leads (settings.objectDir r.environment) folder)
  (hmap : r.disk.Represents folder m)

include hsettings hlimit hleads hmap

private theorem turns_add {labels : List (String × String)} {file : Option Path}
    (hcommand : r.invocation.command = .add labels file) :
    ∃ m', r.Turns m m' ∧ r.outcome.state.Represents folder m' := by
  obtain ⟨hresult, hstate⟩ := outcome_of_settings hsettings
  simp only [Invocation.perform, hcommand] at hresult hstate
  simp only [Turns, hcommand]
  cases hsource : r.disk.source r.input file with
  | error e =>
    obtain ⟨⟨error, hr⟩, hs⟩ := Session.add_of_source_error
      (s := ⟨r.environment, r.input, settings⟩) hsource ⟨labels⟩
    refine ⟨m, .inr ⟨.inl ⟨e, rfl⟩, ⟨error, hresult.trans hr⟩, rfl⟩, ?_⟩
    rwa [hstate, hs]
  | ok data =>
    obtain ⟨hr, hs⟩ := Session.add_of_source
      (s := ⟨r.environment, r.input, settings⟩) hsource ⟨labels⟩
    rw [hr] at hresult
    rw [hs] at hstate
    obtain ⟨hanswer, hafter⟩ := Session.add_refines
      (s := ⟨r.environment, data, settings⟩) hmap hleads hlimit ⟨labels⟩
    rw [← hstate] at hafter
    rw [← hresult] at hanswer
    obtain ⟨hwhy, herror⟩ | ⟨hw, hroom, n, hn, hleast, hok⟩ := hanswer
    · rw [SlotMap.next_save_eq_self data hwhy] at hafter
      exact ⟨m, .inr ⟨.inr hwhy, herror, rfl⟩, hafter⟩
    · rw [SlotMap.next_save_of_free data hw hn hleast] at hafter
      have hlt := lt_of_le_of_ne m.length_keys_le hroom
      exact ⟨_, .inl ⟨data, n, rfl, hw, hlt, hn, hleast, hok, rfl⟩, hafter⟩

private theorem turns_list {label : Option (String × String)} {format : ListFormat}
    (hcommand : r.invocation.command = .list label format) :
    r.Turns m m ∧ r.outcome.state.Represents folder m := by
  obtain ⟨hresult, hstate⟩ := outcome_of_settings hsettings
  simp only [Invocation.perform, hcommand] at hresult hstate
  rw [Turns, hcommand]
  obtain ⟨⟨bytes, hbytes, hplain⟩, hfiles, hafter⟩ := Session.list_refines
    (s := ⟨r.environment, r.input, settings⟩) hmap hleads hlimit label format
  rw [← hstate] at hfiles hafter
  rw [SlotMap.names, List.map_map] at hplain
  exact ⟨⟨rfl, fun _ _ => hfiles.file_iff, bytes, hresult.trans hbytes, m.selected label,
    m.pairwise_selected label, fun _ => SlotMap.mem_selected, hplain⟩, hafter⟩

private theorem turns_cat {key value : String} (hcommand : r.invocation.command = .cat key value) :
    r.Turns m m ∧ r.outcome.state.Represents folder m := by
  obtain ⟨hresult, hstate⟩ := outcome_of_settings hsettings
  simp only [Invocation.perform, hcommand] at hresult hstate
  rw [Turns, hcommand]
  obtain ⟨hanswer, hfiles, hafter⟩ := Session.cat_refines
    (s := ⟨r.environment, r.input, settings⟩) hmap hleads hlimit key value
  rw [← hstate] at hfiles hafter
  rw [← hresult] at hanswer
  refine ⟨⟨rfl, fun _ _ => hfiles.file_iff, ?_⟩, hafter⟩
  cases hfirst : m.first? key value with
  | none =>
    rw [hfirst] at hanswer
    exact .inr ⟨SlotMap.first?_eq_none_iff.mp hfirst, hanswer⟩
  | some o =>
    rw [hfirst] at hanswer
    obtain ⟨n, ho, hlabel, hleast⟩ := SlotMap.exists_of_first?_eq_some hfirst
    exact .inl ⟨n, o, ho, hlabel, hleast, hanswer⟩

private theorem turns_remove {key value : String}
    (hcommand : r.invocation.command = .remove key value) :
    r.Turns m (m.without key value) ∧
      r.outcome.state.Represents folder (m.without key value) := by
  obtain ⟨hresult, hstate⟩ := outcome_of_settings hsettings
  simp only [Invocation.perform, hcommand] at hresult hstate
  rw [Turns, hcommand]
  obtain ⟨hanswer, hafter⟩ := Session.remove_refines
    (s := ⟨r.environment, r.input, settings⟩) hmap hleads hlimit key value
  rw [← hstate] at hafter
  exact ⟨⟨rfl, hresult.trans hanswer⟩, hafter⟩

private theorem turns_stats (hcommand : r.invocation.command = .stats) :
    r.Turns m m ∧ r.outcome.state.Represents folder m := by
  obtain ⟨hresult, hstate⟩ := outcome_of_settings hsettings
  simp only [Invocation.perform, hcommand] at hresult hstate
  rw [Turns, hcommand]
  obtain ⟨⟨bytes, hbytes⟩, hfiles, hafter⟩ := Session.stats_refines
    (s := ⟨r.environment, r.input, settings⟩) hmap hleads hlimit
  rw [← hstate] at hfiles hafter
  exact ⟨⟨rfl, fun _ _ => hfiles.file_iff, bytes, hresult.trans hbytes⟩, hafter⟩

end Turns

/-- A run that finds a map answers from it and leaves the map after it. -/
theorem exists_turns (h : r.WorksOn folder limit.toNat) (hmap : r.disk.Represents folder m) :
    ∃ m', r.Turns m m' ∧ r.outcome.state.Represents folder m' := by
  obtain ⟨hnot, settings, hsettings, hlimit, hleads⟩ := h
  cases hcommand : r.invocation.command with
  | add labels file => exact turns_add hsettings hlimit hleads hmap hcommand
  | list label format => exact ⟨m, turns_list hsettings hlimit hleads hmap hcommand⟩
  | cat key value => exact ⟨m, turns_cat hsettings hlimit hleads hmap hcommand⟩
  | remove key value => exact ⟨_, turns_remove hsettings hlimit hleads hmap hcommand⟩
  | stats => exact ⟨m, turns_stats hsettings hlimit hleads hmap hcommand⟩
  | config action => exact absurd hcommand (hnot action)

end Launch

/-! ### Runs one after the other -/

/-- Runs one after the other over a folder that nobody else touches: each finds in it what was left
by the one before, and the first what is on a disk. -/
def Chained (folder : Location) : Disk → List Launch → Prop
  | _, [] => True
  | disk, r :: rs =>
    (∀ name, r.disk.node? (folder ++ [name]) = disk.node? (folder ++ [name])) ∧
      Chained folder r.outcome.state rs

/-- A sequence with one element more, in front of the others. -/
def beginWith {α : Type} (a : α) (as : ℕ → α) : ℕ → α
  | 0 => a
  | i + 1 => as i

section Runs

variable {limit : UInt64} {disk : Disk} {folder : Location} {m : SlotMap limit.toNat}
  {runs : List Launch}

/-- From a map that is there in the beginning, every run finds a map, answers from it and leaves the
map that the next one finds. By induction on the runs, with `Launch.exists_turns` for the step. -/
theorem exists_maps_of_represents (h : disk.Represents folder m)
    (hruns : ∀ r ∈ runs, r.WorksOn folder limit.toNat) (hchained : Chained folder disk runs) :
    ∃ maps : ℕ → SlotMap limit.toNat, maps 0 = m ∧
      ∀ i, (hi : i < runs.length) → runs[i].disk.Represents folder (maps i) ∧
        runs[i].Turns (maps i) (maps (i + 1)) ∧
        runs[i].outcome.state.Represents folder (maps (i + 1)) := by
  induction runs generalizing disk m with
  | nil => exact ⟨fun _ => m, rfl, fun i hi => absurd hi (Nat.not_lt_zero i)⟩
  | cons r runs ih =>
    obtain ⟨hsame, hrest⟩ := hchained
    have hfound := h.congr hsame
    obtain ⟨m', hturns, hleft⟩ := Launch.exists_turns (hruns r List.mem_cons_self) hfound
    obtain ⟨maps, rfl, hmaps⟩ := ih hleft (fun r hr => hruns r (List.mem_cons_of_mem _ hr)) hrest
    refine ⟨beginWith m maps, rfl, fun i hi => ?_⟩
    cases i with
    | zero => exact ⟨hfound, hturns, hleft⟩
    | succ i => exact hmaps i (Nat.lt_of_succ_lt_succ hi)

/-- **Runs of the program.** Over a directory that starts empty there is always a map of slots that
the runs answer from and work on, at first without objects. The runs have nothing in common but the
disk, and what it represents is the map: a run loads its settings, opens the directory, works and
closes it again, and each of these steps is a step on the map (`Launch.exists_turns`,
`exists_maps_of_represents`). -/
theorem launches_refine_slotMap (h : ∀ name, disk.node? (folder ++ [name]) = none)
    (hruns : ∀ r ∈ runs, r.WorksOn folder limit.toNat) (hchained : Chained folder disk runs) :
    ∃ maps : ℕ → SlotMap limit.toNat, maps 0 = SlotMap.empty ∧
      ∀ i, (hi : i < runs.length) → runs[i].disk.Represents folder (maps i) ∧
        runs[i].Turns (maps i) (maps (i + 1)) ∧
        runs[i].outcome.state.Represents folder (maps (i + 1)) :=
  exists_maps_of_represents (Disk.represents_empty h) hruns hchained

end Runs

/-- A run that is told to keep its objects in `/o`. -/
def launchOn (disk : Disk) (command : Command) (input : Bytes) : Launch where
  invocation := { command, verbosity := 0, configFile := none, directory := some ⟨"/o"⟩ }
  environment := { home := some "/home" }
  input
  disk

/-- Stores an object. -/
def addLaunch : Launch :=
  launchOn ObjectStore.folderDisk (.add [("k", "a")] none) [1]

/-- Writes its body. -/
def catLaunch : Launch :=
  launchOn addLaunch.outcome.state (.cat "k" "a") []

/-- An object is stored and then looked at. -/
theorem launches_refine_slotMap_two :
    ((∀ name, ObjectStore.folderDisk.node? (["o"] ++ [name]) = none) ∧
      (∀ r ∈ [addLaunch, catLaunch], r.WorksOn ["o"] (256 : UInt64).toNat) ∧
      Chained ["o"] ObjectStore.folderDisk [addLaunch, catLaunch]) ∧
    ∃ maps : ℕ → SlotMap (256 : UInt64).toNat, maps 0 = SlotMap.empty ∧
      ∀ i, (hi : i < [addLaunch, catLaunch].length) →
        [addLaunch, catLaunch][i].disk.Represents ["o"] (maps i) ∧
        [addLaunch, catLaunch][i].Turns (maps i) (maps (i + 1)) ∧
        [addLaunch, catLaunch][i].outcome.state.Represents ["o"] (maps (i + 1)) := by
  have hempty : ∀ name, ObjectStore.folderDisk.node? (["o"] ++ [name]) = none := fun _ => rfl
  have hadd : addLaunch.WorksOn ["o"] (256 : UInt64).toNat :=
    ⟨nofun, { directory := some ⟨"/o"⟩ }, rfl, rfl, Disk.leads_of_find rfl ⟨0, rfl⟩⟩
  have hcat : catLaunch.WorksOn ["o"] (256 : UInt64).toNat :=
    ⟨nofun, { directory := some ⟨"/o"⟩ }, rfl, rfl, Disk.leads_of_find rfl ⟨0o700, rfl⟩⟩
  have hruns : ∀ r ∈ [addLaunch, catLaunch], r.WorksOn ["o"] (256 : UInt64).toNat :=
    List.forall_mem_cons.mpr ⟨hadd, List.forall_mem_singleton.mpr hcat⟩
  have hchained : Chained ["o"] ObjectStore.folderDisk [addLaunch, catLaunch] :=
    ⟨fun _ => rfl, fun _ => rfl, trivial⟩
  exact ⟨⟨hempty, hruns, hchained⟩, launches_refine_slotMap hempty hruns hchained⟩

/-- The first of two objects is removed, and the next one takes its slot. -/
example :
    let first := launchOn ObjectStore.folderDisk (.add [("k", "a")] none) [1]
    let second := launchOn first.outcome.state (.add [("k", "b")] none) [2]
    let third := launchOn second.outcome.state (.remove "k" "a") []
    let fourth := launchOn third.outcome.state (.add [("k", "b")] none) [3, 0, 3]
    let fifth := launchOn fourth.outcome.state (.cat "k" "b") []
    [second, third, fourth, fifth].map (·.outcome.output) =
      [Session.written "1\n", Session.written (Status.ok.line "Removed 1 object(s)"),
        Session.written "0\n", [3, 0, 3]] := by
  decide +kernel

end BlobCache
