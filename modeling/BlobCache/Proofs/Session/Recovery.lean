import BlobCache.CommandLine.Run
import BlobCache.Proofs.Config.Saving

/-!
# A configuration file that cannot be loaded

Every run of the program loads its settings before it looks at its command. Hence a configuration
file that is refused refuses every command alike, and nothing on the disk changes
(`Invocation.run_of_load_error`), however often and with whatever commands the program is run
(`Invocation.outcome_of_mem_series`). This holds for the command that writes the default settings
over the file, too, although the error tells the user to run it: it repairs exactly the files that
can be loaded as they are (`Invocation.init_recovers_iff`).
-/

namespace BlobCache.Invocation

variable {i : Invocation} {env : Environment} {input : Bytes} {d : Disk} {p : Path}
  {loc : Location} {data : Bytes}

/-! ### Runs that fail to load their settings -/

/-- What cannot be loaded is the end of every run. -/
theorem run_of_load_error {e : CacheError}
    (h : Settings.load (i.configPath env) d = ⟨.error e, d, []⟩) (input : Bytes) :
    i.run env input d = ⟨.error e, d, []⟩ := by
  have hunlogged : (Settings.load (i.configPath env)).unlogged d = ⟨.error e, d, []⟩ := by
    rw [Action.unlogged, h]
  rw [run, Action.bind_apply, hunlogged]

/-- Runs of the program one after the other, each with its environment and its input. -/
def series : List (Invocation × Environment × Bytes) → Disk → List (Outcome Disk Bytes)
  | [], _ => []
  | (i, env, input) :: rest, d =>
    let o := i.run env input d
    o :: series rest o.state

/-- No run changes what the others find. -/
theorem outcome_of_mem_series {e : CacheError} (h : Settings.load p d = ⟨.error e, d, []⟩)
    {runs : List (Invocation × Environment × Bytes)} (hruns : ∀ r ∈ runs, r.1.configPath r.2.1 = p)
    {o : Outcome Disk Bytes} (ho : o ∈ series runs d) : o = ⟨.error e, d, []⟩ := by
  induction runs with
  | nil => cases ho
  | cons r rest ih =>
    obtain ⟨i, env, input⟩ := r
    have hpath : i.configPath env = p := hruns _ List.mem_cons_self
    have hrun : i.run env input d = ⟨.error e, d, []⟩ := run_of_load_error (hpath ▸ h) input
    rw [series, hrun, List.mem_cons] at ho
    obtain rfl | ho := ho
    · rfl
    · exact ih (fun r hr => hruns r (List.mem_cons_of_mem _ hr)) ho

/-! ### Writing the default settings -/

/-- The options of an invocation only replace settings. -/
private theorem exists_override (i : Invocation) (settings : Settings) (d : Disk) :
    ∃ settings' log, i.override settings d = ⟨.ok settings', d, log⟩ := by
  rw [override]
  cases i.directory with
  | none => exact ⟨_, _, rfl⟩
  | some directory => exact ⟨_, _, rfl⟩

/-- By force, the default settings are written over a file, and nothing else changes. -/
private theorem writeDefaults_of_find (hfind : d.find p = .ok loc) (hloc : ¬d.HasFolder loc) :
    ∃ d' log, d.KeepsFolders d' ∧
      (∀ l, d'.node? l =
        if l = loc then some (.file (Utf8.encode ({} : Settings).lines)) else d.node? l) ∧
      Session.writeDefaults p true d = ⟨.ok (Session.written
        (Status.ok.line s!"Configuration initialized ({p.text})")), d', log⟩ := by
  obtain ⟨d', hkeeps, hnodes, hsave⟩ :=
    Settings.save_of_find hfind hloc Settings.default_le_greatestNumber
  refine ⟨d', [⟨.info, "Configuration saved to " ++ p.text⟩], hkeeps, hnodes, ?_⟩
  rw [Session.writeDefaults, Action.bind_apply, Action.get_apply]
  dsimp only
  rw [Bool.not_true, Bool.and_false, if_neg Bool.false_ne_true, Action.bind_apply, hsave]
  rfl

/-- A run whose settings are known carries out its command. -/
theorem run_of_load_ok {settings : Settings} {log : List LogEvent}
    (h : Settings.load (i.configPath env) d = ⟨.ok settings, d, log⟩) (input : Bytes) :
    ∃ settings', (i.run env input d).result =
        (i.perform { environment := env, input, settings := settings' } d).result ∧
      (i.run env input d).state =
        (i.perform { environment := env, input, settings := settings' } d).state := by
  obtain ⟨settings', log', hoverride⟩ := exists_override i settings d
  have hunlogged : (Settings.load (i.configPath env)).unlogged d = ⟨.ok settings, d, []⟩ := by
    rw [Action.unlogged, h]
  refine ⟨settings', ?_⟩
  rw [run, Action.bind_apply, hunlogged]
  dsimp only
  rw [Action.logUpTo, Action.bind_apply, hoverride]
  exact ⟨rfl, rfl⟩

/-- With settings that can be loaded, the default settings are written over them. -/
theorem run_init_of_load_ok {settings : Settings} {log : List LogEvent}
    (h : Settings.load (i.configPath env) d = ⟨.ok settings, d, log⟩)
    (hi : i.command = .config (some (.init true)))
    (hfind : d.find (i.configPath env) = .ok loc) (hloc : ¬d.HasFolder loc) (input : Bytes) :
    (i.run env input d).result = .ok (Session.written
        (Status.ok.line s!"Configuration initialized ({(i.configPath env).text})")) ∧
      (∀ l, (i.run env input d).state.node? l =
        if l = loc then some (.file (Utf8.encode ({} : Settings).lines)) else d.node? l) ∧
      (Settings.load (i.configPath env) (i.run env input d).state).result = .ok {} := by
  obtain ⟨settings', hresult, hstate⟩ := run_of_load_ok h input
  obtain ⟨d', log', hkeeps, hnodes, hwrite⟩ := writeDefaults_of_find hfind hloc
  have hperform : i.perform { environment := env, input, settings := settings' } =
      Session.writeDefaults (i.configPath env) true := by
    rw [perform, hi]
    rfl
  have hfile : d'.node? loc = some (.file (Utf8.encode ({} : Settings).lines)) := by
    rw [hnodes, if_pos rfl]
  rw [hresult, hstate, hperform, hwrite]
  refine ⟨rfl, hnodes, ?_⟩
  rw [Settings.load_of_file (hkeeps.find hfind) hfile,
    Settings.ofBytes_lines _ Settings.default_le_greatestNumber]

/-- **Recovery.** Exactly the configuration files that can be loaded are written anew by force: then
the program says so, the file alone is replaced, and what is loaded from it are the default settings
(`run_init_of_load_ok`). A file that is refused refuses the command as well with the same error, and
so it does after any other runs; they all leave the disk as it is (`run_of_load_error`,
`outcome_of_mem_series`). Which of the two a file is depends on its bytes alone
(`Settings.load_of_file`). -/
theorem init_recovers_iff (hi : i.command = .config (some (.init true)))
    (hpath : i.configPath env = p) (hfind : d.find p = .ok loc)
    (hfile : d.node? loc = some (.file data)) (input : Bytes) :
    ((∃ output, (i.run env input d).result = .ok output) ↔
      ∃ settings, (Settings.load p d).result = .ok settings) ∧
    (∀ settings, (Settings.load p d).result = .ok settings →
      (i.run env input d).result = .ok (Session.written
          (Status.ok.line s!"Configuration initialized ({p.text})")) ∧
        (∀ l, (i.run env input d).state.node? l =
          if l = loc then some (.file (Utf8.encode ({} : Settings).lines)) else d.node? l) ∧
        (Settings.load p (i.run env input d).state).result = .ok {}) ∧
    ∀ e, (Settings.load p d).result = .error e →
      i.run env input d = ⟨.error e, d, []⟩ ∧
        ∀ runs : List (Invocation × Environment × Bytes),
          (∀ r ∈ runs, r.1.configPath r.2.1 = p) → ∀ o ∈ series runs d, o = ⟨.error e, d, []⟩ := by
  subst hpath
  have hload := Settings.load_of_file hfind hfile
  rw [hload]
  cases hdata : Settings.ofBytes (i.configPath env) data with
  | ok settings =>
    rw [hdata] at hload
    have hinit := run_init_of_load_ok hload hi hfind (Disk.not_hasFolder_of_file hfile) input
    exact ⟨iff_of_true ⟨_, hinit.1⟩ ⟨settings, rfl⟩, fun _ _ => hinit, nofun⟩
  | error e =>
    rw [hdata] at hload
    have hrun := run_of_load_error hload input
    refine ⟨iff_of_false ?_ nofun, nofun, fun e' he => ?_⟩
    · rintro ⟨output, houtput⟩
      rw [hrun] at houtput
      cases houtput
    · obtain rfl := Except.error.inj he
      exact ⟨hrun, fun runs hruns o ho => outcome_of_mem_series hload hruns ho⟩

/-- A disk with a configuration file. -/
def configDisk (text : String) : Disk :=
  Disk.empty.put ["c"] (.file (Utf8.encode text.toList))

/-- What the advice asks for, with the configuration file named. -/
def initInvocation : Invocation where
  command := .config (some (.init true))
  verbosity := 0
  configFile := some ⟨"/c"⟩
  directory := none

/-- A file that breaks off refuses the command that would repair it, and an empty one does not. -/
theorem init_recovers_iff_broken :
    (initInvocation.command = .config (some (.init true)) ∧
      initInvocation.configPath {} = ⟨"/c"⟩ ∧
      ∀ text, (configDisk text).find ⟨"/c"⟩ = .ok ["c"] ∧
        (configDisk text).node? ["c"] = some (.file (Utf8.encode text.toList))) ∧
      initInvocation.run {} [] (configDisk "[cache") =
        ⟨.error (.configInvalid ⟨"/c"⟩ "TOML parse error"), configDisk "[cache", []⟩ ∧
      (Settings.load ⟨"/c"⟩ (initInvocation.run {} [] (configDisk "")).state).result = .ok {} := by
  have hfind : ∀ text, (configDisk text).find ⟨"/c"⟩ = .ok ["c"] := fun _ => rfl
  have hfile : ∀ text, (configDisk text).node? ["c"] =
      some (.file (Utf8.encode text.toList)) := by
    intro text
    rw [configDisk, Disk.node?_put, if_pos rfl]
  have hbroken : (Settings.load ⟨"/c"⟩ (configDisk "[cache")).result =
      .error (.configInvalid ⟨"/c"⟩ "TOML parse error") := by
    decide +kernel
  have hempty : (Settings.load ⟨"/c"⟩ (configDisk "")).result = .ok {} := by decide +kernel
  have hinit := fun text => @init_recovers_iff initInvocation {} (configDisk text) ⟨"/c"⟩ ["c"] _
    rfl rfl (hfind text) (hfile text) []
  exact ⟨⟨rfl, rfl, fun text => ⟨hfind text, hfile text⟩⟩, ((hinit _).2.2 _ hbroken).1,
    ((hinit _).2.1 _ hempty).2.2⟩

/-- The advice does not help: where loading fails because the file breaks off, the command that the
advice names fails with the same error, and the file is still there. -/
theorem init_keeps_broken_file :
    (configDisk "[cache\ncapacity_hint = ").find ⟨"/c"⟩ = .ok ["c"] ∧
      (configDisk "[cache\ncapacity_hint = ").readFile ⟨"/c"⟩ =
        .ok (Utf8.encode "[cache\ncapacity_hint = ".toList) ∧
      (Settings.load ⟨"/c"⟩ (configDisk "[cache\ncapacity_hint = ")).result =
        .error (.configInvalid ⟨"/c"⟩ "TOML parse error") ∧
      (CacheError.configInvalid ⟨"/c"⟩ "TOML parse error").hint? =
        some "Run: labelcache config init --force" ∧
      ofWords {} ["--config", "/c", "config", "init", "--force"] = .ok initInvocation ∧
      (initInvocation.run {} [] (configDisk "[cache\ncapacity_hint = ")).result =
        .error (.configInvalid ⟨"/c"⟩ "TOML parse error") ∧
      (initInvocation.run {} [] (configDisk "[cache\ncapacity_hint = ")).state =
        configDisk "[cache\ncapacity_hint = " := by
  decide +kernel

end BlobCache.Invocation
