/-
# SpecEngine.Proofs.Precedence -- which source a setting is taken from

The configuration of a run is put together by four functions that each know some settings by name:
the file that is discovered, the environment, the project options and the options of `run`. What the
environment and the command line give is read into a layer of values, in which a setting that is not
given stays open. Applying a source whose texts can all be read is laying its layer over what is
there, so a setting has the value of the command line, else that of the environment, else that of
the file. The project options are applied once on their own and once with the others, which changes
nothing.

The environment is left out when it overrides nothing. Applied, it would change nothing.
-/
import SpecEngine.CommandLine.Run
import SpecEngine.Proofs.Readings
import SpecEngine.Proofs.Storage

/-! ## Layers -/

namespace SpecEngine.Config

/-- The values that one source gives for settings. -/
structure Layer where
  parallel : Option Bool := none
  streams : Option Nat := none
  strategy : Option Strategy := none
  maxAttempts : Option Nat := none
  retryOnly : Option Tag.Selector := none
  tags : Option Tag.Selector := none
  rows : Option Table.Rows := none
  runnerTimeoutMs : Option Nat := none
  runnerCommand : Option String := none
  deriving DecidableEq, Repr

/-- The values of the environment, if all its texts can be read. -/
def Overrides.layer (o : Overrides) : Except Fault Layer := do
  .ok {
    parallel := o.parallel
    streams := o.streams
    strategy := ← o.strategy.mapM Strategy.parse
    maxAttempts := o.maxAttempts
    retryOnly := ← o.retryOnly.mapM readTags
    tags := ← o.tags.mapM readTags
    rows := ← o.rows.mapM readRows
    runnerTimeoutMs := o.runnerTimeoutMs
    runnerCommand := o.runner }

/-- A configuration with the values of a layer over it. -/
def Settings.under (c : Settings) (l : Layer) : Settings :=
  { c with
    parallel := l.parallel.getD c.parallel
    streams := l.streams.getD c.streams
    strategy := l.strategy.getD c.strategy
    maxAttempts := l.maxAttempts.getD c.maxAttempts
    retryOnly := l.retryOnly.or c.retryOnly
    tags := l.tags.or c.tags
    rows := l.rows.or c.rows
    runnerTimeoutMs := l.runnerTimeoutMs.getD c.runnerTimeoutMs
    runnerCommand := l.runnerCommand.or c.runnerCommand }

/-! ## Changes -/

section Changes

variable {α : Type}

/-- A text that can be read is put like a value. -/
theorem Change.read_eq_set {text : Option String} {parse : String → Except Fault α}
    {value : Option α} (h : text.mapM parse = .ok value) (put : Settings → α → Settings)
    (c : Change) : Change.read text parse put c = Change.set value put c := by
  cases text with
  | none =>
    obtain rfl : none = value := Except.ok.inj h
    obtain ⟨c, _ | fault⟩ := c <;> rfl
  | some s =>
    cases hparse : parse s with
    | error fault =>
      simp [hparse, Functor.map, Except.map] at h
    | ok a =>
      have hvalue : some a = value := by
        simpa [hparse, Functor.map, Except.map] using h
      subst hvalue
      obtain ⟨c, _ | fault⟩ := c <;> simp [Change.read, Change.set, hparse]

/-- A value replaces that of the setting, if there is one. -/
theorem Change.set_getD (value : Option α) (put : Settings → α → Settings) (get : Settings → α)
    (h : ∀ c, put c (get c) = c) (c : Settings) :
    Change.set value put (c, none) = (put c (value.getD (get c)), none) := by
  cases value with
  | none => simp only [Change.set, Option.getD_none, h]
  | some v => rfl

/-- So it does where the setting may have none. -/
theorem Change.set_or (value : Option α) (put : Settings → Option α → Settings)
    (get : Settings → Option α) (h : ∀ c, put c (get c) = c) (c : Settings) :
    Change.set value (fun c v => put c (some v)) (c, none) = (put c (value.or (get c)), none) := by
  cases value with
  | none => simp only [Change.set, Option.none_or, h]
  | some v => rfl

/-- What does not depend on the values that are put stays as it is. -/
theorem Change.set_get {β : Type} (get : Settings → β) {value : Option α}
    {put : Settings → α → Settings} (x : Change) (h : ∀ c v, get (put c v) = get c) :
    get (Change.set value put x).1 = get x.1 := by
  unfold Change.set
  split
  · exact h _ _
  · rfl

/-- So it does where a text is read. -/
theorem Change.read_get {β : Type} (get : Settings → β) {text : Option String}
    {parse : String → Except Fault α} {put : Settings → α → Settings} (x : Change)
    (h : ∀ c v, get (put c v) = get c) : get (Change.read text parse put x).1 = get x.1 := by
  unfold Change.read
  split
  · split
    · exact h _ _
    · rfl
  · rfl

end Changes

theorem Settings.override_projectRoot (c : Settings) (o : Overrides) :
    (c.override o).1.projectRoot = c.projectRoot := by
  simp only [Settings.override, Change.set_get Settings.projectRoot,
    Change.read_get Settings.projectRoot, implies_true]

/-- Whether specifications run in parallel is settled before anything can be at fault. -/
theorem Settings.override_parallel (c : Settings) (o : Overrides) :
    (c.override o).1.parallel = o.parallel.getD c.parallel := by
  simp only [Settings.override, Change.set_get Settings.parallel,
    Change.read_get Settings.parallel, implies_true]
  rw [Change.set_getD o.parallel _ Settings.parallel fun _ => rfl]

/-- Overriding by texts that can be read lays their values over a configuration. -/
theorem Settings.override_eq {o : Overrides} {l : Layer} (h : o.layer = .ok l) (c : Settings) :
    c.override o = (c.under l, none) := by
  obtain ⟨strategy, hstrategy, h⟩ := bind_eq_ok h
  obtain ⟨retryOnly, hretry, h⟩ := bind_eq_ok h
  obtain ⟨tags, htags, h⟩ := bind_eq_ok h
  obtain ⟨rows, hrows, h⟩ := bind_eq_ok h
  obtain rfl := Except.ok.inj h
  rw [Settings.override, Change.set_getD o.parallel _ Settings.parallel fun _ => rfl,
    Change.set_getD o.streams _ Settings.streams fun _ => rfl,
    Change.read_eq_set hstrategy, Change.set_getD strategy _ Settings.strategy fun _ => rfl,
    Change.set_getD o.maxAttempts _ Settings.maxAttempts fun _ => rfl,
    Change.read_eq_set hretry,
    Change.set_or retryOnly (fun c v => { c with retryOnly := v }) Settings.retryOnly fun _ => rfl,
    Change.read_eq_set htags,
    Change.set_or tags (fun c v => { c with tags := v }) Settings.tags fun _ => rfl,
    Change.read_eq_set hrows,
    Change.set_or rows (fun c v => { c with rows := v }) Settings.rows fun _ => rfl,
    Change.set_or o.runner (fun c v => { c with runnerCommand := v }) Settings.runnerCommand
      fun _ => rfl,
    Change.set_getD o.runnerTimeoutMs _ Settings.runnerTimeoutMs fun _ => rfl]
  rfl

/-- Overrides that are none change nothing. -/
theorem Settings.override_of_not_any {o : Overrides} (h : o.any = false) (c : Settings) :
    c.override o = (c, none) := by
  simp only [Overrides.any, Bool.or_eq_false_iff, Option.isSome_eq_false_iff,
    Option.isNone_iff_eq_none] at h
  obtain ⟨⟨⟨⟨⟨⟨⟨⟨⟨hparallel, hstreams⟩, hstrategy⟩, hattempts⟩, hretry⟩, htags⟩, hrows⟩, hrunner⟩,
    htimeout⟩, -⟩ := h
  have hlayer : o.layer = .ok {} := by
    simp only [Overrides.layer, hparallel, hstreams, hstrategy, hattempts, hretry, htags, hrows,
      hrunner, htimeout]
    rfl
  rw [Settings.override_eq hlayer]
  simp [Settings.under]

/-- The configuration of the project's file, or the defaults where there is none. -/
def fileSettings (disk : Disk) (projectRoot : String) (d : Settings) : Except FileFault Settings :=
  match (fileNames.map (Disk.join projectRoot)).find? disk.isFile with
  | none => .ok d
  | some path => Settings.load disk path d

theorem Settings.discover_eq (disk : Disk) (projectRoot : String) (d : Settings) :
    Settings.discover disk projectRoot d =
      (fileSettings disk projectRoot d).map fun c => { c with projectRoot := projectRoot } := by
  unfold Settings.discover fileSettings
  dsimp only
  cases (fileNames.map (Disk.join projectRoot)).find? disk.isFile <;> rfl

end SpecEngine.Config

namespace SpecEngine.CommandLine

open Config (Settings Overrides Layer)

/-- The values of the command line, if all its texts can be read. -/
def RunOptions.layer (o : RunOptions) : Except Config.Fault Layer := do
  .ok {
    parallel := if o.parallel then some true else none
    streams := o.streams
    strategy := o.strategy
    maxAttempts := o.maxAttempts
    retryOnly := ← o.retryOnly.mapM Config.readTags
    tags := ← o.tags.mapM Config.readTags
    rows := ← o.rows.mapM Config.readRows
    runnerTimeoutMs := o.project.runnerTimeout
    runnerCommand := o.project.runner }

/-- Applying options whose texts can be read lays their values over a configuration. -/
theorem RunOptions.apply_eq {o : RunOptions} {l : Layer} (h : o.layer = .ok l) (c : Settings) :
    o.apply c = (c.under l, none) := by
  obtain ⟨retryOnly, hretry, h⟩ := bind_eq_ok h
  obtain ⟨tags, htags, h⟩ := bind_eq_ok h
  obtain ⟨rows, hrows, h⟩ := bind_eq_ok h
  obtain rfl := Except.ok.inj h
  rw [RunOptions.apply,
    Config.Change.set_getD (if o.parallel then some true else none) _ Settings.parallel
      fun _ => rfl,
    Config.Change.set_getD o.streams _ Settings.streams fun _ => rfl,
    Config.Change.set_getD o.strategy _ Settings.strategy fun _ => rfl,
    Config.Change.read_eq_set htags,
    Config.Change.set_or tags (fun c v => { c with tags := v }) Settings.tags fun _ => rfl,
    Config.Change.set_getD o.maxAttempts _ Settings.maxAttempts fun _ => rfl,
    Config.Change.read_eq_set hretry,
    Config.Change.set_or retryOnly (fun c v => { c with retryOnly := v }) Settings.retryOnly
      fun _ => rfl,
    Config.Change.read_eq_set hrows,
    Config.Change.set_or rows (fun c v => { c with rows := v }) Settings.rows fun _ => rfl]
  rfl

/-- The project options are among the options of `run`, so applying them first changes nothing. -/
theorem ProjectOptions.apply_under {o : RunOptions} {l : Layer} (h : o.layer = .ok l)
    (c : Settings) : (o.project.apply c).under l = c.under l := by
  obtain ⟨retryOnly, -, h⟩ := bind_eq_ok h
  obtain ⟨tags, -, h⟩ := bind_eq_ok h
  obtain ⟨rows, -, h⟩ := bind_eq_ok h
  obtain rfl := Except.ok.inj h
  have hrunner : o.project.runner.or (o.project.runner.or c.runnerCommand) =
      o.project.runner.or c.runnerCommand := by
    cases o.project.runner <;> rfl
  have htimeout : o.project.runnerTimeout.getD (o.project.runnerTimeout.getD c.runnerTimeoutMs) =
      o.project.runnerTimeout.getD c.runnerTimeoutMs := by
    cases o.project.runnerTimeout <;> rfl
  simp only [Settings.under, ProjectOptions.apply, hrunner, htimeout]

/-! ## The configuration of a run -/

/-- A configuration with what the environment overrides, if it overrides anything. -/
def overridden (overrides : Overrides) (c : Settings) : Except Stop Settings :=
  if overrides.any then settle (c.override overrides) else .ok c

/-- Leaving out an environment that overrides nothing drops nothing. -/
theorem overridden_eq (overrides : Overrides) (c : Settings) :
    overridden overrides c = settle (c.override overrides) := by
  rw [overridden]
  cases hany : overrides.any with
  | true => rfl
  | false =>
    rw [Settings.override_of_not_any hany]
    rfl

/-- The configuration of a run: what is found in the project or left to the defaults `d`, the
environment, the project options and the options of `run`. -/
def configured (disk : Disk) (d : Settings) (overrides : Overrides) (o : RunOptions) :
    Except Stop Settings := do
  let c ← (Settings.discover disk o.project.projectRoot d).mapError .file
  let c ← overridden overrides c
  settle (o.apply (o.project.apply c))

/-- What a run settles after its configuration. -/
def planned {σ : Type} (w : World σ) (o : RunOptions) (c : Settings) : Except Stop Prepared := do
  c.validate.mapError .settings
  let manifest ← readManifest w.disk c.projectRoot
  let tree ← readTree w.disk o.tree
  let work ← chooseWork w o c manifest tree
  .ok { projectRoot := c.projectRoot, parsedCleanly := tree.parsedCleanly, work := work }

theorem prepare_eq {σ : Type} (w : World σ) (o : RunOptions) :
    prepare w o = configured w.disk (.initial w.processors) (.ofEnvironment w.environment) o >>=
      planned w o := by
  have hok {α β : Type} (a : α) (f : α → Except Stop β) : (Except.ok a >>= f) = f a := rfl
  unfold prepare baseSettings configured planned overridden
  simp only [bind_assoc]
  refine bind_congr fun c => ?_
  cases (Overrides.ofEnvironment w.environment).any with
  | false => simp only [Bool.false_eq_true, if_false, hok]
  | true => simp only [if_true, bind_assoc, hok]

/-- Settings are taken from the command line, else from the environment, else from the project's
file or the defaults, whatever these are. Only the file says whether runners have several threads,
and only the command line where the project is. The environment is left out when it overrides
nothing, which drops nothing, and it is with this configuration that a run goes on. -/
theorem settings_precedence {disk : Disk} {d : Settings} {overrides : Overrides} {o : RunOptions}
    {file : Settings} {env line : Layer}
    (hfile : Config.fileSettings disk o.project.projectRoot d = .ok file)
    (henv : overrides.layer = .ok env) (hline : o.layer = .ok line) :
    configured disk d overrides o = .ok {
        projectRoot := o.project.projectRoot
        parallel := line.parallel.getD (env.parallel.getD file.parallel)
        streams := line.streams.getD (env.streams.getD file.streams)
        strategy := line.strategy.getD (env.strategy.getD file.strategy)
        maxAttempts := line.maxAttempts.getD (env.maxAttempts.getD file.maxAttempts)
        retryOnly := line.retryOnly.or (env.retryOnly.or file.retryOnly)
        tags := line.tags.or (env.tags.or file.tags)
        rows := line.rows.or (env.rows.or file.rows)
        runnerTimeoutMs :=
          line.runnerTimeoutMs.getD (env.runnerTimeoutMs.getD file.runnerTimeoutMs)
        runnerCommand := line.runnerCommand.or (env.runnerCommand.or file.runnerCommand)
        runnerMultithreaded := file.runnerMultithreaded } ∧
      (∀ c, overridden overrides c = settle (c.override overrides)) ∧
      ∀ {σ : Type} (w : World σ),
        prepare w o = configured w.disk (.initial w.processors) (.ofEnvironment w.environment) o >>=
          planned w o := by
  refine ⟨?_, overridden_eq overrides, fun w => prepare_eq w o⟩
  rw [configured, Settings.discover_eq, hfile]
  show overridden overrides _ >>= _ = _
  rw [overridden_eq, Settings.override_eq henv]
  show settle (o.apply (o.project.apply _)) = _
  rw [RunOptions.apply_eq hline, ProjectOptions.apply_under hline]
  rfl

/-- A configuration file in JSON. -/
def projectFile : String :=
  "\x7b\"project_root\":\"/q\",\"number_of_streams\":4,\"max_retries_count\":3," ++
    "\"tags_to_filter\":\"smoke\",\"runner_multithreaded\":true\x7d"

/-- A project that has only this file. -/
def configuredProject : Disk where
  root := "/p"
  entries := [(["steprun.json"], .file projectFile.toUTF8)]

/-- An environment with a strategy, tags and streams of its own. -/
def layeredOverrides : Overrides :=
  { streams := some 3, strategy := some " Lazy ", tags := some "wip", logLevel := some "info" }

/-- Options of `run` with streams and tags of their own. -/
def layeredOptions : RunOptions where
  tree := "tree.json"
  project := { projectRoot := "/p", runner := some "python run.py" }
  parallel := true
  streams := some 2
  tags := some "!slow"

/-- The strategy is that of the environment, the streams and the tags are those of the command
line, and the attempts are those of the file. -/
theorem settings_precedence_layered :
    configured configuredProject (.initial 8) layeredOverrides layeredOptions = .ok {
        projectRoot := "/p"
        parallel := true
        streams := 2
        strategy := .lazy
        maxAttempts := 3
        tags := some ⟨"!slow", .not (.tag "slow")⟩
        runnerCommand := some "python run.py"
        runnerMultithreaded := true } := by
  have hfile : Config.fileSettings configuredProject layeredOptions.project.projectRoot
      (.initial 8) = .ok {
      projectRoot := "/q"
      streams := 4
      maxAttempts := 3
      tags := some ⟨"smoke", .tag "smoke"⟩
      runnerMultithreaded := true } := by
    have hfound : (Config.fileNames.map (Disk.join "/p")).find? configuredProject.isFile =
        some "/p/steprun.json" := by
      decide +kernel
    have hplace : configuredProject.locate "/p/steprun.json" = .ok ["steprun.json"] := by
      decide +kernel
    have hread : configuredProject.readText "/p/steprun.json" = .ok projectFile :=
      Disk.readText_eq_ok.mpr ⟨_, _, hplace, rfl, Disk.fromUTF8?_toUTF8 projectFile⟩
    have hjson : Json.readText (Settings.shape (.initial 8)) projectFile = some {
        projectRoot := "/q"
        streams := 4
        maxAttempts := 3
        tags := some ⟨"smoke", .tag "smoke"⟩
        runnerMultithreaded := true } := by
      decide +kernel
    have hname : Config.namesYaml "/p/steprun.json" = false := by decide +kernel
    show Config.fileSettings configuredProject "/p" (.initial 8) = _
    simp only [Config.fileSettings, hfound, Settings.load, hread, hname, hjson]
    rfl
  have henv : layeredOverrides.layer = .ok {
      streams := some 3, strategy := some .lazy, tags := some ⟨"wip", .tag "wip"⟩ } := by
    decide +kernel
  have hline : layeredOptions.layer = .ok {
      parallel := some true
      streams := some 2
      tags := some ⟨"!slow", .not (.tag "slow")⟩
      runnerCommand := some "python run.py" } := by
    decide +kernel
  exact (settings_precedence hfile henv hline).1

end SpecEngine.CommandLine
