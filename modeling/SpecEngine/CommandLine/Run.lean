/-
# SpecEngine.CommandLine.Run -- carrying out commands

A command is carried out in a world: a disk, an environment, the number of processors, and a way to
start runners. It prints lines, comes to a verdict or stops, and may change the disk. Everything
that can stop `run` before a runner is needed is settled by `prepare`, which changes nothing; after
that the steps are validated on a runner of their own, the specifications are run, and both records
are written. A run that finds nothing to do writes the records of an empty run.
-/

import SpecEngine.CommandLine.Options
import SpecEngine.Config.File
import SpecEngine.Config.Manifest
import SpecEngine.Engine.Suite
import SpecEngine.Engine.Validation
import SpecEngine.Record.Store
import SpecEngine.Report.Console
import SpecEngine.Runner.Command

namespace SpecEngine.CommandLine

open Config (Settings FileFault ManifestFault Manifest Overrides)
open Engine (Plan Occurrence)
open Item (Collection BuildErrors Tree RunArg)
open Record (Status Failures StoreFault)
open Result (SuiteResult Verdict)
open Runner (Fleet)

variable {σ : Type}

/-- What a command is carried out in. -/
structure World (σ : Type) where
  disk : Disk
  environment : Config.Lookup
  /-- The runners that a command starts, with the time that they have for an answer. -/
  runners : Runner.Command → Nat → Fleet σ
  processors : Nat := 1
  /-- The order in which streams claim specifications. -/
  order : Nat → Nat := fun _ => 0

/-- Why a command stops. -/
inductive Stop where
  | usage (fault : Fault)
  | file (fault : FileFault)
  | settings (fault : Config.Fault)
  | manifest (path : String) (fault : ManifestFault)
  | treeUnreadable (path : String)
  | treeMalformed (path : String)
  | noRunner
  | invalidRunner (line : String)
  /-- The runner that validates steps does not start. -/
  | runnerNotStarted
  | record (fault : StoreFault)
  /-- The task that carries out the command breaks down together with a runner. -/
  | brokenDown
  /-- The sum of the failure counters overflows. -/
  | overflow
  deriving DecidableEq, Repr

/-- The text of a stop, where it has one that is neither that of a JSON reader nor help. -/
def Stop.text? : Stop → Option String
  | .usage _ => none
  | .file fault => some fault.text
  | .settings fault => some fault.text
  | .manifest path fault =>
    fault.reason?.map fun reason => "failed to read project manifest " ++ path ++ ": " ++ reason
  | .treeUnreadable path => some ("Failed to read item tree " ++ path)
  | .treeMalformed path => some ("Failed to parse item tree " ++ path)
  | .noRunner => some ("No runner command configured. Use --runner, STEPRUN_RUNNER or " ++
      "runner_command in steprun.yaml")
  | .invalidRunner line => some ("Invalid runner command '" ++ line ++ "'")
  | .runnerNotStarted => some "Failed to start runner for validation"
  | .record fault => fault.text?
  | .brokenDown | .overflow => none

/-- The exit code of a stop. -/
def Stop.exitCode : Stop → Nat
  | .usage fault => fault.exitCode
  | .brokenDown | .overflow => 101
  | _ => 1

/-- How a command ends. -/
structure Ending (σ : Type) where
  disk : Disk
  /-- The printed texts, each with a line break after it. -/
  printed : List String := []
  verdict : Except Stop Verdict
  /-- The result whose records were written. -/
  recorded : Option SuiteResult := none
  /-- The runners that were started, in their last states. -/
  runners : List σ := []

/-- The exit code: of the verdict, or of the stop. -/
def Ending.exitCode (e : Ending σ) : Nat :=
  match e.verdict with
  | .ok verdict => verdict.code
  | .error stop => stop.exitCode

/-- The printed lines. -/
def Ending.lines (e : Ending σ) : List String :=
  Text.outputLines (String.join (e.printed.map (· ++ "\n")))

/-! ## Preparation -/

/-- A change as a configuration or its fault. -/
def settle : Config.Change → Except Stop Settings
  | (c, none) => .ok c
  | (_, some fault) => .error (.settings fault)

/-- The configuration from the project's file, the environment and the project options. -/
def baseSettings (w : World σ) (o : ProjectOptions) : Except Stop Settings := do
  let c ← (Settings.discover w.disk o.projectRoot (.initial w.processors)).mapError .file
  let overrides := Overrides.ofEnvironment w.environment
  let c ← if overrides.any then settle (c.override overrides) else .ok c
  .ok (o.apply c)

/-- Reads an item tree. -/
def readTree (disk : Disk) (path : String) : Except Stop Tree :=
  match disk.readText path with
  | .error _ => .error (.treeUnreadable path)
  | .ok text =>
    match Tree.ofText text with
    | some tree => .ok tree
    | none => .error (.treeMalformed path)

/-- Reads the manifest of a project. -/
def readManifest (disk : Disk) (projectRoot : String) : Except Stop Manifest :=
  (Manifest.load disk projectRoot).mapError
    (.manifest (Disk.join projectRoot Manifest.fileName))

/-- The configured runner command, started in the project root. -/
def runnerCommand (c : Settings) : Except Stop Runner.Command :=
  match c.runnerCommand with
  | none => .error .noRunner
  | some line =>
    match Runner.Command.parse line with
    | none => .error (.invalidRunner line)
    | some command => .ok (command.inDirectory c.projectRoot)

/-- The work of `run`. -/
inductive Work where
  /-- What failed in the last run should be run again, but nothing did. -/
  | nothingFailed
  | nothingFound
  | ready (plan : Plan) (command : Runner.Command)

/-- What `run` has settled before anything is started. -/
structure Prepared where
  projectRoot : String
  parsedCleanly : Bool
  work : Work

/-- Plans a run of a collection. -/
def planWork (w : World σ) (o : RunOptions) (c : Settings) (manifest : Manifest)
    (errors : BuildErrors) (specs : Collection) : Except Stop Work := do
  let command ← runnerCommand c
  let plan ← (Plan.make manifest specs c (.builtIn w.disk c.projectRoot)).mapError .settings
  .ok (if plan.specs.isEmpty then .nothingFound
    else .ready { plan with buildErrors := errors, args := o.args } command)

/-- The work of a run over an item tree, or over what failed in it when it last ran. -/
def chooseWork (w : World σ) (o : RunOptions) (c : Settings) (manifest : Manifest) (tree : Tree) :
    Except Stop Work := do
  if o.failed then
    let failures ← (Failures.read w.disk c.projectRoot).mapError .record
    let specs := failures.restrict tree.specs
    if failures.isEmpty then .ok .nothingFailed
    else planWork w o { c with parallel := false } manifest tree.buildErrors specs
  else planWork w o c manifest tree.buildErrors tree.specs

/-- Settles everything that can stop a run before a runner is needed. -/
def prepare (w : World σ) (o : RunOptions) : Except Stop Prepared := do
  let c ← baseSettings w o.project
  let c ← settle (o.apply c)
  c.validate.mapError .settings
  let manifest ← readManifest w.disk c.projectRoot
  let tree ← readTree w.disk o.tree
  let work ← chooseWork w o c manifest tree
  .ok { projectRoot := c.projectRoot, parsedCleanly := tree.parsedCleanly, work := work }

/-! ## Running -/

/-- An ending that leaves the disk as it is. -/
def stopped (w : World σ) (stop : Stop) : Ending σ := { disk := w.disk, verdict := .error stop }

/-- What is printed once a run is recorded, and what stops the printing. -/
structure Account where
  printed : List String := []
  stop : Option Stop := none

/-- Records a result, gives account of it and ends with the verdict on it. -/
def record (w : World σ) (p : Prepared) (result : SuiteResult) (printed : List String)
    (account : Account) (runners : List σ) : Ending σ :=
  match Record.writeRun w.disk p.projectRoot result with
  | (disk, some fault) =>
    { disk := disk, printed := printed, verdict := .error (.record fault), runners := runners }
  | (disk, none) =>
    { disk := disk
      printed := printed ++ account.printed
      verdict := match account.stop with
        | some stop => .error stop
        | none => .ok (Result.verdict result p.parsedCleanly)
      recorded := some result
      runners := runners }

/-- Asks a runner about the steps of a collection and ends it. -/
def validateOn (fleet : Fleet σ) (specs : Collection) : Except Stop (BuildErrors × σ) :=
  match fleet.start 0 with
  | .error _ => .error .runnerNotStarted
  | .ok runner =>
    let (errors, session) :=
      Engine.validateSteps fleet.toBehavior specs { stream := 0, runner := runner }
    .ok (errors, (fleet.kill session.runner).2)

/-- The account of a run. -/
def account (style : Report.Style) (result : SuiteResult) : Account :=
  let failure := match result.failure with
    | some failure => [failure.message]
    | none => []
  match style.summary? (Status.ofSuite result) result.executionTimeMs with
  | some summary => { printed := failure ++ ["\n" ++ summary] }
  | none => { printed := failure, stop := some .overflow }

/-- Runs a plan. -/
def runPlan (w : World σ) (p : Prepared) (plan : Plan) (command : Runner.Command) : Ending σ :=
  let fleet := w.runners command plan.settings.runnerTimeoutMs
  match validateOn fleet plan.specs with
  | .error stop => stopped w stop
  | .ok (errors, validator) =>
    let plan := { plan with buildErrors := plan.buildErrors.merge errors }
    match Engine.execute fleet plan w.order with
    | none => { stopped w .brokenDown with runners := [validator] }
    | some run =>
      let style : Report.Style := { colors := true, showStream := plan.streamCount > 1 }
      record w p run.result (run.events.filterMap style.eventText?) (account style run.result)
        (validator :: run.streams.filterMap (·.runner))

/-- Carries out `run`. -/
def run (w : World σ) (o : RunOptions) : Ending σ :=
  match prepare w o with
  | .error stop => stopped w stop
  | .ok p =>
    match p.work with
    | .nothingFailed => record w p .nothing ["No failed scenarios recorded, nothing to rerun"] {} []
    | .nothingFound => record w p .nothing ["No specifications found"] {} []
    | .ready plan command => runPlan w p plan command

/-! ## The other commands -/

/-- The configuration, tree and runner command for `validate`. -/
def prepareValidation (w : World σ) (tree : String) (o : ProjectOptions) :
    Except Stop (Settings × Tree) := do
  let c ← baseSettings w o
  c.validate.mapError .settings
  .ok (c, ← readTree w.disk tree)

/-- The verdict of a validation. -/
def validationVerdict (tree : Tree) (errors : BuildErrors) : Verdict :=
  if !tree.parsedCleanly then .parseFailed
  else if errors.hasErrors then .validationFailed
  else .success

/-- Carries out `validate`. -/
def validate (w : World σ) (tree : String) (o : ProjectOptions) : Ending σ :=
  match prepareValidation w tree o with
  | .error stop => stopped w stop
  | .ok (c, tree) =>
    let parseTexts := tree.parseErrors.map (·.text)
    match runnerCommand c with
    | .error stop => { stopped w stop with printed := parseTexts }
    | .ok command =>
      match validateOn (w.runners command c.runnerTimeoutMs) tree.specs with
      | .error stop => { stopped w stop with printed := parseTexts }
      | .ok (errors, validator) =>
        let verdict := validationVerdict tree errors
        { disk := w.disk
          printed := parseTexts ++ errors.all.map (·.text) ++
            (if verdict = .success then ["No errors found."] else [])
          verdict := .ok verdict
          runners := [validator] }

/-- Carries out `status`. -/
def showStatus (w : World σ) (projectRoot : String) (json : Bool) : Ending σ :=
  match Status.read w.disk projectRoot with
  | .error fault => stopped w (.record fault)
  | .ok none =>
    { disk := w.disk
      printed := ["No execution status found in " ++ projectRoot ++ ". Run steprun run first."]
      verdict := .ok .executionFailed }
  | .ok (some status) =>
    { disk := w.disk
      printed := if json then [status.toJson.pretty] else (status.summaryLines 0).take 2
      verdict := if status.overflows then .error .overflow else .ok status.verdict }

/-- Carries out a command. -/
def Command.carryOut (w : World σ) : Command → Ending σ
  | .run o => CommandLine.run w o
  | .validate tree o => CommandLine.validate w tree o
  | .status projectRoot json => showStatus w projectRoot json
  | .environment =>
    { disk := w.disk, printed := Config.environmentHelp, verdict := .ok .success }

/-- The project root that a command works in. -/
def Command.projectRoot? : Command → Option String
  | .run o => some o.project.projectRoot
  | .validate _ o => some o.projectRoot
  | .status projectRoot _ => some projectRoot
  | .environment => none

/-- The item tree that a command reads. -/
def Command.tree? : Command → Option String
  | .run o => some o.tree
  | .validate tree _ => some tree
  | .status _ _ | .environment => none

/-- The files of a command that are known by their names: the item tree, and below the project root
the configuration, the manifest and the records. -/
def Command.files (c : Command) : List String :=
  c.tree?.toList ++ c.projectRoot?.toList.flatMap fun root =>
    (Config.fileNames ++ [Manifest.fileName]).map (Disk.join root) ++
      [Record.statusPath root, Record.failuresPath root]

/-- The name and version of the program. -/
def versionText : String := "steprun 0.1.0"

/-- Carries out a command line without the program's name. -/
def carryOut (w : World σ) (args : List String) : Ending σ :=
  match Invocation.parse args with
  | .error fault =>
    { stopped w (.usage fault) with printed := if fault = .version then [versionText] else [] }
  | .ok invocation => invocation.command.carryOut w

end SpecEngine.CommandLine
