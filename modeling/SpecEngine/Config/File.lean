/-
# SpecEngine.Config.File -- the project's configuration file

A project may keep its configuration in a file in its root, in YAML or in JSON. The first of three
names that is a file counts. Whatever the file says about the project root, the root is the
directory in which the file was looked for. What the file leaves out is taken from the defaults `d`,
and a YAML file without a document gives nothing but them.
-/

import SpecEngine.Config.Basic
import SpecEngine.Disk
import SpecEngine.Yaml.Scheme

namespace SpecEngine.Config

open Yaml (Scheme entryOr)

/-- Why a configuration file gives no configuration. -/
inductive FileFault where
  | unreadable (path : String)
  | malformedYaml
  | malformedJson
  deriving DecidableEq, Repr

/-- The text of a fault. -/
def FileFault.text : FileFault → String
  | .unreadable path => "Failed to read config file " ++ path
  | .malformedYaml => "Failed to parse YAML config"
  | .malformedJson => "Failed to parse JSON config"

/-- The names of configuration files, in the order in which they are looked for. -/
def fileNames : List String := ["steprun.yaml", "steprun.yml", "steprun.json"]

/-- Reads a YAML map as a configuration. -/
def Settings.ofEntries (d : Settings) (entries : List (String × Yaml.Node)) : Option Settings := do
  let tags : Scheme (Option Tag.Selector) :=
    .option (.parsed fun s => (Tag.Selector.parse s).toOption)
  let rows : Scheme (Option Table.Rows) := .option (.parsed fun s => (Table.Rows.parse s).toOption)
  let strategy : Scheme Strategy :=
    .name [(Strategy.word .eager, .eager), (Strategy.word .lazy, .lazy)]
  some {
    projectRoot := ← entryOr entries "project_root" .string d.projectRoot
    parallel := ← entryOr entries "parallel" .bool d.parallel
    streams := ← entryOr entries "number_of_streams" (.below Text.Decimal.limit64) d.streams
    strategy := ← entryOr entries "strategy" strategy d.strategy
    maxAttempts := ← entryOr entries "max_retries_count" (.below Text.Decimal.limit32) d.maxAttempts
    retryOnly := ← entryOr entries "retry_only_tags" tags d.retryOnly
    tags := ← entryOr entries "tags_to_filter" tags d.tags
    rows := ← entryOr entries "table_rows" rows d.rows
    runnerTimeoutMs := ← entryOr entries "runner_timeout_ms" (.below Text.Decimal.limit64)
      d.runnerTimeoutMs
    runnerCommand := ← entryOr entries "runner_command" (.option .string) d.runnerCommand
    runnerMultithreaded := ← entryOr entries "runner_multithreaded" .bool d.runnerMultithreaded }

/-- Reads a YAML text as a configuration. -/
def Settings.ofYaml (d : Settings) (s : String) : Option Settings := do
  match ← Yaml.parse s with
  | none => some d
  | some n => Settings.ofEntries d (← n.entries?)

/-- The name that a path ends in. -/
def lastName (path : String) : String := ((Text.fields '/' path).getLast?).getD ""

/-- Whether a path names a YAML file: its name ends so, and begins with something else. -/
def namesYaml (path : String) : Bool :=
  let name := lastName path
  [".yaml", ".yml"].any fun ending => name.endsWith ending && name != ending

/-- Reads a configuration file. -/
def Settings.load (disk : Disk) (path : String) (d : Settings := {}) : Except FileFault Settings :=
  match disk.readText path with
  | .error _ => .error (.unreadable path)
  | .ok text =>
    if namesYaml path then
      match Settings.ofYaml d text with
      | some c => .ok c
      | none => .error .malformedYaml
    else match Json.readText (Settings.shape d) text with
      | some c => .ok c
      | none => .error .malformedJson

/-- Reads the configuration of a project. -/
def Settings.discover (disk : Disk) (projectRoot : String) (d : Settings := {}) :
    Except FileFault Settings :=
  let paths := fileNames.map (Disk.join projectRoot)
  match paths.find? disk.isFile with
  | none => .ok { d with projectRoot := projectRoot }
  | some path => (Settings.load disk path d).map fun c => { c with projectRoot := projectRoot }

end SpecEngine.Config
