/-
# SpecEngine.Runner.Message -- what engine and runner say to each other

A runner executes steps outside this program. It is spoken to in messages: announcements of what
begins and ends, requests to execute or validate a step, and its answers. On the wire a message is
one line, an object whose `messageType` tells the variant, and it carries the number of the request
it belongs to. Fields with a default may be left out by the sender; they are always written.
-/

import SpecEngine.Item.Spec

namespace SpecEngine.Runner

open Json (Shape Value)

/-- What a runner reports about a step or an announcement. -/
structure Report where
  failed : Bool := false
  /-- The step failed, but the scenario should go on. -/
  recoverable : Bool := false
  /-- The rest of the scenario should be skipped. -/
  skipScenario : Bool := false
  errorMessage : Option String := none
  stackTrace : Option String := none
  screenshot : Option String := none
  executionTimeMs : UInt64 := 0
  deriving DecidableEq, Repr, Inhabited

/-- A failed report with a message. -/
def Report.failure (message : String) : Report := { failed := true, errorMessage := some message }

/-- A step's argument with its value resolved. -/
inductive Parameter where
  | static (name value : String)
  | special (name value : String)
  | table (name : String) (t : Table.Data)
  deriving DecidableEq, Repr

/-- Why a runner calls a step invalid. -/
inductive StepFault where
  | notFound
  | duplicate
  deriving DecidableEq, Repr

/-- A message between engine and runner. -/
inductive Message where
  | executionStarting (stream : UInt64) (args : List Item.RunArg)
  | executionEnding (stream : UInt64)
  | specStarting (fileName heading : String) (tags : List String)
  | specEnding (fileName heading : String) (tags : List String)
  | scenarioStarting (fileName heading : String) (tags : List String)
  | scenarioEnding (fileName heading : String) (tags : List String)
  | stepStarting (stepText : String)
  | stepEnding (stepText : String)
  | executeStep (stepText : String) (parameters : List Parameter)
  | statusResponse (report : Report)
  | validateRequest (stepText : String)
  | validateResponse (valid : Bool) (fault : Option StepFault) (message : Option String)
  | killRequest
  deriving DecidableEq, Repr

/-- The name of a message's variant. -/
def Message.kind : Message → String
  | .executionStarting .. => "ExecutionStarting"
  | .executionEnding .. => "ExecutionEnding"
  | .specStarting .. => "SpecExecutionStarting"
  | .specEnding .. => "SpecExecutionEnding"
  | .scenarioStarting .. => "ScenarioExecutionStarting"
  | .scenarioEnding .. => "ScenarioExecutionEnding"
  | .stepStarting .. => "StepExecutionStarting"
  | .stepEnding .. => "StepExecutionEnding"
  | .executeStep .. => "ExecuteStep"
  | .statusResponse .. => "ExecutionStatusResponse"
  | .validateRequest .. => "StepValidateRequest"
  | .validateResponse .. => "StepValidateResponse"
  | .killRequest => "KillProcessRequest"

/-- A message with the number of its request. -/
structure Envelope where
  id : UInt64
  message : Message
  deriving DecidableEq, Repr

/-! ## Failing round trips -/

/-- Why a round trip to a runner failed. -/
inductive ProtocolError where
  | unreachable
  | timeout (ms : Nat)
  | malformed (text : String)
  | io (text : String)
  | startup (text : String)
  deriving DecidableEq, Repr

/-- The text of a failed round trip. -/
def ProtocolError.text : ProtocolError → String
  | .unreachable => "runner is not alive"
  | .timeout ms => "runner did not respond within " ++ Text.Decimal.text ms ++ "ms"
  | .malformed text => "malformed response from runner: " ++ text
  | .io text => "runner i/o failed: " ++ text
  | .startup text => "failed to start runner: " ++ text

/-- An answer that is no status response. -/
def unexpectedAnswer (m : Message) : ProtocolError :=
  .malformed ("expected ExecutionStatusResponse, got " ++ m.kind)

/-- The outcome of a round trip that should bring a status response. -/
def statusOf : Except ProtocolError Message → Except ProtocolError Report
  | .ok (.statusResponse report) => .ok report
  | .ok m => .error (unexpectedAnswer m)
  | .error e => .error e

/-- The report of a round trip; a failed round trip is a failed report with the error's text. -/
def reportOf (answer : Except ProtocolError Message) : Report :=
  match statusOf answer with
  | .ok report => report
  | .error e => .failure e.text

/-! ## Written form -/

/-- A report as a JSON value. -/
def Report.toJson (r : Report) : Value := .object [
  ("failed", .bool r.failed), ("recoverableError", .bool r.recoverable),
  ("skipScenario", .bool r.skipScenario),
  ("errorMessage", .ofOption .string r.errorMessage),
  ("stackTrace", .ofOption .string r.stackTrace),
  ("screenshot", .ofOption .string r.screenshot),
  ("executionTimeMs", .natural r.executionTimeMs.toNat)]

/-- The shape of a report; every field has a default. -/
def Report.shape : Shape Report :=
  .record ["failed", "recoverableError", "skipScenario", "errorMessage", "stackTrace", "screenshot",
    "executionTimeMs"] fun
  | [failed, recoverable, skipScenario, errorMessage, stackTrace, screenshot, time] => do
    some {
      failed := ← failed.orElse .bool false
      recoverable := ← recoverable.orElse .bool false
      skipScenario := ← skipScenario.orElse .bool false
      errorMessage := ← errorMessage.orElse (.option .string) none
      stackTrace := ← stackTrace.orElse (.option .string) none
      screenshot := ← screenshot.orElse (.option .string) none
      executionTimeMs := ← time.orElse .word 0 }
  | _ => none

/-- A parameter as a JSON value. -/
def Parameter.toJson : Parameter → Value
  | .static name value =>
    .object [("type", .string "static"), ("name", .string name), ("value", .string value)]
  | .special name value =>
    .object [("type", .string "special"), ("name", .string name), ("value", .string value)]
  | .table name t =>
    .object [("type", .string "table"), ("name", .string name), ("table", t.toJson)]

/-- The shape of a name with a value. -/
def namedText (make : String → String → Parameter) : Shape Parameter :=
  .record ["name", "value"] fun
  | [name, value] => do some (make (← name.required .string) (← value.required .string))
  | _ => none

/-- The shape of a parameter, told by its type. -/
def Parameter.shape : Shape Parameter := .tagged "type" [
  ("static", namedText .static),
  ("special", namedText .special),
  ("table", .record ["name", "table"] fun
    | [name, t] => do some (.table (← name.required .string) (← t.required Table.Data.shape))
    | _ => none)]

/-- The word for a step fault on the wire. -/
def StepFault.word : StepFault → String
  | .notFound => "STEP_IMPLEMENTATION_NOT_FOUND"
  | .duplicate => "DUPLICATE_STEP_IMPLEMENTATION"

/-- The shape of a step fault. -/
def StepFault.shape : Shape StepFault :=
  .name [(StepFault.word .notFound, .notFound), (StepFault.word .duplicate, .duplicate)]

/-- The fields of a message, its type first. -/
def Message.members (m : Message) : List (String × Value) :=
  ("messageType", .string m.kind) :: match m with
  | .executionStarting stream args =>
    [("stream", .natural stream.toNat), ("executionArgs", .array (args.map Item.RunArg.toJson))]
  | .executionEnding stream => [("stream", .natural stream.toNat)]
  | .specStarting fileName heading tags | .specEnding fileName heading tags
  | .scenarioStarting fileName heading tags | .scenarioEnding fileName heading tags =>
    [("fileName", .string fileName), ("heading", .string heading), ("tags", .strings tags)]
  | .stepStarting stepText | .stepEnding stepText | .validateRequest stepText =>
    [("stepText", .string stepText)]
  | .executeStep stepText parameters =>
    [("stepText", .string stepText), ("parameters", .array (parameters.map Parameter.toJson))]
  | .statusResponse report => [("result", report.toJson)]
  | .validateResponse valid fault message =>
    [("isValid", .bool valid), ("errorType", .ofOption (fun f => .string f.word) fault),
      ("errorMessage", .ofOption .string message)]
  | .killRequest => []

/-- A message as a JSON value. -/
def Message.toJson (m : Message) : Value := .object m.members

/-- An envelope as a JSON value: the number stands among the fields. -/
def Envelope.toJson (e : Envelope) : Value :=
  .object (("id", .natural e.id.toNat) :: e.message.members)

/-- The line that carries an envelope, without its line break. -/
def Envelope.line (e : Envelope) : String := e.toJson.compact

/-- The shape of an item's announcement. -/
def itemMessage (make : String → String → List String → Message) : Shape Message :=
  .record ["fileName", "heading", "tags"] fun
  | [fileName, heading, tags] => do
    some (make (← fileName.required .string) (← heading.required .string)
      (← tags.required .strings))
  | _ => none

/-- The shape of a message about a step. -/
def stepMessage (make : String → Message) : Shape Message := .record ["stepText"] fun
  | [stepText] => do some (make (← stepText.required .string))
  | _ => none

/-- The variants of a message by name. -/
def Message.choices : List (String × Shape Message) := [
  ("ExecutionStarting", .record ["stream", "executionArgs"] fun
    | [stream, args] => do
      some (.executionStarting (← stream.required .word)
        (← args.orElse (.list Item.RunArg.shape) []))
    | _ => none),
  ("ExecutionEnding", .record ["stream"] fun
    | [stream] => do some (.executionEnding (← stream.required .word))
    | _ => none),
  ("SpecExecutionStarting", itemMessage .specStarting),
  ("SpecExecutionEnding", itemMessage .specEnding),
  ("ScenarioExecutionStarting", itemMessage .scenarioStarting),
  ("ScenarioExecutionEnding", itemMessage .scenarioEnding),
  ("StepExecutionStarting", stepMessage .stepStarting),
  ("StepExecutionEnding", stepMessage .stepEnding),
  ("ExecuteStep", .record ["stepText", "parameters"] fun
    | [stepText, parameters] => do
      some (.executeStep (← stepText.required .string)
        (← parameters.orElse (.list Parameter.shape) []))
    | _ => none),
  ("ExecutionStatusResponse", .record ["result"] fun
    | [report] => do some (.statusResponse (← report.required Report.shape))
    | _ => none),
  ("StepValidateRequest", stepMessage .validateRequest),
  ("StepValidateResponse", .record ["isValid", "errorType", "errorMessage"] fun
    | [valid, fault, message] => do
      some (.validateResponse (← valid.required .bool)
        (← fault.orElse (.option StepFault.shape) none)
        (← message.orElse (.option .string) none))
    | _ => none),
  ("KillProcessRequest", fun _ _ => some .killRequest)]

/-- The shape of a message. -/
def Message.shape : Shape Message := .tagged "messageType" Message.choices

/-- The shape of an envelope. The number is read where it stands; every other field belongs to the
message, which is therefore held as a whole. Only objects are envelopes. -/
def Envelope.shape : Shape Envelope
  | scope, .object members => do
    let inner ← scope.enter?
    let id ← match members.filter (·.1 == "id") with
      | [(_, v)] => Shape.word inner v
      | _ => none
    let rest := members.filter (·.1 != "id")
    let held ← if rest.all (fun m => m.2.fits inner.depth) then some { inner with held := true }
      else none
    some ⟨id, ← Message.shape held (.object rest)⟩
  | _, _ => none

/-- Reads a line as an envelope. -/
def Envelope.ofLine (s : String) : Option Envelope := Json.readText shape s

end SpecEngine.Runner
