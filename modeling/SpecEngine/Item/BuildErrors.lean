/-
# SpecEngine.Item.BuildErrors -- errors of the parse and validation stages

A parse error says where a specification is faulty. Build errors file such errors under a
specification's file or under a scenario, named by file and line, and keep every one in the order in
which they were recorded. Recording is appending to a log, so merging two logs is recording one
after the other. Errors are listed subject by subject, those of specifications first; the order of
the subjects among each other is not promised, and here it is that of their first errors.
-/

import SpecEngine.Item.Spec

namespace SpecEngine.Item

open Json (Shape Value)

/-- A fault in a specification's text. -/
structure ParseError where
  fileName : String
  lineNo : UInt64
  message : String
  lineText : String := ""
  deriving DecidableEq, Repr

/-- The text of an error; without file and line it is the bare message. -/
def ParseError.text (e : ParseError) : String :=
  if e.lineNo = 0 && e.fileName.isEmpty then e.message
  else e.fileName ++ ":" ++ Text.Decimal.text e.lineNo.toNat ++ " " ++ e.message ++
    " => '" ++ e.lineText ++ "'"

/-- What a build error is filed under. -/
inductive Subject where
  | spec (fileName : String)
  | scenario (fileName : String) (line : UInt64)
  deriving DecidableEq, Repr

/-- Whether the subject is a specification. -/
def Subject.isSpec : Subject → Bool
  | .spec _ => true
  | .scenario .. => false

/-- Build errors in the order in which they were recorded. -/
structure BuildErrors where
  log : List (Subject × ParseError) := []
  deriving DecidableEq, Repr, Inhabited

namespace BuildErrors

/-- Records one error. -/
def add (errors : BuildErrors) (subject : Subject) (e : ParseError) : BuildErrors :=
  ⟨errors.log ++ [(subject, e)]⟩

/-- Records the errors of another log after those of this one. -/
def merge (errors others : BuildErrors) : BuildErrors := ⟨errors.log ++ others.log⟩

/-- The errors filed under a subject. -/
def under (errors : BuildErrors) (subject : Subject) : List ParseError :=
  (errors.log.filter (·.1 == subject)).map (·.2)

/-- The errors filed under a specification's file, if there are any. -/
def ofSpec (errors : BuildErrors) (spec : Specification) : Option (List ParseError) :=
  match errors.under (.spec spec.fileName) with
  | [] => none
  | es => some es

/-- The errors filed under a scenario, if there are any. -/
def ofScenario (errors : BuildErrors) (spec : Specification) (sc : Scenario) :
    Option (List ParseError) :=
  match errors.under (.scenario spec.fileName sc.line) with
  | [] => none
  | es => some es

/-- Whether any error is recorded. -/
def hasErrors (errors : BuildErrors) : Bool := !errors.log.isEmpty

/-- What errors are filed under, the specifications first. -/
def subjects (errors : BuildErrors) : List Subject :=
  let found := (errors.log.map (·.1)).eraseDups
  found.filter (·.isSpec) ++ found.filter fun subject => !subject.isSpec

/-- Every recorded error, subject by subject. -/
def all (errors : BuildErrors) : List ParseError := errors.subjects.flatMap errors.under

end BuildErrors

/-! ## The tree of a parse stage -/

/-- What the parse stage hands over. -/
structure Tree where
  specs : Collection
  parseErrors : List ParseError := []
  deriving Repr

namespace Tree

/-- Whether the parse stage found no error. -/
def parsedCleanly (tree : Tree) : Bool := tree.parseErrors.isEmpty

/-- The parse errors that name a file, filed under that file. -/
def buildErrors (tree : Tree) : BuildErrors :=
  ⟨(tree.parseErrors.filter fun e => !e.fileName.isEmpty).map fun e => (.spec e.fileName, e)⟩

end Tree

/-! ## Written form -/

/-- A parse error as a JSON value. -/
def ParseError.toJson (e : ParseError) : Value := .object [
  ("file_name", .string e.fileName), ("line_no", .natural e.lineNo.toNat),
  ("message", .string e.message), ("line_text", .string e.lineText)]

/-- The shape of a parse error. -/
def ParseError.shape : Shape ParseError :=
  .record ["file_name", "line_no", "message", "line_text"] fun
  | [fileName, lineNo, message, lineText] => do
    some {
      fileName := ← fileName.required .string
      lineNo := ← lineNo.required .word
      message := ← message.required .string
      lineText := ← lineText.orElse .string "" }
  | _ => none

/-- A tree as a JSON value. -/
def Tree.toJson (tree : Tree) : Value := .object [
  ("specs", .array (tree.specs.map Specification.toJson)),
  ("parseErrors", .array (tree.parseErrors.map ParseError.toJson))]

/-- The shape of a tree. -/
def Tree.shape : Shape Tree := .record ["specs", "parseErrors"] fun
  | [specs, parseErrors] => do
    some {
      specs := ← specs.required (.list Specification.shape)
      parseErrors := ← parseErrors.orElse (.list ParseError.shape) [] }
  | _ => none

/-- Reads the text of a tree. -/
def Tree.ofText (s : String) : Option Tree := Json.readText shape s

end SpecEngine.Item
