/-
# SpecEngine.Config.Manifest -- what the project says about itself

The manifest in the project root names the language of the step implementations, which may not be
blank, and the project's plugins.
-/

import SpecEngine.Disk
import SpecEngine.Json.Shape

namespace SpecEngine.Config

open Json (Shape Value)

/-- The language and plugins of a project. -/
structure Manifest where
  language : String
  plugins : List String := []
  deriving DecidableEq, Repr, Inhabited

/-- Why there is no manifest. -/
inductive ManifestFault where
  | unreadable (fault : DiskFault)
  | malformed
  | noLanguage
  deriving DecidableEq, Repr

/-- The text of a fault, where it is not that of a JSON reader. -/
def ManifestFault.reason? : ManifestFault → Option String
  | .unreadable fault => some fault.text
  | .malformed => none
  | .noLanguage => some "language is not set"

namespace Manifest

/-- The name of the manifest's file. -/
def fileName : String := "manifest.json"

/-- The manifest as a JSON value. -/
def toJson (m : Manifest) : Value :=
  .object [("language", .string m.language), ("plugins", .strings m.plugins)]

/-- The shape of a manifest. -/
def shape : Shape Manifest := .record ["language", "plugins"] fun
  | [language, plugins] => do
    some { language := ← language.required .string, plugins := ← plugins.orElse .strings [] }
  | _ => none

/-- Reads the manifest of a project. -/
def load (disk : Disk) (projectRoot : String) : Except ManifestFault Manifest :=
  match disk.readText (Disk.join projectRoot fileName) with
  | .error fault => .error (.unreadable fault)
  | .ok text =>
    match Json.readText shape text with
    | none => .error .malformed
    | some m => if Text.isBlankText m.language then .error .noLanguage else .ok m

/-- The manifest as a debugging text. -/
def debugText (m : Manifest) : String :=
  "Manifest \x7b language: \"" ++ m.language ++ "\", plugins: [" ++
    Text.join ", " (m.plugins.map fun p => "\"" ++ p ++ "\"") ++ "] \x7d"

end Manifest

end SpecEngine.Config
