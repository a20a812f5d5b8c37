import EnumLookup.CommandLine.Command
import EnumLookup.Manifest.Format
import EnumLookup.Output
import EnumLookup.Summary

/-!
# Runs of the program

A run of a command on a file system, and what it prints. A run either ends well or with a chain of
causes, the outermost first.
-/

namespace EnumLookup.CommandLine

/-- What a run leaves besides files. -/
structure Outcome where
  /-- The exit status: nought, one for a fault, two for a command line that asks for nothing. -/
  exit : Nat := 0
  output : String := ""
  /-- The declarations that were skipped, in order. -/
  warnings : List String := []
  /-- Why the run failed, the outermost cause first. -/
  causes : List String := []
  deriving DecidableEq, Repr

def version : String := "enum-reflector 0.1.0"

/-- What the program can be asked for. -/
def usage : String :=
  "Usage: enum-reflector [-v]... generate -m FILE -o DIR [--module NAME] [--marker NAME] " ++
    "[--only OP...] [--pretty] [--dry-run] [--strict] [--json]\n" ++
    "       enum-reflector [-v]... resolve -m FILE [--json]"

def line (s : String) : String := s ++ "\n"

/-- The warning that a declaration was skipped. -/
def warning (name : String) (fault : Fault) : String :=
  "warning: skipped " ++ name ++ ": " ++ fault.message

/-- A run that failed, perhaps after warnings. -/
def failure (causes warnings : List String) : Outcome :=
  { exit := 1, causes := causes, warnings := warnings }

/-- An artifact as a dry run prints it. -/
def shown (a : Artifact) : String := line ("=== " ++ a.fileName ++ " ===\n" ++ a.text ++ "\n")

variable {m : Type → Type} [Monad m]

/-- The report on a manifest's declarations. -/
def report (fs : FileSystem m) (o : Generate) : ExceptT Fault m Report := do
  let manifest ← Manifest.load fs o.manifest
  Report.ofDeclarations manifest.enums o.config

/-- The last lines of a run that wrote `count` files to a directory. -/
def closing (o : Generate) (r : Report) (directory : Path) (count : Nat) : String :=
  if o.isJson then line r.json.pretty
  else if o.isDry then ""
  else line ("Generated " ++ Text.natText count ++ " file(s) for " ++
    Text.natText r.resolved.length ++ " enum(s) in " ++ directory.text)

def generate (fs : FileSystem m) (o : Generate) : m Outcome := do
  match ← (report fs o).run with
  | .error fault =>
    return failure ["Failed to generate from " ++ o.manifest.text, fault.message] []
  | .ok r =>
    let warnings := r.skipped.map fun s => warning s.name s.fault
    -- Decided before the first file is written, and in a dry run too.
    if o.isStrict && !r.skipped.isEmpty then
      return failure [Text.natText r.skipped.length ++
        " enum(s) could not be resolved; nothing was written"] warnings
    let directory := o.output.join ⟨o.config.moduleName⟩
    match ← (fs.writeArtifacts directory r.artifacts o.isDry).run with
    | .error fault => return failure ["Failed to write " ++ directory.text, fault.message] warnings
    | .ok written =>
      let printed := if o.isDry then String.join (r.artifacts.map shown) else ""
      return { output := printed ++ closing o r directory written.length, warnings := warnings }

/-- A declaration and what became of it as JSON. -/
def resolutionJson (d : Declaration) : Text.Json :=
  match d.resolve with
  | .ok e => .object [("name", .text e.name), ("underlying", .text e.width.text),
      ("values", e.valuesJson)]
  | .error fault => .object [("error", .text fault.message), ("name", .text d.name)]

/-- The values of an enum's members, a line for each. -/
def resolutionText (e : Resolved) : String :=
  line (e.name ++ ": " ++ e.width.text) ++
    String.join (e.entries.map fun m => line ("  " ++ m.name ++ " = " ++ m.value.text))

def resolve (fs : FileSystem m) (manifest : Path) (isJson : Bool) : m Outcome := do
  match ← (Manifest.load fs manifest).run with
  | .error fault => return failure [fault.message] []
  | .ok found =>
    if isJson then
      return { output := line (Text.Json.array (found.enums.map resolutionJson)).pretty }
    let outcomes := found.enums.map fun d => (d, d.resolve)
    let texts := outcomes.filterMap fun | (_, .ok e) => some (resolutionText e) | _ => none
    let warnings := outcomes.filterMap fun
      | (d, .error fault) => some (warning d.name fault)
      | _ => none
    return { output := String.join texts, warnings := warnings }

/-- A run of the program. -/
def run (fs : FileSystem m) (args : List String) : m Outcome :=
  match Command.ofArguments? args with
  | none => return { exit := 2 }
  | some .help => return { output := line usage }
  | some .version => return { output := line version }
  | some (.generate o) => generate fs o
  | some (.resolve manifest isJson) => resolve fs manifest isJson

end EnumLookup.CommandLine
