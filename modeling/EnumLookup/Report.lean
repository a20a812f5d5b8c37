import EnumLookup.Artifact

/-!
# Reports

A run over declarations resolves each of them and generates the artifacts of those that resolve. A
declaration that does not, or whose name was listed before, is skipped with its fault, and the rest
of the batch is not affected.
-/

namespace EnumLookup

/-- A declaration that was left out, and why. -/
structure Skipped where
  name : String
  fault : Fault
  deriving DecidableEq, Repr

structure Report where
  resolved : List Resolved
  skipped : List Skipped
  artifacts : List Artifact
  deriving Repr

namespace Report

/-- The outcome for each declaration in order, given the names listed before: a name that is listed
again is skipped, whether or not its first declaration resolved. -/
def outcomes (seen : List String) : List Declaration → List (Except Skipped Resolved)
  | [] => []
  | d :: rest =>
    let outcome : Except Skipped Resolved :=
      if seen.contains d.name then .error ⟨d.name, .duplicateEnum d.name⟩
      else match d.resolve with
        | .ok e => .ok e
        | .error fault => .error ⟨d.name, fault⟩
    outcome :: outcomes (d.name :: seen) rest

/-- The enums that resolve. -/
def resolvedOf (os : List (Except Skipped Resolved)) : List Resolved :=
  os.filterMap fun | .ok e => some e | .error _ => none

def skippedOf (os : List (Except Skipped Resolved)) : List Skipped :=
  os.filterMap fun | .ok _ => none | .error s => some s

/-- The report of a run over declarations. -/
def ofDeclarations (ds : List Declaration) (c : Config) : Except Fault Report := do
  let os := outcomes [] ds
  let artifacts ← generateAll (resolvedOf os) c
  return ⟨resolvedOf os, skippedOf os, artifacts⟩

end Report

end EnumLookup
