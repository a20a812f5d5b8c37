import EnumLookup.Generation.Support
import EnumLookup.Source.Pretty
import EnumLookup.Source.Reader

/-!
# Artifacts

The files of a generated module: one for each enabled operation, then the support file. A text
becomes an artifact only if it reads as source, and the layout for reading is that of what was read.
-/

namespace EnumLookup

/-- What an artifact contains. -/
inductive ArtifactKind where
  /-- One lookup operation for every enum. -/
  | operation (o : Operation)
  /-- The root of the generated module. -/
  | support
  deriving DecidableEq, Repr

namespace ArtifactKind

/-- The name by which artifacts are grouped. -/
def key : ArtifactKind → String
  | operation o => o.moduleName
  | support => "support"

def fileName : ArtifactKind → String
  | operation o => o.moduleName ++ ".rs"
  | support => "mod.rs"

end ArtifactKind

/-- A generated file. -/
structure Artifact where
  kind : ArtifactKind
  text : String
  deriving DecidableEq, Repr

namespace Artifact

def fileName (a : Artifact) : String := a.kind.fileName

/-- What every generated file starts with. -/
def notice : String :=
  "// This code was automatically generated by enum-reflector. Do not edit manually.\n\n"

def listing (kind : ArtifactKind) (enums : List Resolved) (c : Config) :
    Except Fault Source.Listing :=
  match kind with
  | .operation o => Generation.lookup o enums
  | .support => pure (Generation.support enums c)

/-- The text of an artifact in the plain layout, without the notice. -/
def code (kind : ArtifactKind) (enums : List Resolved) (c : Config) : Except Fault String :=
  return (← listing kind enums c).text c.indent

/-- An artifact, if its text reads as source. -/
def build (enums : List Resolved) (c : Config) (kind : ArtifactKind) : Except Fault Artifact := do
  let code ← code kind enums c
  match Source.File.read? code with
  | none => throw .unreadableCode
  | some file => return ⟨kind, notice ++ if c.pretty then file.pretty else code⟩

end Artifact

/-- The artifacts of a run: the enabled operations in order, then the support file. -/
def artifactKinds (c : Config) : List ArtifactKind :=
  c.operations.map .operation ++ [.support]

/-- Every artifact of a batch, each built or failed on its own. A configuration that is not valid
fails before two enums of one name do. -/
def generate (enums : List Resolved) (c : Config) :
    Except Fault (List (Except Fault Artifact)) := do
  c.validate
  checkDistinct enums
  return (artifactKinds c).map (Artifact.build enums c)

/-- Every artifact of a batch, or the first fault among them. -/
def generateAll (enums : List Resolved) (c : Config) : Except Fault (List Artifact) := do
  (← generate enums c).mapM id

end EnumLookup
