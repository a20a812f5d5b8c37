import EnumLookup.Artifact
import EnumLookup.FileSystem

/-!
# Writing artifacts

A file is written under a temporary name beside it and then moved to its own, so that no reader sees
half of it. The artifacts of a run are all generated before the first is written; if one cannot be
written, those before it stay.
-/

namespace EnumLookup

variable {m : Type → Type} [Monad m]

namespace FileSystem

/-- A step that has to succeed for a path. -/
def require (p : Path) (step : m Bool) : ExceptT Fault m Unit := do
  unless ← step do throw (.write p.text)

/-- The temporary file beside a file. -/
def temporary (p : Path) : Path := p.withExtension "tmp"

/-- The directory above a path is made, unless the path stands alone. -/
def createParent (fs : FileSystem m) (p : Path) : ExceptT Fault m Unit :=
  match p.parent? with
  | none => pure ()
  | some parent =>
    if parent.text.isEmpty then pure () else require parent (fs.createDirectories parent)

/-- A file gets a content by way of its temporary file. -/
def writeAtomic (fs : FileSystem m) (p : Path) (content : String) : ExceptT Fault m Unit := do
  fs.createParent p
  require (temporary p) (fs.write (temporary p) content)
  require p (fs.rename (temporary p) p)

/-- Files, given by name and text, are written into a directory in order. The answer is their
paths. -/
def writeAll (fs : FileSystem m) (directory : Path) :
    List (String × String) → ExceptT Fault m (List Path)
  | [] => pure []
  | (name, text) :: rest => do
    let path := directory.join ⟨name⟩
    fs.writeAtomic path text
    return path :: (← fs.writeAll directory rest)

/-- Artifacts are written into a directory in order, or left unwritten in a dry run. The answer is
the paths they have or would have. -/
def writeArtifacts (fs : FileSystem m) (directory : Path) (artifacts : List Artifact)
    (isDry : Bool) : ExceptT Fault m (List Path) :=
  if isDry then pure (artifacts.map fun a => directory.join ⟨a.fileName⟩)
  else fs.writeAll directory (artifacts.map fun a => (a.fileName, a.text))

/-- The artifacts of a batch are generated and then written to the module's directory below another
one. -/
def generateAndWrite (fs : FileSystem m) (enums : List Resolved) (c : Config) (directory : Path)
    (isDry : Bool) : ExceptT Fault m (List Artifact) := do
  let artifacts ← generateAll enums c
  let _ ← fs.writeArtifacts (directory.join ⟨c.moduleName⟩) artifacts isDry
  return artifacts

end FileSystem

end EnumLookup
