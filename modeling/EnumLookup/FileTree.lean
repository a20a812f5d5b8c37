import EnumLookup.FileSystem

/-!
# File trees

A file system held in memory: directories and files by their location. Names are limited to 255
octets and paths to 4095, and no path may hold the character nought. A file is moved only over a
file or over nothing.
-/

namespace EnumLookup

/-- The names that lead from the root to a file or directory. -/
abbrev Location := List String

/-- What stands at a location. -/
inductive FileTree.Entry where
  | directory
  | file (content : ByteArray)

/-- A file system in memory. -/
structure FileTree where
  /-- What stands at the locations other than the root, each location once. -/
  entries : List (Location × FileTree.Entry) := []
  /-- Where paths start that are not absolute. -/
  start : Location := []

/-- Why a location is out of reach. -/
inductive Refusal where
  /-- A directory on the way is missing. -/
  | missing
  /-- Something else is in the way, or the path is none. -/
  | blocked
  deriving DecidableEq, Repr

namespace FileTree

/-- What stands at a location. The root is a directory. -/
def get? (t : FileTree) (l : Location) : Option Entry :=
  if l.isEmpty then some .directory else (t.entries.find? (·.1 == l)).map Prod.snd

/-- The tree with another entry at a location. -/
def set (t : FileTree) (l : Location) (e : Entry) : FileTree :=
  { t with entries := (l, e) :: t.entries.filter (·.1 != l) }

/-- The tree without the entry at a location. -/
def erase (t : FileTree) (l : Location) : FileTree :=
  { t with entries := t.entries.filter (·.1 != l) }

/-- The location that segments lead to from another one. All but the last have to lead to
directories; nothing needs to stand at the last. -/
def descend (t : FileTree) (l : Location) : List (List Char) → Except Refusal Location
  | [] => pure l
  | s :: rest =>
    match t.get? l with
    | none => throw .missing
    | some (.file _) => throw .blocked
    | some .directory =>
      let name := String.ofList s
      if Path.isIdle s then descend t l rest
      else if s = ['.', '.'] then descend t l.dropLast rest
      else if 255 < name.utf8ByteSize then throw .blocked
      else descend t (l ++ [name]) rest

/-- The location that a path leads to. -/
def locate (t : FileTree) (p : Path) : Except Refusal Location :=
  if p.text.isEmpty then throw .missing
  else if p.text.toList.contains '\x00' || 4095 < p.text.utf8ByteSize then throw .blocked
  else t.descend (if p.isAbsolute then [] else t.start) p.segments

/-- What stands where a path leads to. -/
def at? (t : FileTree) (p : Path) : Option Entry :=
  match t.locate p with
  | .ok l => t.get? l
  | .error _ => none

/-- A path leads to a directory. -/
def isDirectory (t : FileTree) (p : Path) : Bool :=
  match t.at? p with
  | some .directory => true
  | _ => false

/-- The text of the file that a path leads to. -/
def read (t : FileTree) (p : Path) : Option String :=
  match t.at? p with
  | some (.file content) => String.fromUTF8? content
  | _ => none

/-- A directory is made where nothing stands yet. -/
def createDirectory (t : FileTree) (p : Path) : Except Refusal FileTree := do
  let l ← t.locate p
  match t.get? l with
  | some _ => throw .blocked
  | none => return t.set l .directory

/-- A directory is made with those above it, in at most `fuel` levels. What was made above stays if
the rest fails. -/
def createDirectories (t : FileTree) (p : Path) : Nat → FileTree × Bool
  | 0 => (t, false)
  | fuel + 1 =>
    if p.text.isEmpty then (t, true)
    else match t.createDirectory p with
      | .ok made => (made, true)
      -- Something stands there already, which is no failure if it is a directory.
      | .error .blocked => (t, t.isDirectory p)
      | .error .missing =>
        match p.parent? with
        | none => (t, false)
        | some parent =>
          match t.createDirectories parent fuel with
          | (above, false) => (above, false)
          | (above, true) =>
            match above.createDirectory p with
            | .ok made => (made, true)
            | .error _ => (above, above.isDirectory p)

/-- A file gets a content. -/
def write (t : FileTree) (p : Path) (content : String) : Option FileTree :=
  match t.locate p with
  | .error _ => none
  | .ok l =>
    match t.get? l with
    | some .directory => none
    | _ => some (t.set l (.file content.toUTF8))

/-- A file is moved over a file or over nothing. -/
def rename (t : FileTree) (p q : Path) : Option FileTree :=
  match t.locate p, t.locate q with
  | .ok l, .ok k =>
    -- The old entry goes first, so that a file that is moved over itself stays.
    match t.get? l, t.get? k with
    | some (.file content), some (.file _) => some ((t.erase l).set k (.file content))
    | some (.file content), none => some ((t.erase l).set k (.file content))
    | _, _ => none
  | _, _ => none

/-- The tree after an operation that may fail, or the tree as it was. -/
def attempt (change : FileTree → Option FileTree) : StateM FileTree Bool := fun t =>
  match change t with
  | some after => (true, after)
  | none => (false, t)

def system : FileSystem (StateM FileTree) where
  read p := fun t => (t.read p, t)
  createDirectories p := fun t =>
    let (after, isMade) := t.createDirectories p (p.segments.length + 1)
    (isMade, after)
  write p content := attempt (·.write p content)
  rename p q := attempt (·.rename p q)

/-- Everything below the start, each with its path from there; directories end with a slash. -/
def listing (t : FileTree) : List (String × Entry) :=
  let below := t.entries.filterMap fun (l, e) =>
    if t.start.isPrefixOf l ∧ t.start.length < l.length then
      let path := "/".intercalate (l.drop t.start.length)
      some (match e with
        | .directory => (path ++ "/", e)
        | .file _ => (path, e))
    else none
  below.mergeSort fun a b => a.1 ≤ b.1

end FileTree

end EnumLookup
