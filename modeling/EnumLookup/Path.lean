/-!
# Paths

A path is a text whose segments are separated by slashes. Slashes at the end, and segments of a
single dot other than the first, count for nothing when the last segment is asked for, but they stay
in the text.
-/

namespace EnumLookup

/-- A path as it is written. -/
structure Path where
  text : String
  deriving DecidableEq, Repr

namespace Path

/-- The parts of a text between slashes; there is always one. -/
def split : List Char → List (List Char)
  | [] => [[]]
  | c :: r =>
    if c = '/' then [] :: split r
    else match split r with
      | s :: ss => (c :: s) :: ss
      | [] => [[c]]

def ofSegments (segs : List (List Char)) : Path := ⟨String.ofList (['/'].intercalate segs)⟩

/-- The parts of the path between slashes. -/
def segments (p : Path) : List (List Char) := split p.text.toList

def isAbsolute (p : Path) : Bool := p.text.toList.head? == some '/'

/-- A segment that counts for nothing at the end of a path. -/
def isIdle (seg : List Char) : Bool := seg == [] || seg == ['.']

/-- The segments without the idle ones at the end; the first one always stays. -/
def trimEnd : List (List Char) → List (List Char)
  | [] => []
  | s :: ss => s :: (ss.reverse.dropWhile isIdle).reverse

/-- The segments that count for the last one. -/
def trimmed (p : Path) : List (List Char) := trimEnd p.segments

/-- The path without its last segment. Neither the root nor the empty path has one to lose. -/
def parent? (p : Path) : Option Path :=
  match p.trimmed with
  | [] => none
  | [s] => if s.isEmpty then none else some ⟨""⟩
  | segs =>
    let rest := trimEnd segs.dropLast
    some (if rest = [[]] then ⟨"/"⟩ else ofSegments rest)

/-- The last segment, if it is a name. -/
def fileName? (p : Path) : Option (List Char) :=
  p.trimmed.getLast?.filter fun s => !(isIdle s || s == ['.', '.'])

/-- A name divided at its last dot: what is before, and what is behind it if there is something
before. -/
def divide (name : List Char) : List Char × Option (List Char) :=
  let behind := (name.reverse.takeWhile (· != '.')).reverse
  let stem := name.take (name.length - behind.length - 1)
  if behind.length = name.length ∨ stem.isEmpty then (name, none) else (stem, some behind)

/-- What follows the last dot of the path's name. -/
def extension? (p : Path) : Option (List Char) := p.fileName?.bind fun name => (divide name).2

/-- The path with another extension in place of its own. A path without a name is left as it is. -/
def withExtension (p : Path) (ext : String) : Path :=
  match p.fileName? with
  | none => p
  | some name => ofSegments (p.trimmed.dropLast ++ [(divide name).1 ++ '.' :: ext.toList])

/-- A path below another. An absolute one stands for itself. -/
def join (p q : Path) : Path :=
  if q.isAbsolute then q
  else if p.text.isEmpty || p.text.toList.getLast? == some '/' then ⟨p.text ++ q.text⟩
  else ⟨p.text ++ "/" ++ q.text⟩

end Path

end EnumLookup
