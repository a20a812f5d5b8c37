/-!
# Places in a YAML text

A cursor is the text that is left together with the place reached: how many characters lie before
it, and its line and column. Lines end with a line feed, a carriage return, both together, a next
line character, or a line or paragraph separator.
-/

namespace EnumLookup.Manifest.Yaml

def isBlank (c : Char) : Bool := c == ' ' || c == '\t'

/-- A character that ends a line. -/
def isBreak (c : Char) : Bool :=
  c == '\n' || c == '\r' || c == '\u0085' || c == '\u2028' || c == '\u2029'

/-- A character that may stand in a name, a handle or a directive. -/
def isWord (c : Char) : Bool := c.isAlphanum || c == '_' || c == '-'

/-- A character that may stand in a YAML text. -/
def isAllowed (c : Char) : Bool :=
  let n := c.toNat
  n == 0x9 || n == 0xA || n == 0xD || (0x20 ≤ n && n ≤ 0x7E) || n == 0x85 ||
    (0xA0 ≤ n && n ≤ 0xFFFD) || 0x10000 ≤ n

/-- A place in a text. -/
structure Cursor where
  rest : List Char
  index : Nat := 0
  line : Nat := 0
  column : Nat := 0
  deriving Repr

namespace Cursor

def peek (c : Cursor) : Option Char := c.rest.head?

def isAt (c : Cursor) (x : Char) : Bool := c.rest.head? == some x

/-- The place behind some characters of the line. -/
def advance (c : Cursor) (count : Nat) : Cursor :=
  { c with rest := c.rest.drop count, index := c.index + count, column := c.column + count }

/-- The next characters of a kind, and the place behind them. -/
def takeWhile (c : Cursor) (p : Char → Bool) : List Char × Cursor :=
  let run := c.rest.takeWhile p
  (run, c.advance run.length)

/-- The place behind the next characters of a kind. -/
def skipWhile (c : Cursor) (p : Char → Bool) : Cursor := (c.takeWhile p).2

/-- The start of the next line behind `count` characters. -/
def nextLine (c : Cursor) (count : Nat) (rest : List Char) : Cursor :=
  { rest := rest, index := c.index + count, line := c.line + 1, column := 0 }

/-- The line end at a place as it counts in a text, and the start of the next line. -/
def lineEnd? (c : Cursor) : Option (Char × Cursor) :=
  match c.rest with
  | '\r' :: '\n' :: r => some ('\n', c.nextLine 2 r)
  | x :: r =>
    if x = '\u2028' ∨ x = '\u2029' then some (x, c.nextLine 1 r)
    else if isBreak x then some ('\n', c.nextLine 1 r)
    else none
  | [] => none

/-- A text is at its end, or goes on with a blank or a line end. -/
def endsWord : List Char → Bool
  | [] => true
  | x :: _ => isBlank x || isBreak x

/-- Three characters that stand for the start or the end of a document. -/
def isMark (x : Char) (c : Cursor) : Bool :=
  c.column == 0 && [x, x, x].isPrefixOf c.rest && endsWord (c.rest.drop 3)

/-- The start or the end of a document. -/
def isAtMark (c : Cursor) : Bool := c.isMark '-' || c.isMark '.'

/-- The place behind the blanks and the comment that end a line, and behind the line end. -/
def finishLine? (c : Cursor) : Option Cursor :=
  let c := c.skipWhile isBlank
  let c := if c.isAt '#' then c.skipWhile (!isBreak ·) else c
  match c.lineEnd? with
  | some (_, next) => some next
  | none => if c.rest.isEmpty then some c else none

end Cursor

end EnumLookup.Manifest.Yaml
