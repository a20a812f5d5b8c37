import EnumLookup.Manifest.Yaml.Cursor
import EnumLookup.Text.Decimal

/-!
# Scalars in YAML

The texts of scalars in their five styles. Between the words of a quoted or plain scalar a line end
counts as a space, and more of them as one fewer line ends. A block scalar keeps its lines or folds
them, and its header says what becomes of the line ends at its end.
-/

namespace EnumLookup.Manifest.Yaml

/-- What stands between two words of a scalar: blanks, or line ends with blanks around them. -/
structure Gap where
  blanks : List Char := []
  ends : List Char := []
  deriving Repr

namespace Gap

def text (g : Gap) : List Char :=
  match g.ends with
  | [] => g.blanks
  | ['\n'] => [' ']
  | '\n' :: ends => ends
  | ends => ends

/-- The gap at a place, and the place behind it. After a line end, no tab may stand in a column
before the margin. -/
def read? (margin : Nat) (afterEnd : Bool) : Nat → Cursor → Option (Gap × Cursor)
  | 0, _ => none
  | n + 1, c =>
    let (blanks, next) := c.takeWhile isBlank
    if afterEnd && (blanks.take (margin - c.column)).contains '\t' then none
    else match next.lineEnd? with
      | none => some ({ blanks := if afterEnd then [] else blanks }, next)
      | some (e, line) =>
        (read? margin true n line).map fun (g, c) => ({ ends := e :: g.ends }, c)

end Gap

namespace Plain

/-- A character that ends a plain scalar inside brackets. -/
def isFlow (c : Char) : Bool :=
  c == ',' || c == '[' || c == ']' || c == '\x7b' || c == '\x7d'

/-- A word of a plain scalar: it ends at a blank, a line end, or a colon before one. Inside brackets
it also ends at the characters of lists and tables, and none of these may follow a colon. -/
def word? (inFlow : Bool) : List Char → Option (List Char)
  | [] => some []
  | c :: r =>
    if isBlank c || isBreak c || (inFlow && isFlow c) then some []
    else if c = ':' ∧ inFlow ∧ r.head?.any (fun d => isFlow d || d == '?') then none
    else if c = ':' ∧ Cursor.endsWord r then some []
    else (word? inFlow r).map (c :: ·)

/-- The rest of a plain scalar behind a gap, the place behind it, and whether that place follows a
line end. -/
def words? (inFlow : Bool) (margin : Nat) : Nat → Gap → Cursor →
    Option (List Char × Cursor × Bool)
  | 0, _, _ => none
  | n + 1, gap, c => do
    let word ← if c.isAtMark || c.isAt '#' then some [] else word? inFlow c.rest
    if word.isEmpty then return ([], c, !gap.ends.isEmpty)
    let (next, c) ← Gap.read? margin false (c.rest.length + 1) (c.advance word.length)
    -- A word left of the margin belongs to what stands around the scalar.
    if !inFlow && c.column < margin then return (gap.text ++ word, c, !next.ends.isEmpty)
    let (text, c, afterEnd) ← words? inFlow margin n next c
    return (gap.text ++ word ++ text, c, afterEnd)

/-- A plain scalar, the place behind it, and whether that place follows a line end. Its later lines
start at the margin or right of it, unless it stands inside brackets. -/
def read? (inFlow : Bool) (margin : Nat) (c : Cursor) : Option (List Char × Cursor × Bool) :=
  words? inFlow margin (c.rest.length + 1) {} c

end Plain

namespace Quoted

/-- What ends a word of a quoted scalar. -/
inductive Stop where
  /-- A blank, a line end, the closing quotation mark, or the end of the text. -/
  | here
  /-- A line end behind a backslash. -/
  | joined
  deriving DecidableEq, Repr

/-- A word of a quoted scalar: its text, how many characters it takes, and what ends it. -/
abbrev Word := List Char × Nat × Stop

/-- A word with a character before it that takes `count` characters. -/
def push (c : Char) (count : Nat) (w : Word) : Word := (c :: w.1, count + w.2.1, w.2.2)

/-- A word of a scalar in single quotation marks. Two of them stand for one. -/
def singleWord : List Char → Word
  | '\'' :: '\'' :: r => push '\'' 2 (singleWord r)
  | [] => ([], 0, .here)
  | c :: r =>
    if c = '\'' ∨ isBlank c ∨ isBreak c then ([], 0, .here) else push c 1 (singleWord r)

/-- The character of a one-letter escape. -/
def simpleEscape? (c : Char) : Option Char :=
  (table.find? (·.1 == c)).map Prod.snd
where
  /-- The letters of escapes and what they stand for. -/
  table : List (Char × Char) :=
    [('0', '\x00'), ('a', '\x07'), ('b', '\x08'), ('t', '\t'), ('\t', '\t'), ('n', '\n'),
      ('v', '\x0b'), ('f', '\x0c'), ('r', '\r'), ('e', '\x1b'), (' ', ' '), ('"', '"'),
      ('/', '/'), ('\\', '\\'), ('N', '\u0085'), ('_', '\u00a0'), ('L', '\u2028'),
      ('P', '\u2029')]

/-- How many digits follow the letter of an escape. -/
def codeLength? (c : Char) : Option Nat :=
  if c = 'x' then some 2 else if c = 'u' then some 4 else if c = 'U' then some 8 else none

/-- Where a reader stands inside a word in double quotation marks. -/
inductive Mode where
  /-- Between characters. -/
  | text
  /-- After a backslash. -/
  | escape
  /-- Before the last `left + 1` digits of a code of `length` digits. -/
  | code (n left length : Nat)
  deriving DecidableEq, Repr

/-- A word of a scalar in double quotation marks. -/
def doubleWord? : Mode → List Char → Option Word
  | .text, [] => some ([], 0, .here)
  | .escape, [] => none
  | .code _ _ _, [] => none
  | .text, c :: r =>
    if c = '"' ∨ isBlank c ∨ isBreak c then some ([], 0, .here)
    else if c = '\\' then doubleWord? .escape r
    else (doubleWord? .text r).map (push c 1)
  | .escape, c :: r =>
    if isBreak c then some ([], 1, .joined)
    else match simpleEscape? c, codeLength? c with
      | some d, _ => (doubleWord? .text r).map (push d 2)
      | none, some k => doubleWord? (.code 0 (k - 1) k) r
      | none, none => none
  | .code n left k, c :: r =>
    match Text.digit? 16 c, left with
    | none, _ => none
    | some d, l + 1 => doubleWord? (.code (16 * n + d) l k) r
    | some d, 0 =>
      if (16 * n + d).isValidChar then
        (doubleWord? .text r).map (push (Char.ofNat (16 * n + d)) (k + 2))
      else none

/-- The text of a quoted scalar up to the closing quotation mark, and the place behind that. -/
def words? (isSingle : Bool) : Nat → Cursor → Option (List Char × Cursor)
  | 0, _ => none
  | n + 1, c => do
    if c.isAtMark || c.rest.isEmpty then none
    let (word, count, stop) ←
      if isSingle then some (singleWord c.rest) else doubleWord? .text c.rest
    let c := c.advance count
    match stop with
    | .joined =>
      let (_, c) ← c.lineEnd?
      let (gap, c) ← Gap.read? 0 true (c.rest.length + 1) c
      let (text, c) ← words? isSingle n c
      return (word ++ gap.ends ++ text, c)
    | .here =>
      if c.isAt (if isSingle then '\'' else '"') then return (word, c.advance 1)
      let (gap, c) ← Gap.read? 0 false (c.rest.length + 1) c
      let (text, c) ← words? isSingle n c
      return (word ++ gap.text ++ text, c)

/-- A quoted scalar behind its opening quotation mark, and the place behind it. -/
def read? (isSingle : Bool) (c : Cursor) : Option (List Char × Cursor) :=
  words? isSingle (c.rest.length + 1) c

end Quoted

namespace Block

/-- What becomes of the line ends at the end of a block scalar. -/
inductive Tail where
  /-- None is kept. -/
  | strip
  /-- The first is kept. -/
  | clip
  /-- All are kept. -/
  | keep
  deriving DecidableEq, Repr

/-- The sign of a header that says what becomes of the line ends. -/
def tail? (c : Cursor) : Option Tail :=
  if c.isAt '+' then some .keep else if c.isAt '-' then some .strip else none

/-- The digit of a header that gives the indentation, if there is one. Nought is refused. -/
def width? (c : Cursor) : Option (Nat × Cursor) :=
  match c.peek with
  | some d =>
    if d = '0' then none
    else match Text.digit? 10 d with
      | some w => some (w, c.advance 1)
      | none => some (0, c)
  | none => some (0, c)

/-- The header of a block scalar: its tail, its width or nought, and the place behind it. -/
def header? (c : Cursor) : Option (Tail × Nat × Cursor) := do
  match tail? c with
  | some tail =>
    let (width, c) ← width? (c.advance 1)
    return (tail, width, c)
  | none =>
    let (width, c) ← width? c
    match width, tail? c with
    | 0, _ => return (.clip, 0, c)
    | w, some tail => return (tail, w, c.advance 1)
    | w, none => return (.clip, w, c)

/-- The empty lines at a place: their ends, the greatest indentation met, and the place behind the
indentation that follows. Nought stands for an indentation not known yet. -/
def emptyLines? (indent : Nat) : Nat → Cursor → Option (List Char × Nat × Cursor)
  | 0, _ => none
  | n + 1, c =>
    let spaces := c.rest.takeWhile (· == ' ')
    let count := if indent = 0 then spaces.length else min spaces.length (indent - c.column)
    let c := c.advance count
    if (indent = 0 ∨ c.column < indent) ∧ c.isAt '\t' then none
    else match c.lineEnd? with
      | none => some ([], c.column, c)
      | some (e, next) =>
        (emptyLines? indent n next).map fun (es, widest, last) =>
          (e :: es, max c.column widest, last)

/-- The line end between two lines of text, with the empty lines between them. -/
def between (isFolded : Bool) (lineEnd ends : List Char) : List Char :=
  if isFolded && lineEnd == ['\n'] then if ends.isEmpty then [' '] else ends
  else lineEnd ++ ends

/-- The lines of a block scalar behind a line end and empty lines: their text, the line end and
empty lines after the last, and the place behind them. A line that starts with a blank is not folded
with its neighbours. -/
def lines? (isLiteral : Bool) (indent : Nat) : Nat → Bool → List Char → List Char → Cursor →
    Option (List Char × List Char × List Char × Cursor)
  | 0, _, _, _, _ => none
  | n + 1, afterBlank, lineEnd, ends, c => do
    if c.column ≠ indent ∨ c.rest.isEmpty then return ([], lineEnd, ends, c)
    let (line, next) := c.takeWhile (!isBreak ·)
    let isBlankLine := (line.head?.map isBlank).getD false
    let (lineEnd', next) := match next.lineEnd? with
      | some (e, next) => ([e], next)
      | none => ([], next)
    let (ends', _, next) ← emptyLines? indent (next.rest.length + 1) next
    let (text, last) ← lines? isLiteral indent n isBlankLine lineEnd' ends' next
    let gap := between (!isLiteral && !afterBlank && !isBlankLine) lineEnd ends
    return (gap ++ line ++ text, last)

/-- A block scalar behind its first character, and the place behind it. -/
def read? (isLiteral : Bool) (indents : List Nat) (c : Cursor) : Option (List Char × Cursor) := do
  let (tail, width, c) ← header? c
  let c ← c.finishLine?
  let indent := if width = 0 then 0 else indents.head?.getD 0 + width
  let (ends, widest, c) ← emptyLines? indent (c.rest.length + 1) c
  let least := match indents with
    | [] => 0
    | i :: _ => i + 1
  -- A header without a width leaves the indentation to the first lines.
  let indent := if indent = 0 then max 1 (max widest least) else indent
  let (text, lineEnd, ends, c) ← lines? isLiteral indent (c.rest.length + 1) false [] ends c
  match tail with
  | .strip => return (text, c)
  | .clip => return (text ++ lineEnd, c)
  | .keep => return (text ++ lineEnd ++ ends, c)

end Block

end EnumLookup.Manifest.Yaml
