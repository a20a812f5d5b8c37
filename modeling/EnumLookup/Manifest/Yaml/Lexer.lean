import EnumLookup.Manifest.Yaml.Scalar
import EnumLookup.Manifest.Yaml.Token

/-!
# From a YAML text to its tokens

Indentation opens and closes lists and tables in block style. A key is known only by the colon that
follows it, so the lexer keeps in mind where the last possible key began, for every level of
brackets, and puts the key's token there when the colon comes. Such a key stands on one line and
takes at most 1024 characters.
-/

namespace EnumLookup.Manifest.Yaml

/-- A place where a key may have begun. -/
structure Candidate where
  /-- How many tokens stand before it. -/
  position : Nat
  index : Nat
  line : Nat
  column : Nat
  /-- Nothing but a key may stand there. -/
  isRequired : Bool
  deriving Repr

/-- How far a text has been read. -/
structure Lexer where
  cursor : Cursor
  tokens : Array Token := #[]
  /-- The columns of the open lists and tables in block style, the innermost first. -/
  indents : List Nat := []
  /-- The possible key of the block context. -/
  outer : Option Candidate := none
  /-- The possible keys inside brackets, the innermost first. -/
  inner : List (Option Candidate) := []
  /-- A key may begin here. -/
  allowsKey : Bool := true
  deriving Repr

namespace Lexer

/-- The place is inside brackets. -/
def inFlow (l : Lexer) : Bool := !l.inner.isEmpty

/-- The possible key of the innermost level. -/
def candidate (l : Lexer) : Option Candidate :=
  match l.inner with
  | [] => l.outer
  | k :: _ => k

/-- Another possible key, or none, on the innermost level. -/
def setCandidate (k : Option Candidate) (l : Lexer) : Lexer :=
  match l.inner with
  | [] => { l with outer := k }
  | _ :: ks => { l with inner := k :: ks }

def push (t : Token) (l : Lexer) : Lexer := { l with tokens := l.tokens.push t }

/-- One more token of `count` characters. -/
def pushSign (t : Token) (count : Nat) (l : Lexer) : Lexer :=
  { l.push t with cursor := l.cursor.advance count }

/-- The possible key is given up, unless nothing else may stand there. -/
def dropCandidate? (l : Lexer) : Option Lexer :=
  if l.candidate.any (·.isRequired) then none else some (l.setCandidate none)

/-- The place becomes the possible key if one may begin here. -/
def markCandidate? (l : Lexer) : Option Lexer :=
  if !l.allowsKey then some l
  else do
    let l ← l.dropCandidate?
    return l.setCandidate (some {
      position := l.tokens.size
      index := l.cursor.index
      line := l.cursor.line
      column := l.cursor.column
      isRequired := !l.inFlow && l.indents.head? == some l.cursor.column })

/-- The possible key is still within reach. -/
def isFresh (c : Cursor) (k : Candidate) : Bool := k.line == c.line && c.index ≤ k.index + 1024

/-- Possible keys out of reach are given up. -/
def expire? (l : Lexer) : Option Lexer :=
  let isLost := fun k => k.isRequired && !isFresh l.cursor k
  if l.outer.any isLost || l.inner.any (·.any isLost) then none
  else some { l with
    outer := l.outer.filter (isFresh l.cursor)
    inner := l.inner.map (·.filter (isFresh l.cursor)) }

/-- A list or table in block style opens at a column right of the others. -/
def openBlock (column position : Nat) (t : Token) (l : Lexer) : Lexer :=
  if l.inFlow || l.indents.head?.any (column ≤ ·) then l
  else { l with
    indents := column :: l.indents
    tokens := l.tokens.insertIdxIfInBounds position t }

/-- Lists and tables in block style right of a column are closed. -/
def closeBlocks (column : Nat) (l : Lexer) : Lexer :=
  if l.inFlow then l
  else
    let closed := l.indents.takeWhile (column < ·)
    { l with
      indents := l.indents.drop closed.length
      tokens := l.tokens ++ closed.map fun _ => Token.blockEnd }

/-- All lists and tables in block style are closed, and no key may begin. -/
def closeAll? (l : Lexer) : Option Lexer := do
  let closed := if l.inFlow then [] else l.indents
  let l := { l with
    indents := if l.inFlow then l.indents else []
    tokens := l.tokens ++ closed.map fun _ => Token.blockEnd }
  return { ← l.dropCandidate? with allowsKey := false }

/-- The place behind white space, line ends and comments. Tabs may stand only where no key may
begin. -/
def skipGap : Nat → Lexer → Lexer
  | 0, l => l
  | n + 1, l =>
    let c := l.cursor
    -- A byte order mark may stand at the start of the text only.
    let c := if c.index = 0 ∧ c.isAt '\ufeff' then c.advance 1 else c
    let c := c.skipWhile fun x => x == ' ' || (x == '\t' && (l.inFlow || !l.allowsKey))
    let c := if c.isAt '#' then c.skipWhile (!isBreak ·) else c
    match c.lineEnd? with
    | some (_, next) => skipGap n { l with cursor := next, allowsKey := l.allowsKey || !l.inFlow }
    | none => { l with cursor := c }

def openFlow? (t : Token) (l : Lexer) : Option Lexer := do
  let l ← l.markCandidate?
  return { l.pushSign t 1 with inner := none :: l.inner, allowsKey := true }

def closeFlow? (t : Token) (l : Lexer) : Option Lexer := do
  let l ← l.dropCandidate?
  return { l.pushSign t 1 with inner := l.inner.drop 1, allowsKey := false }

/-- A sign that a key may follow, which in block style opens a list or table at its column. -/
def entry? (block : Option Token) (t : Token) (l : Lexer) : Option Lexer := do
  if !l.inFlow && !l.allowsKey then none
  let l := match block with
    | some b => l.openBlock l.cursor.column l.tokens.size b
    | none => l
  return (← l.dropCandidate?).pushSign t 1

/-- A colon: what begins at the possible key becomes a key. Without one it follows a key marked as
such. -/
def colon? (l : Lexer) : Option Lexer :=
  match l.candidate with
  | some k =>
    -- The key's token, and the opening of its table, go before what was read since.
    let l := { l with tokens := l.tokens.insertIdxIfInBounds k.position .key }
    let l := (l.openBlock k.column k.position .blockTable).setCandidate none
    some { l.pushSign .value 1 with allowsKey := false }
  | none => do
    if !l.inFlow && !l.allowsKey then none
    let l := l.openBlock l.cursor.column l.tokens.size .blockTable
    return { l.pushSign .value 1 with allowsKey := !l.inFlow }

/-- A token that a key may begin with. -/
def word? (read : Cursor → Option (Token × Cursor × Bool)) (l : Lexer) : Option Lexer := do
  let l ← l.markCandidate?
  let (t, next, allowsKey) ← read l.cursor
  return { l.push t with cursor := next, allowsKey := allowsKey }

/-- A scalar in quotation marks. -/
def quoted? (isSingle : Bool) : Lexer → Option Lexer :=
  word? fun c => do
    let (text, next) ← Quoted.read? isSingle (c.advance 1)
    return (.scalar false (String.ofList text), next, false)

/-- A scalar without quotation marks. -/
def plain? (l : Lexer) : Option Lexer :=
  let margin := match l.indents with
    | [] => 0
    | i :: _ => i + 1
  l.word? fun c => do
    let (text, next, afterEnd) ← Plain.read? l.inFlow margin c
    return (.scalar true (String.ofList text), next, afterEnd)

/-- A scalar in block style. -/
def block? (isLiteral : Bool) (l : Lexer) : Option Lexer := do
  let l ← l.dropCandidate?
  let (text, next) ← Block.read? isLiteral l.indents (l.cursor.advance 1)
  return { l.push (.scalar false (String.ofList text)) with cursor := next, allowsKey := true }

/-- A plain scalar may begin with the character, in front of others. -/
def startsPlain (inFlow : Bool) (x : Char) (r : List Char) : Bool :=
  if x = '-' then !r.head?.any isBlank
  else if x = '?' ∨ x = ':' then !inFlow && !Cursor.endsWord r
  else !(isBlank x || isBreak x || [',', '[', ']', '\x7b', '\x7d', '#', '&', '*', '!', '|', '>',
    '\'', '"', '%', '@', '\x60'].contains x)

/-- The token that begins with the character `x`, in front of `r`. -/
def sign? (x : Char) (r : List Char) (l : Lexer) : Option Lexer :=
  if x = '[' then l.openFlow? .flowList
  else if x = '\x7b' then l.openFlow? .flowTable
  else if x = ']' then l.closeFlow? .flowListEnd
  else if x = '\x7d' then l.closeFlow? .flowTableEnd
  else if x = ',' then do
    return { (← l.dropCandidate?).pushSign .flowEntry 1 with allowsKey := true }
  else if x = '-' ∧ Cursor.endsWord r then do
    return { ← l.entry? (some .blockList) .blockEntry with allowsKey := true }
  else if x = '?' ∧ (l.inFlow ∨ Cursor.endsWord r) then do
    return { ← l.entry? (some .blockTable) .key with allowsKey := !l.inFlow }
  else if x = ':' ∧ (l.inFlow ∨ Cursor.endsWord r) then l.colon?
  else if x = '*' then l.word? fun c => do
    let (name, next) ← Token.name? (c.advance 1)
    return (.alias name, next, false)
  else if x = '&' then l.word? fun c => do
    let (name, next) ← Token.name? (c.advance 1)
    return (.anchor name, next, false)
  else if x = '!' then l.word? fun c => do
    let (tag, next) ← Token.tag? l.inFlow c
    return (.tag tag, next, false)
  else if x = '|' ∧ !l.inFlow then l.block? true
  else if x = '>' ∧ !l.inFlow then l.block? false
  else if x = '\'' then l.quoted? true
  else if x = '"' then l.quoted? false
  else if startsPlain l.inFlow x r then l.plain?
  else none

/-- The next token with those that indentation puts before it. -/
def next? (l : Lexer) : Option Lexer := do
  let l := l.closeBlocks l.cursor.column
  match l.cursor.rest with
  | [] => l.closeAll?
  | x :: r =>
    if l.cursor.column = 0 ∧ x = '%' then do
      let l ← l.closeAll?
      let (t, next) ← Token.directive? (l.cursor.advance 1)
      return { l.push t with cursor := next }
    else if l.cursor.isAtMark then do
      return (← l.closeAll?).pushSign (if x = '-' then .documentStart else .documentEnd) 3
    else l.sign? x r

/-- The tokens of the rest of the text behind those found. -/
def run? : Nat → Lexer → Option (Array Token)
  | 0, _ => none
  | n + 1, l => do
    let l ← (l.skipGap (l.cursor.rest.length + 1)).expire?
    let l' ← l.next?
    -- The end of the text is a step of its own: it closes what is still open.
    if l.cursor.rest.isEmpty then return l'.tokens else run? n l'

end Lexer

def tokens? (cs : List Char) : Option (List Token) :=
  if cs.all isAllowed then
    ((Lexer.run? (cs.length + 2) { cursor := { rest := cs } })).map (·.toList)
  else none

end EnumLookup.Manifest.Yaml
