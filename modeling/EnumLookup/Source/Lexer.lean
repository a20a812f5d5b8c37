import EnumLookup.Source.Token
import EnumLookup.Text.Blank
import EnumLookup.Text.Identifier

/-!
# From characters to tokens

`tokens?` splits a source text into tokens. White space and comments separate tokens and are
dropped, documentation comments are tokens, and the longest mark wins. A text with a character or
literal outside the tokens of `Source.Token` has no tokens at all.
-/

namespace EnumLookup.Source

/-- White space between tokens: that of Unicode, and the two invisible direction marks. -/
def isSkipped (c : Char) : Bool := Text.isSpace c || c == '\u200e' || c == '\u200f'

/-- A line's text up to its end, and the rest from the line feed on. A carriage return belongs to
the line end if a line feed follows it. -/
def splitLine : List Char → List Char × List Char
  | [] => ([], [])
  | '\n' :: r => ([], '\n' :: r)
  | '\r' :: '\n' :: r => ([], '\n' :: r)
  | c :: r => (c :: (splitLine r).1, (splitLine r).2)

/-- The text up to the end of a block comment that is open `depth + 1` times, and what follows. -/
def splitBlock : Nat → List Char → Option (List Char × List Char)
  | _, [] => none
  | depth, '/' :: '*' :: r =>
    (splitBlock (depth + 1) r).map fun (t, rest) => ('/' :: '*' :: t, rest)
  | 0, '*' :: '/' :: r => some ([], r)
  | depth + 1, '*' :: '/' :: r =>
    (splitBlock depth r).map fun (t, rest) => ('*' :: '/' :: t, rest)
  | depth, c :: r => (splitBlock depth r).map fun (t, rest) => (c :: t, rest)

/-- Every carriage return has a line feed after it. -/
def returnsPaired : List Char → Bool
  | [] => true
  | '\r' :: '\n' :: r => returnsPaired r
  | '\r' :: _ => false
  | _ :: r => returnsPaired r

/-- A documentation comment as a token, unless a bare carriage return stands in it. -/
def docToken (inner : Bool) (text : List Char) (rest : List Char) :
    Option (List Token × List Char) :=
  if returnsPaired text then some ([.doc inner (String.ofList text)], rest) else none

/-- A comment: what follows two slashes, or a slash and a star, decides whether it documents. -/
def comment? : List Char → Option (List Token × List Char)
  | '/' :: '/' :: '!' :: r => let (t, rest) := splitLine r; docToken true t rest
  -- A fourth slash, or a third star below, makes it an ordinary comment again.
  | '/' :: '/' :: '/' :: '/' :: r => some ([], (splitLine r).2)
  | '/' :: '/' :: '/' :: r => let (t, rest) := splitLine r; docToken false t rest
  | '/' :: '/' :: r => some ([], (splitLine r).2)
  | '/' :: '*' :: '*' :: '/' :: r => some ([], r)
  | '/' :: '*' :: '*' :: '*' :: r =>
    (splitBlock 0 ('*' :: '*' :: r)).map fun (_, rest) => ([], rest)
  | '/' :: '*' :: '*' :: r => do let (t, rest) ← splitBlock 0 r; docToken false t rest
  | '/' :: '*' :: '!' :: r => do let (t, rest) ← splitBlock 0 r; docToken true t rest
  | '/' :: '*' :: r => (splitBlock 0 r).map fun (_, rest) => ([], rest)
  | _ => none

/-- Words that change the meaning of a quotation mark or hash after them. -/
def literalPrefixes : List String := ["r", "b", "c", "br", "cr"]

/-- A word at the start of the text, raw or not. A literal with a prefix is not read. -/
def word? (cs : List Char) : Option (List Token × List Char) :=
  let w := cs.takeWhile Text.isIdentifierPart
  let r := cs.dropWhile Text.isIdentifierPart
  let s := String.ofList w
  match r with
  | '#' :: c :: r' =>
    if s = "r" ∧ Text.isIdentifierStart c then
      let raw := String.ofList ((c :: r').takeWhile Text.isIdentifierPart)
      if unrawable.contains raw then none
      else some ([.word ("r#" ++ raw)], (c :: r').dropWhile Text.isIdentifierPart)
    -- Behind a prefix, any other hash opens a literal.
    else if literalPrefixes.contains s then none
    else some ([.word s], r)
  | c :: _ =>
    if literalPrefixes.contains s && (c == '"' || c == '#' || (c == '\'' && s == "b")) then none
    else some ([.word s], r)
  | [] => some ([.word s], r)

/-- A lifetime, whose tick has been read. -/
def lifetime? : List Char → Option (List Token × List Char)
  | [] => none
  | c :: r =>
    if Text.isIdentifierStart c then
      let rest := r.dropWhile Text.isIdentifierPart
      -- With a second tick it is a character.
      if rest.head? = some '\'' then none
      else some ([.lifetime (String.ofList (c :: r.takeWhile Text.isIdentifierPart))], rest)
    else none

/-- An integer literal: decimal digits, then nothing or the name of a width. -/
def number? (cs : List Char) : Option (List Token × List Char) := do
  let ds := cs.takeWhile Char.isDigit
  let r := cs.dropWhile Char.isDigit
  let n ← Text.readDigits 10 ds
  let suffix := r.takeWhile Text.isIdentifierPart
  let rest := r.dropWhile Text.isIdentifierPart
  -- A dot goes on with a fraction.
  if rest.head? = some '.' then none
  else if suffix.isEmpty then some ([.number n none], rest)
  else do
    let w ← Width.ofText? (String.ofList suffix)
    some ([.number n (some w)], rest)

/-- A string literal, whose opening quotation mark has been read. -/
def string? (cs : List Char) : Option (List Token × List Char) := do
  let (s, rest) ← Text.Quoted.body? cs
  if rest.head?.any Text.isIdentifierStart then none
  else some ([.text (String.ofList s)], rest)

/-- The longest mark at the start of the text. -/
def mark? (cs : List Char) : Option (List Token × List Char) := do
  let m ← Mark.all.find? fun m => m.chars.isPrefixOf cs
  some ([.mark m], cs.drop m.chars.length)

/-- What the text starts with: at most one token, and the text after it. -/
def step? : List Char → Option (List Token × List Char)
  | [] => none
  | c :: r =>
    if isSkipped c then some ([], r)
    else if c = '/' then comment? (c :: r)
    else if Text.isIdentifierStart c then word? (c :: r)
    else if c.isDigit then number? (c :: r)
    else if c = '"' then string? r
    else if c = '\'' then lifetime? r
    else mark? (c :: r)

/-- The tokens of a text, with `fuel` at least its length. -/
def tokensWithin : Nat → List Char → Option (List Token)
  | _, [] => some []
  | 0, _ :: _ => none
  | fuel + 1, c :: r => do
    let (t, rest) ← step? (c :: r)
    (t ++ ·) <$> tokensWithin fuel rest

def tokens? (cs : List Char) : Option (List Token) := tokensWithin cs.length cs

/-- The text without a leading byte order mark. -/
def dropOrderMark : List Char → List Char
  | '\ufeff' :: r => r
  | cs => cs

/-- The identifier that a text spells, once white space, comments and a leading byte order mark are
taken away. -/
def identifier? (s : String) : Option String :=
  match tokens? (dropOrderMark s.toList) with
  | some [.word w] => if isIdentifier w then some w else none
  | _ => none

end EnumLookup.Source
