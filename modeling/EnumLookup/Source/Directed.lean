import EnumLookup.Source.Reader

/-!
# Words with their direction marks

The two invisible direction marks are white space between tokens, yet they may stand in a name that
is written into a text. Read with `Marks.kept`, a word is spelled with the direction marks directly
in front of it; read with `Marks.dropped`, as the language reads it, it is spelled without them.
-/

namespace EnumLookup.Source

/-- A character that tells the direction of writing: white space that is no Unicode white space. -/
def isDirectionMark (c : Char) : Bool := c == '\u200e' || c == '\u200f'

/-- What becomes of the direction marks in front of a word. -/
inductive Marks where
  | dropped | kept
  deriving DecidableEq, Repr

/-- A token with the direction marks in front of it, which only a word keeps. -/
def Token.directed (marks : List Char) : Token → Token
  | .word w => .word (String.ofList marks ++ w)
  | t => t

/-- The tokens of a text, each with the direction marks in front of it, given those just read and
`fuel` at least the text's length. -/
def directedWithin : Nat → List Char → List Char → Option (List Token)
  | _, _, [] => some []
  | 0, _, _ :: _ => none
  | fuel + 1, marks, c :: r =>
    if isDirectionMark c then directedWithin fuel (marks ++ [c]) r
    else do
      let (t, rest) ← step? (c :: r)
      (t.map (Token.directed marks) ++ ·) <$> directedWithin fuel [] rest

/-- The tokens of a text, read with its direction marks dropped or kept. -/
def tokensAs? (m : Marks) (cs : List Char) : Option (List Token) :=
  match m with
  | .dropped => tokens? cs
  | .kept => directedWithin cs.length [] cs

/-- The file that a text spells, read with its direction marks dropped or kept. -/
def File.readAs? (m : Marks) (s : String) : Option File := do
  File.ofTokens? (← tokensAs? m s.toList)

end EnumLookup.Source
