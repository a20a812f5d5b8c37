import EnumLookup.Text.Quoted

/-!
# The grammar of string literals

What may stand between the quotation marks of a string literal, and which text it denotes, as a
relation that knows nothing of how a literal is read or written.
-/

namespace EnumLookup.Text.Quoted

/-- The end of a line in a source text. -/
inductive IsLineEnd : List Char → Prop where
  | feed : IsLineEnd ['\n']
  | returnFeed : IsLineEnd ['\r', '\n']

/-- The white space that a backslash at the end of a line takes away with the line's end. -/
inductive IsGap : List Char → Prop where
  | nil : IsGap []
  | blank {c g} : c = ' ' ∨ c = '\t' → IsGap g → IsGap (c :: g)
  | lineEnd {e g} : IsLineEnd e → IsGap g → IsGap (e ++ g)

/-- The digits of a code point: up to six of them, with underscores anywhere but in front. -/
structure IsCodePoint (ds : List Char) (c : Char) : Prop where
  start : ds.head? ≠ some '_'
  count : (ds.filter (· ≠ '_')).length ≤ 6
  value : readDigits 16 (ds.filter (· ≠ '_')) = some c.toNat

/-- The characters between the quotation marks denote the text. -/
inductive Denotes : List Char → List Char → Prop where
  | nil : Denotes [] []
  | plain {c r s} : c ≠ '"' → c ≠ '\\' → c ≠ '\r' → Denotes r s → Denotes (c :: r) (c :: s)
  | lineEnd {r s} : Denotes r s → Denotes ('\r' :: '\n' :: r) ('\n' :: s)
  | simple {c d r s} : simpleEscape? c = some d → Denotes r s → Denotes ('\\' :: c :: r) (d :: s)
  | octet {x y d e r s} : digit? 8 x = some d → digit? 16 y = some e → Denotes r s →
      Denotes ('\\' :: 'x' :: x :: y :: r) (Char.ofNat (16 * d + e) :: s)
  | codePoint {ds c r s} : IsCodePoint ds c → Denotes r s →
      Denotes ('\\' :: 'u' :: '\x7b' :: ds ++ '\x7d' :: r) (c :: s)
  | skip {e g r s} : IsLineEnd e → IsGap g → (∀ c ∈ r.head?, c ∉ [' ', '\t', '\n', '\r']) →
      Denotes r s → Denotes ('\\' :: e ++ g ++ r) s

/-- A quotation mark stands in the text that no backslash escapes. A backslash escapes the character
behind it. -/
def hasBareMark : List Char → Bool
  | [] => false
  | '\\' :: _ :: r => hasBareMark r
  | c :: r => c == '"' || hasBareMark r

/-- The characters at which a text breaks its line. -/
def lineBreaks : List Char := ['\n', '\x0b', '\x0c', '\r', '\x85', '\u2028', '\u2029']

/-- A character by its code point in braces. -/
def codePointEscape (c : Char) : List Char :=
  ['\\', 'u', '\x7b'] ++ hexDigits c.toNat ++ ['\x7d']

/-- The character behind the backslash of a short escape. -/
def shortEscape? : Char → Option Char
  | '\x00' => some '0'
  | '\t' => some 't'
  | '\r' => some 'r'
  | '\n' => some 'n'
  | '"' => some '"'
  | '\\' => some '\\'
  | _ => none

/-- How a character is written if `prints` tells which characters stand for themselves. -/
def escapeWith (prints : Char → Bool) (c : Char) : List Char :=
  match shortEscape? c with
  | some d => ['\\', d]
  | none => if prints c then [c] else codePointEscape c

/-- A text between quotation marks if `prints` tells which characters stand for themselves. -/
def quotedWith (prints : Char → Bool) (cs : List Char) : List Char :=
  '"' :: cs.flatMap (escapeWith prints) ++ ['"']

/-- The text is one string literal on one line, and what it denotes is `s`. -/
structure IsLiteralOf (literal s : List Char) : Prop where
  /-- Quotation marks enclose a body without another bare one. The body denotes `s` and nothing
  else, and a reader of the body stops behind it, whatever follows. -/
  encloses : ∃ body, literal = '"' :: body ++ ['"'] ∧ hasBareMark body = false ∧
    (∀ t, Denotes body t ↔ t = s) ∧ ∀ rest, body? (body ++ '"' :: rest) = some (s, rest)
  unbroken : '\n' ∉ literal ∧ '\r' ∉ literal

end EnumLookup.Text.Quoted
