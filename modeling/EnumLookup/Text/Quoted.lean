import EnumLookup.Text.Decimal
import EnumLookup.Text.Printable

/-!
# Quoted texts

`quote` writes a text as one string literal: a quotation mark, a backslash and the common control
characters get a short escape, and every other character that does not print gets its code point in
braces. `Quoted.scan` is the language's rule for reading such a literal, and knows more escapes than
`quote` writes.
-/

namespace EnumLookup.Text

/-- How a character is written between quotation marks. -/
def escape (c : Char) : List Char :=
  if c = '\x00' then ['\\', '0']
  else if c = '\t' then ['\\', 't']
  else if c = '\r' then ['\\', 'r']
  else if c = '\n' then ['\\', 'n']
  else if c = '"' then ['\\', '"']
  else if c = '\\' then ['\\', '\\']
  else if isPrintable c then [c]
  else ['\\', 'u', '\x7b'] ++ hexDigits c.toNat ++ ['\x7d']

/-- A text between quotation marks. -/
def quotedChars (cs : List Char) : List Char := '"' :: cs.flatMap escape ++ ['"']

/-- A text as a string literal. -/
def quote (s : String) : String := String.ofList (quotedChars s.toList)

namespace Quoted

/-- Where a reader stands inside a string literal. -/
inductive Mode where
  /-- Between characters. -/
  | text
  /-- After a carriage return, which only a line feed may follow. -/
  | carriage
  /-- After a backslash. -/
  | escape
  /-- In the white space after a backslash at the end of a line. -/
  | gap
  /-- After a carriage return in such white space. -/
  | gapCarriage
  /-- Before the first digit of a two-digit escape. -/
  | high
  /-- Before its second digit. -/
  | low (first : Nat)
  /-- Before the brace of a code point. -/
  | brace
  /-- Inside the braces, after `count` digits of value `code`. -/
  | code (code count : Nat)
  deriving DecidableEq, Repr

/-- The character that a one-letter escape denotes. -/
def simpleEscape? (c : Char) : Option Char :=
  if c = 'n' then some '\n'
  else if c = 'r' then some '\r'
  else if c = 't' then some '\t'
  else if c = '0' then some '\x00'
  else if c = '\\' ∨ c = '"' ∨ c = '\'' then some c
  else none

/-- The character of a code point, if it has one. -/
def scalar? (n : Nat) : Option Char := if n.isValidChar then some (Char.ofNat n) else none

/-- The text up to the closing quotation mark, and what follows that mark. -/
def scan : Mode → List Char → Option (List Char × List Char)
  | _, [] => none
  | .text, c :: r =>
    if c = '"' then some ([], r)
    else if c = '\\' then scan .escape r
    else if c = '\r' then scan .carriage r
    else (scan .text r).map fun (s, rest) => (c :: s, rest)
  | .carriage, c :: r =>
    if c = '\n' then (scan .text r).map fun (s, rest) => ('\n' :: s, rest) else none
  | .escape, c :: r =>
    if c = 'x' then scan .high r
    else if c = 'u' then scan .brace r
    else if c = '\n' then scan .gap r
    else if c = '\r' then scan .gapCarriage r
    else match simpleEscape? c with
      | some d => (scan .text r).map fun (s, rest) => (d :: s, rest)
      | none => none
  | .gap, c :: r =>
    if c = ' ' ∨ c = '\t' ∨ c = '\n' then scan .gap r
    else if c = '\r' then scan .gapCarriage r
    else if c = '"' then some ([], r)
    else if c = '\\' then scan .escape r
    else (scan .text r).map fun (s, rest) => (c :: s, rest)
  | .gapCarriage, c :: r => if c = '\n' then scan .gap r else none
  | .high, c :: r =>
    match digit? 8 c with
    | some d => scan (.low d) r
    | none => none
  | .low d, c :: r =>
    match digit? 16 c with
    | some e => (scan .text r).map fun (s, rest) => (Char.ofNat (16 * d + e) :: s, rest)
    | none => none
  | .brace, c :: r => if c = '\x7b' then scan (.code 0 0) r else none
  | .code n k, c :: r =>
    if c = '\x7d' then
      if k = 0 then none
      else match scalar? n with
        | some d => (scan .text r).map fun (s, rest) => (d :: s, rest)
        | none => none
    else if c = '_' then if k = 0 then none else scan (.code n k) r
    else match digit? 16 c with
      | some d => if k < 6 then scan (.code (16 * n + d) (k + 1)) r else none
      | none => none

/-- The text of a string literal whose opening quotation mark has been read, and the rest. -/
def body? (cs : List Char) : Option (List Char × List Char) := scan .text cs

end Quoted

end EnumLookup.Text
