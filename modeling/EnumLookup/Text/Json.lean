import EnumLookup.Text.Decimal

/-!
# JSON texts

A JSON value is written on one line without spaces, or with a line for each item, indented by two
spaces. In a string, quotation mark, backslash and the characters below the space are escaped, and
all others stand for themselves.
-/

namespace EnumLookup.Text

/-- A JSON value made of integers, strings, arrays and objects. -/
inductive Json where
  | int (n : Int)
  | text (s : String)
  | array (items : List Json)
  | object (fields : List (String × Json))
  deriving Repr

namespace Json

/-- How a character is written in a string. -/
def escape (c : Char) : List Char :=
  if c = '"' then ['\\', '"']
  else if c = '\\' then ['\\', '\\']
  else if c = '\x08' then ['\\', 'b']
  else if c = '\x0c' then ['\\', 'f']
  else if c = '\n' then ['\\', 'n']
  else if c = '\r' then ['\\', 'r']
  else if c = '\t' then ['\\', 't']
  else if c.toNat < 0x20 then
    ['\\', 'u', '0', '0', if c.toNat < 0x10 then '0' else '1'] ++ hexDigits (c.toNat % 16)
  else [c]

def string (s : String) : List Char := '"' :: s.toList.flatMap escape ++ ['"']

mutual
/-- A value on one line. -/
def compactChars : Json → List Char
  | .int n => intDigits n
  | .text s => string s
  | .array [] => ['[', ']']
  | .array (j :: js) => '[' :: compactChars j ++ compactItems js
  | .object [] => ['\x7b', '\x7d']
  | .object ((k, j) :: fs) => '\x7b' :: string k ++ ':' :: compactChars j ++ compactFields fs

/-- The items of an array behind its first, and its end. -/
def compactItems : List Json → List Char
  | [] => [']']
  | j :: js => ',' :: compactChars j ++ compactItems js

/-- The fields of an object behind its first, and its end. -/
def compactFields : List (String × Json) → List Char
  | [] => ['\x7d']
  | (k, j) :: fs => ',' :: string k ++ ':' :: compactChars j ++ compactFields fs
end

def compact (j : Json) : String := String.ofList j.compactChars

/-- The start of a line at a depth. -/
def newLine (depth : Nat) : List Char := '\n' :: List.replicate (2 * depth) ' '

mutual
/-- A value over several lines, at a depth. -/
def prettyChars (depth : Nat) : Json → List Char
  | .int n => intDigits n
  | .text s => string s
  | .array [] => ['[', ']']
  | .array (j :: js) =>
    '[' :: newLine (depth + 1) ++ prettyChars (depth + 1) j ++ prettyItems depth js
  | .object [] => ['\x7b', '\x7d']
  | .object ((k, j) :: fs) =>
    '\x7b' :: newLine (depth + 1) ++ string k ++ [':', ' '] ++ prettyChars (depth + 1) j ++
      prettyFields depth fs

/-- The items of an array behind its first, and its end. -/
def prettyItems (depth : Nat) : List Json → List Char
  | [] => newLine depth ++ [']']
  | j :: js => ',' :: newLine (depth + 1) ++ prettyChars (depth + 1) j ++ prettyItems depth js

/-- The fields of an object behind its first, and its end. -/
def prettyFields (depth : Nat) : List (String × Json) → List Char
  | [] => newLine depth ++ ['\x7d']
  | (k, j) :: fs =>
    ',' :: newLine (depth + 1) ++ string k ++ [':', ' '] ++ prettyChars (depth + 1) j ++
      prettyFields depth fs
end

def pretty (j : Json) : String := String.ofList (j.prettyChars 0)

end Json

end EnumLookup.Text
