import EnumLookup.Manifest.Yaml.Cursor
import EnumLookup.Text.Decimal

/-!
# Tokens of YAML

What a YAML text consists of. Tokens also stand for what indentation says: the start and the end of
a list or table in block style, and the key that a colon makes of what stands before it.
-/

namespace EnumLookup.Manifest.Yaml

/-- A tag as written: a handle, and what follows it. -/
structure Tag where
  handle : List Char
  suffix : List Char
  deriving DecidableEq, Repr

/-- The parts of a YAML text. -/
inductive Token where
  | version (major minor : Nat)
  | handle (name text : List Char)
  | documentStart
  | documentEnd
  | blockList
  | blockTable
  | blockEnd
  | flowList
  | flowListEnd
  | flowTable
  | flowTableEnd
  | blockEntry
  | flowEntry
  | key
  | value
  | alias (name : String)
  | anchor (name : String)
  | tag (tag : Tag)
  | scalar (isPlain : Bool) (text : String)
  deriving DecidableEq, Repr

namespace Token

/-- The name of an anchor behind its sign, and the place behind it. -/
def name? (c : Cursor) : Option (String × Cursor) :=
  let (name, next) := c.takeWhile isWord
  let ends := Cursor.endsWord next.rest ||
    next.rest.head?.any fun x => ['?', ':', ',', ']', '\x7d', '%', '@', '\x60'].contains x
  if name.isEmpty || !ends then none else some (String.ofList name, next)

/-- A character that may stand in a tag as it is. Lists may be written only in the text of a handle
and in a tag in angle brackets. -/
def isTagChar (allowsLists : Bool) (c : Char) : Bool :=
  isWord c || [';', '/', '?', ':', '@', '&', '=', '+', '$', '.', '!', '~', '*', '\'', '(',
    ')'].contains c || (allowsLists && [',', '[', ']'].contains c)

/-- How many octets follow the first octet of a character. -/
def octetsAfter? (octet : Nat) : Option Nat :=
  if octet < 0x80 then some 0
  else if 0xC0 ≤ octet ∧ octet < 0xE0 then some 1
  else if 0xE0 ≤ octet ∧ octet < 0xF0 then some 2
  else if 0xF0 ≤ octet ∧ octet < 0xF8 then some 3
  else none

/-- The text of a tag, octets written with a percent sign included, and how many characters it
takes. `left` octets of a character are still to come. -/
def tagText? (allowsLists : Bool) (left : Nat) : List Char → Option (List Char × Nat)
  | '%' :: h :: l :: r => do
    let octet := 16 * (← Text.digit? 16 h) + (← Text.digit? 16 l)
    let left ←
      if left = 0 then octetsAfter? octet
      else if 0x80 ≤ octet ∧ octet < 0xC0 then some (left - 1) else none
    let (text, count) ← tagText? allowsLists left r
    return (Char.ofNat octet :: text, count + 3)
  | [] => if left = 0 then some ([], 0) else none
  | c :: r =>
    if left ≠ 0 ∨ c = '%' then none
    else if isTagChar allowsLists c then
      (tagText? allowsLists 0 r).map fun (text, count) => (c :: text, count + 1)
    else some ([], 0)

/-- The text of a tag that is not empty, and the place behind it. -/
def tagSuffix? (allowsLists : Bool) (c : Cursor) : Option (List Char × Cursor) := do
  let (text, count) ← tagText? allowsLists 0 c.rest
  if count = 0 then none else return (text, c.advance count)

/-- A handle, or the start of a tag without one, and the place behind it. -/
def handle? (c : Cursor) : Option (List Char × Cursor) := do
  if !c.isAt '!' then none
  let (name, next) := (c.advance 1).takeWhile isWord
  if next.isAt '!' then return ('!' :: name ++ ['!'], next.advance 1)
  return ('!' :: name, next)

/-- A tag at its first character, and the place behind it. -/
def tag? (inFlow : Bool) (c : Cursor) : Option (Tag × Cursor) := do
  let (found, next) ←
    if ['!', '<'].isPrefixOf c.rest then do
      let (text, next) ← tagSuffix? true (c.advance 2)
      if next.isAt '>' then some (Tag.mk [] text, next.advance 1) else none
    else do
      let (start, next) ← handle? c
      if 1 < start.length ∧ start.getLast? = some '!' then do
        let (text, next) ← tagSuffix? false next
        some (Tag.mk start text, next)
      else do
        let (text, count) ← tagText? false 0 next.rest
        let suffix := start.drop 1 ++ text
        some (if suffix.isEmpty then Tag.mk [] ['!'] else Tag.mk ['!'] suffix, next.advance count)
  if Cursor.endsWord next.rest || (inFlow && next.isAt ',') then return (found, next) else none

/-- A number of a version: one to nine digits. -/
def number? (c : Cursor) : Option (Nat × Cursor) := do
  let (digits, next) := c.takeWhile Char.isDigit
  if digits.isEmpty || 9 < digits.length then none
  return (← Text.readDigits 10 digits, next)

/-- A directive behind its percent sign, and the next line. -/
def directive? (c : Cursor) : Option (Token × Cursor) := do
  let (name, next) := c.takeWhile isWord
  if !Cursor.endsWord next.rest then none
  let next := next.skipWhile isBlank
  let (token, next) ←
    if name = ['Y', 'A', 'M', 'L'] then do
      let (major, next) ← number? next
      if !next.isAt '.' then none
      let (minor, next) ← number? (next.advance 1)
      some (Token.version major minor, next)
    else if name = ['T', 'A', 'G'] then do
      let (name, next) ← handle? next
      if name.length ≠ 1 ∧ name.getLast? ≠ some '!' then none
      let start := next.skipWhile isBlank
      if start.index = next.index then none
      let (text, next) ← tagSuffix? true start
      if !Cursor.endsWord next.rest then none
      some (Token.handle name text, next)
    else none
  return (token, ← next.finishLine?)

end Token

end EnumLookup.Manifest.Yaml
