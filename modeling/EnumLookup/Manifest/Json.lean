import EnumLookup.Manifest.Node
import EnumLookup.Text.Json

/-!
# Manifests in JSON

A reader for JSON texts. Escapes in strings denote UTF-16 units, and a string whose surrogates are
not paired has no text; it is refused only where its text is needed. An integer is a number without
fraction and exponent, other than minus nought.
-/

namespace EnumLookup.Manifest.Json

/-- White space between tokens. -/
def isBlank (c : Char) : Bool := c == ' ' || c == '\n' || c == '\t' || c == '\r'

/-- The text behind white space. -/
def skip (cs : List Char) : List Char := cs.dropWhile isBlank

/-- Where a reader stands inside a string. -/
inductive Mode where
  /-- Between characters. -/
  | text
  /-- After a backslash. -/
  | escape
  /-- After `count` hexadecimal digits of value `code`. -/
  | hex (code count : Nat)
  deriving DecidableEq, Repr

/-- The code of a one-letter escape. -/
def simpleEscape? (c : Char) : Option Nat :=
  if c = '"' ∨ c = '\\' ∨ c = '/' then some c.toNat
  else if c = 'b' then some 0x8
  else if c = 'f' then some 0xC
  else if c = 'n' then some 0xA
  else if c = 'r' then some 0xD
  else if c = 't' then some 0x9
  else none

/-- The codes that a string denotes up to its closing quotation mark, and the rest. -/
def units? : Mode → List Char → Option (List Nat × List Char)
  | _, [] => none
  | .text, c :: r =>
    if c = '"' then some ([], r)
    else if c = '\\' then units? .escape r
    else if c.toNat < 0x20 then none
    else (units? .text r).map fun (us, rest) => (c.toNat :: us, rest)
  | .escape, c :: r =>
    if c = 'u' then units? (.hex 0 0) r
    else match simpleEscape? c with
      | some u => (units? .text r).map fun (us, rest) => (u :: us, rest)
      | none => none
  | .hex n k, c :: r =>
    match Text.digit? 16 c with
    | none => none
    | some d =>
      if k = 3 then (units? .text r).map fun (us, rest) => ((16 * n + d) :: us, rest)
      else units? (.hex (16 * n + d) (k + 1)) r

/-- The first half of a surrogate pair. -/
def isHigh (u : Nat) : Bool := 0xD800 ≤ u && u < 0xDC00

/-- The second half of a surrogate pair. -/
def isLow (u : Nat) : Bool := 0xDC00 ≤ u && u < 0xE000

/-- The characters of codes, if their surrogates are paired. -/
def pair? : List Nat → Option (List Char)
  | [] => some []
  | [u] => if isHigh u || isLow u then none else some [Char.ofNat u]
  | u :: v :: r =>
    if isHigh u then
      if isLow v then
        (pair? r).map (Char.ofNat (0x10000 + (u - 0xD800) * 0x400 + (v - 0xDC00)) :: ·)
      else none
    else if isLow u then none
    else (pair? (v :: r)).map (Char.ofNat u :: ·)

/-- The text of a string whose opening quotation mark has been read, if it has one, and the rest. -/
def string? (cs : List Char) : Option (Option String × List Char) :=
  (units? .text cs).map fun (us, rest) => ((pair? us).map String.ofList, rest)

/-- A run of digits with at least one. -/
def digits? (cs : List Char) : Option (List Char × List Char) :=
  let ds := cs.takeWhile Char.isDigit
  if ds.isEmpty then none else some (ds, cs.dropWhile Char.isDigit)

/-- The digits before a fraction: nought alone or no nought first. -/
def whole? (cs : List Char) : Option (List Char × List Char) := do
  let (ds, rest) ← digits? cs
  if ds.head? = some '0' ∧ ds.length ≠ 1 then none else some (ds, rest)

/-- What follows a fraction, and whether there is one. -/
def fraction? : List Char → Option (Bool × List Char)
  | '.' :: r => (digits? r).map fun (_, rest) => (true, rest)
  | cs => some (false, cs)

/-- What follows an exponent, and whether there is one. -/
def exponent? : List Char → Option (Bool × List Char)
  | [] => some (false, [])
  | c :: r =>
    if c = 'e' ∨ c = 'E' then
      let r' := match r with
        | '+' :: s => s
        | '-' :: s => s
        | s => s
      (digits? r').map fun (_, rest) => (true, rest)
    else some (false, c :: r)

def plain (value : Reading) : Node := .scalar { text := none, value := value }

def number? (cs : List Char) : Option (Node × List Char) := do
  let (isNegative, cs) := match cs with
    | '-' :: r => (true, r)
    | cs => (false, cs)
  let (ds, cs) ← whole? cs
  let (hasFraction, cs) ← fraction? cs
  let (hasExponent, cs) ← exponent? cs
  let n ← Text.readDigits 10 ds
  if hasFraction || hasExponent || (isNegative && n == 0) then some (plain .other, cs)
  else some (plain (.integer (if isNegative then -n else n)), cs)

/-- The text behind a literal word. -/
def literal? (word : List Char) (cs : List Char) : Option (List Char) :=
  if word.isPrefixOf cs then some (cs.drop word.length) else none

mutual
/-- A value at the start of the text, and the rest. -/
def value? : Nat → List Char → Option (Node × List Char)
  | 0, _ => none
  | n + 1, cs =>
    match skip cs with
    | [] => none
    | '"' :: r => (string? r).map fun (t, rest) => (.scalar { text := t, value := .other }, rest)
    | '[' :: r =>
      match skip r with
      | ']' :: rest => some (.list [], rest)
      | r' => (items? n r').map fun (ns, rest) => (.list ns, rest)
    | '\x7b' :: r =>
      match skip r with
      | '\x7d' :: rest => some (.table [], rest)
      | r' => (fields? n r').map fun (fs, rest) => (.table fs, rest)
    | 'n' :: r => (literal? ['u', 'l', 'l'] r).map fun rest => (plain .absent, rest)
    | 't' :: r => (literal? ['r', 'u', 'e'] r).map fun rest => (plain .other, rest)
    | 'f' :: r => (literal? ['a', 'l', 's', 'e'] r).map fun rest => (plain .other, rest)
    | cs' => number? cs'

/-- The items of an array up to its end. -/
def items? : Nat → List Char → Option (List Node × List Char)
  | 0, _ => none
  | n + 1, cs => do
    let (x, rest) ← value? n cs
    match skip rest with
    | ',' :: r => (items? n r).map fun (xs, rest) => (x :: xs, rest)
    | ']' :: r => some ([x], r)
    | _ => none

/-- The fields of an object up to its end. -/
def fields? : Nat → List Char → Option (List (Option String × Node) × List Char)
  | 0, _ => none
  | n + 1, cs => do
    match skip cs with
    | '"' :: r =>
      let (key, rest) ← string? r
      match skip rest with
      | ':' :: r =>
        let (x, rest) ← value? n r
        match skip rest with
        | ',' :: r => (fields? n r).map fun (fs, rest) => ((key, x) :: fs, rest)
        | '\x7d' :: r => some ([(key, x)], r)
        | _ => none
      | _ => none
    | _ => none
end

/-- The document of a JSON text: one value between white space. -/
def document? (cs : List Char) : Option Document := do
  let (root, rest) ← value? (2 * cs.length + 2) cs
  if (skip rest).isEmpty then some { root := root } else none

/-- A list may stand for a table in JSON, but not with more items than fields. -/
def rules : Rules := { allowsLists := true, allowsExtras := false }

end EnumLookup.Manifest.Json
