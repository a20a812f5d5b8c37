import EnumLookup.Manifest.Node
import EnumLookup.Text.Decimal

/-!
# Scalars in TOML

The four kinds of strings, and the scalars without quotation marks: truth values, numbers, dates and
times. A number is refused if it exceeds what 128 bits or a double can hold.
-/

namespace EnumLookup.Manifest.Toml

def isBlank (c : Char) : Bool := c == ' ' || c == '\t'

/-- A control character that may not stand in a text or comment. -/
def isForbidden (c : Char) : Bool := (c.toNat < 0x20 && c != '\t') || c.toNat == 0x7F

/-- Where a reader stands inside a string. -/
inductive Mode where
  /-- Between characters. -/
  | text
  /-- After a backslash. -/
  | escape
  /-- In the blanks after a backslash, before the end of the line. -/
  | trailing
  /-- In the white space behind such a line. -/
  | gap
  /-- Before the last `left + 1` hexadecimal digits of a code. -/
  | hex (code left : Nat)
  deriving DecidableEq, Repr

/-- The character of a one-letter escape. -/
def simpleEscape? (c : Char) : Option Char :=
  if c = '"' ∨ c = '\\' then some c
  else if c = 'b' then some '\x08'
  else if c = 't' then some '\t'
  else if c = 'n' then some '\n'
  else if c = 'f' then some '\x0c'
  else if c = 'r' then some '\r'
  else if c = 'e' then some '\x1b'
  else none

/-- The mode after the letter of an escape that is followed by digits. -/
def codeEscape? (c : Char) : Option Mode :=
  if c = 'x' then some (.hex 0 1)
  else if c = 'u' then some (.hex 0 3)
  else if c = 'U' then some (.hex 0 7)
  else none

/-- A character in front of what a reader found. -/
def push (c : Char) : Option (List Char × List Char) → Option (List Char × List Char)
  | some (s, rest) => some (c :: s, rest)
  | none => none

/-- A string with escapes, up to its end. Over several lines, up to two quotation marks may stand
before the three that end it. -/
def basic? (isLong : Bool) : Mode → List Char → Option (List Char × List Char)
  | _, [] => none
  | .escape, c :: r =>
    match simpleEscape? c, codeEscape? c with
    | some d, _ => push d (basic? isLong .text r)
    | none, some m => basic? isLong m r
    | none, none =>
      if !isLong then none
      -- No escape at all: the line may end here, and the white space behind it is lost.
      else if isBlank c || c == '\r' then basic? isLong .trailing r
      else if c = '\n' then basic? isLong .gap r
      else none
  | .trailing, c :: r =>
    if isBlank c || c == '\r' then basic? isLong .trailing r
    else if c = '\n' then basic? isLong .gap r
    else none
  | .hex n left, c :: r =>
    match Text.digit? 16 c, left with
    | none, _ => none
    | some d, k + 1 => basic? isLong (.hex (16 * n + d) k) r
    | some d, 0 =>
      if (16 * n + d).isValidChar then push (Char.ofNat (16 * n + d)) (basic? isLong .text r)
      else none
  | m, c :: r =>
    if m = .gap ∧ (isBlank c ∨ c = '\n' ∨ c = '\r') then basic? isLong .gap r
    else if c = '\\' then basic? isLong .escape r
    else if c = '"' then
      if !isLong then some ([], r)
      else match r with
        | '"' :: '"' :: '"' :: '"' :: rest => some (['"', '"'], rest)
        | '"' :: '"' :: '"' :: rest => some (['"'], rest)
        | '"' :: '"' :: rest => some ([], rest)
        | _ => push '"' (basic? isLong .text r)
    else if isLong && (c == '\n' || (c == '\r' && r.head? == some '\n')) then
      push c (basic? isLong .text r)
    else if isForbidden c then none
    else push c (basic? isLong .text r)

/-- A string without escapes, up to its end. -/
def literal? (isLong : Bool) : List Char → Option (List Char × List Char)
  | [] => none
  | c :: r =>
    if c = '\'' then
      if !isLong then some ([], r)
      else match r with
        | '\'' :: '\'' :: '\'' :: '\'' :: rest => some (['\'', '\''], rest)
        | '\'' :: '\'' :: '\'' :: rest => some (['\''], rest)
        | '\'' :: '\'' :: rest => some ([], rest)
        | _ => push '\'' (literal? isLong r)
    else if isLong && (c == '\n' || (c == '\r' && r.head? == some '\n')) then
      push c (literal? isLong r)
    else if isForbidden c then none
    else push c (literal? isLong r)

/-- The text without a line end at its start. -/
def dropLineEnd : List Char → List Char
  | '\n' :: r => r
  | '\r' :: '\n' :: r => r
  | cs => cs

/-- A string of any kind at the start of the text, and the rest. -/
def string? : List Char → Option (String × List Char)
  | '"' :: '"' :: '"' :: r => pack (basic? true .text (dropLineEnd r))
  | '"' :: r => pack (basic? false .text r)
  | '\'' :: '\'' :: '\'' :: r => pack (literal? true (dropLineEnd r))
  | '\'' :: r => pack (literal? false r)
  | _ => none
where
  pack (o : Option (List Char × List Char)) : Option (String × List Char) :=
    o.map fun (s, rest) => (String.ofList s, rest)

/-- The number that digits with single underscores between them denote. -/
def groups? (base : Nat) (needsDigit : Bool) (acc : Nat) : List Char → Option Nat
  | [] => if needsDigit then none else some acc
  | c :: r =>
    if c = '_' then if needsDigit then none else groups? base true acc r
    else match Text.digit? base c with
      | some d => groups? base false (acc * base + d) r
      | none => none

/-- The sign of a number, and what follows it. -/
def sign : List Char → Bool × List Char
  | '-' :: r => (true, r)
  | '+' :: r => (false, r)
  | r => (false, r)

/-- A decimal numeral that does not start with a nought of no use. -/
def decimal? (cs : List Char) : Option Nat :=
  if cs.head? = some '0' ∧ cs.length ≠ 1 then none else groups? 10 true 0 cs

/-- An integer in any base. -/
def integer? : List Char → Option Int
  | '0' :: 'x' :: r => (groups? 16 true 0 r).map Int.ofNat
  | '0' :: 'o' :: r => (groups? 8 true 0 r).map Int.ofNat
  | '0' :: 'b' :: r => (groups? 2 true 0 r).map Int.ofNat
  | cs => do
    let (isNegative, ds) := sign cs
    let n ← decimal? ds
    return if isNegative then -n else n

/-- The number `digits · 10 ^ exponent` is too great for a double. -/
def isTooGreat (digits : Nat) (exponent : Int) : Bool :=
  let magnitude : Int := (Text.natDigits digits).length + exponent
  if digits == 0 || magnitude < 300 then false
  else if 320 < magnitude then true
  else
    -- Halfway from the greatest double to the next power of two.
    let bound := 1 <<< 1024 - 1 <<< 970
    if 0 ≤ exponent then bound ≤ digits * Nat.pow 10 exponent.toNat
    else bound * Nat.pow 10 (-exponent).toNat ≤ digits

/-- The parts of a number with a fraction or an exponent: digits, and the sign of the exponent. -/
structure FloatParts where
  whole : List Char
  fraction : Option (List Char)
  exponent : Option (Bool × List Char)

namespace FloatParts

/-- A mark between the parts. -/
def isMark (c : Char) : Bool := c == '.' || c == 'e' || c == 'E'

def ofChars? (cs : List Char) : Option FloatParts :=
  let (whole, rest) := cs.span (!isMark ·)
  let (fraction, rest) := match rest with
    | '.' :: r => (some (r.takeWhile (!isMark ·)), r.dropWhile (!isMark ·))
    | r => (none, r)
  match rest with
  | [] => some ⟨whole, fraction, none⟩
  | c :: r => if c = '.' then none else some ⟨whole, fraction, some (sign r)⟩

/-- The number `digits · 10 ^ exponent` that the parts denote, as its digits and exponent. One of
fraction and exponent has to be there, and every part that is there has digits. -/
def number? (p : FloatParts) : Option (Nat × Int) := do
  if p.fraction.isNone && p.exponent.isNone then none
  let _ ← decimal? p.whole
  let places := p.fraction.getD []
  if p.fraction.any fun f => (groups? 10 true 0 f).isNone then none
  let digits ← groups? 10 true 0 (p.whole ++ places)
  let exponent ← match p.exponent with
    | none => some 0
    | some (isNegative, ds) =>
      (groups? 10 true 0 ds).map fun n => if isNegative then -(n : Int) else n
  return (digits, exponent - (places.filter (· != '_')).length)

end FloatParts

/-- A number with a fraction or an exponent, or a word for one that is none. -/
def isFloat (cs : List Char) : Bool :=
  let (_, cs) := sign cs
  if cs = ['i', 'n', 'f'] ∨ cs = ['n', 'a', 'n'] then true
  else match (FloatParts.ofChars? cs).bind FloatParts.number? with
    | some (digits, exponent) => !isTooGreat digits exponent
    | none => false

/-- A number of a fixed count of digits within bounds. -/
def isField (count least greatest : Nat) (cs : List Char) : Bool :=
  cs.length == count && cs.all Char.isDigit &&
    match Text.readDigits 10 cs with
    | some n => least ≤ n && n ≤ greatest
    | none => false

/-- The number of days of a month. -/
def monthLength (year month : Nat) : Nat :=
  if month == 2 then
    if year % 4 == 0 && (year % 100 != 0 || year % 400 == 0) then 29 else 28
  else if [4, 6, 9, 11].contains month then 30
  else 31

/-- A date such as `1979-05-27`. -/
def isDate (cs : List Char) : Bool :=
  match cs with
  | [y₁, y₂, y₃, y₄, '-', m₁, m₂, '-', d₁, d₂] =>
    let number := fun ds => (Text.readDigits 10 ds).getD 0
    isField 4 0 9999 [y₁, y₂, y₃, y₄] && isField 2 1 12 [m₁, m₂] &&
      isField 2 1 (monthLength (number [y₁, y₂, y₃, y₄]) (number [m₁, m₂])) [d₁, d₂]
  | _ => false

/-- Seconds after a time's minutes: none, whole ones, or ones with a fraction. -/
def isSeconds : List Char → Bool
  | [] => true
  | [':', s₁, s₂] => isField 2 0 60 [s₁, s₂]
  | ':' :: s₁ :: s₂ :: '.' :: f => isField 2 0 60 [s₁, s₂] && !f.isEmpty && f.all Char.isDigit
  | _ => false

/-- A time of day such as `07:32:00.5`. -/
def isTime : List Char → Bool
  | h₁ :: h₂ :: ':' :: m₁ :: m₂ :: r =>
    isField 2 0 23 [h₁, h₂] && isField 2 0 59 [m₁, m₂] && isSeconds r
  | _ => false

/-- A time of day, perhaps with an offset from universal time. -/
def isOffsetTime (cs : List Char) : Bool :=
  match cs.span (fun c => c.isDigit || c == ':' || c == '.') with
  | (t, []) => isTime t
  | (t, ['Z']) => isTime t
  | (t, ['z']) => isTime t
  | (t, [s, h₁, h₂, ':', m₁, m₂]) =>
    isTime t && (s == '+' || s == '-') && isField 2 0 23 [h₁, h₂] && isField 2 0 59 [m₁, m₂]
  | _ => false

/-- A date, a time, or both. -/
def isMoment (cs : List Char) : Bool :=
  isDate cs || isTime cs ||
    match cs.drop 10 with
    | c :: r => (c == 'T' || c == 't' || c == ' ') && isDate (cs.take 10) && isOffsetTime r
    | [] => false

/-- What a scalar without quotation marks stands for. -/
def plain? (cs : List Char) : Option Reading :=
  match integer? cs with
  | some n => if -(1 <<< 127 : Nat) ≤ n ∧ n < (1 <<< 128 : Nat) then some (.integer n) else none
  | none =>
    if cs = ['t', 'r', 'u', 'e'] ∨ cs = ['f', 'a', 'l', 's', 'e'] ∨ isFloat cs ∨ isMoment cs then
      some .other
    else none

/-- A character of a scalar without quotation marks. -/
def isPlain (c : Char) : Bool :=
  c.isAlphanum || c == '+' || c == '-' || c == '_' || c == '.' || c == ':'

/-- A scalar without quotation marks at the start of the text. A space may stand between a date and
a time. -/
def takePlain (cs : List Char) : List Char × List Char :=
  let (run, rest) := cs.span isPlain
  match rest with
  | ' ' :: c :: r =>
    if isDate run && c.isDigit then
      let (time, rest) := (c :: r).span isPlain
      (run ++ ' ' :: time, rest)
    else (run, rest)
  | _ => (run, rest)

end EnumLookup.Manifest.Toml
