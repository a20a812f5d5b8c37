/-!
# Decimal numerals

The numeral of a natural number has no leading zero, and an integer carries a minus sign when it is
negative. `readDigits` is the other direction: the number that a run of digits denotes.
-/

namespace EnumLookup.Text

/-- The character of a digit below ten. -/
def digitChar (d : Nat) : Char := Char.ofNat ('0'.toNat + d)

/-- The digits of `n`, most significant first, with `fuel` at least the number of digits. -/
def digitsWithin : Nat → Nat → List Char
  | 0, _ => []
  | fuel + 1, n =>
    if n < 10 then [digitChar n] else digitsWithin fuel (n / 10) ++ [digitChar (n % 10)]

/-- The numeral of a natural number. -/
def natDigits (n : Nat) : List Char := digitsWithin (n + 1) n

/-- The numeral of an integer. -/
def intDigits : Int → List Char
  | .ofNat n => natDigits n
  | .negSucc n => '-' :: natDigits (n + 1)

def natText (n : Nat) : String := String.ofList (natDigits n)

def intText (n : Int) : String := String.ofList (intDigits n)

/-- The value of a character as a digit in any base up to sixteen. -/
def hexDigit? (c : Char) : Option Nat :=
  if '0' ≤ c ∧ c ≤ '9' then some (c.toNat - '0'.toNat)
  else if 'a' ≤ c ∧ c ≤ 'f' then some (c.toNat - 'a'.toNat + 10)
  else if 'A' ≤ c ∧ c ≤ 'F' then some (c.toNat - 'A'.toNat + 10)
  else none

/-- The value of a character as a digit of the base. -/
def digit? (base : Nat) (c : Char) : Option Nat :=
  (hexDigit? c).filter (· < base)

/-- The number that the digits denote after the number `acc`, or nothing if one is no digit. -/
def readDigitsFrom (base acc : Nat) : List Char → Option Nat
  | [] => some acc
  | c :: r => do readDigitsFrom base (acc * base + (← digit? base c)) r

/-- The number that a non-empty run of digits denotes. -/
def readDigits (base : Nat) : List Char → Option Nat
  | [] => none
  | cs => readDigitsFrom base 0 cs

/-- The digits of a number in lowercase hexadecimal, with `fuel` at least their number. -/
def hexDigitsWithin : Nat → Nat → List Char
  | 0, _ => []
  | fuel + 1, n =>
    let d := n % 16
    let c := if d < 10 then digitChar d else Char.ofNat ('a'.toNat + (d - 10))
    if n < 16 then [c] else hexDigitsWithin fuel (n / 16) ++ [c]

/-- A number in lowercase hexadecimal without leading zeros. -/
def hexDigits (n : Nat) : List Char := hexDigitsWithin (n + 1) n

end EnumLookup.Text
