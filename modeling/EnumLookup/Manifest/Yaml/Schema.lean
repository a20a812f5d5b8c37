import EnumLookup.Manifest.Node
import EnumLookup.Text.Decimal

/-!
# What YAML scalars stand for

A plain scalar without a tag may stand for nothing or for an integer: decimal with an optional sign
and no nought of no use in front, or with `0x`, `0o` or `0b`. The tags for null and integers ask for
just that. With any other tag, or in quotation marks, a scalar is a text.
-/

namespace EnumLookup.Manifest.Yaml

/-- The handle `!!` stands for this. -/
def coreHandle : List Char := "tag:yaml.org,2002:".toList

/-- Words that stand for nothing. -/
def nullWords : List String := ["null", "Null", "NULL", "~"]

/-- The number of digits behind `0x`, `0o` or `0b`. -/
def radix? : List Char → Option Nat
  | '0' :: 'x' :: r => Text.readDigits 16 r
  | '0' :: 'o' :: r => Text.readDigits 8 r
  | '0' :: 'b' :: r => Text.readDigits 2 r
  | _ => none

/-- The number of decimal digits that do not start with a nought of no use. -/
def decimal? (cs : List Char) : Option Nat :=
  if cs.head? = some '0' ∧ cs.length ≠ 1 then none else Text.readDigits 10 cs

/-- The integer that a text denotes. -/
def integer? : List Char → Option Int
  | '-' :: r => ((radix? r).or (decimal? r)).map fun n => -(n : Int)
  | '+' :: r => ((radix? r).or (decimal? r)).map Int.ofNat
  | cs => ((radix? cs).or (decimal? cs)).map Int.ofNat

/-- An integer, or else no value. -/
def integer (text : String) : Reading :=
  match integer? text.toList with
  | some n => .integer n
  | none => .other

/-- What a scalar stands for where a member's value is wanted. -/
def reading (tag : Option (List Char)) (isPlain : Bool) (text : String) : Reading :=
  match tag with
  | some t =>
    if t = coreHandle ++ "int".toList then integer text
    else if t = coreHandle ++ "null".toList ∧ isPlain ∧ nullWords.contains text then .absent
    else .other
  | none =>
    if !isPlain then .other
    else if text.isEmpty || nullWords.contains text then .absent
    else integer text

/-- A scalar as manifest data. A plain one without text stands for an empty list or table. -/
def scalar (tag : Option (List Char)) (isPlain : Bool) (text : String) : Scalar :=
  { text := some text
    value := reading tag isPlain text
    isVoid := isPlain && text.isEmpty }

end EnumLookup.Manifest.Yaml
