import EnumLookup.Generation.Lookup
import EnumLookup.Registry
import EnumLookup.Source.Meaning

/-!
# Answers as values

What a lookup answers, as a value of the language that generated files are written in. A fault that
no lookup reports has no value.
-/

namespace EnumLookup

namespace Source

mutual
/-- The value with each of its integers as one of 128 bits. -/
def Value.widen : Value → Value
  | .integer _ n => .integer Option.none n
  | .some v => .some v.widen
  | .ok v => .ok v.widen
  | .err v => .err v.widen
  | .variant type name args => .variant type name (Value.widenEach args)
  | .tuple items => .tuple (Value.widenEach items)
  | .array items => .array (Value.widenEach items)
  | v => v

/-- The values with each of their integers as one of 128 bits. -/
def Value.widenEach : List Value → List Value
  | [] => []
  | v :: vs => v.widen :: Value.widenEach vs
end

def File.answer? (file : File) (f : Function) (args : List Value) : Option Value :=
  file.callWithin file.functions.length f args

end Source

namespace Generation

open Source

/-- A fault of a lookup as a variant of the error type. -/
def faultValue? : Fault → Option Value
  | .unsupportedTag tag => some (.variant errorType "UnsupportedEnumType" [.text tag])
  | .blankArgument argument => some (.variant errorType "InvalidArgument" [.text argument])
  | _ => none

/-- An answer of a lookup, when `f` gives the value of its success. -/
def answerValue? {α : Type} (f : α → Value) : Except Fault α → Option Value
  | .ok a => some (.ok (f a))
  | .error fault => .err <$> faultValue? fault

def optionalValue {α : Type} (f : α → Value) : Option α → Value
  | some a => .some (f a)
  | none => .none

def tableValue (width : Option Width) (rows : List (String × Int)) : Value :=
  .array (rows.map fun row => .tuple [.text row.1, .integer width row.2])

/-- The file answers every call of an operation, and as the registry does: for all tags and names,
and for all values of 128 bits. -/
def Answers (file : File) (r : Registry) : Operation → Prop
  | .nameLookup => ∀ tag n, Value.IsWide n →
      ∃ v, file.run? "enum_name" [.text tag, .integer none n] = some v ∧
        answerValue? (optionalValue .text) (r.nameOf tag n) = some v
  | .valueTable => ∀ tag,
      ∃ v, file.run? "enum_values" [.text tag] = some v ∧
        answerValue? (tableValue none) (r.valuesOf tag) = some v
  | .tryParse => ∀ tag name,
      ∃ v, file.run? "try_parse_enum" [.text tag, .text name] = some v ∧
        answerValue? (optionalValue (.integer none)) (r.tryParse tag name) = some v

/-- What the registry answers to a call of an operation's function. -/
def registryAnswer? (r : Registry) : Operation → List Value → Option Value
  | .nameLookup, [.text tag, .integer none n] =>
    answerValue? (optionalValue .text) (r.nameOf tag n)
  | .valueTable, [.text tag] => answerValue? (tableValue none) (r.valuesOf tag)
  | .tryParse, [.text tag, .text name] =>
    answerValue? (optionalValue (.integer none)) (r.tryParse tag name)
  | _, _ => none

/-- The function answers for an enum what the dispatcher answers for the enum's tag, with integers as
those of 128 bits: for all values of the enum's width, and for all names. -/
def Agrees (file : File) (f : Function) (e : Resolved) : Operation → Prop
  | .nameLookup => ∀ n, e.width.Holds n →
      ∃ v, file.answer? f [.integer (some e.width) n] = some v ∧
        file.run? "enum_name" [.text e.name, .integer none n] = some (.ok v)
  | .valueTable =>
      ∃ v, file.answer? f [] = some v ∧
        file.run? "enum_values" [.text e.name] = some (.ok v.widen)
  | .tryParse => ∀ name,
      ∃ v, file.answer? f [.text name] = some v ∧
        file.run? "try_parse_enum" [.text e.name, .text name] = some v.widen

end Generation

end EnumLookup
