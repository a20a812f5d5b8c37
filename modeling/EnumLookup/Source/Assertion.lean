import EnumLookup.Source.Meaning
import EnumLookup.Source.Reader
import EnumLookup.Source.Spelling

/-!
# Assertions in documentation

An example asserts that the success of a call, or one item of it, equals a constant:
`assert_eq!(call?, constant);` or `assert_eq!(call?[index], constant);`. The question mark takes the
success out of an answer. It is no mark of generated code, so an assertion is read as the tokens in
front of it and those behind it.
-/

namespace EnumLookup.Source

/-- The tokens of a text up to the first question mark between two of them, and what stands behind
it, with `fuel` at least the length of the text. -/
def clauseWithin : Nat → List Char → Option (List Token × List Char)
  | 0, _ => none
  | fuel + 1, cs =>
    if cs.head? = some '?' then some ([], cs.tail)
    else do
      let (t, rest) ← step? cs
      (clauseWithin fuel rest).map fun (ts, r) => (t ++ ts, r)

/-- The tokens of a text up to the first question mark between two of them, and what stands behind
it. -/
def clause? (cs : List Char) : Option (List Token × List Char) := clauseWithin cs.length cs

namespace Reader

def done : Reader Unit := fun ts => if ts.isEmpty then some ((), []) else none

/-- The call of an assertion, up to the question mark. -/
def asserted (n : Nat) : Reader Expr := do
  word "assert_eq"
  mark .bang
  mark .openParen
  let e ← expr n
  done
  return e

/-- An index in brackets, if there is one. -/
def index? : Reader (Option Nat) := fun
  | .mark .openBracket :: .number i none :: .mark .closeBracket :: r => some (some i, r)
  | ts => some (none, ts)

/-- The index and the constant of an assertion, behind the question mark. -/
def shown (n : Nat) : Reader (Option Nat × Expr) := do
  let i ← index?
  mark .comma
  let e ← expr n
  mark .closeParen
  mark .semicolon
  done
  return (i, e)

end Reader

/-- The value of an expression that calls nothing of a file. -/
def Expr.constant? (e : Expr) : Option Value := e.eval? ⟨[], []⟩ (fun _ _ => none) []

/-- The value, or the item of it at an index. -/
def Value.item? : Option Nat → Value → Option Value
  | .none, v => Option.some v
  | .some i, .array items => items[i]?
  | _, _ => Option.none

/-- The success of a call, or the item of it at an index, equals a constant. -/
structure Assertion where
  call : Expr
  index : Option Nat
  constant : Expr
  deriving Repr

namespace Assertion

def spellIndex (index : Option Nat) : String :=
  (index.map fun (i : Nat) => "[" ++ spellNumber i none ++ "]").getD ""

def spell (a : Assertion) : String :=
  "assert_eq!(" ++ a.call.spell ++ "?" ++
    (spellIndex a.index ++ ", " ++ a.constant.spell ++ ");")

/-- The assertion that a text spells. -/
def read? (s : String) : Option Assertion := do
  let (front, rest) ← clause? s.toList
  let back ← tokens? rest
  let (call, _) ← (Reader.asserted (4 * front.length + 4)).run front
  let ((index, constant), _) ← (Reader.shown (4 * back.length + 4)).run back
  return ⟨call, index, constant⟩

/-- The text starts like an assertion, white space aside. -/
def isStart (s : String) : Bool :=
  "assert_eq!".toList.isPrefixOf (s.toList.dropWhile Text.isSpace)

/-- The assertion is about a call of the function, and holds if the function gives these answers. -/
inductive Holds (function : String) (answer : List Value → Option Value) : Assertion → Prop where
  | mk {args : List Expr} {values : List Value} {answered shown : Value} {index : Option Nat}
      {constant : Expr} (hargs : args.mapM Expr.constant? = some values)
      (hanswer : answer values = some (.ok answered)) (hitem : answered.item? index = some shown)
      (hconstant : constant.constant? = some shown) :
      Holds function answer ⟨.call (.path [function]) args, index, constant⟩

end Assertion

end EnumLookup.Source
