import EnumLookup.Source.Syntax
import EnumLookup.Text.Blank

/-!
# The meaning of lookup files

What a call of a function in a file answers, for the constructs that lookup files are made of. A
name means a variable before a function of its file, and a function of its file before one that
every program has. Where the language would refuse the program there is no answer: two functions of
one name have none, values are checked against the types of parameters and results, and values of
different types are not compared. Only conditions decide what is evaluated next.
-/

namespace EnumLookup.Source

inductive Value where
  | text (s : String)
  | bool (b : Bool)
  /-- An integer of a width, or without one an integer of 128 bits with sign. -/
  | integer (width : Option Width) (n : Int)
  | none
  | some (v : Value)
  | ok (v : Value)
  | err (v : Value)
  /-- A variant of an error type. -/
  | variant (type name : String) (args : List Value)
  | tuple (items : List Value)
  | array (items : List Value)
  deriving Repr

namespace Value

/-- The integer is one of 128 bits with sign. -/
def IsWide (n : Int) : Prop := -(1 <<< 127 : Nat) ≤ n ∧ n < (1 <<< 127 : Nat)

instance (n : Int) : Decidable (IsWide n) := inferInstanceAs (Decidable (_ ∧ _))

/-- The integer is one of the width, or of 128 bits without one. -/
def Fits (width : Option Width) (n : Int) : Prop :=
  match width with
  | .some w => w.Holds n
  | .none => IsWide n

instance (width : Option Width) (n : Int) : Decidable (Fits width n) := by
  unfold Fits; split <;> infer_instance

/-- The width that a type names, or that there is none for the integers of 128 bits. -/
def widthOf? (name : String) : Option (Option Width) :=
  if name = "i128" then Option.some Option.none else (Width.ofText? name).map Option.some

mutual
/-- The value belongs to the type. References belong to the type of what they refer to. -/
def hasType : Ty → Value → Bool
  | .reference _ _ t, v => hasType t v
  | .slice t, .array vs => vs.all (hasType t)
  | .tuple ts, .tuple vs => haveTypes ts vs
  | .named ["str"] [] [], .text _ => true
  | .named ["String"] [] [], .text _ => true
  | .named ["bool"] [] [], .bool _ => true
  | .named ["Option"] [] [_], .none => true
  | .named ["Option"] [] [t], .some v => hasType t v
  | .named ["Result"] [] [t, _], .ok v => hasType t v
  | .named ["Result"] [] [_, e], .err v => hasType e v
  | .named [name] [] [], .integer w n => widthOf? name == Option.some w && decide (Fits w n)
  | .named [name] [] [], .variant type _ _ => name == type
  | _, _ => false

/-- The values belong to the types, one by one. -/
def haveTypes : List Ty → List Value → Bool
  | [], [] => true
  | t :: ts, v :: vs => hasType t v && haveTypes ts vs
  | _, _ => false
end

/-- Whether two values are equal, if they are of one type that can be compared. -/
def equal? : Value → Value → Option Bool
  | .text s, .text t => Option.some (s == t)
  | .integer w n, .integer w' n' => if w = w' then Option.some (n == n') else Option.none
  | _, _ => Option.none

/-- A method without arguments. -/
def method? (name : String) : Value → Option Value
  | .text s =>
    if name = "trim" then Option.some (.text (Text.trim s))
    else if name = "is_empty" then Option.some (.bool s.isEmpty)
    else if name = "to_string" then Option.some (.text s)
    else Option.none
  | .ok v => if name = "ok" then Option.some (.some v) else Option.none
  | .err _ => if name = "ok" then Option.some .none else Option.none
  | _ => Option.none

/-- A method whose argument is a function. -/
def methodWith? (name : String) (f : Value → Option Value) : Value → Option Value
  | .none => if name = "map" ∨ name = "and_then" then Option.some .none else Option.none
  | .some v =>
    if name = "map" then .some <$> f v else if name = "and_then" then f v else Option.none
  | .ok v => if name = "map" then .ok <$> f v else Option.none
  | .err e => if name = "map" then Option.some (.err e) else Option.none
  | _ => Option.none

end Value

/-- Variables with their values, the latest first. -/
abbrev Scope := List (String × Value)

def Scope.get? (scope : Scope) (name : String) : Option Value :=
  (scope.find? (·.1 == name)).map Prod.snd

namespace File

def functions (file : File) : List Function :=
  file.items.filterMap fun i => match i.kind with
    | .function f => some f
    | _ => none

/-- The names that a file takes from elsewhere. -/
def imports (file : File) : List String :=
  file.items.filterMap fun i => match i.kind with
    | .use p => p.getLast?
    | _ => none

/-- The function of that name, if there is exactly one. -/
def function? (file : File) (name : String) : Option Function :=
  match file.functions.filter (·.name == name) with
  | [f] => some f
  | _ => none

end File

/-- What every program can call. -/
def builtin? : Path → List Value → Option Value
  | ["Some"], [v] => some (.some v)
  | ["Ok"], [v] => some (.ok v)
  | ["Err"], [v] => some (.err v)
  | [type, "try_from"], [.integer _ n] => do
    let w ← Value.widthOf? type
    if Value.Fits w n then some (.ok (.integer w n))
    else some (.err (.variant "TryFromIntError" "TryFromIntError" []))
  | ["i128", "from"], [.integer (some w) n] =>
    if w.Holds n then some (.integer none n) else none
  | _, _ => none

section Evaluation

variable (file : File) (call : Function → List Value → Option Value)

/-- The answer of the function at a path, when `call` is what calls of the file's functions answer. -/
def callAt? (p : Path) (args : List Value) : Option Value :=
  match p with
  | [name] =>
    -- A function of the file hides what every program has, even where it is not unique.
    if file.functions.any (·.name == name) then do call (← file.function? name) args
    else builtin? [name] args
  | [type, variant] =>
    if file.imports.contains type then some (.variant type variant args)
    else builtin? [type, variant] args
  | _ => none

/-- The value of a variable, or of the name for nothing. -/
def Scope.value? (scope : Scope) (p : Path) : Option Value :=
  match p with
  | [name] => scope.get? name <|> if name = "None" then some .none else none
  | _ => none

mutual
/-- The value of an expression. A number without suffix is one of 128 bits. -/
def Expr.eval? (scope : Scope) : Expr → Option Value
  | .text s => some (.text s)
  | .number n w => if Value.Fits w n then some (.integer w n) else none
  | .path p => scope.value? p
  | .call (.path p) args => do callAt? file call p (← Expr.evalEach? scope args)
  | .method r name [] => do Value.method? name (← r.eval? scope)
  | .method r name [f] => do Value.methodWith? name (f.applyTo? scope) (← r.eval? scope)
  | .borrow e => e.eval? scope
  | .array items => .array <$> Expr.evalEach? scope items
  | .tuple items => .tuple <$> Expr.evalEach? scope items
  | .equal l r => do .bool <$> Value.equal? (← l.eval? scope) (← r.eval? scope)
  | _ => none

def Expr.evalEach? (scope : Scope) : List Expr → Option (List Value)
  | [] => some []
  | e :: es => do return (← e.eval? scope) :: (← Expr.evalEach? scope es)

/-- The answer of an expression that stands for a function of one argument. -/
def Expr.applyTo? (scope : Scope) (e : Expr) (v : Value) : Option Value :=
  match e with
  | .closure param body => body.eval? ((param, v) :: scope)
  | .path p => callAt? file call p [v]
  | _ => none
end

/-- What statements return, or the value of the expression behind them. -/
def runBody? (scope : Scope) (value : Expr) : List Stmt → Option Value
  | [] => value.eval? file call scope
  | .discard e :: rest => do
    let _ ← e.eval? file call scope
    runBody? scope value rest
  | .returnIf condition e :: rest => do
    match ← condition.eval? file call scope with
    | .bool true => e.eval? file call scope
    | .bool false => runBody? scope value rest
    | _ => none

/-- The variables of a function's parameters, if the arguments have their types. -/
def bind? : List Param → List Value → Option Scope
  | [], [] => some []
  | .typed name t :: ps, v :: vs =>
    if Value.hasType t v then (bind? ps vs).map ((name, v) :: ·) else none
  | _, _ => none

/-- The answer of a function, if it has the type of its results. -/
def Function.run? (f : Function) (args : List Value) : Option Value := do
  let scope ← bind? f.params args
  let v ← runBody? file call scope f.value f.body
  if Value.hasType f.result v then some v else none

end Evaluation

namespace File

/-- The answer of a function whose calls nest at most so deep. -/
def callWithin (file : File) : Nat → Function → List Value → Option Value
  | 0, _, _ => none
  | depth + 1, f, args => f.run? file (callWithin file depth) args

/-- The answer of the function of that name. Without recursion, calls nest at most as deep as there
are functions. -/
def run? (file : File) (name : String) (args : List Value) : Option Value := do
  callWithin file file.functions.length (← file.function? name) args

end File

end EnumLookup.Source
