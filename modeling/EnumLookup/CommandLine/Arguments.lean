/-!
# Arguments of a command line

A switch is given by its long name after two dashes or by a letter after one. A switch may take a
value, attached or as the next argument, or one or more values up to the next switch. Letters
without values may stand together.
-/

namespace EnumLookup.CommandLine

/-- How many values a switch takes each time it is given. -/
inductive Arity where
  | none
  | one
  /-- One or more. -/
  | some
  deriving DecidableEq, Repr

/-- What may be given on a command line. -/
structure Switch where
  long : String
  short : Option Char := .none
  arity : Arity := .none
  /-- Nothing after the switch matters. -/
  isLast : Bool := false
  deriving DecidableEq, Repr

/-- A switch that was given, by its long name, with its values. -/
structure Given where
  long : String
  values : List String := []
  deriving DecidableEq, Repr

/-- What a reader of arguments found: the switches given, in order, and what ended them. -/
structure Found where
  given : List Given
  /-- The command that follows, with its arguments. -/
  command : Option (String × List String) := none
  deriving DecidableEq, Repr

/-- What a reader found, with a switch before the others. -/
def Found.push (g : Given) (f : Found) : Found := { f with given := g :: f.given }

/-- What letters after one dash amount to: the switches, whether the last of them ends the reading,
and the switch that still waits for its value. -/
structure Letters where
  given : List Given := []
  isLast : Bool := false
  waiting : Option Switch := none

/-- The switches of letters after one dash. -/
def letters? (switches : List Switch) : List Char → Option Letters
  | [] => some {}
  | c :: r => do
    let s ← switches.find? (·.short == some c)
    match s.arity with
    | .none =>
      if s.isLast then some { given := [⟨s.long, []⟩], isLast := true }
      else (letters? switches r).map fun l => { l with given := ⟨s.long, []⟩ :: l.given }
    | _ =>
      match r with
      | [] => some { waiting := some s }
      | '=' :: v => some { given := [⟨s.long, [String.ofList v]⟩] }
      | v => some { given := [⟨s.long, [String.ofList v]⟩] }

/-- The name of a switch after two dashes, and the value attached by an equals sign. -/
def splitValue (cs : List Char) : String × Option String :=
  let name := String.ofList (cs.takeWhile (· != '='))
  match cs.dropWhile (· != '=') with
  | _ :: v => (name, some (String.ofList v))
  | [] => (name, none)

/-- A waiting switch with its values as a switch that was given. -/
def close : Option (Switch × List String) → List Given
  | some (s, values) => [⟨s.long, values⟩]
  | none => []

/-- The switches in arguments, up to one of the commands if there is one. A switch may be waiting
for values. -/
def scan? (switches : List Switch) (commands : List String) :
    Option (Switch × List String) → List String → Option Found
  | waiting, [] => some { given := close waiting }
  | waiting, arg :: rest =>
    match arg.toList with
    | ['-', '-'] => if rest.isEmpty then some { given := close waiting } else none
    | '-' :: '-' :: cs => do
      let (name, value) := splitValue cs
      let s ← switches.find? (·.long == name)
      match s.arity, value with
      | .none, some _ => none
      | .none, none =>
        if s.isLast then some { given := close waiting ++ [⟨s.long, []⟩] }
        else do
          let found ← scan? switches commands none rest
          return { found with given := close waiting ++ ⟨s.long, []⟩ :: found.given }
      | _, some v => do
        let found ← scan? switches commands none rest
        return { found with given := close waiting ++ ⟨s.long, [v]⟩ :: found.given }
      | _, none => do
        let found ← scan? switches commands (some (s, [])) rest
        return { found with given := close waiting ++ found.given }
    | '-' :: c :: cs => do
      let l ← letters? switches (c :: cs)
      if l.isLast then return { given := close waiting ++ l.given }
      let found ← scan? switches commands (l.waiting.map fun s => (s, [])) rest
      return { found with given := close waiting ++ l.given ++ found.given }
    | _ =>
      match waiting with
      | some (s, values) =>
        if s.arity = .one then do
          let found ← scan? switches commands none rest
          return found.push ⟨s.long, values ++ [arg]⟩
        else scan? switches commands (some (s, values ++ [arg])) rest
      | none => if commands.contains arg then some { given := [], command := (arg, rest) } else none

/-- The values of all times that a switch was given. -/
def Found.valuesOf (f : Found) (long : String) : List (List String) :=
  (f.given.filter (·.long == long)).map Given.values

/-- The switch was given. -/
def Found.has (f : Found) (long : String) : Bool := f.given.any (·.long == long)

end EnumLookup.CommandLine
