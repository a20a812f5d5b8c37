import EnumLookup.CommandLine.Arguments
import EnumLookup.Config
import EnumLookup.Path

/-!
# Commands

What a command line asks for. `generate` writes the module for a manifest's enums, and `resolve`
tells the values of their members.
-/

namespace EnumLookup.CommandLine

/-- What a run of `generate` is told. -/
structure Generate where
  manifest : Path
  output : Path
  config : Config := {}
  isDry : Bool := false
  isStrict : Bool := false
  isJson : Bool := false
  deriving DecidableEq, Repr

/-- What a command line asks for. -/
inductive Command where
  | help
  | version
  | generate (options : Generate)
  | resolve (manifest : Path) (isJson : Bool)
  deriving DecidableEq, Repr

namespace Command

/-- The switch for more messages on what happens. -/
def verbose : Switch := { long := "verbose", short := 'v' }

def helpSwitch : Switch := { long := "help", short := 'h', isLast := true }

/-- The switches before the command. -/
def outerSwitches : List Switch :=
  [verbose, helpSwitch, { long := "version", short := 'V', isLast := true }]

def names : List String := ["generate", "resolve", "help"]

def generateSwitches : List Switch :=
  [verbose, helpSwitch,
    { long := "manifest", short := 'm', arity := .one },
    { long := "output", short := 'o', arity := .one },
    { long := "module", arity := .one },
    { long := "marker", arity := .one },
    { long := "only", arity := .some },
    { long := "pretty" },
    { long := "dry-run" },
    { long := "strict" },
    { long := "json" }]

def resolveSwitches : List Switch :=
  [verbose, helpSwitch, { long := "manifest", short := 'm', arity := .one }, { long := "json" }]

/-- The values given to a switch are fit for it: none or one as it asks, a path not empty, and an
operation known by its name. -/
def isFit (s : Switch) (g : Given) : Bool :=
  match s.arity, g.values with
  | .none, _ => true
  | .one, [v] => !(v.isEmpty && (s.long == "manifest" || s.long == "output"))
  | .one, _ => false
  | .some, vs => !vs.isEmpty && vs.all fun v => (Operation.ofText? v).isSome

/-- The switches are given as they should: each with fit values, and at most once unless it is for
messages or takes a list. -/
def isWellFormed (switches : List Switch) (f : Found) : Bool :=
  switches.all fun s =>
    let given := f.given.filter (·.long == s.long)
    given.all (isFit s) && (given.length ≤ 1 || s.arity == .some || s.long == "verbose")

/-- The value given to a switch that takes one. -/
def value? (f : Found) (long : String) : Option String := (f.valuesOf long).head?.bind List.head?

/-- The configuration that the switches of `generate` make. -/
def config (f : Found) : Config :=
  let base : Config := {}
  let c := { base with
    moduleName := (value? f "module").getD base.moduleName
    marker := (value? f "marker").getD base.marker
    pretty := f.has "pretty" }
  match (f.valuesOf "only").flatten.filterMap Operation.ofText? with
  | [] => c
  | ops => c.only ops

/-- What the arguments of `generate` ask for. -/
def generate? (f : Found) : Option Command := do
  return .generate {
    manifest := ⟨← value? f "manifest"⟩
    output := ⟨← value? f "output"⟩
    config := config f
    isDry := f.has "dry-run"
    isStrict := f.has "strict"
    isJson := f.has "json" }

def resolve? (f : Found) : Option Command := do
  return .resolve ⟨← value? f "manifest"⟩ (f.has "json")

/-- What arguments behind a command's name ask for. -/
def inner? (switches : List Switch) (make : Found → Option Command) (args : List String) :
    Option Command := do
  let f ← scan? switches [] none args
  if !isWellFormed switches f then none
  else if f.has "help" then some .help
  else make f

/-- What the arguments behind `help` ask for: help on the program or on one command. -/
def help? : List String → Option Command
  | [] => some .help
  | [name] => if names.contains name then some .help else none
  | _ => none

/-- What a command line asks for. -/
def ofArguments? (args : List String) : Option Command := do
  let f ← scan? outerSwitches names none args
  match f.command with
  | none =>
    if f.has "help" then some .help else if f.has "version" then some .version else none
  | some (name, rest) =>
    if name = "generate" then inner? generateSwitches generate? rest
    else if name = "resolve" then inner? resolveSwitches resolve? rest
    else help? rest

end Command

end EnumLookup.CommandLine
