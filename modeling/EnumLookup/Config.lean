import EnumLookup.Fault
import EnumLookup.Operation
import EnumLookup.Source.Lexer

/-!
# Configuration

What a run is told: the name of the generated module, the marker that its messages quote, the
enabled operations, the indentation, and whether the text is laid out for reading.
-/

namespace EnumLookup

/-- A configuration of a run. -/
structure Config where
  moduleName : String := "enum_reflector"
  marker : String := "ReflectEnum"
  nameLookup : Bool := true
  valueTable : Bool := true
  tryParse : Bool := true
  pretty : Bool := false
  indent : String := "    "
  deriving DecidableEq, Repr

namespace Config

def isEnabled (c : Config) : Operation → Bool
  | .nameLookup => c.nameLookup
  | .valueTable => c.valueTable
  | .tryParse => c.tryParse

/-- The enabled operations in their order. -/
def operations (c : Config) : List Operation := Operation.all.filter c.isEnabled

/-- The configuration with exactly the listed operations enabled. -/
def only (c : Config) (ops : List Operation) : Config :=
  { c with
    nameLookup := ops.contains .nameLookup
    valueTable := ops.contains .valueTable
    tryParse := ops.contains .tryParse }

/-- The configuration with one operation disabled. -/
def skip (c : Config) : Operation → Config
  | .nameLookup => { c with nameLookup := false }
  | .valueTable => { c with valueTable := false }
  | .tryParse => { c with tryParse := false }

/-- A usable configuration: the module name is an identifier, the marker has something to show and
no control character, the indentation is spaces and tabs, and an operation is enabled. -/
def validate (c : Config) : Except Fault Unit :=
  if (Source.identifier? c.moduleName).isNone then throw (.config (.moduleName c.moduleName))
  else if Text.isBlank c.marker then throw (.config .blankMarker)
  else if c.marker.toList.any Text.isControl then throw (.config .controlInMarker)
  else if !c.indent.toList.all (fun x => x == ' ' || x == '\t') then throw (.config .indent)
  else if c.operations.isEmpty then throw (.config .noOperation)
  else pure ()

end Config

end EnumLookup
