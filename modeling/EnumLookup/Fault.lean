/-!
# Faults

Everything that can go wrong, by its cause. `Fault.message` is the wording. Where the cause lies
with the file system or with a text that does not parse, the wording ends at the place of the fault.
-/

namespace EnumLookup

/-- Why a name yields no discriminator. -/
inductive NameFlaw where
  /-- It holds a control character. -/
  | control
  /-- Nothing is left between its separators. -/
  | noSegment
  /-- Its joined segments are no identifier. -/
  | notIdentifier (joined : String)
  deriving DecidableEq, Repr

/-- What is wrong with a configuration. -/
inductive ConfigFlaw where
  | moduleName (name : String)
  | blankMarker
  | controlInMarker
  | indent
  | noOperation
  deriving DecidableEq, Repr

/-- Why a manifest cannot be used. -/
inductive ManifestFlaw where
  /-- Its file name tells no format. -/
  | unknownExtension
  /-- The file cannot be read as text. -/
  | unreadable
  /-- The text is no manifest in its format. -/
  | malformed
  deriving DecidableEq, Repr

/-- A fault of a declaration, a lookup, a configuration, a generated text or a file. -/
inductive Fault where
  /-- The enum's declared integer type is none of the eight. -/
  | unsupportedUnderlying (enum declared : String)
  | unsupportedTag (tag : String)
  | blankArgument (argument : String)
  | invalidName (name : String) (flaw : NameFlaw)
  | blankMember (enum member : String)
  | duplicateMember (enum member : String)
  /-- Two enums of a batch have one name. -/
  | duplicateEnum (name : String)
  /-- A generated text does not read as source. -/
  | unreadableCode
  | manifest (path : String) (flaw : ManifestFlaw)
  | write (path : String)
  | config (flaw : ConfigFlaw)
  deriving DecidableEq, Repr

def NameFlaw.message : NameFlaw → String
  | control => "name contains control characters"
  | noSegment => "name has no identifier segments"
  | notIdentifier joined => "'" ++ joined ++ "' is not a valid identifier"

def ConfigFlaw.message : ConfigFlaw → String
  | moduleName name => "module name '" ++ name ++ "' is not a valid identifier"
  | blankMarker => "marker cannot be blank"
  | controlInMarker => "marker cannot contain control characters"
  | indent => "indent may only contain spaces and tabs"
  | noOperation => "at least one lookup operation must be enabled"

/-- The wording of a fault. -/
def Fault.message : Fault → String
  | unsupportedUnderlying enum declared =>
    "Enum '" ++ enum ++ "' has unsupported underlying type '" ++ declared ++
      "'; expected one of i8, u8, i16, u16, i32, u32, i64, u64"
  | unsupportedTag tag =>
    "Unsupported enum type '" ++ tag ++ "': only marked enums can be reflected"
  | blankArgument argument => "Invalid argument '" ++ argument ++ "': value cannot be blank"
  | invalidName name flaw => "Invalid enum name '" ++ name ++ "': " ++ flaw.message
  | blankMember enum member =>
    "Enum '" ++ enum ++ "' declares a member with a blank name: '" ++ member ++ "'"
  | duplicateMember enum member =>
    "Enum '" ++ enum ++ "' declares member '" ++ member ++ "' more than once"
  | duplicateEnum name => "Enum '" ++ name ++ "' is listed more than once"
  | unreadableCode => "Code generation failed"
  | manifest path flaw =>
    "Failed to load manifest '" ++ path ++ "'" ++ match flaw with
      | .unknownExtension => ": unknown extension; expected .json, .yaml, .yml or .toml"
      | _ => ""
  | write path => "Failed to write output file '" ++ path ++ "'"
  | config flaw => "Invalid configuration: " ++ flaw.message

end EnumLookup
