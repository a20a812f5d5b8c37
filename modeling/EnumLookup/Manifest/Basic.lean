import EnumLookup.Manifest.Node
import EnumLookup.Text.Json

/-!
# Manifests

A manifest is a list of enum declarations. Its data is a table with the field `enums`; a declaration
is a table with the fields `name`, `underlying` and `members`, a member one with the fields `name`
and `value`. Only names have to be there; other fields are ignored.
-/

namespace EnumLookup

/-- The declarations that a front end lists. -/
structure Manifest where
  enums : List Declaration := []
  deriving DecidableEq, Repr

namespace Manifest

def member? (d : Document) (rules : Rules) (n : Node) : Option Member := do
  match ← d.fields rules ["name", "value"] n with
  | [some name, value] =>
    return ⟨← d.text name, ← (value.map d.value).getD (some none)⟩
  | _ => none

def declaration? (d : Document) (rules : Rules) (n : Node) : Option Declaration := do
  match ← d.fields rules ["name", "underlying", "members"] n with
  | [some name, underlying, members] =>
    let items ← (members.map d.items).getD (some [])
    return {
      name := ← d.text name
      underlying := ← (underlying.map d.text).getD (some "int")
      members := ← items.mapM (member? d rules) }
  | _ => none

def ofDocument? (rules : Rules) (d : Document) : Option Manifest := do
  match ← d.fields rules ["enums"] d.root with
  | [enums] =>
    let items ← (enums.map d.items).getD (some [])
    return ⟨← items.mapM (declaration? d rules)⟩
  | _ => none

open Text (Json)

/-- A member as JSON; a missing value is left out. -/
def memberJson (m : Member) : Json :=
  .object (("name", .text m.name) :: (m.value.map fun v => ("value", .int v.toInt)).toList)

def declarationJson (d : Declaration) : Json :=
  .object [("name", .text d.name), ("underlying", .text d.underlying),
    ("members", .array (d.members.map memberJson))]

def json (m : Manifest) : Json := .object [("enums", .array (m.enums.map declarationJson))]

end Manifest

end EnumLookup
