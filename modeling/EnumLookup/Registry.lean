import EnumLookup.Resolution

/-!
# The registry

A registry answers the lookups directly, from resolved enums with distinct names. It is what the
generated functions are measured against.
-/

namespace EnumLookup

/-- Resolved enums with distinct names, by which they are found. -/
structure Registry where
  enums : List Resolved
  deriving Repr

namespace Registry

/-- A registry of enums, if their names are distinct. -/
def ofResolved (enums : List Resolved) : Except Fault Registry := do
  checkDistinct enums
  return ⟨enums⟩

/-- A registry of declarations, if all of them resolve and their names are distinct. -/
def ofDeclarations (ds : List Declaration) : Except Fault Registry := do
  ofResolved (← ds.mapM Declaration.resolve)

def tags (r : Registry) : List String := r.enums.map Resolved.name

def find (r : Registry) (tag : String) : Except Fault Resolved :=
  match r.enums.find? (·.name == tag) with
  | some e => pure e
  | none => throw (.unsupportedTag tag)

/-- The name of the first member of the tagged enum that has the value. -/
def nameOf (r : Registry) (tag : String) (value : Int) : Except Fault (Option String) :=
  return (← r.find tag).nameOf? value

/-- Every member of the tagged enum with its value, in declaration order. -/
def valuesOf (r : Registry) (tag : String) : Except Fault (List (String × Int)) :=
  return (← r.find tag).table

/-- The value of the named member of the tagged enum. A blank name is refused before the tag is
looked at. -/
def tryParse (r : Registry) (tag name : String) : Except Fault (Option Int) :=
  if Text.isBlank name then throw (.blankArgument "name")
  else return ((← r.find tag).valueOf? name).map Constant.value

end Registry

end EnumLookup
