import EnumLookup.Operation
import EnumLookup.Resolution
import EnumLookup.Text.Quoted

/-!
# The header of a generated file

Every generated file opens with documentation: a title, the enums that it covers in order, and for
a lookup one example assertion, about the first member of the first enum that has a member. The
assertion shows what the lookup answers.
-/

namespace EnumLookup.Generation

/-- A line of documentation as it stands after its mark. -/
def docLine (line : String) : String := if line.isEmpty then "" else " " ++ line

/-- The enum's line in the list of covered enums. -/
def coverageLine (e : Resolved) : String :=
  let count := e.entries.length
  "- \x60" ++ e.name ++ "\x60 (\x60" ++ e.width.text ++ "\x60, " ++ Text.natText count ++
    " member" ++ (if count = 1 then "" else "s") ++ ")"

/-- The lines that list the covered enums. -/
def coverage (enums : List Resolved) : List String :=
  if enums.isEmpty then ["No enums are covered; every lookup reports an unsupported type."]
  else ["Covered enums, in dispatch order:", ""] ++ enums.map coverageLine

/-- The assertion that an operation answers as it does for a member of an enum. -/
def assertion (o : Operation) (e : Resolved) (m : Entry) : String :=
  let tag := Text.quote e.name
  let name := Text.quote m.name
  match o with
  | .nameLookup =>
    "assert_eq!(enum_name(" ++ tag ++ ", " ++ m.value.text ++ ")?, Some(" ++
      Text.quote ((e.nameOf? m.value.value).getD m.name) ++ "));"
  | .valueTable =>
    "assert_eq!(enum_values(" ++ tag ++ ")?[0], (" ++ name ++ ", " ++ m.value.text ++ "));"
  | .tryParse =>
    "assert_eq!(try_parse_enum(" ++ tag ++ ", " ++ name ++ ")?, Some(" ++
      ((e.valueOf? m.name).getD m.value).text ++ "));"

/-- The first member of the first enum that has one. -/
def sample? (enums : List Resolved) : Option (Resolved × Entry) :=
  enums.findSome? fun e => e.entries.head?.map (e, ·)

/-- The lines of the example, if there is a member to show. -/
def exampleLines (o : Operation) (enums : List Resolved) : List String :=
  match sample? enums with
  | some (e, m) =>
    ["", "## Example", "", "\x60\x60\x60ignore", assertion o e m, "\x60\x60\x60"]
  | none => []

/-- The documentation of a file, with an example of the operation if one is given. -/
def header (title : String) (enums : List Resolved) (o : Option Operation) : List String :=
  [" " ++ title, ""] ++
    (coverage enums ++ (o.map (exampleLines · enums)).getD []).map docLine

end EnumLookup.Generation
