import EnumLookup.Declaration
import EnumLookup.Discriminator

/-!
# Resolution

Resolution gives every member of a declaration its value: the explicit one, wrapped to the enum's
width, or else one more than the member before, starting at nought. A declaration resolves only if
its integer type is known, its name yields a discriminator, and its members have names that are
neither blank nor repeated.
-/

namespace EnumLookup

structure Entry where
  name : String
  value : Constant
  deriving DecidableEq, Repr

/-- An enum with its width and the values of all members, in declaration order. -/
structure Resolved where
  name : String
  width : Width
  entries : List Entry
  deriving DecidableEq, Repr

namespace Resolved

/-- The name of the first member that has the value. -/
def nameOf? (e : Resolved) (value : Int) : Option String :=
  (e.entries.find? (·.value.value == value)).map Entry.name

/-- The value of the first member of exactly that name. -/
def valueOf? (e : Resolved) (name : String) : Option Constant :=
  (e.entries.find? (·.name == name)).map Entry.value

def table (e : Resolved) : List (String × Int) := e.entries.map fun m => (m.name, m.value.value)

end Resolved

namespace Declaration

def width (d : Declaration) : Except Fault Width :=
  match Width.ofDeclared? d.underlying with
  | some w => pure w
  | none => throw (.unsupportedUnderlying d.name d.underlying)

/-- No member's name is blank or equal to an earlier one, given the names seen before. -/
def checkMembers (enum : String) (seen : List String) : List Member → Except Fault Unit
  | [] => pure ()
  | m :: rest =>
    if Text.isBlank m.name then throw (.blankMember enum m.name)
    else if seen.contains m.name then throw (.duplicateMember enum m.name)
    else checkMembers enum (m.name :: seen) rest

/-- The enum's name yields a discriminator, and its members' names are neither blank nor
repeated. -/
def validate (d : Declaration) : Except Fault Unit := do
  let _ ← discriminator d.name
  checkMembers d.name [] d.members

/-- The members' values in a width, when the next automatic value is `auto`. -/
def evaluate (w : Width) (auto : Constant) : List Member → List Entry
  | [] => []
  | m :: rest =>
    let c := (m.value.map fun x => Constant.ofInt w x.toInt).getD auto
    -- Counting goes on from an explicit value as from an automatic one.
    ⟨m.name, c⟩ :: evaluate w c.next rest

def resolve (d : Declaration) : Except Fault Resolved := do
  let w ← d.width
  d.validate
  return ⟨d.name, w, evaluate w (.zero w) d.members⟩

end Declaration

/-- The first enum whose name occurred before is a fault, given the names seen before. -/
def checkDistinctFrom (seen : List String) : List Resolved → Except Fault Unit
  | [] => pure ()
  | e :: rest =>
    if seen.contains e.name then throw (.duplicateEnum e.name)
    else checkDistinctFrom (e.name :: seen) rest

/-- The enums of a batch have distinct names. -/
def checkDistinct (enums : List Resolved) : Except Fault Unit := checkDistinctFrom [] enums

end EnumLookup
