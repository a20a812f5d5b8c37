import EnumLookup.Constant

/-!
# Enum declarations

What a front end says about an enum: its full name, the declared name of the integer type behind
it, and its members in order, some with an explicit value. An explicit value is a signed or an
unsigned 64-bit integer.
-/

namespace EnumLookup

/-- The value that a declaration gives to a member. -/
inductive Explicit where
  | signed (v : Int64)
  | unsigned (v : UInt64)
  deriving DecidableEq, Repr

namespace Explicit

def toInt : Explicit → Int
  | signed v => v.toInt
  | unsigned v => v.toNat

/-- The value for an integer of at most 64 bits; it is unsigned only where it has to be. -/
def ofInt? (n : Int) : Option Explicit :=
  if -0x8000000000000000 ≤ n ∧ n < 0x8000000000000000 then some (signed (Int64.ofInt n))
  else if 0 ≤ n ∧ n < 0x10000000000000000 then some (unsigned (UInt64.ofNat n.toNat))
  else none

end Explicit

/-- One member of a declaration. -/
structure Member where
  name : String
  value : Option Explicit := none
  deriving DecidableEq, Repr

/-- An enum as declared. -/
structure Declaration where
  name : String
  underlying : String := "int"
  members : List Member := []
  deriving DecidableEq, Repr

namespace Declaration

/-- The declaration with one more member at the end. -/
def add (d : Declaration) (m : Member) : Declaration := { d with members := d.members ++ [m] }

end Declaration

end EnumLookup
