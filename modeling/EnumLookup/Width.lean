import EnumLookup.Text.Blank

/-!
# Integer widths

An enum is backed by one of eight integer kinds: signed or unsigned, in 8, 16, 32 or 64 bits.
`Width.wrap` takes an integer to the one value of the width that agrees with it modulo two to the
number of bits.
-/

namespace EnumLookup

/-- The integer kinds that may back an enum, in the order in which they are listed. -/
inductive Width where
  | i8 | u8 | i16 | u16 | i32 | u32 | i64 | u64
  deriving DecidableEq, Repr, Inhabited

namespace Width

/-- Every width once, narrow before wide and signed before unsigned. -/
def all : List Width := [i8, u8, i16, u16, i32, u32, i64, u64]

/-- The width's name in generated code. -/
def text : Width → String
  | i8 => "i8"
  | u8 => "u8"
  | i16 => "i16"
  | u16 => "u16"
  | i32 => "i32"
  | u32 => "u32"
  | i64 => "i64"
  | u64 => "u64"

def ofText? (s : String) : Option Width := all.find? (·.text == s)

/-- The other names under which a width may be declared, beside its own. -/
def aliases : Width → List String
  | i8 => ["sbyte", "SByte"]
  | u8 => ["byte", "Byte"]
  | i16 => ["short", "Int16"]
  | u16 => ["ushort", "UInt16"]
  | i32 => ["int", "Int32"]
  | u32 => ["uint", "UInt32"]
  | i64 => ["long", "Int64"]
  | u64 => ["ulong", "UInt64"]

/-- The text without a leading `System.`. -/
def dropSystem (cs : List Char) : List Char :=
  if "System.".toList.isPrefixOf cs then cs.drop "System.".length else cs

/-- The width that a declaration names: white space around the name is ignored, and so is one
leading `System.`. -/
def ofDeclared? (declared : String) : Option Width :=
  let bare := String.ofList (dropSystem (Text.trim declared).toList)
  all.find? fun w => (w.text :: w.aliases).contains bare

def bits : Width → Nat
  | i8 | u8 => 8
  | i16 | u16 => 16
  | i32 | u32 => 32
  | i64 | u64 => 64

def isSigned : Width → Bool
  | i8 | i16 | i32 | i64 => true
  | u8 | u16 | u32 | u64 => false

/-- The number of integers of the width. -/
def count (w : Width) : Nat := 1 <<< w.bits

def least (w : Width) : Int := if w.isSigned then -(w.count / 2 : Nat) else 0

def greatest (w : Width) : Int := (if w.isSigned then w.count / 2 else w.count : Nat) - 1

def Holds (w : Width) (n : Int) : Prop := w.least ≤ n ∧ n ≤ w.greatest

instance (w : Width) (n : Int) : Decidable (w.Holds n) := by
  unfold Holds; infer_instance

/-- The integer of the width that agrees with `n` modulo two to the number of bits. -/
def wrap (w : Width) (n : Int) : Int :=
  if w.isSigned then Int.bmod n w.count else n % w.count

theorem wrap_holds (w : Width) (n : Int) : w.Holds (w.wrap n) := by
  cases w <;> simp only [Holds, least, greatest, wrap, count, isSigned, bits, Int.bmod] <;> simp <;> omega

theorem wrap_of_holds {w : Width} {n : Int} (h : w.Holds n) : w.wrap n = n := by
  cases w <;> simp [Holds, least, greatest, count, isSigned, bits] at h <;>
    simp only [wrap, count, isSigned, bits, Int.bmod] <;> simp <;> omega

end Width

end EnumLookup
