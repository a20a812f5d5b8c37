import EnumLookup.Text.Decimal
import EnumLookup.Width

/-!
# Integer constants held in a width

The value of an enum member is an integer together with the width that holds it. Every constant
lies in its width's range; counting on from the greatest one starts again at the least.
-/

namespace EnumLookup

/-- An integer held in a width. -/
structure Constant where
  width : Width
  value : Int
  /-- The integer lies in the width's range. -/
  fits : width.Holds value := by decide
  deriving DecidableEq, Repr

namespace Constant

/-- The integer, wrapped to the width. -/
def ofInt (w : Width) (n : Int) : Constant := ⟨w, w.wrap n, w.wrap_holds n⟩

def zero (w : Width) : Constant := ofInt w 0

/-- The next constant of the same width. -/
def next (c : Constant) : Constant := ofInt c.width (c.value + 1)

def text (c : Constant) : String := Text.intText c.value

/-- The integer in decimal, with its width as suffix. -/
def literal (c : Constant) : String := c.text ++ c.width.text

end Constant

end EnumLookup
