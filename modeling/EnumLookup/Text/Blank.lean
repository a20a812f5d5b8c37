import EnumLookup.Text.Ranges

/-!
# White space and control characters

`isSpace` is the Unicode property `White_Space` and `isControl` the general category `Cc`. A text is
blank when it holds nothing but white space; trimming removes white space at both ends.
-/

namespace EnumLookup.Text

/-- The code points with the property `White_Space`. -/
def spaces : List (Nat × Nat) := [
  (0x9, 0xD), (0x20, 0x20), (0x85, 0x85), (0xA0, 0xA0), (0x1680, 0x1680), (0x2000, 0x200A),
  (0x2028, 0x2029), (0x202F, 0x202F), (0x205F, 0x205F), (0x3000, 0x3000)]

/-- White space in the sense of Unicode. -/
def isSpace (c : Char) : Bool := inRanges spaces c

/-- A control character: U+0000 to U+001F and U+007F to U+009F. -/
def isControl (c : Char) : Bool := inRanges [(0x0, 0x1F), (0x7F, 0x9F)] c

/-- Nothing but white space. -/
def isBlank (s : String) : Bool := s.toList.all isSpace

/-- The text without the white space at its two ends. -/
def trim (s : String) : String :=
  String.ofList (((s.toList.dropWhile isSpace).reverse.dropWhile isSpace).reverse)

end EnumLookup.Text
