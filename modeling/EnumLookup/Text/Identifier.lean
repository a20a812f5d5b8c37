import EnumLookup.Text.IdentifierTable

/-!
# Identifier characters

An identifier starts with a letter of any script or an underscore and goes on with letters, digits
and marks: the Unicode properties `XID_Start` and `XID_Continue`, with `_` as one more start.
-/

namespace EnumLookup.Text

/-- The character may start an identifier. -/
def isIdentifierStart (c : Char) : Bool :=
  if c.toNat < 0x80 then c.isAlpha || c == '_' else inRanges identifierStarts c

/-- The character may stand in an identifier after its start. -/
def isIdentifierPart (c : Char) : Bool :=
  if c.toNat < 0x80 then c.isAlphanum || c == '_'
  else inRanges identifierStarts c || inRanges identifierExtras c

theorem isIdentifierPart_of_start {c : Char} (h : isIdentifierStart c = true) :
    isIdentifierPart c = true := by
  unfold isIdentifierStart at h
  unfold isIdentifierPart
  split at h
  · simp only [Bool.or_eq_true] at h
    rcases h with h | h <;> simp [*, Char.isAlphanum]
  · simp [*]

end EnumLookup.Text
