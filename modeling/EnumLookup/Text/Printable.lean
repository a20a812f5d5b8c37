import EnumLookup.Text.PrintableTable

/-!
# Characters that stand for themselves in a quoted text

A character is shown as it is when it has a printed form of its own; a control, format, private,
unassigned or separator character other than the space has none, and neither has a mark that
extends the character before it or a character that need not show at all.
-/

namespace EnumLookup.Text

/-- The character has a printed form of its own. -/
def isPrintable (c : Char) : Bool :=
  if c.toNat < 0x7F then 0x20 ≤ c.toNat
  else !inRanges unprintables c && !inRanges graphemeExtenders c && !inRanges ignorables c

end EnumLookup.Text
