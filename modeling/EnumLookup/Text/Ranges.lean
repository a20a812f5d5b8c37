/-!
# Sets of code points as ranges

A Unicode property is a list of closed ranges of code points. Membership is a linear search, so a
fact about a whole table is a fact about each of its ranges.
-/

namespace EnumLookup.Text

def inRanges (ranges : List (Nat × Nat)) (c : Char) : Bool :=
  ranges.any fun r => r.1 ≤ c.toNat && c.toNat ≤ r.2

theorem inRanges_iff {ranges : List (Nat × Nat)} {c : Char} :
    inRanges ranges c = true ↔ ∃ r ∈ ranges, r.1 ≤ c.toNat ∧ c.toNat ≤ r.2 := by
  simp [inRanges]

end EnumLookup.Text
