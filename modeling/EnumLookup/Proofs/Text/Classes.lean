import EnumLookup.Source.Directed
import EnumLookup.Text.Identifier

/-!
# Classes of characters keep apart

Characters of identifiers are neither white space nor marks. Where the classes are tables, the
tables have no range in common.
-/

namespace EnumLookup.Text

/-- Two sets of ranges have no character in common if their ranges are pairwise apart. -/
theorem not_inRanges_of_apart {r s : List (Nat × Nat)}
    (h : (r.all fun a => s.all fun b => decide (a.2 < b.1) || decide (b.2 < a.1)) = true)
    {c : Char} (hc : inRanges r c = true) : inRanges s c = false := by
  obtain ⟨a, ha, h1, h2⟩ := inRanges_iff.mp hc
  rw [← Bool.not_eq_true, inRanges_iff]
  rintro ⟨b, hb, h3, h4⟩
  have hab := List.all_eq_true.mp (List.all_eq_true.mp h a ha) b hb
  simp only [Bool.or_eq_true, decide_eq_true_eq] at hab
  omega

theorem mem_digits {c : Char} (hc : c.isDigit = true) : c ∈ "0123456789".toList := by
  simp only [Char.isDigit, Bool.and_eq_true, decide_eq_true_eq] at hc
  have hlo : 48 ≤ c.toNat := hc.1
  have hhi : c.toNat ≤ 57 := hc.2
  have hall : ∀ n, n < 58 → 48 ≤ n → Char.ofNat n ∈ "0123456789".toList := by decide
  simpa using hall c.toNat (by omega) hlo

/-- What holds of each character of ASCII holds of every character below U+0080. -/
theorem ascii_all {p : Char → Prop} (h : ∀ n, n < 0x80 → p (Char.ofNat n)) {c : Char}
    (hc : c.toNat < 0x80) : p c := by
  simpa using h c.toNat hc

end EnumLookup.Text

namespace EnumLookup.Source

open Text

theorem isSkipped_of_isIdentifierStart {c : Char} (h : isIdentifierStart c = true) :
    isSkipped c = false := by
  unfold isIdentifierStart at h
  split at h
  · rename_i hc
    revert h
    exact ascii_all (p := fun c => (c.isAlpha || c == '_') = true → isSkipped c = false)
      (by decide) hc
  · have hs : isSpace c = false := not_inRanges_of_apart (by decide +kernel) h
    have hm : inRanges [(0x200E, 0x200F)] c = false := not_inRanges_of_apart (by decide +kernel) h
    simp only [isSkipped, hs, Bool.false_or, Bool.or_eq_false_iff, beq_eq_false_iff_ne]
    constructor <;> (rintro rfl; simp [inRanges] at hm)

theorem isDirectionMark_of_not_isSkipped {c : Char} (h : isSkipped c = false) :
    isDirectionMark c = false := by
  simp only [isSkipped, Bool.or_eq_false_iff] at h
  simp [isDirectionMark, h.1.2, h.2]

theorem ne_slash_of_isIdentifierStart {c : Char} (h : isIdentifierStart c = true) : c ≠ '/' := by
  rintro rfl
  simp [isIdentifierStart] at h

theorem isIdentifierStart_of_isDigit {c : Char} (h : c.isDigit = true) :
    isIdentifierStart c = false := by
  have hall : ("0123456789".toList.all fun c => !isIdentifierStart c) = true := by decide
  simpa using List.all_eq_true.mp hall c (mem_digits h)

theorem isIdentifierPart_of_isDigit {c : Char} (h : c.isDigit = true) :
    isIdentifierPart c = true := by
  have hall : "0123456789".toList.all isIdentifierPart = true := by decide
  exact List.all_eq_true.mp hall c (mem_digits h)

theorem isSkipped_of_isDigit {c : Char} (h : c.isDigit = true) : isSkipped c = false := by
  have hall : ("0123456789".toList.all fun c => !isSkipped c) = true := by decide
  simpa using List.all_eq_true.mp hall c (mem_digits h)

end EnumLookup.Source
