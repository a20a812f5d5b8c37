import EnumLookup.Text.Blank
import Mathlib.Data.List.DropRight

/-!
# Blank texts

A text is blank exactly if trimming leaves nothing of it.
-/

namespace EnumLookup.Text

theorem isEmpty_trim (s : String) : (trim s).isEmpty = isBlank s := by
  rw [Bool.eq_iff_iff, String.isEmpty_iff, trim, isBlank, String.ofList_eq_empty_iff,
    List.reverse_eq_nil_iff, List.dropWhile_eq_nil_iff, List.all_eq_true]
  simp only [List.mem_reverse]
  rw [← List.dropWhile_eq_nil_iff, List.dropWhile_idempotent, List.dropWhile_eq_nil_iff]

theorem trim_eq_empty_iff {s : String} : trim s = "" ↔ isBlank s = true := by
  rw [← isEmpty_trim, String.isEmpty_iff]

end EnumLookup.Text
