import EnumLookup.Text.Decimal
import Mathlib.Algebra.Group.Nat.Defs

/-!
# Numerals read back

The numeral of a natural number is a non-empty run of digits that denotes it, in decimal and in
hexadecimal, so different numbers have different numerals.
-/

namespace EnumLookup.Text

/-! ## Runs of characters -/

/-- A run of one class ends where no character of the class follows. -/
theorem takeWhile_dropWhile_run {p : Char → Bool} {cs rest : List Char}
    (hcs : ∀ c ∈ cs, p c = true) (h : ∀ c ∈ rest.head?, p c = false) :
    (cs ++ rest).takeWhile p = cs ∧ (cs ++ rest).dropWhile p = rest := by
  rw [List.takeWhile_append_of_pos hcs, List.dropWhile_append_of_pos hcs]
  cases rest with
  | nil => simp
  | cons c r => simp [h c rfl]

/-! ## Digits -/

theorem digit?_digitChar : ∀ d, d < 10 → digit? 10 (digitChar d) = some d := by decide

theorem isDigit_digitChar : ∀ d, d < 10 → (digitChar d).isDigit = true := by decide

/-- The hexadecimal digit that `hexDigits` writes for a number below sixteen. -/
def hexChar (d : Nat) : Char := if d < 10 then digitChar d else Char.ofNat ('a'.toNat + (d - 10))

theorem digit?_hexChar : ∀ d, d < 16 → digit? 16 (hexChar d) = some d := by decide

theorem readDigitsFrom_append {base : Nat} {cs : List Char} (ds : List Char) :
    ∀ {acc n : Nat}, readDigitsFrom base acc cs = some n →
      readDigitsFrom base acc (cs ++ ds) = readDigitsFrom base n ds := by
  induction cs with
  | nil =>
      intro acc n h
      simp only [readDigitsFrom, Option.some.injEq] at h
      rw [List.nil_append, h]
  | cons c r ih =>
      intro acc n h
      cases hd : digit? base c with
      | none => simp [readDigitsFrom, hd] at h
      | some d =>
          simp only [readDigitsFrom, hd, Option.bind_eq_bind, Option.bind_some, List.cons_append]
            at h ⊢
          exact ih h

/-- Digits that are written from the last one backwards denote the number. -/
theorem readDigitsFrom_within {base : Nat} (hbase : 1 < base) {digit : Nat → Char}
    {digits : Nat → Nat → List Char} (hdigit : ∀ d, d < base → digit? base (digit d) = some d)
    (hsucc : ∀ fuel n, digits (fuel + 1) n = if n < base then [digit (n % base)]
      else digits fuel (n / base) ++ [digit (n % base)]) (fuel : Nat) :
    ∀ n, n < fuel → readDigitsFrom base 0 (digits fuel n) = some n := by
  induction fuel with
  | zero => intro n h; omega
  | succ fuel ih =>
      intro n h
      have hlast := hdigit (n % base) (Nat.mod_lt n (by omega))
      rw [hsucc]
      split
      · rename_i hn
        simp [readDigitsFrom, hdigit n hn, Nat.mod_eq_of_lt hn]
      · rename_i hn
        have hlt : n / base < n := Nat.div_lt_self (by omega) hbase
        rw [readDigitsFrom_append _ (ih (n / base) (by omega))]
        simp only [readDigitsFrom, hlast, Option.bind_eq_bind, Option.bind_some, Option.some.injEq]
        exact Nat.div_add_mod' n base

/-! ## Decimal numerals -/

theorem digitsWithin_succ (fuel n : Nat) :
    digitsWithin (fuel + 1) n = if n < 10 then [digitChar (n % 10)]
      else digitsWithin fuel (n / 10) ++ [digitChar (n % 10)] := by
  rw [digitsWithin]
  split
  · rename_i hn
    rw [Nat.mod_eq_of_lt hn]
  · rfl

theorem readDigitsFrom_digitsWithin (fuel : Nat) :
    ∀ n, n < fuel → readDigitsFrom 10 0 (digitsWithin fuel n) = some n :=
  readDigitsFrom_within (by decide) digit?_digitChar digitsWithin_succ fuel

theorem isDigit_of_mem_digitsWithin (fuel : Nat) :
    ∀ n, ∀ c ∈ digitsWithin fuel n, c.isDigit = true := by
  induction fuel with
  | zero => intro n c hc; simp [digitsWithin] at hc
  | succ fuel ih =>
      intro n c hc
      unfold digitsWithin at hc
      split at hc
      · rename_i hn
        rw [List.mem_singleton.mp hc]
        exact isDigit_digitChar n hn
      · rcases List.mem_append.mp hc with hc | hc
        · exact ih _ c hc
        · rw [List.mem_singleton.mp hc]
          exact isDigit_digitChar _ (by omega)

theorem natDigits_ne_nil (n : Nat) : natDigits n ≠ [] := by
  unfold natDigits digitsWithin
  split <;> simp

theorem isDigit_of_mem_natDigits {n : Nat} {c : Char} (h : c ∈ natDigits n) : c.isDigit = true :=
  isDigit_of_mem_digitsWithin _ _ c h

theorem readDigits_of_ne_nil {base : Nat} {cs : List Char} (h : cs ≠ []) :
    readDigits base cs = readDigitsFrom base 0 cs := by
  cases cs with
  | nil => exact absurd rfl h
  | cons c r => rfl

theorem readDigits_natDigits (n : Nat) : readDigits 10 (natDigits n) = some n := by
  rw [readDigits_of_ne_nil (natDigits_ne_nil n)]
  exact readDigitsFrom_digitsWithin (n + 1) n (by omega)

theorem natText_injective {m n : Nat} (h : natText m = natText n) : m = n := by
  have hd : natDigits m = natDigits n := by
    simpa [natText] using congrArg String.toList h
  have hm := readDigits_natDigits m
  rw [hd, readDigits_natDigits n] at hm
  exact (Option.some.inj hm).symm

/-- Only digits denote a number. -/
theorem digit?_of_mem {base : Nat} {cs : List Char} : ∀ {acc n},
    readDigitsFrom base acc cs = some n → ∀ c ∈ cs, (digit? base c).isSome = true := by
  induction cs with
  | nil => intro acc n _ c hc; cases hc
  | cons x cs ih =>
      intro acc n h c hc
      rw [readDigitsFrom] at h
      obtain ⟨d, hd, h⟩ := Option.bind_eq_some_iff.mp h
      rcases List.mem_cons.mp hc with rfl | hc
      · rw [hd]; rfl
      · exact ih h c hc

/-! ## Hexadecimal numerals -/

theorem hexDigitsWithin_succ (fuel n : Nat) :
    hexDigitsWithin (fuel + 1) n =
      if n < 16 then [hexChar (n % 16)] else hexDigitsWithin fuel (n / 16) ++ [hexChar (n % 16)] :=
  rfl

theorem readDigitsFrom_hexDigits (n : Nat) : readDigitsFrom 16 0 (hexDigits n) = some n :=
  readDigitsFrom_within (by decide) digit?_hexChar hexDigitsWithin_succ (n + 1) n (by omega)

theorem length_hexDigitsWithin_le (fuel : Nat) :
    ∀ n k, n < 16 ^ (k + 1) → (hexDigitsWithin fuel n).length ≤ k + 1 := by
  induction fuel with
  | zero => intro n k _; simp [hexDigitsWithin]
  | succ fuel ih =>
      intro n k h
      rw [hexDigitsWithin_succ]
      split
      · simp
      · cases k with
        | zero => omega
        | succ k =>
            have hq : n / 16 < 16 ^ (k + 1) := by
              rw [Nat.div_lt_iff_lt_mul (by omega)]
              calc n < 16 ^ (k + 1 + 1) := h
                _ = 16 ^ (k + 1) * 16 := Nat.pow_succ ..
            have := ih (n / 16) k hq
            simp only [List.length_append, List.length_singleton]
            omega

theorem hexDigits_ne_nil (n : Nat) : hexDigits n ≠ [] := by
  rw [hexDigits, hexDigitsWithin_succ]
  split <;> simp

/-- A code point has at most six digits. -/
theorem length_hexDigits_le {n : Nat} (h : n < 16 ^ 6) : (hexDigits n).length ≤ 6 :=
  length_hexDigitsWithin_le _ n 5 h

end EnumLookup.Text
