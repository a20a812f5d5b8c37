import EnumLookup.Manifest.Json
import EnumLookup.Proofs.Text.Decimal

/-!
# JSON read back

The reader takes every value that is written on one line, and stops behind it. A numeral would go on
with a digit, a point or an exponent, so what follows a value has to be a comma or a closing bracket.
-/

namespace EnumLookup.Manifest.Json

/-! ## Strings -/

theorem hexDigits_of_lt {n : Nat} (h : n < 16) : Text.hexDigits n = [Text.hexChar n] := by
  rw [Text.hexDigits, Text.hexDigitsWithin_succ, if_pos h, Nat.mod_eq_of_lt h]

/-- A control character without a short escape is read back from its two digits. -/
theorem units?_control {c : Char} (hc : c.toNat < 0x20) (rest : List Char) :
    units? .text (['\\', 'u', '0', '0', if c.toNat < 0x10 then '0' else '1'] ++
        Text.hexDigits (c.toNat % 16) ++ rest) =
      (units? .text rest).map fun (us, r) => (c.toNat :: us, r) := by
  have hlow : c.toNat % 16 < 16 := Nat.mod_lt _ (by decide)
  have hzero : Text.digit? 16 '0' = some 0 := by decide
  have hone : Text.digit? 16 '1' = some 1 := by decide
  rw [hexDigits_of_lt hlow]
  simp only [List.cons_append, List.nil_append, units?, hzero, Text.digit?_hexChar _ hlow]
  by_cases hten : c.toNat < 0x10
  · have hcode : c.toNat % 16 = c.toNat := Nat.mod_eq_of_lt hten
    simp [hten, hzero, hcode]
  · have hcode : 16 * (16 * (16 * (16 * 0 + 0) + 0) + 1) + c.toNat % 16 = c.toNat := by omega
    simp [hten, hone, hcode]

/-- One written character is read back as its code. -/
theorem units?_escape (c : Char) (rest : List Char) :
    units? .text (Text.Json.escape c ++ rest) =
      (units? .text rest).map fun (us, r) => (c.toNat :: us, r) := by
  unfold Text.Json.escape
  split
  · subst_vars; rfl
  split
  · subst_vars; rfl
  split
  · subst_vars; rfl
  split
  · subst_vars; rfl
  split
  · subst_vars; rfl
  split
  · subst_vars; rfl
  split
  · subst_vars; rfl
  split
  · exact units?_control ‹_› rest
  · rename_i hquote hslash _ _ _ _ _ hcontrol
    rw [List.singleton_append, units?, if_neg hquote, if_neg hslash, if_neg hcontrol]

theorem units?_flatMap_escape (cs rest : List Char) :
    units? .text (cs.flatMap Text.Json.escape ++ '"' :: rest) = some (cs.map Char.toNat, rest) := by
  induction cs with
  | nil => rfl
  | cons c cs ih => rw [List.flatMap_cons, List.append_assoc, units?_escape, ih]; rfl

theorem not_surrogate (c : Char) : isHigh c.toNat = false ∧ isLow c.toNat = false := by
  have hvalid : c.toNat.isValidChar := c.valid
  simp only [Nat.isValidChar] at hvalid
  simp only [isHigh, isLow, Bool.and_eq_false_iff, decide_eq_false_iff_not]
  omega

/-- Codes of characters are no surrogates, so each stands for its own character. -/
theorem pair?_toNat (cs : List Char) : pair? (cs.map Char.toNat) = some cs := by
  induction cs with
  | nil => rfl
  | cons c cs ih =>
      obtain ⟨hhigh, hlow⟩ := not_surrogate c
      cases cs with
      | nil => simp [pair?, hhigh, hlow, Char.ofNat_toNat]
      | cons d cs =>
          simp only [List.map_cons] at ih
          simp [pair?, hhigh, hlow, ih, Char.ofNat_toNat]

theorem string?_escape (s : String) (rest : List Char) :
    string? (s.toList.flatMap Text.Json.escape ++ '"' :: rest) = some (some s, rest) := by
  simp only [string?, units?_flatMap_escape, Option.map_some, pair?_toNat, String.ofList_toList]

/-! ## Numbers -/

/-- The text is empty or goes on with a mark that ends a value. -/
def Closes (rest : List Char) : Prop := ∀ c ∈ rest.head?, c = ',' ∨ c = ']' ∨ c = '\x7d'

theorem Closes.cons {c : Char} (h : c = ',' ∨ c = ']' ∨ c = '\x7d') (r : List Char) :
    Closes (c :: r) := by
  intro d hd
  cases hd
  exact h

theorem Closes.ne {rest : List Char} (h : Closes rest) {c : Char}
    (hc : c ≠ ',' ∧ c ≠ ']' ∧ c ≠ '\x7d') : rest.head? ≠ some c := by
  intro he
  rcases h c he with rfl | rfl | rfl
  · exact hc.1 rfl
  · exact hc.2.1 rfl
  · exact hc.2.2 rfl

theorem Closes.not_isDigit {rest : List Char} (h : Closes rest) :
    ∀ c ∈ rest.head?, c.isDigit = false := by
  intro c hc
  rcases h c hc with rfl | rfl | rfl <;> rfl

theorem digitChar_ne_zero : ∀ d, d < 10 → d ≠ 0 → Text.digitChar d ≠ '0' := by decide

theorem head?_digitsWithin (fuel : Nat) :
    ∀ n, n < fuel → n ≠ 0 → (Text.digitsWithin fuel n).head? ≠ some '0' := by
  induction fuel with
  | zero => intro n h; omega
  | succ fuel ih =>
      intro n h hn
      unfold Text.digitsWithin
      split
      · simpa using digitChar_ne_zero n ‹_› hn
      · have hq := ih (n / 10) (by omega) (by omega)
        cases hd : Text.digitsWithin fuel (n / 10) with
        | nil =>
            have hread := Text.readDigitsFrom_digitsWithin fuel (n / 10) (by omega)
            rw [hd, Text.readDigitsFrom, Option.some.injEq] at hread
            omega
        | cons c r => simpa [hd] using hq

/-- A numeral of more than one digit does not start with nought. -/
theorem length_of_leading_zero {n : Nat} (h : (Text.natDigits n).head? = some '0') :
    (Text.natDigits n).length = 1 := by
  by_cases hn : n = 0
  · rw [hn]; rfl
  · exact absurd h (head?_digitsWithin (n + 1) n (by omega) hn)

theorem whole?_natDigits (n : Nat) {rest : List Char} (h : Closes rest) :
    whole? (Text.natDigits n ++ rest) = some (Text.natDigits n, rest) := by
  have hds : ∀ c ∈ Text.natDigits n, c.isDigit = true := fun c => Text.isDigit_of_mem_natDigits
  have hdigits : digits? (Text.natDigits n ++ rest) = some (Text.natDigits n, rest) := by
    obtain ⟨ht, hd⟩ := Text.takeWhile_dropWhile_run hds h.not_isDigit
    simp [digits?, ht, hd, Text.natDigits_ne_nil]
  have hzero : ¬ ((Text.natDigits n).head? = some '0' ∧ (Text.natDigits n).length ≠ 1) :=
    fun hz => hz.2 (length_of_leading_zero hz.1)
  simp only [whole?, hdigits, Option.bind_eq_bind, Option.bind_some, if_neg hzero]

theorem fraction?_of_closes {rest : List Char} (h : Closes rest) :
    fraction? rest = some (false, rest) := by
  unfold fraction?
  split
  · exact absurd rfl (h.ne (by decide))
  · rfl

theorem exponent?_of_closes {rest : List Char} (h : Closes rest) :
    exponent? rest = some (false, rest) := by
  cases rest with
  | nil => rfl
  | cons c r =>
      have hc : ¬ (c = 'e' ∨ c = 'E') := by
        rintro (rfl | rfl) <;> exact absurd rfl (h.ne (by decide))
      unfold exponent?
      exact if_neg hc

theorem number?_intDigits (n : Int) {rest : List Char} (h : Closes rest) :
    number? (Text.intDigits n ++ rest) = some (plain (.integer n), rest) := by
  have hwhole := whole?_natDigits
  cases n with
  | ofNat n =>
      obtain ⟨c, r, hcr⟩ := List.exists_cons_of_ne_nil (Text.natDigits_ne_nil n)
      have hdigit : c.isDigit = true := Text.isDigit_of_mem_natDigits (n := n) (by simp [hcr])
      have hc : c ≠ '-' := by
        rintro rfl
        cases hdigit
      have hsign : Text.natDigits n ++ rest = c :: (r ++ rest) := by rw [hcr]; rfl
      have hn := hwhole n h
      rw [hsign] at hn
      simp [number?, Text.intDigits, hsign, hc, hn, fraction?_of_closes h, exponent?_of_closes h,
        Text.readDigits_natDigits]
  | negSucc n =>
      simp [number?, Text.intDigits, hwhole (n + 1) h, fraction?_of_closes h,
        exponent?_of_closes h, Text.readDigits_natDigits, Int.negSucc_eq]

/-! ## Values -/

mutual
/-- The data that a value is read as. -/
def node : Text.Json → Node
  | .int n => plain (.integer n)
  | .text s => .scalar { text := some s, value := .other }
  | .array items => .list (nodes items)
  | .object fields => .table (fieldNodes fields)

def nodes : List Text.Json → List Node
  | [] => []
  | j :: js => node j :: nodes js

def fieldNodes : List (String × Text.Json) → List (Option String × Node)
  | [] => []
  | (k, j) :: fs => (some k, node j) :: fieldNodes fs
end

theorem nodes_eq_map (js : List Text.Json) : nodes js = js.map node := by
  induction js with
  | nil => rfl
  | cons j js ih => rw [nodes, ih, List.map_cons]

open Text.Json (compactChars compactItems compactFields string)

theorem digit_ne {c : Char} (h : c.isDigit = true) :
    isBlank c = false ∧ c ∉ ['"', '[', ']', '\x7b', 'n', 't', 'f'] := by
  have hall : [' ', '\n', '\t', '\r', '"', '[', ']', '\x7b', 'n', 't', 'f'].all
      (fun d => !d.isDigit) = true := by decide
  have hne : ∀ d ∈ [' ', '\n', '\t', '\r', '"', '[', ']', '\x7b', 'n', 't', 'f'], c ≠ d := by
    rintro d hd rfl
    have hc := List.all_eq_true.mp hall c hd
    rw [h] at hc
    cases hc
  refine ⟨?_, fun hmem => hne c (List.mem_append_right [' ', '\n', '\t', '\r'] hmem) rfl⟩
  simp [isBlank, hne]

/-- A written integer starts with a digit or a minus sign. -/
theorem intDigits_start (n : Int) :
    ∃ c r, Text.intDigits n = c :: r ∧ (c.isDigit = true ∨ c = '-') := by
  cases n with
  | ofNat n =>
      obtain ⟨c, r, hcr⟩ := List.exists_cons_of_ne_nil (Text.natDigits_ne_nil n)
      exact ⟨c, r, hcr, .inl (Text.isDigit_of_mem_natDigits (n := n) (by simp [hcr]))⟩
  | negSucc n => exact ⟨'-', _, rfl, .inr rfl⟩

/-- A written value starts with a character that is neither white space nor the end of a list. -/
theorem compactChars_start (j : Text.Json) :
    ∃ c r, compactChars j = c :: r ∧ isBlank c = false ∧ c ≠ ']' := by
  cases j with
  | int n =>
      obtain ⟨c, r, hcr, hc⟩ := intDigits_start n
      refine ⟨c, r, by rw [compactChars, hcr], ?_⟩
      rcases hc with hc | rfl
      · exact ⟨(digit_ne hc).1, fun he => (digit_ne hc).2 (by simp [he])⟩
      · decide
  | text s => exact ⟨'"', _, by rw [compactChars, string]; rfl, by decide⟩
  | array js =>
      cases js with
      | nil => exact ⟨'[', _, by rw [compactChars], by decide⟩
      | cons j js => exact ⟨'[', _, by rw [compactChars]; rfl, by decide⟩
  | object fs =>
      cases fs with
      | nil => exact ⟨'\x7b', _, by rw [compactChars], by decide⟩
      | cons f fs => exact ⟨'\x7b', _, by rw [compactChars]; rfl, by decide⟩

theorem skip_of_not_blank {c : Char} (h : isBlank c = false) (r : List Char) :
    skip (c :: r) = c :: r := by
  simp [skip, h]

theorem value?_number {c : Char} (hc : c.isDigit = true ∨ c = '-') (n : Nat) (r : List Char) :
    value? (n + 1) (c :: r) = number? (c :: r) := by
  have hne : isBlank c = false ∧ c ∉ ['"', '[', ']', '\x7b', 'n', 't', 'f'] := by
    rcases hc with hc | rfl
    · exact digit_ne hc
    · decide
  rw [value?, skip_of_not_blank hne.1]
  split <;> simp_all

theorem closes_items (js : List Text.Json) (rest : List Char) :
    Closes (compactItems js ++ rest) := by
  cases js with
  | nil => exact .cons (by decide) _
  | cons j js => exact .cons (by decide) _

theorem closes_fields (fs : List (String × Text.Json)) (rest : List Char) :
    Closes (compactFields fs ++ rest) := by
  cases fs with
  | nil => exact .cons (by decide) _
  | cons f fs => exact .cons (by decide) _

theorem value?_array {c : Char} (hb : isBlank c = false) (hc : c ≠ ']') (n : Nat)
    (r : List Char) : value? (n + 1) ('[' :: c :: r) =
      (items? n (c :: r)).map fun (ns, rest) => (.list ns, rest) := by
  have hskip := skip_of_not_blank hb r
  rw [value?, skip_of_not_blank (by decide)]
  simp only [hskip]
  split <;> simp_all

theorem value?_object (n : Nat) (r : List Char) :
    value? (n + 1) ('\x7b' :: '"' :: r) =
      (fields? n ('"' :: r)).map fun (fs, rest) => (.table fs, rest) := by
  rw [value?, skip_of_not_blank (by decide)]
  simp only [skip_of_not_blank (c := '"') (by decide)]
  rfl

theorem items?_more {n : Nat} {cs r : List Char} {x : Node} (h : value? n cs = some (x, ',' :: r)) :
    items? (n + 1) cs = (items? n r).map fun (xs, rest) => (x :: xs, rest) := by
  simp only [items?, h, Option.bind_eq_bind, Option.bind_some,
    skip_of_not_blank (c := ',') (by decide)]

theorem items?_last {n : Nat} {cs r : List Char} {x : Node} (h : value? n cs = some (x, ']' :: r)) :
    items? (n + 1) cs = some ([x], r) := by
  simp only [items?, h, Option.bind_eq_bind, Option.bind_some,
    skip_of_not_blank (c := ']') (by decide)]

theorem fields?_more {n : Nat} {k : String} {cs r : List Char} {x : Node}
    (h : value? n cs = some (x, ',' :: r)) :
    fields? (n + 1) (string k ++ ':' :: cs) =
      (fields? n r).map fun (fs, rest) => ((some k, x) :: fs, rest) := by
  have hkey := string?_escape k (':' :: cs)
  simp only [string, List.cons_append, List.append_assoc, List.nil_append, fields?,
    skip_of_not_blank (c := '"') (by decide), hkey, Option.bind_eq_bind, Option.bind_some,
    skip_of_not_blank (c := ':') (by decide), h, skip_of_not_blank (c := ',') (by decide)]

theorem fields?_last {n : Nat} {k : String} {cs r : List Char} {x : Node}
    (h : value? n cs = some (x, '\x7d' :: r)) :
    fields? (n + 1) (string k ++ ':' :: cs) = some ([(some k, x)], r) := by
  have hkey := string?_escape k (':' :: cs)
  simp only [string, List.cons_append, List.append_assoc, List.nil_append, fields?,
    skip_of_not_blank (c := '"') (by decide), hkey, Option.bind_eq_bind, Option.bind_some,
    skip_of_not_blank (c := ':') (by decide), h, skip_of_not_blank (c := '\x7d') (by decide)]

mutual
/-- A written value is read back, and the reader stops behind it. Each level of the reader takes at
least one character. -/
theorem value?_compactChars : (j : Text.Json) → ∀ {n : Nat} {t : List Char}, Closes t →
    (compactChars j).length ≤ n → value? n (compactChars j ++ t) = some (node j, t)
  -- No value is written without characters, so the bound is never used up.
  | j, 0, _, _, hn => by
      obtain ⟨c, r, hcr, _⟩ := compactChars_start j
      simp [hcr] at hn
  | .int i, n + 1, rest, hrest, _ => by
      obtain ⟨c, r, hcr, hc⟩ := intDigits_start i
      have hnumber := number?_intDigits i hrest
      rw [hcr, List.cons_append] at hnumber
      rw [compactChars, hcr, List.cons_append, value?_number hc, hnumber, node]
  | .text s, n + 1, rest, _, _ => by
      have hstring := string?_escape s rest
      rw [compactChars, string, List.cons_append, List.cons_append, List.append_assoc,
        List.singleton_append, value?, skip_of_not_blank (by decide)]
      simp only [hstring, Option.map_some, node]
  | .array [], n + 1, rest, _, _ => by
      rw [compactChars, List.cons_append, value?, skip_of_not_blank (by decide)]
      rfl
  | .array (j :: js), n + 1, rest, _, hn => by
      obtain ⟨c, r, hcr, hblank, hc⟩ := compactChars_start j
      simp only [compactChars, List.cons_append, List.length_cons, List.length_append] at hn
      have hitems := items?_compactItems j js (n := n) (t := rest) (by omega)
      rw [hcr, List.cons_append] at hitems
      rw [compactChars, List.cons_append, List.cons_append, List.append_assoc, hcr,
        List.cons_append, value?_array hblank hc, hitems]
      rfl
  | .object [], n + 1, rest, _, _ => by
      rw [compactChars, List.cons_append, value?, skip_of_not_blank (by decide)]
      rfl
  | .object ((k, j) :: fs), n + 1, rest, _, hn => by
      simp only [compactChars, List.cons_append, List.length_cons, List.length_append] at hn
      have hfields := fields?_compactFields k j fs (n := n) (t := rest) (by omega)
      rw [string, List.cons_append, List.cons_append] at hfields
      rw [compactChars, string]
      simp only [List.cons_append, List.append_assoc] at hfields ⊢
      rw [value?_object, hfields]
      rfl

theorem items?_compactItems : (j : Text.Json) → (js : List Text.Json) → ∀ {n : Nat}
    {t : List Char}, (compactChars j).length + (compactItems js).length ≤ n →
    items? n (compactChars j ++ (compactItems js ++ t)) = some (node j :: nodes js, t)
  | j, _, 0, _, hn => by
      obtain ⟨c, r, hcr, _⟩ := compactChars_start j
      simp [hcr] at hn
  | j, [], n + 1, rest, hn => by
      simp only [compactItems, List.length_singleton] at hn
      have hvalue := value?_compactChars j (closes_items [] rest) (n := n) (by omega)
      exact items?_last hvalue
  | j, j' :: js, n + 1, rest, hn => by
      simp only [compactItems, List.length_cons, List.cons_append, List.length_append] at hn
      have hvalue := value?_compactChars j (closes_items (j' :: js) rest) (n := n) (by omega)
      have hitems := items?_compactItems j' js (n := n) (t := rest) (by omega)
      simp only [compactItems, List.cons_append, List.append_assoc] at hvalue ⊢
      rw [items?_more hvalue, hitems]
      rfl

theorem fields?_compactFields : (k : String) → (j : Text.Json) → (fs : List (String × Text.Json)) →
    ∀ {n : Nat} {t : List Char},
    (string k).length + (compactChars j).length + (compactFields fs).length ≤ n →
    fields? n (string k ++ ':' :: (compactChars j ++ (compactFields fs ++ t))) =
      some ((some k, node j) :: fieldNodes fs, t)
  | k, _, _, 0, _, hn => by simp [string] at hn
  | k, j, [], n + 1, rest, hn => by
      simp only [compactFields, List.length_singleton] at hn
      have hvalue := value?_compactChars j (closes_fields [] rest) (n := n) (by omega)
      exact fields?_last hvalue
  | k, j, (k', j') :: fs, n + 1, rest, hn => by
      simp only [compactFields, List.length_cons, List.cons_append, List.length_append] at hn
      have hvalue := value?_compactChars j (closes_fields ((k', j') :: fs) rest) (n := n) (by omega)
      have hfields := fields?_compactFields k' j' fs (n := n) (t := rest) (by omega)
      simp only [compactFields, List.cons_append, List.append_assoc] at hvalue ⊢
      rw [fields?_more hvalue, hfields]
      rfl
end

/-- The document of a written value is that value. -/
theorem document?_compactChars (j : Text.Json) :
    document? (compactChars j) = some { root := node j } := by
  have hlength : (compactChars j).length ≤ 2 * (compactChars j).length + 2 := by omega
  have hvalue := value?_compactChars j (t := []) (fun c hc => by cases hc) hlength
  rw [List.append_nil] at hvalue
  rw [document?, hvalue]
  rfl

end EnumLookup.Manifest.Json
