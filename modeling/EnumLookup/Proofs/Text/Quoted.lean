import EnumLookup.Proofs.Text.Decimal
import EnumLookup.Text.Literal

/-!
# String literals denote one text

The reader reads every literal of the grammar as the text that it denotes, so no literal denotes two
texts. What `quote` writes is a literal of the grammar that denotes the quoted text, whichever
characters stand for themselves.
-/

namespace EnumLookup.Text.Quoted

/-! ## Literals are read as the grammar says -/

/-- The digits inside the braces of an escape add to the code point. -/
theorem scan_code (ds rest : List Char) : ∀ {n m k : Nat},
    (ds.head? = some '_' → k ≠ 0) → readDigitsFrom 16 n (ds.filter (· ≠ '_')) = some m →
      k + (ds.filter (· ≠ '_')).length ≤ 6 →
      scan (.code n k) (ds ++ rest) = scan (.code m (k + (ds.filter (· ≠ '_')).length)) rest := by
  induction ds with
  | nil =>
      intro n m k _ h _
      simp only [List.filter_nil, readDigitsFrom, Option.some.injEq] at h
      simp [h]
  | cons c r ih =>
      intro n m k hstart h hk
      by_cases hc : c = '_'
      · subst hc
        have hfilter : ('_' :: r).filter (· ≠ '_') = r.filter (· ≠ '_') :=
          List.filter_cons_of_neg (by simp)
        have hpos : k ≠ 0 := hstart rfl
        rw [hfilter] at h hk ⊢
        rw [List.cons_append, scan, if_neg (by decide), if_pos rfl, if_neg hpos]
        exact ih (fun _ => hpos) h hk
      · have hfilter : (c :: r).filter (· ≠ '_') = c :: r.filter (· ≠ '_') :=
          List.filter_cons_of_pos (by simpa using hc)
        rw [hfilter] at h hk ⊢
        rw [readDigitsFrom] at h
        obtain ⟨d, hd, h⟩ := Option.bind_eq_some_iff.mp h
        have hbrace : c ≠ '\x7d' := by rintro rfl; simp [digit?, hexDigit?] at hd
        rw [List.length_cons] at hk ⊢
        rw [List.cons_append, scan, if_neg hbrace, if_neg hc, hd]
        dsimp only
        rw [if_pos (by omega), Nat.mul_comm 16 n, ih (by omega) h (by omega)]
        congr 2
        omega

theorem scalar?_toNat (c : Char) : scalar? c.toNat = some c := by
  have hv : c.toNat.isValidChar := c.valid
  simp [scalar?, hv, Char.ofNat_toNat]

/-- A code point in braces is read as its character. -/
theorem scan_codePoint {ds : List Char} {c : Char} (h : IsCodePoint ds c) (rest : List Char) :
    scan .brace ('\x7b' :: (ds ++ '\x7d' :: rest)) =
      (scan .text rest).map fun (s, r) => (c :: s, r) := by
  have hne : ds.filter (· ≠ '_') ≠ [] := by
    intro he
    have hvalue := h.value
    rw [he] at hvalue
    cases hvalue
  have hrun := scan_code ds ('\x7d' :: rest) (k := 0) (fun he => absurd he h.start)
    ((readDigits_of_ne_nil hne).symm.trans h.value) (by simpa using h.count)
  have hpos : 0 + (ds.filter (· ≠ '_')).length ≠ 0 := by simpa using hne
  rw [scan, if_pos rfl, hrun, scan, if_pos rfl, if_neg hpos, scalar?_toNat]

theorem scan_gap {g : List Char} (h : IsGap g) (rest : List Char) :
    scan .gap (g ++ rest) = scan .gap rest := by
  induction h with
  | nil => rfl
  | blank hc _ ih =>
      rcases hc with rfl | rfl
      · exact ih
      · exact ih
  | lineEnd he _ ih =>
      cases he with
      | feed => exact ih
      | returnFeed => exact ih

/-- A backslash at the end of a line takes away the white space up to the next line's text. -/
theorem scan_skip {e g rest : List Char} (he : IsLineEnd e) (hg : IsGap g)
    (hrest : ∀ c ∈ rest.head?, c ∉ [' ', '\t', '\n', '\r']) :
    scan .escape (e ++ (g ++ rest)) = scan .text rest := by
  have hgap : scan .escape (e ++ (g ++ rest)) = scan .gap (g ++ rest) := by
    cases he with
    | feed => rfl
    | returnFeed => rfl
  rw [hgap, scan_gap hg]
  cases rest with
  | nil => rfl
  | cons c r =>
      have hc := hrest c rfl
      simp only [List.mem_cons, List.not_mem_nil, or_false, not_or] at hc
      rw [scan, scan, if_neg (by simp [hc]), if_neg hc.2.2.2, if_neg hc.2.2.2]

/-- What stands between quotation marks is read up to the closing one as what it denotes. -/
theorem Denotes.body? {cs s : List Char} (h : Denotes cs s) (rest : List Char) :
    body? (cs ++ '"' :: rest) = some (s, rest) := by
  unfold Quoted.body?
  induction h with
  | nil => rfl
  | plain hmark hslash hreturn _ ih =>
      rw [List.cons_append, scan, if_neg hmark, if_neg hslash, if_neg hreturn, ih]
      rfl
  | lineEnd _ ih =>
      rw [List.cons_append, List.cons_append, scan, if_neg (by decide), if_neg (by decide),
        if_pos rfl, scan, if_pos rfl, ih]
      rfl
  | @simple c d r s hc _ ih =>
      have hplain : c ≠ 'x' ∧ c ≠ 'u' ∧ c ≠ '\n' ∧ c ≠ '\r' := by
        refine ⟨?_, ?_, ?_, ?_⟩ <;> (rintro rfl; cases hc)
      rw [List.cons_append, List.cons_append, scan, if_neg (by decide), if_pos rfl, scan,
        if_neg hplain.1, if_neg hplain.2.1, if_neg hplain.2.2.1, if_neg hplain.2.2.2, hc]
      dsimp only
      rw [ih]
      rfl
  | @octet x y d e r s hx hy _ ih =>
      simp only [List.cons_append]
      rw [scan, if_neg (by decide), if_pos rfl, scan, if_pos rfl, scan, hx]
      dsimp only
      rw [scan, hy]
      dsimp only
      rw [ih]
      rfl
  | @codePoint ds c r s hds _ ih =>
      simp only [List.cons_append, List.append_assoc]
      rw [scan, if_neg (by decide), if_pos rfl, scan, if_neg (by decide), if_pos rfl,
        scan_codePoint hds, ih]
      rfl
  | @skip e g r s he hg hr _ ih =>
      have hnext : ∀ c ∈ (r ++ '"' :: rest).head?, c ∉ [' ', '\t', '\n', '\r'] := by
        cases r with
        | nil =>
            intro c hc
            cases hc
            decide
        | cons c r => exact hr
      simp only [List.cons_append, List.append_assoc]
      rw [scan, if_neg (by decide), if_pos rfl, scan_skip he hg hnext, ih]

/-- No literal denotes two texts. -/
theorem Denotes.unique {cs s t : List Char} (hs : Denotes cs s) (ht : Denotes cs t) : s = t := by
  have h := (hs.body? []).symm.trans (ht.body? [])
  simpa using h

theorem hasBareMark_append {cs : List Char} (h : ∀ c ∈ cs, c ≠ '"' ∧ c ≠ '\\') (rest : List Char) :
    hasBareMark (cs ++ rest) = hasBareMark rest := by
  induction cs with
  | nil => rfl
  | cons c r ih =>
      rw [List.forall_mem_cons] at h
      rw [List.cons_append, hasBareMark, ih h.2, beq_eq_false_iff_ne.mpr h.1.1, Bool.false_or]
      intro _ _ he
      exact absurd he h.1.2

theorem ne_of_digit? {base d : Nat} {c : Char} (h : digit? base c = some d) :
    c ≠ '"' ∧ c ≠ '\\' := by
  refine ⟨?_, ?_⟩ <;> (rintro rfl; simp [digit?, hexDigit?] at h)

theorem IsCodePoint.ne {ds : List Char} {c : Char} (h : IsCodePoint ds c) :
    ∀ d ∈ ds, d ≠ '"' ∧ d ≠ '\\' := by
  intro d hd
  by_cases hscore : d = '_'
  · rw [hscore]
    decide
  · have hvalue := h.value
    have hmem : d ∈ ds.filter (· ≠ '_') := List.mem_filter.mpr ⟨hd, by simpa using hscore⟩
    rw [readDigits_of_ne_nil (List.ne_nil_of_mem hmem)] at hvalue
    obtain ⟨_, hdigit⟩ := Option.isSome_iff_exists.mp (digit?_of_mem hvalue d hmem)
    exact ne_of_digit? hdigit

theorem IsLineEnd.ne {e : List Char} (h : IsLineEnd e) : ∀ c ∈ e, c ≠ '"' ∧ c ≠ '\\' := by
  cases h <;> simp

theorem IsGap.ne {g : List Char} (h : IsGap g) : ∀ c ∈ g, c ≠ '"' ∧ c ≠ '\\' := by
  induction h with
  | nil => nofun
  | blank hc _ ih =>
      rw [List.forall_mem_cons]
      refine ⟨?_, ih⟩
      rcases hc with rfl | rfl <;> decide
  | lineEnd he _ ih =>
      rw [List.forall_mem_append]
      exact ⟨he.ne, ih⟩

/-- Inside a literal, a backslash escapes every quotation mark. -/
theorem Denotes.hasBareMark {cs s : List Char} (h : Denotes cs s) : hasBareMark cs = false := by
  induction h with
  | nil => rfl
  | @plain c r s hmark hslash _ _ ih =>
      have hplain : ∀ d ∈ [c], d ≠ '"' ∧ d ≠ '\\' := by simp [hmark, hslash]
      exact (hasBareMark_append hplain r).trans ih
  | lineEnd _ ih => exact ih
  | simple _ _ ih => exact ih
  | @octet x y _ _ r _ hx hy _ ih =>
      have hdigits : ∀ d ∈ [x, y], d ≠ '"' ∧ d ≠ '\\' := by
        simp [ne_of_digit? hx, ne_of_digit? hy]
      exact (hasBareMark_append hdigits r).trans ih
  | @codePoint ds c r s hds _ ih =>
      have hends : ∀ d ∈ '\x7b' :: ds ++ ['\x7d'], d ≠ '"' ∧ d ≠ '\\' := by
        rw [List.forall_mem_append, List.forall_mem_cons]
        exact ⟨⟨by decide, hds.ne⟩, by simp⟩
      have happend := hasBareMark_append hends r
      rw [List.append_assoc, List.singleton_append] at happend
      exact happend.trans ih
  | @skip e g r s he hg _ _ ih =>
      have happend := (hasBareMark_append he.ne (g ++ r)).trans (hasBareMark_append hg.ne r)
      cases he with
      | feed => exact happend.trans ih
      | returnFeed => exact happend.trans ih

/-! ## What is written is a literal -/

theorem simpleEscape?_short {c d : Char} (h : shortEscape? c = some d) :
    simpleEscape? d = some c := by
  unfold shortEscape? at h
  split at h <;> cases h <;> rfl

/-- The digits that `quote` writes are those of the character's code point. -/
theorem isCodePoint_hexDigits (c : Char) : IsCodePoint (hexDigits c.toNat) c := by
  have hdigits := digit?_of_mem (readDigitsFrom_hexDigits c.toNat)
  have hscore : ∀ d ∈ hexDigits c.toNat, d ≠ '_' := by
    rintro d hd rfl
    exact absurd (hdigits _ hd) (by decide)
  have hfilter : (hexDigits c.toNat).filter (· ≠ '_') = hexDigits c.toNat :=
    List.filter_eq_self.mpr fun d hd => by simpa using hscore d hd
  have hlt : c.toNat < 16 ^ 6 := by
    have hv : c.toNat.isValidChar := c.valid
    simp only [Nat.isValidChar] at hv
    omega
  refine ⟨fun he => hscore _ (List.mem_of_mem_head? he) rfl, ?_, ?_⟩
  · rw [hfilter]
    exact length_hexDigits_le hlt
  · rw [hfilter, readDigits_of_ne_nil (hexDigits_ne_nil _)]
    exact readDigitsFrom_hexDigits c.toNat

theorem denotes_escapeWith (prints : Char → Bool) (c : Char) {r s : List Char} (h : Denotes r s) :
    Denotes (escapeWith prints c ++ r) (c :: s) := by
  rw [escapeWith]
  split
  · rename_i d hd
    exact .simple (simpleEscape?_short hd) h
  · rename_i hshort
    split
    · refine .plain ?_ ?_ ?_ h <;> (rintro rfl; cases hshort)
    · have hcode := Denotes.codePoint (isCodePoint_hexDigits c) h
      simpa [codePointEscape] using hcode

/-- Whichever characters stand for themselves, a text that is written character by character denotes
itself. -/
theorem denotes_escapes (prints : Char → Bool) (cs : List Char) :
    Denotes (cs.flatMap (escapeWith prints)) cs := by
  induction cs with
  | nil => exact .nil
  | cons c cs ih =>
      rw [List.flatMap_cons]
      exact denotes_escapeWith prints c ih

/-- `quote` writes as it is what prints. -/
theorem escape_eq : Text.escape = escapeWith isPrintable := by
  funext c
  rw [escapeWith]
  cases h : shortEscape? c with
  | some d =>
      unfold shortEscape? at h
      split at h <;> cases h <;> rfl
  | none =>
      unfold shortEscape? at h
      split at h <;> cases h
      simp_all [Text.escape, codePointEscape]

/-- The characters that are written by their code points are those without a short escape that do
not stand for themselves. -/
theorem escapeWith_eq_codePoint_iff {prints : Char → Bool} {c : Char} :
    escapeWith prints c = codePointEscape c ↔ shortEscape? c = none ∧ prints c = false := by
  have hlength : 3 ≤ (codePointEscape c).length := by simp [codePointEscape]
  rw [escapeWith]
  constructor
  · intro h
    rw [← h] at hlength
    cases hshort : shortEscape? c with
    | some d => simp [hshort] at hlength
    | none =>
        cases hprints : prints c with
        | true => simp [hshort, hprints] at hlength
        | false => exact ⟨rfl, rfl⟩
  · rintro ⟨hshort, hprints⟩
    rw [hshort, hprints]
    rfl

/-- No character of a class breaks a line if no line break is in the class. -/
theorem not_mem_lineBreaks {p : Char → Bool} (h : (lineBreaks.all fun d => !p d) = true) {c : Char}
    (hc : p c = true) : c ∉ lineBreaks := by
  intro hmem
  have hbreak := List.all_eq_true.mp h c hmem
  rw [hc] at hbreak
  cases hbreak

/-- A line break in what is written for a character is that character, printed as it is. -/
theorem mem_escapeWith {prints : Char → Bool} {c d : Char} (h : d ∈ escapeWith prints c)
    (hd : d ∈ lineBreaks) : d = c ∧ shortEscape? c = none ∧ prints c = true := by
  rw [escapeWith] at h
  split at h
  · rename_i x hshort
    have hx : x ∉ lineBreaks := by
      unfold shortEscape? at hshort
      split at hshort <;> cases hshort <;> decide
    rcases List.mem_cons.mp h with rfl | h
    · exact absurd hd (by decide)
    · rw [List.mem_singleton.mp h] at hd
      exact absurd hd hx
  · rename_i hshort
    split at h
    · rename_i hprints
      exact ⟨List.mem_singleton.mp h, hshort, hprints⟩
    · have hdigit : d ∉ hexDigits c.toNat := fun hmem =>
        not_mem_lineBreaks (p := fun x => (digit? 16 x).isSome) (by decide)
          (digit?_of_mem (readDigitsFrom_hexDigits c.toNat) d hmem) hd
      simp only [codePointEscape, List.cons_append, List.nil_append, List.mem_cons,
        List.mem_append, List.not_mem_nil, or_false] at h
      rcases h with rfl | rfl | rfl | h | rfl
      · exact absurd hd (by decide)
      · exact absurd hd (by decide)
      · exact absurd hd (by decide)
      · exact absurd h hdigit
      · exact absurd hd (by decide)

/-- A line break that does not print is not in a quoted text. -/
theorem not_mem_quotedWith {prints : Char → Bool} {d : Char} (hd : d ∈ lineBreaks)
    (hprints : shortEscape? d = none → prints d = false) (cs : List Char) :
    d ∉ quotedWith prints cs := by
  have hmark : d ≠ '"' := by
    rintro rfl
    exact absurd hd (by decide)
  rw [quotedWith, List.mem_append, List.mem_cons, List.mem_singleton, List.mem_flatMap]
  rintro ((h | ⟨c, _, h⟩) | h)
  · exact hmark h
  · obtain ⟨rfl, hshort, htrue⟩ := mem_escapeWith h hd
    rw [hprints hshort] at htrue
    cases htrue
  · exact hmark h

/-- Whichever characters stand for themselves, a quoted text is one literal that denotes it. -/
theorem isLiteralOf_quotedWith (prints : Char → Bool) (cs : List Char) :
    IsLiteralOf (quotedWith prints cs) cs := by
  have hdenotes := denotes_escapes prints cs
  refine ⟨⟨_, rfl, hdenotes.hasBareMark, fun t => ⟨fun ht => ht.unique hdenotes, ?_⟩,
    hdenotes.body?⟩, ?_, ?_⟩
  · rintro rfl
    exact hdenotes
  · exact not_mem_quotedWith (by decide) (fun h => absurd h (by decide)) cs
  · exact not_mem_quotedWith (by decide) (fun h => absurd h (by decide)) cs

/-- No two texts have one literal. -/
theorem IsLiteralOf.unique {literal s t : List Char} (hs : IsLiteralOf literal s)
    (ht : IsLiteralOf literal t) : s = t := by
  obtain ⟨body, rfl, _, hdenotes, _⟩ := hs.encloses
  obtain ⟨body', heq, _, hdenotes', _⟩ := ht.encloses
  have hbody : body = body' := by simpa using heq
  subst hbody
  exact (hdenotes' s).mp ((hdenotes s).mpr rfl)

theorem quote_eq (s : String) : (quote s).toList = quotedWith isPrintable s.toList := by
  rw [quote, String.toList_ofList, quotedChars, quotedWith, escape_eq]

theorem isLiteralOf_quote (s : String) : IsLiteralOf (quote s).toList s.toList := by
  rw [quote_eq]
  exact isLiteralOf_quotedWith isPrintable s.toList

/-- No character at which some texts break their lines stands in what `quote` writes. -/
theorem not_mem_lineBreaks_of_quote {s : String} {c : Char} (h : c ∈ (quote s).toList) :
    c ∉ lineBreaks := by
  intro hc
  have hprints : isPrintable c = false := Bool.eq_false_iff.mpr fun hp =>
    not_mem_lineBreaks (by decide +kernel) hp hc
  rw [quote_eq] at h
  exact not_mem_quotedWith hc (fun _ => hprints) s.toList h

theorem quote_injective : Function.Injective quote := by
  intro s t h
  have ht := isLiteralOf_quote t
  rw [← h] at ht
  exact String.toList_inj.mp ((isLiteralOf_quote s).unique ht)

/-- What `quote` writes is read up to the closing quotation mark, whatever follows it. -/
theorem body?_flatMap_escape (cs rest : List Char) :
    body? (cs.flatMap Text.escape ++ '"' :: rest) = some (cs, rest) := by
  rw [escape_eq]
  exact (denotes_escapes isPrintable cs).body? rest

end EnumLookup.Text.Quoted
