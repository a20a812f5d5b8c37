import EnumLookup.Source.Directed

/-!
# Lexing goes from token to token

Every step of the lexer shortens the text, so the tokens of a text are those of its first step
followed by those of the rest, whatever bound on the number of steps is used.
-/

namespace EnumLookup.Source

/-! ## A step shortens the text -/

theorem length_splitLine_le (cs : List Char) : (splitLine cs).2.length ≤ cs.length := by
  fun_induction splitLine cs with
  | case1 => simp
  | case2 r => simp
  | case3 r => simp
  | case4 c r _ _ ih => simp only [List.length_cons]; omega

theorem length_splitBlock {depth : Nat} {cs t rest : List Char}
    (h : splitBlock depth cs = some (t, rest)) : rest.length ≤ cs.length := by
  fun_induction splitBlock depth cs generalizing t rest with
  | case1 => simp at h
  | case2 depth r ih =>
      obtain ⟨p, hp, he⟩ := Option.map_eq_some_iff.mp h
      cases he
      have := ih hp
      simp only [List.length_cons]; omega
  | case3 r =>
      simp only [Option.some.injEq, Prod.mk.injEq] at h
      obtain ⟨rfl, rfl⟩ := h
      simp only [List.length_cons]; omega
  | case4 depth r ih =>
      obtain ⟨p, hp, he⟩ := Option.map_eq_some_iff.mp h
      cases he
      have := ih hp
      simp only [List.length_cons]; omega
  | case5 depth c r _ _ _ ih =>
      obtain ⟨p, hp, he⟩ := Option.map_eq_some_iff.mp h
      cases he
      have := ih hp
      simp only [List.length_cons]; omega

theorem docToken_rest {inner : Bool} {text rest : List Char} {ts : List Token} {r : List Char}
    (h : docToken inner text rest = some (ts, r)) : r = rest := by
  unfold docToken at h
  split at h
  · simp only [Option.some.injEq, Prod.mk.injEq] at h
    exact h.2.symm
  · simp at h

theorem length_docLine {inner : Bool} {cs rest : List Char} {ts : List Token}
    (h : docToken inner (splitLine cs).1 (splitLine cs).2 = some (ts, rest)) :
    rest.length ≤ cs.length := by
  rw [docToken_rest h]
  exact length_splitLine_le cs

theorem length_docBlock {inner : Bool} {depth : Nat} {cs rest : List Char} {ts : List Token}
    (h : ((splitBlock depth cs).bind fun p => docToken inner p.1 p.2) = some (ts, rest)) :
    rest.length ≤ cs.length := by
  obtain ⟨p, hp, hr⟩ := Option.bind_eq_some_iff.mp h
  rw [docToken_rest hr]
  exact length_splitBlock hp

theorem length_plainBlock {depth : Nat} {cs rest : List Char} {ts : List Token}
    (h : ((splitBlock depth cs).map fun p => (([] : List Token), p.2)) = some (ts, rest)) :
    rest.length ≤ cs.length := by
  obtain ⟨p, hp, hr⟩ := Option.map_eq_some_iff.mp h
  cases hr
  exact length_splitBlock hp

theorem length_comment? {cs rest : List Char} {ts : List Token}
    (h : comment? cs = some (ts, rest)) : rest.length < cs.length := by
  unfold comment? at h
  split at h
  · have := length_docLine h
    simp only [List.length_cons]; omega
  · rename_i r
    cases h
    have := length_splitLine_le r
    simp only [List.length_cons]; omega
  · have := length_docLine h
    simp only [List.length_cons]; omega
  · rename_i r _ _ _
    cases h
    have := length_splitLine_le r
    simp only [List.length_cons]; omega
  · cases h
    simp only [List.length_cons]; omega
  -- Two stars are given back to the block behind three of them.
  · have := length_plainBlock h
    simp only [List.length_cons] at this ⊢; omega
  · have := length_docBlock h
    simp only [List.length_cons]; omega
  · have := length_docBlock h
    simp only [List.length_cons]; omega
  · have := length_plainBlock h
    simp only [List.length_cons]; omega
  · cases h

theorem length_dropWhile_le (p : Char → Bool) (cs : List Char) :
    (cs.dropWhile p).length ≤ cs.length := (List.dropWhile_suffix p).length_le

theorem length_word? {c : Char} {r rest : List Char} {ts : List Token}
    (hc : Text.isIdentifierStart c = true) (h : word? (c :: r) = some (ts, rest)) :
    rest.length < (c :: r).length := by
  have hd : (c :: r).dropWhile Text.isIdentifierPart = r.dropWhile Text.isIdentifierPart := by
    simp [Text.isIdentifierPart_of_start hc]
  have hle := length_dropWhile_le Text.isIdentifierPart r
  unfold word? at h
  simp only [hd, List.length_cons] at h ⊢
  split at h
  · rename_i c' r' heq
    have := length_dropWhile_le Text.isIdentifierPart (c' :: r')
    rw [heq] at hle h
    simp only [List.length_cons] at hle this
    split at h
    · split at h
      · simp at h
      · simp only [Option.some.injEq, Prod.mk.injEq] at h
        rw [← h.2]; omega
    · split at h
      · simp at h
      · simp only [Option.some.injEq, Prod.mk.injEq] at h
        rw [← h.2]; simp only [List.length_cons]; omega
  · split at h
    · simp at h
    · simp only [Option.some.injEq, Prod.mk.injEq] at h
      rw [← h.2]; omega
  · simp only [Option.some.injEq, Prod.mk.injEq] at h
    rw [← h.2]; omega

theorem length_lifetime? {cs rest : List Char} {ts : List Token}
    (h : lifetime? cs = some (ts, rest)) : rest.length ≤ cs.length := by
  cases cs with
  | nil => simp [lifetime?] at h
  | cons c r =>
      have := length_dropWhile_le Text.isIdentifierPart r
      unfold lifetime? at h
      simp only at h
      split at h
      · split at h
        · simp at h
        · simp only [Option.some.injEq, Prod.mk.injEq] at h
          rw [← h.2]; simp only [List.length_cons]; omega
      · simp at h

theorem length_number? {c : Char} {r rest : List Char} {ts : List Token} (hc : c.isDigit = true)
    (h : number? (c :: r) = some (ts, rest)) : rest.length < (c :: r).length := by
  have hd : (c :: r).dropWhile Char.isDigit = r.dropWhile Char.isDigit := by simp [hc]
  have h1 := length_dropWhile_le Char.isDigit r
  have h2 := length_dropWhile_le Text.isIdentifierPart (r.dropWhile Char.isDigit)
  have hrest : rest = (r.dropWhile Char.isDigit).dropWhile Text.isIdentifierPart := by
    unfold number? at h
    obtain ⟨n, _, h⟩ := Option.bind_eq_some_iff.mp h
    simp only [hd] at h
    split at h
    · simp at h
    split at h
    · simp only [Option.some.injEq, Prod.mk.injEq] at h
      exact h.2.symm
    · obtain ⟨w, _, h⟩ := Option.bind_eq_some_iff.mp h
      simp only [Option.some.injEq, Prod.mk.injEq] at h
      exact h.2.symm
  rw [hrest, List.length_cons]
  omega

theorem length_scan {m : Text.Quoted.Mode} {cs s rest : List Char}
    (h : Text.Quoted.scan m cs = some (s, rest)) : rest.length ≤ cs.length := by
  fun_induction Text.Quoted.scan m cs generalizing s rest with
  | case1 => simp at h
  | _ => grind [Option.map_eq_some_iff]

theorem length_string? {cs rest : List Char} {ts : List Token}
    (h : string? cs = some (ts, rest)) : rest.length ≤ cs.length := by
  obtain ⟨⟨s, r⟩, hp, h⟩ := Option.bind_eq_some_iff.mp h
  have hle := length_scan hp
  cases hr : r.head?.any Text.isIdentifierStart with
  | true => simp [hr] at h
  | false =>
      simp only [hr, Bool.false_eq_true, if_false, Option.some.injEq, Prod.mk.injEq] at h
      rw [← h.2]; exact hle

theorem length_mark? {cs rest : List Char} {ts : List Token}
    (h : mark? cs = some (ts, rest)) : rest.length < cs.length := by
  obtain ⟨m, hm, h⟩ := Option.bind_eq_some_iff.mp h
  simp only [Option.some.injEq, Prod.mk.injEq] at h
  have hp : m.chars.isPrefixOf cs = true :=
    List.find?_some (p := fun m : Mark => m.chars.isPrefixOf cs) hm
  obtain ⟨t, ht⟩ := List.isPrefixOf_iff_prefix.mp hp
  have hpos : 0 < m.chars.length := by cases m <;> decide
  rw [← h.2, List.length_drop, ← ht, List.length_append]
  omega

theorem length_step? {cs rest : List Char} {ts : List Token}
    (h : step? cs = some (ts, rest)) : rest.length < cs.length := by
  cases cs with
  | nil => simp [step?] at h
  | cons c r =>
      rw [step?] at h
      split at h
      · simp only [Option.some.injEq, Prod.mk.injEq] at h
        rw [← h.2]; simp
      split at h
      · exact length_comment? h
      split at h
      · exact length_word? ‹_› h
      split at h
      · exact length_number? ‹_› h
      split at h
      · have := length_string? h
        simp only [List.length_cons]; omega
      split at h
      · have := length_lifetime? h
        simp only [List.length_cons]; omega
      · exact length_mark? h

/-- What is made of a step depends on what is made of shorter texts. -/
theorem bind_step?_congr {α : Type} {c : Char} {r : List Char}
    {f g : List Token × List Char → Option α}
    (h : ∀ ts cs, cs.length ≤ r.length → f (ts, cs) = g (ts, cs)) :
    (step? (c :: r)).bind f = (step? (c :: r)).bind g := by
  cases hs : step? (c :: r) with
  | none => rfl
  | some p => exact h p.1 p.2 (Nat.le_of_lt_succ (length_step? hs))

/-! ## The bound on the number of steps does not matter -/

/-- What a reader finds with a bound no less than the length of the text does not depend on the
bound, if it goes on with a shorter text. -/
theorem bound_irrelevant {σ α : Type} {f : Nat → σ → List Char → α}
    (hnil : ∀ n m s, f n s [] = f m s [])
    (hcons : ∀ {n m s c r}, (∀ s' cs, cs.length ≤ r.length → f n s' cs = f m s' cs) →
      f (n + 1) s (c :: r) = f (m + 1) s (c :: r)) (n : Nat) :
    ∀ {m s cs}, cs.length ≤ n → cs.length ≤ m → f n s cs = f m s cs := by
  induction n with
  | zero =>
      intro m s cs hn _
      rw [List.eq_nil_of_length_eq_zero (Nat.le_zero.mp hn)]
      exact hnil 0 m s
  | succ n ih =>
      intro m s cs hn hm
      cases cs with
      | nil => exact hnil (n + 1) m s
      | cons c r =>
          simp only [List.length_cons] at hn hm
          obtain ⟨m, rfl⟩ : ∃ k, m = k + 1 := ⟨m - 1, by omega⟩
          exact hcons fun s' cs' hle => ih (by omega) (by omega)

theorem tokensWithin_eq (n : Nat) {m : Nat} {cs : List Char} (hn : cs.length ≤ n)
    (hm : cs.length ≤ m) : tokensWithin n cs = tokensWithin m cs := by
  refine bound_irrelevant (f := fun k (_ : Unit) => tokensWithin k) ?_ ?_ n (s := ()) hn hm
  · intro n m _
    cases n <;> cases m <;> rfl
  · intro n m _ c r hless
    simp only [tokensWithin]
    exact bind_step?_congr fun ts cs hle => by rw [hless () cs hle]

theorem directedWithin_eq (n : Nat) {m : Nat} {marks cs : List Char} (hn : cs.length ≤ n)
    (hm : cs.length ≤ m) : directedWithin n marks cs = directedWithin m marks cs := by
  refine bound_irrelevant ?_ ?_ n hn hm
  · intro n m _
    cases n <;> cases m <;> rfl
  · intro n m marks c r hless
    simp only [directedWithin]
    split
    · exact hless _ r (Nat.le_refl _)
    · exact bind_step?_congr fun ts cs hle => by rw [hless [] cs hle]

/-! ## Token by token -/

theorem Token.directed_nil (t : Token) : t.directed [] = t := by
  cases t with
  | word w => simp [Token.directed]
  | _ => rfl

theorem tokensAs?_nil (m : Marks) : tokensAs? m [] = some [] := by cases m <;> rfl

theorem tokens?_of_step {c : Char} {r rest : List Char} {ts : List Token}
    (h : step? (c :: r) = some (ts, rest)) : tokens? (c :: r) = (tokens? rest).map (ts ++ ·) := by
  have hlt := length_step? h
  simp only [List.length_cons] at hlt
  simp only [tokens?, List.length_cons, tokensWithin, h, Option.bind_eq_bind, Option.bind_some]
  rw [tokensWithin_eq r.length (m := rest.length) (by omega) (by omega)]
  rfl

theorem tokens?_of_stuck {c : Char} {r : List Char} (h : step? (c :: r) = none) :
    tokens? (c :: r) = none := by
  simp [tokens?, tokensWithin, h]

theorem directedWithin_of_step {c : Char} {r rest marks : List Char} {ts : List Token}
    (hc : isDirectionMark c = false) (h : step? (c :: r) = some (ts, rest)) :
    directedWithin (c :: r).length marks (c :: r) =
      (directedWithin rest.length [] rest).map (ts.map (Token.directed marks) ++ ·) := by
  have hlt := length_step? h
  simp only [List.length_cons] at hlt
  simp only [List.length_cons, directedWithin, hc, h, Option.bind_eq_bind, Option.bind_some,
    Bool.false_eq_true, if_false]
  rw [directedWithin_eq r.length (m := rest.length) (by omega) (by omega)]
  rfl

/-- The tokens of a text are those of its first step and those of the rest. -/
theorem tokensAs?_of_step (m : Marks) {c : Char} {r rest : List Char} {ts : List Token}
    (hc : isDirectionMark c = false) (h : step? (c :: r) = some (ts, rest)) :
    tokensAs? m (c :: r) = (tokensAs? m rest).map (ts ++ ·) := by
  cases m with
  | dropped => exact tokens?_of_step h
  | kept =>
      have hts : ts.map (Token.directed []) = ts := by
        rw [funext Token.directed_nil, List.map_id']
      rw [tokensAs?, directedWithin_of_step hc h, hts]
      rfl

theorem isSkipped_of_isDirectionMark {c : Char} (h : isDirectionMark c = true) :
    isSkipped c = true := by
  simp only [isDirectionMark, Bool.or_eq_true, beq_iff_eq] at h
  simp only [isSkipped, Bool.or_eq_true, beq_iff_eq]
  rcases h with h | h
  · exact .inl (.inr h)
  · exact .inr h

theorem tokens?_skip {c : Char} (r : List Char) (h : isSkipped c = true) :
    tokens? (c :: r) = tokens? r := by
  have hs : step? (c :: r) = some ([], r) := by rw [step?, if_pos h]
  rw [tokens?_of_step hs]
  cases tokens? r <;> rfl

/-- The direction marks in front of a text are dropped. -/
theorem tokens?_append_marks {marks : List Char} (h : ∀ c ∈ marks, isDirectionMark c = true)
    (cs : List Char) : tokens? (marks ++ cs) = tokens? cs := by
  induction marks with
  | nil => rfl
  | cons c r ih =>
      rw [List.cons_append, tokens?_skip _ (isSkipped_of_isDirectionMark (h c (by simp)))]
      exact ih fun x hx => h x (by simp [hx])

/-- The direction marks in front of a text are kept for its first word. -/
theorem directedWithin_append_marks {marks : List Char}
    (h : ∀ c ∈ marks, isDirectionMark c = true) (cs : List Char) :
    ∀ before, directedWithin (marks ++ cs).length before (marks ++ cs) =
      directedWithin cs.length (before ++ marks) cs := by
  induction marks with
  | nil => intro before; simp
  | cons c r ih =>
      intro before
      have hr := ih (fun x hx => h x (by simp [hx])) (before ++ [c])
      simp only [List.cons_append, List.length_cons, directedWithin, h c (by simp), if_true]
      rw [hr, List.append_assoc, List.singleton_append]

end EnumLookup.Source
