import EnumLookup.Proofs.Source.Written

/-!
# Spelling on one line

The text of a type, an expression or a signature on one line is a phrase, and the grammar allows its
tokens for what is read there.
-/

namespace EnumLookup.Source

/-- The text spells the tokens wherever an allowed text follows it. -/
def Phrase (m : Marks) (follow : List Char → Prop) (s : String) (ts : List Token) : Prop :=
  Lexes m follow s.toList ts

/-- The text spells the thing. -/
def Spelt (m : Marks) (follow : List Char → Prop) {α : Type} (spells : α → List Token → Prop)
    (s : String) (x : α) : Prop := ∃ ts, Phrase m follow s ts ∧ spells x ts

/-- The text starts with a character that ends a word. -/
def startsApart (t : String) : Bool := t.toList.head?.any endsWord

/-- The text starts with a character that ends a word or a number. -/
def startsOff (t : String) : Bool := t.toList.head?.any fun c => endsWord c && c != '.'

theorem any_head?_append {p : Char → Bool} {t : String} (h : t.toList.head?.any p = true)
    (u : String) : (t ++ u).toList.head?.any p = true := by
  rw [String.toList_append, List.head?_append]
  cases ht : t.toList.head? with
  | none => simp [ht] at h
  | some c => simpa [ht] using h

theorem eq_cons_of_any_head? {p : Char → Bool} {cs : List Char} (h : cs.head?.any p = true) :
    ∃ c r, cs = c :: r ∧ p c = true := by
  cases cs with
  | nil => cases h
  | cons c r => exact ⟨c, r, rfl, h⟩

theorem WordEnd.of_startsApart {t : String} (h : startsApart t = true) (rest : List Char) :
    WordEnd (t.toList ++ rest) := by
  obtain ⟨c, r, ht, hc⟩ := eq_cons_of_any_head? h
  rw [ht]
  exact .cons _ hc

theorem PhraseEnd.of_startsOff {t : String} (h : startsOff t = true) (rest : List Char) :
    PhraseEnd (t.toList ++ rest) := by
  obtain ⟨c, r, ht, hc⟩ := eq_cons_of_any_head? h
  simp only [Bool.and_eq_true, bne_iff_ne, ne_eq] at hc
  rw [ht]
  exact .cons _ hc.1 hc.2

theorem Sequence.append {α : Type} {spells : α → List Token → Prop} {xs ys : List α}
    {ts us : List Token} (h : Sequence spells xs ts) (hy : Sequence spells ys us) :
    Sequence spells (xs ++ ys) (ts ++ us) := by
  induction h with
  | nil => exact hy
  | cons hx _ ih => rw [List.append_assoc]; exact .cons hx ih

theorem Sequence.flatten {α : Type} {spells : α → List Token → Prop} {xss : List (List α)}
    {ts : List Token} (h : Sequence (Sequence spells) xss ts) : Sequence spells xss.flatten ts := by
  induction h with
  | nil => exact .nil
  | cons hxs _ ih => exact hxs.append ih

variable {m : Marks}

namespace Phrase

variable {F G : List Char → Prop} {s t : String} {ts us vs : List Token}

theorem append (h : Phrase m F s ts) (ht : Phrase m G t us)
    (hf : ∀ rest, G rest → F (t.toList ++ rest)) : Phrase m G (s ++ t) (ts ++ us) := by
  rw [Phrase, String.toList_append]
  exact Lexes.append h ht hf

/-- After a phrase that nothing can extend, any phrase may come. -/
theorem join (h : Phrase m Anything s ts) (ht : Phrase m G t us) : Phrase m G (s ++ t) (ts ++ us) :=
  h.append ht fun _ _ => trivial

theorem weaken (h : Phrase m F s ts) (hf : ∀ rest, G rest → F rest) : Phrase m G s ts :=
  Lexes.weaken h hf

theorem ofWord (h : Phrase m WordEnd s ts) : Phrase m PhraseEnd s ts :=
  h.weaken fun _ => PhraseEnd.wordEnd

theorem ofAnything (h : Phrase m Anything s ts) : Phrase m F s ts := h.weaken fun _ _ => trivial

/-- A phrase before a text that ends it. -/
theorem before (h : Phrase m PhraseEnd s ts) (ht : Phrase m G t us) (he : startsOff t = true) :
    Phrase m G (s ++ t) (ts ++ us) := h.append ht fun rest _ => .of_startsOff he rest

/-- A word before a text that ends it. -/
theorem wordBefore (h : Phrase m WordEnd s ts) (ht : Phrase m G t us) (he : startsApart t = true) :
    Phrase m G (s ++ t) (ts ++ us) := h.append ht fun rest _ => .of_startsApart he rest

theorem nil : Phrase m F "" [] := Lexes.nil

theorem comma : Phrase m Anything ", " [.mark .comma] := .mark .comma rfl (.space .nil)

/-- A text that is one mark. -/
theorem ofMark (x : Mark) (hs : s.toList = x.chars) (hx : x.isClosed = true) :
    Phrase m Anything s [.mark x] := by
  rw [Phrase, hs, ← List.append_nil x.chars]
  exact .mark x hx .nil

/-- Things between commas spell a list of them. -/
theorem separated {α : Type} {spells : α → List Token → Prop} {ss : List String} {xs : List α}
    (h : List.Forall₂ (Spelt m PhraseEnd spells) ss xs) :
    Spelt m PhraseEnd (Items spells) (", ".intercalate ss) xs := by
  induction h with
  | nil => exact ⟨[], by rw [String.intercalate_nil]; exact .nil, .nil⟩
  | @cons s x ss xs hs hss ih =>
      obtain ⟨ts, hts, hx⟩ := hs
      obtain ⟨us, hus, hxs⟩ := ih
      cases hss with
      | nil => exact ⟨ts, by rwa [String.intercalate_singleton], .last hx⟩
      | @cons t y ss xs _ _ =>
          refine ⟨ts ++ .mark .comma :: us, ?_, .cons hx hxs⟩
          rw [String.intercalate_cons_cons, String.append_assoc]
          exact hts.before (comma.join hus) (any_head?_append (by decide) _)

end Phrase

open Phrase

/-! ## Paths and types -/

theorem path_lexes {p q : Path} (h : List.Forall₂ (WordReads m) p q) (hq : q ≠ []) :
    Phrase m WordEnd (spellPath p) (pathTokens q) := by
  have hsep : Phrase m Anything "::" [.mark .pathSep] := .ofMark .pathSep rfl rfl
  induction h with
  | nil => exact absurd rfl hq
  | @cons w v p q hw hp ih =>
      cases hp with
      | nil => rw [spellPath, String.intercalate_singleton]; exact hw
      | @cons w' v' p q hw' hp =>
          have hrest := ih (by simp)
          rw [spellPath, String.intercalate_cons_cons, String.append_assoc]
          exact Phrase.wordBefore hw (hsep.join hrest) (any_head?_append (by decide) _)

theorem IsPlainPath.reads {p : Path} (h : IsPlainPath p) : List.Forall₂ (WordReads m) p p :=
  List.forall₂_same.mpr fun w hw => .of_isName (h.2 w hw)

theorem IsPlainPath.lexes {p : Path} (h : IsPlainPath p) :
    Phrase m WordEnd (spellPath p) (pathTokens p) := path_lexes h.reads h.1.1

theorem lifetime_lexes {l : String} (h : isName l.toList = true) :
    Phrase m WordEnd ("'" ++ l) [.lifetime l] := by
  rw [Phrase, String.toList_append]
  exact .lifetime h

/-- A keyword with a space behind it. -/
theorem keyword_lexes {w : String} (hw : isName w.toList = true) :
    Phrase m Anything (w ++ " ") [.word w] := by
  rw [Phrase, String.toList_append]
  exact Lexes.wordThen (.plain hw) .nil

/-- What stands in angle brackets behind a path. -/
theorem bracketed_lexes {p : Path} {s : String} {ts : List Token} (hp : IsPlainPath p)
    (hs : Phrase m PhraseEnd s ts) :
    Phrase m Anything (spellPath p ++ "<" ++ s ++ ">")
      (pathTokens p ++ .mark .less :: ts ++ [.mark .greater]) := by
  have hopen : Phrase m Anything "<" [.mark .less] := .ofMark .less rfl rfl
  have hclose : Phrase m Anything ">" [.mark .greater] := .ofMark .greater rfl rfl
  have h := ((hp.lexes.wordBefore hopen (by decide)).join hs).before hclose (by decide)
  simpa using h

/-- What stands between two marks. -/
theorem enclosed_lexes {s : String} {ts : List Token} (l r : Mark) {o c : String}
    (hs : Phrase m PhraseEnd s ts) (ho : o.toList = l.chars) (hc : c.toList = r.chars)
    (hl : l.isClosed = true) (hr : r.isClosed = true) (he : startsOff c = true) :
    Phrase m Anything (o ++ s ++ c) (.mark l :: ts ++ [.mark r]) := by
  have hopen : Phrase m Anything o [.mark l] := .ofMark l ho hl
  have hclose : Phrase m Anything c [.mark r] := .ofMark r hc hr
  exact (hopen.join hs).before hclose he

theorem Ty.spellEach_eq_map (ts : List Ty) : Ty.spellEach ts = ts.map Ty.spell := by
  induction ts with
  | nil => rfl
  | cons t ts ih => rw [Ty.spellEach, ih, List.map_cons]

theorem reference_lexes {l : Option String} {t : Ty} {ts : List Token} (isMut : Bool)
    (hl : ∀ x, l = some x → isName x.toList = true) (ht : Phrase m WordEnd t.spell ts) :
    Phrase m WordEnd (Ty.reference l isMut t).spell
      (.mark .amp :: referenceTokens l isMut ++ ts) := by
  have hamp : Phrase m Anything "&" [.mark .amp] := .ofMark .amp rfl rfl
  have hlifetime : Phrase m Anything ((l.map fun l => "'" ++ l ++ " ").getD "")
      (l.map Token.lifetime).toList := by
    cases l with
    | none => exact nil
    | some l =>
        have hspace : Phrase m Anything " " [] := Lexes.space .nil
        exact (lifetime_lexes (hl l rfl)).wordBefore hspace (by decide)
  have hmut : Phrase m Anything (if isMut then "mut " else "")
      (if isMut then [Token.word "mut"] else []) := by
    cases isMut with
    | false => exact nil
    | true => exact keyword_lexes (w := "mut") (by decide)
  have h := ((hamp.join hlifetime).join hmut).join ht
  rw [Ty.spell]
  simpa [referenceTokens] using h

mutual
theorem ty_lexes : ∀ {t : Ty}, t.IsWritten → Spelt m WordEnd Ty.Spells t.spell t
  | _, .plain hp => ⟨_, by rw [Ty.spell]; exact hp.lexes, .plain hp.1⟩
  | _, .bound hp hl => by
      refine ⟨_, ?_, .bound hp.1 .absent⟩
      rw [Ty.spell, Ty.spellEach, List.append_nil, List.map_singleton,
        String.intercalate_singleton]
      · simpa using ofAnything (bracketed_lexes hp (lifetime_lexes hl).ofWord)
      · simp
  | _, .generic hp hargs => by
      obtain ⟨ts, hts, hitems⟩ := separated (tys_lex hargs)
      refine ⟨_, ?_, .generic hp.1 hitems⟩
      rw [Ty.spell, List.map_nil, List.nil_append]
      · exact ofAnything (bracketed_lexes hp hts)
      · simp
  | _, @Ty.IsWritten.reference l isMut t hl ht => by
      obtain ⟨ts, hts, hspells⟩ := ty_lexes ht
      exact ⟨_, reference_lexes isMut hl hts, .reference hspells⟩
  | _, .slice ht => by
      obtain ⟨ts, hts, hspells⟩ := ty_lexes ht
      refine ⟨_, ?_, .slice hspells⟩
      rw [Ty.spell]
      exact ofAnything (enclosed_lexes .openBracket .closeBracket hts.ofWord rfl rfl rfl rfl
        (by decide))
  | _, .tuple hitems => by
      obtain ⟨ts, hts, hspells⟩ := separated (tys_lex hitems)
      refine ⟨_, ?_, .tuple hspells⟩
      rw [Ty.spell]
      · exact ofAnything (enclosed_lexes .openParen .closeParen hts rfl rfl rfl rfl (by decide))
      · simp

theorem tys_lex : ∀ {ts : List Ty}, Ty.AreWritten ts →
    List.Forall₂ (Spelt m PhraseEnd Ty.Spells) (Ty.spellEach ts) ts
  | _, .nil => .nil
  | _, .cons ht hts => by
      obtain ⟨us, hus, hspells⟩ := ty_lexes ht
      exact .cons ⟨us, hus.ofWord, hspells⟩ (tys_lex hts)
end

/-! ## Expressions -/

/-- What may follow an expression: a number goes on with a dot, a chain does not. -/
def Level.follow : Level → List Char → Prop
  | .chain => WordEnd
  | .operand | .full => PhraseEnd

/-- Arguments in parentheses. -/
theorem arguments_lex {s t : String} {ts us : List Token} (hs : Phrase m WordEnd s ts)
    (ht : Phrase m PhraseEnd t us) :
    Phrase m Anything (s ++ "(" ++ t ++ ")")
      (ts ++ .mark .openParen :: us ++ [.mark .closeParen]) := by
  have hopen : Phrase m Anything "(" [.mark .openParen] := .ofMark .openParen rfl rfl
  have hclose : Phrase m Anything ")" [.mark .closeParen] := .ofMark .closeParen rfl rfl
  have h := ((hs.wordBefore hopen (by decide)).join ht).before hclose (by decide)
  simpa using h

theorem plain_lexes {w : String} (h : IsPlain w) : Phrase m WordEnd w [.word w] :=
  Lexes.word (.plain h.1)

theorem invoke_lexes {name : String} {es : List Expr} {ts : List Token} (hname : IsPlain name)
    (hts : Phrase m PhraseEnd (", ".intercalate (Expr.spellEach es)) ts) :
    Phrase m Anything (Expr.invoke name es).spell
      (.word name :: .mark .bang :: .mark .openParen :: ts ++ [.mark .closeParen]) := by
  have hopen : Phrase m Anything "!(" [.mark .bang, .mark .openParen] :=
    .mark .bang rfl (.mark .openParen rfl .nil)
  have hclose : Phrase m Anything ")" [.mark .closeParen] := .ofMark .closeParen rfl rfl
  rw [Expr.spell]
  exact (((plain_lexes hname).wordBefore hopen (by decide)).join hts).before hclose (by decide)

theorem choose_lexes {e : Expr} {as : List (Expr × Expr)} {ss ts : List Token}
    (hss : Phrase m PhraseEnd e.spell ss)
    (hts : Phrase m Anything (" ".intercalate (Expr.spellArms as)) ts) :
    Phrase m Anything (Expr.choose e as).spell
      (.word "match" :: ss ++ .mark .openBrace :: ts ++ [.mark .closeBrace]) := by
  have hmatch : Phrase m Anything "match " [.word "match"] :=
    keyword_lexes (w := "match") (by decide)
  have hopen : Phrase m Anything " \x7b " [.mark .openBrace] :=
    .space (.mark .openBrace rfl (.space .nil))
  have hclose : Phrase m Anything " \x7d" [.mark .closeBrace] :=
    .space (.mark .closeBrace rfl .nil)
  have h := (((hmatch.join hss).before hopen (by decide)).join hts).join hclose
  rw [Expr.spell]
  simpa using h

theorem closure_lexes {p : String} {e : Expr} {ts : List Token} (hp : IsPlain p)
    (hts : Phrase m PhraseEnd e.spell ts) :
    Phrase m PhraseEnd (Expr.closure p e).spell
      (.mark .bar :: .word p :: .mark .bar :: ts) := by
  have hopen : Phrase m Anything "|" [.mark .bar] := .ofMark .bar rfl rfl
  have hclose : Phrase m Anything "| " [.mark .bar] := .mark .bar rfl (.space .nil)
  rw [Expr.spell]
  exact (hopen.join ((plain_lexes hp).wordBefore hclose (by decide))).join hts

theorem equal_lexes {l r : Expr} {ls rs : List Token} (hl : Phrase m PhraseEnd l.spell ls)
    (hr : Phrase m PhraseEnd r.spell rs) :
    Phrase m PhraseEnd (Expr.equal l r).spell (ls ++ .mark .equal :: rs) := by
  have hequal : Phrase m Anything " == " [.mark .equal] :=
    .space (.mark .equal rfl (.space .nil))
  have h := (hl.before hequal (by decide)).join hr
  rw [Expr.spell]
  simpa using h

mutual
theorem expr_lexes : ∀ {l : Level} {e e' : Expr}, Expr.ReadsAs m l e e' →
    Spelt m l.follow (Expr.Spells l) e.spell e'
  | _, _, _, .text => ⟨_, by rw [Expr.spell]; exact Lexes.text _, .text⟩
  | _, _, _, .path hp hq => ⟨_, by rw [Expr.spell]; exact path_lexes hp hq.1, .path hq⟩
  | _, _, _, .call hf hargs => by
      obtain ⟨fs, hfs, hspells⟩ := expr_lexes hf
      obtain ⟨ts, hts, hitems⟩ := separated (exprs_lex hargs)
      refine ⟨_, ?_, .call hspells hitems⟩
      rw [Expr.spell]
      exact ofAnything (arguments_lex hfs hts)
  | _, _, _, .method hr hname hargs => by
      obtain ⟨rs, hrs, hspells⟩ := expr_lexes hr
      obtain ⟨ts, hts, hitems⟩ := separated (exprs_lex hargs)
      refine ⟨_, ?_, .method hspells hname.2 hitems⟩
      have hdot : Phrase m Anything "." [.mark .dot] := .ofMark .dot rfl rfl
      rw [Expr.spell]
      simpa using ofAnything (arguments_lex
        ((hrs.wordBefore hdot (by decide)).join (plain_lexes hname)) hts)
  | _, _, _, .invoke hname hargs => by
      obtain ⟨ts, hts, hitems⟩ := separated (exprs_lex hargs)
      exact ⟨_, ofAnything (invoke_lexes hname hts), .invoke hname.2 hitems⟩
  | _, _, _, .array hitems => by
      obtain ⟨ts, hts, hitems⟩ := separated (exprs_lex hitems)
      refine ⟨_, ?_, .array hitems⟩
      rw [Expr.spell]
      exact ofAnything (enclosed_lexes .openBracket .closeBracket hts rfl rfl rfl rfl (by decide))
  | _, _, _, .tuple hitems => by
      obtain ⟨ts, hts, hitems⟩ := separated (exprs_lex hitems)
      refine ⟨_, ?_, .tuple hitems⟩
      rw [Expr.spell]
      · exact ofAnything (enclosed_lexes .openParen .closeParen hts rfl rfl rfl rfl (by decide))
      · simp
  | _, _, _, .number => ⟨_, by rw [Expr.spell]; exact Lexes.number _ _, .number⟩
  | _, _, _, .choose he harms => by
      obtain ⟨ss, hss, hspells⟩ := expr_lexes he
      obtain ⟨ts, hts, harms⟩ := arms_lex harms
      exact ⟨_, ofAnything (choose_lexes hss hts), .choose hspells harms⟩
  | _, _, _, .ofChain h => by
      obtain ⟨ts, hts, hspells⟩ := expr_lexes h
      exact ⟨ts, Phrase.ofWord hts, .ofChain hspells⟩
  | _, _, _, .borrow h => by
      obtain ⟨ts, hts, hspells⟩ := expr_lexes h
      refine ⟨_, ?_, .borrow hspells⟩
      have hamp : Phrase m Anything "&" [.mark .amp] := .ofMark .amp rfl rfl
      rw [Expr.spell]
      exact hamp.join hts
  | _, _, _, .ofOperand h => by
      obtain ⟨ts, hts, hspells⟩ := expr_lexes h
      exact ⟨ts, hts, .ofOperand hspells⟩
  | _, _, _, .closure hp h => by
      obtain ⟨ts, hts, hspells⟩ := expr_lexes h
      exact ⟨_, closure_lexes hp hts, .closure hp.2 hspells⟩
  | _, _, _, .equal hl hr => by
      obtain ⟨ls, hls, hleft⟩ := expr_lexes hl
      obtain ⟨rs, hrs, hright⟩ := expr_lexes hr
      exact ⟨_, equal_lexes hls hrs, .equal hleft hright⟩

theorem exprs_lex : ∀ {es es' : List Expr}, Expr.ReadEachAs m es es' →
    List.Forall₂ (Spelt m PhraseEnd (Expr.Spells .full)) (Expr.spellEach es) es'
  | _, _, .nil => .nil
  | _, _, .cons he hes => .cons (expr_lexes he) (exprs_lex hes)

/-- The arms of a choice on one line. -/
theorem arms_lex : ∀ {as as' : List (Expr × Expr)}, Expr.ReadArmsAs m as as' →
    ∃ ts, Phrase m Anything (" ".intercalate (Expr.spellArms as)) ts ∧
      Arms (Expr.Spells .operand) (Expr.Spells .full) as' ts
  | _, _, .nil => ⟨[], by rw [Expr.spellArms, String.intercalate_nil]; exact nil, .nil⟩
  | _, _, @Expr.ReadArmsAs.cons _ p p' e e' as as' hp he has => by
      obtain ⟨ps, hps, hpattern⟩ := expr_lexes hp
      obtain ⟨es, hes, hvalue⟩ := expr_lexes he
      obtain ⟨ts, hts, harms⟩ := arms_lex has
      refine ⟨_, ?_, .braced hpattern hvalue .absent harms⟩
      have hopen : Phrase m Anything " => \x7b " [.mark .fatArrow, .mark .openBrace] :=
        .space (.mark .fatArrow rfl (.space (.mark .openBrace rfl (.space .nil))))
      have hclose : Phrase m Anything " \x7d" [.mark .closeBrace] :=
        .space (.mark .closeBrace rfl .nil)
      have harm := ((Phrase.before hps hopen (by decide)).join hes).before hclose (by decide)
      cases as with
      | nil =>
          cases has
          cases harms
          rw [Expr.spellArms, Expr.spellArms, String.intercalate_singleton]
          simpa using harm
      | cons a as =>
          have hspace : Phrase m Anything " " [] := Lexes.space .nil
          rw [Expr.spellArms, String.intercalate_cons_of_ne_nil (by simp [Expr.spellArms])]
          simpa using (harm.join hspace).join hts
end

end EnumLookup.Source
