import EnumLookup.Proofs.Source.Reading
import EnumLookup.Proofs.Source.Spelling
import EnumLookup.Source.Assertion

/-!
# Assertions read back

The text of an assertion whose call has literals for arguments is read as that assertion. Question
marks in a literal are part of it, so the call ends at the first question mark behind it.
-/

namespace EnumLookup.Source

/-! ## Up to the question mark -/

theorem clauseWithin_eq (n : Nat) {m : Nat} {cs : List Char} (hn : cs.length ≤ n)
    (hm : cs.length ≤ m) : clauseWithin n cs = clauseWithin m cs := by
  refine bound_irrelevant (f := fun k (_ : Unit) => clauseWithin k) ?_ ?_ n (s := ()) hn hm
  · intro n m _
    cases n <;> cases m <;> rfl
  · intro n m _ c r hless
    rw [clauseWithin, clauseWithin]
    split
    · rfl
    · refine bind_step?_congr fun ts cs hle => ?_
      dsimp only
      rw [hless () cs hle]

theorem clause?_question (r : List Char) : clause? ('?' :: r) = some ([], r) := rfl

theorem clause?_of_step {cs rest : List Char} {ts : List Token} (h : step? cs = some (ts, rest)) :
    clause? cs = (clause? rest).map fun p => (ts ++ p.1, p.2) := by
  have hlt := length_step? h
  obtain ⟨n, hn⟩ : ∃ n, cs.length = n + 1 := ⟨cs.length - 1, by omega⟩
  have hhead : cs.head? ≠ some '?' := by
    intro hhead
    obtain ⟨r, rfl⟩ := List.head?_eq_some_iff.mp hhead
    cases h
  rw [clause?, hn, clauseWithin, if_neg hhead, h, Option.bind_eq_bind, Option.bind_some]
  show (clauseWithin n rest).map _ = _
  rw [clauseWithin_eq n (m := rest.length) (by omega) (by omega)]
  rfl

/-- The text stands for the tokens in front of a question mark, wherever an allowed text follows
it. -/
def Opens (follow : List Char → Prop) (s : String) (ts : List Token) : Prop :=
  ∀ rest, follow rest →
    clause? (s.toList ++ rest) = (clause? rest).map fun p => (ts ++ p.1, p.2)

namespace Opens

variable {F G : List Char → Prop} {s t : String} {ts us : List Token}

theorem ofStep (h : ∀ rest, F rest → step? (s.toList ++ rest) = some (ts, rest)) : Opens F s ts :=
  fun rest hr => clause?_of_step (h rest hr)

theorem append (h : Opens F s ts) (ht : Opens G t us)
    (hf : ∀ rest, G rest → F (t.toList ++ rest)) : Opens G (s ++ t) (ts ++ us) := by
  intro rest hg
  rw [String.toList_append, List.append_assoc, h _ (hf rest hg), ht rest hg, Option.map_map]
  congr 1
  funext p
  simp

/-- A text before one that ends it. -/
theorem before (h : Opens PhraseEnd s ts) (ht : Opens G t us) (he : startsOff t = true) :
    Opens G (s ++ t) (ts ++ us) := h.append ht fun rest _ => .of_startsOff he rest

theorem ofWord (h : Opens WordEnd s ts) : Opens PhraseEnd s ts :=
  fun rest hr => h rest hr.wordEnd

theorem join (h : Opens Anything s ts) (ht : Opens G t us) : Opens G (s ++ t) (ts ++ us) :=
  h.append ht fun _ _ => trivial

theorem ofMark (x : Mark) (hs : s.toList = x.chars) (hx : x.isClosed = true) :
    Opens Anything s [.mark x] := .ofStep fun rest _ => hs ▸ x.step?_closed hx rest

theorem space : Opens Anything " " [] := .ofStep fun _ _ => rfl

theorem comma : Opens Anything ", " [.mark .comma] :=
  (ofMark (s := ",") .comma rfl rfl).join space

theorem word {w : String} (h : IsPlain w) : Opens PhraseEnd w [.word w] :=
  ofWord (.ofStep fun _ hr => step?_plain h.1 hr)

theorem text (x : String) : Opens PhraseEnd (Text.quote x) [.text x] :=
  ofWord (.ofStep fun _ hr => step?_quote x hr)

theorem number (v : Int) (w : Option Width) :
    Opens PhraseEnd (spellNumber v w) (numberTokens v w) := by
  have hchars : (spellNumber v w).toList =
      Text.intDigits v ++ ((w.map Width.text).getD "").toList := by
    rw [spellNumber, String.toList_append, Text.intText, String.toList_ofList]
  intro rest hr
  rw [hchars]
  cases v with
  | ofNat n => exact clause?_of_step (step?_numeral n w hr)
  | negSucc n =>
      obtain ⟨c, r, hcr⟩ := List.exists_cons_of_ne_nil (Text.natDigits_ne_nil (n + 1))
      have hc : c.isDigit = true := Text.isDigit_of_mem_natDigits (n := n + 1) (by simp [hcr])
      have hnumeral := clause?_of_step (step?_numeral (n + 1) w hr)
      simp only [Text.intDigits, hcr, List.cons_append] at hnumeral ⊢
      rw [clause?_of_step (step?_minus _ hc), hnumeral, Option.map_map]
      rfl

end Opens

/-! ## Calls of literals -/

inductive Expr.IsLiteral : Expr → Prop where
  | text {s} : Expr.IsLiteral (.text s)
  | number {v w} : Expr.IsLiteral (.number v w)

theorem literal_opens {e : Expr} (h : e.IsLiteral) :
    ∃ ts, Opens PhraseEnd e.spell ts ∧ Expr.Spells .full e ts := by
  cases h with
  | text =>
      rw [Expr.spell]
      exact ⟨_, .text _, .ofOperand (.ofChain .text)⟩
  | number =>
      rw [Expr.spell]
      exact ⟨_, .number _ _, .ofOperand .number⟩

theorem literals_open : ∀ {es : List Expr}, (∀ e ∈ es, e.IsLiteral) →
    ∃ ts, Opens PhraseEnd (", ".intercalate (Expr.spellEach es)) ts ∧
      Items (Expr.Spells .full) es ts
  | [], _ => ⟨[], fun rest _ => by simp [Expr.spellEach, String.intercalate_nil], .nil⟩
  | [e], h => by
      obtain ⟨ts, hts, he⟩ := literal_opens (h e (by simp))
      exact ⟨ts, by rwa [Expr.spellEach, Expr.spellEach, String.intercalate_singleton], .last he⟩
  | e :: e' :: es, h => by
      rw [List.forall_mem_cons] at h
      obtain ⟨ts, hts, he⟩ := literal_opens h.1
      obtain ⟨us, hus, hes⟩ := literals_open h.2
      refine ⟨_, ?_, .cons he hes⟩
      rw [Expr.spellEach, Expr.spellEach, String.intercalate_cons_cons, String.append_assoc]
      exact hts.before (Opens.comma.join hus) (any_head?_append (by decide) _)

theorem call_opens {f : String} {args : List Expr} (hf : IsPlain f)
    (hargs : ∀ e ∈ args, e.IsLiteral) :
    ∃ ts, Opens Anything (Expr.call (.path [f]) args).spell ts ∧
      Expr.Spells .full (.call (.path [f]) args) ts := by
  obtain ⟨us, hus, hitems⟩ := literals_open hargs
  have hpath : IsPath [f] := ⟨by simp, by simp [isSegment, hf.2]⟩
  refine ⟨_, ?_, .ofOperand (.ofChain (.call (.path hpath) hitems))⟩
  have hopen : Opens Anything "(" [.mark .openParen] := .ofMark .openParen rfl rfl
  have hclose : Opens Anything ")" [.mark .closeParen] := .ofMark .closeParen rfl rfl
  have h := (((Opens.word hf).before hopen (by decide)).join hus).before hclose (by decide)
  rw [Expr.spell, Expr.spell, spellPath, String.intercalate_singleton]
  simpa [pathTokens] using h

/-! ## Reading -/

namespace Reader

theorem done_nil : done [] = some ((), []) := rfl

theorem asserted_reads {n : Nat} {e : Expr} {ts : List Token} (h : Expr.Spells .full e ts)
    (hn : 4 * ts.length + 4 ≤ n) :
    asserted n (.word "assert_eq" :: .mark .bang :: .mark .openParen :: ts) = some (e, []) := by
  have he : expr n (ts ++ []) = some (e, []) := expr_reads h hn fun m _ => by simp
  rw [List.append_nil] at he
  rw [asserted, bind_of_some (word_self _ _), bind_of_some (mark_self _ _),
    bind_of_some (mark_self _ _), bind_of_some he, bind_of_some done_nil]
  rfl

def indexTokens : Option Nat → List Token
  | none => []
  | some i => [.mark .openBracket, .number i none, .mark .closeBracket]

theorem index?_reads (index : Option Nat) (r : List Token) :
    index? (indexTokens index ++ .mark .comma :: r) = some (index, .mark .comma :: r) := by
  cases index <;> rfl

theorem shown_reads {n : Nat} {index : Option Nat} {e : Expr} {ts : List Token}
    (h : Expr.Spells .full e ts) (hn : 4 * ts.length + 4 ≤ n) :
    shown n (indexTokens index ++ .mark .comma :: (ts ++ [.mark .closeParen, .mark .semicolon])) =
      some ((index, e), []) := by
  have he : expr n (ts ++ [.mark .closeParen, .mark .semicolon]) =
      some (e, [.mark .closeParen, .mark .semicolon]) := expr_reads h hn (.mark (by decide) _)
  rw [shown, bind_of_some (index?_reads _ _), bind_of_some (mark_self _ _), bind_of_some he,
    bind_of_some (mark_self _ _), bind_of_some (mark_self _ _), bind_of_some done_nil]
  rfl

end Reader

namespace Assertion

theorem spellIndex_lexes (index : Option Nat) :
    Phrase .dropped Anything (spellIndex index) (Reader.indexTokens index) := by
  cases index with
  | none => exact .nil
  | some i =>
      have hopen : Phrase .dropped Anything "[" [.mark .openBracket] :=
        .ofMark .openBracket rfl rfl
      have hclose : Phrase .dropped Anything "]" [.mark .closeBracket] :=
        .ofMark .closeBracket rfl rfl
      exact (hopen.join (Lexes.number i none)).before hclose (by decide)

theorem isStart_spell (a : Assertion) : isStart (" " ++ a.spell) = true := by
  rw [isStart, spell]
  simp only [String.toList_append, List.append_assoc]
  rfl

/-- White space in front of an assertion does not matter. -/
theorem read?_space (s : String) : read? (" " ++ s) = read? s := by
  have hspace : clause? (" " ++ s).toList = clause? s.toList := by
    rw [String.toList_append, Opens.space _ trivial]
    simp
  rw [read?, hspace]
  rfl

/-- An assertion about a call of literals is read back from its text, if its constant is read as it
is written. -/
theorem read?_spell {f : String} {args : List Expr} {index : Option Nat} {constant : Expr}
    (hf : IsPlain f) (hargs : ∀ e ∈ args, e.IsLiteral)
    (hconstant : Expr.ReadsAs .dropped .full constant constant) :
    read? (spell ⟨.call (.path [f]) args, index, constant⟩) =
      some ⟨.call (.path [f]) args, index, constant⟩ := by
  obtain ⟨ts, hts, hcall⟩ := call_opens hf hargs
  obtain ⟨us, hus, hspells⟩ := expr_lexes hconstant
  have hname : Opens PhraseEnd "assert_eq" [.word "assert_eq"] := .word (by decide)
  have hbang : Opens Anything "!" [.mark .bang] := .ofMark .bang rfl rfl
  have hopen : Opens Anything "(" [.mark .openParen] := .ofMark .openParen rfl rfl
  have hfront : Opens Anything ("assert_eq" ++ "!" ++ "(" ++ (Expr.call (.path [f]) args).spell)
      (.word "assert_eq" :: .mark .bang :: .mark .openParen :: ts) :=
    ((hname.before hbang (by decide)).join hopen).join hts
  have hclose : Phrase .dropped Anything ");" [.mark .closeParen, .mark .semicolon] :=
    Phrase.join (s := ")") (t := ";") (.ofMark .closeParen rfl rfl) (.ofMark .semicolon rfl rfl)
  have hback : Phrase .dropped Anything (spellIndex index ++ ", " ++ constant.spell ++ ");")
      (Reader.indexTokens index ++ .mark .comma ::
        (us ++ [.mark .closeParen, .mark .semicolon])) := by
    have h := (((spellIndex_lexes index).join .comma).join hus).before hclose (by decide)
    simpa using h
  have htext : (spell ⟨.call (.path [f]) args, index, constant⟩).toList =
      ("assert_eq" ++ "!" ++ "(" ++ (Expr.call (.path [f]) args).spell).toList ++
        '?' :: (spellIndex index ++ ", " ++ constant.spell ++ ");").toList := by
    simp [spell]
  have htokens := hback [] trivial
  rw [List.append_nil, tokensAs?_nil, Option.map_some, List.append_nil] at htokens
  rw [read?, htext, hfront _ trivial, clause?_question, Option.map_some, List.append_nil]
  show (tokens? _).bind _ = _
  rw [show tokens? _ = some _ from htokens, Option.bind_some, StateT.run,
    Reader.asserted_reads hcall (by simp only [List.length_cons]; omega)]
  show ((Reader.shown _).run _).bind _ = _
  rw [StateT.run, Reader.shown_reads hspells (by simp only [List.length_append, List.length_cons]; omega)]
  rfl

end Assertion

end EnumLookup.Source
