import EnumLookup.Proofs.Source.Lexing
import EnumLookup.Proofs.Text.Classes
import EnumLookup.Proofs.Text.Quoted
import EnumLookup.Source.Spelling

/-!
# Phrases

A phrase is a piece of text with the tokens that it spells, provided that what follows cannot extend
its last token. Phrases join to longer ones. Words, literals, marks and comments are phrases, and
every layout of generated code is put together from them.
-/

namespace EnumLookup.Source

/-! ## What may follow -/

/-- The character ends a word before it. -/
def endsWord (c : Char) : Bool :=
  !Text.isIdentifierPart c && c != '#' && c != '"' && c != '\''

/-- The text ends a word or a string literal before it. -/
def WordEnd (rest : List Char) : Prop := ∀ c ∈ rest.head?, endsWord c = true

/-- The text ends a word or any literal before it. -/
def PhraseEnd (rest : List Char) : Prop := ∀ c ∈ rest.head?, endsWord c = true ∧ c ≠ '.'

def Anything (_ : List Char) : Prop := True

theorem PhraseEnd.wordEnd {rest : List Char} (h : PhraseEnd rest) : WordEnd rest :=
  fun c hc => (h c hc).1

theorem WordEnd.cons {c : Char} (r : List Char) (h : endsWord c = true) : WordEnd (c :: r) := by
  intro d hd
  simp only [List.head?_cons, Option.mem_def, Option.some.injEq] at hd
  exact hd ▸ h

theorem PhraseEnd.cons {c : Char} (r : List Char) (h : endsWord c = true) (hc : c ≠ '.') :
    PhraseEnd (c :: r) := by
  intro d hd
  simp only [List.head?_cons, Option.mem_def, Option.some.injEq] at hd
  exact hd ▸ ⟨h, hc⟩

theorem PhraseEnd.nil : PhraseEnd [] := by intro c hc; simp at hc

/-! ## Joining phrases -/

/-- The characters spell the tokens wherever an allowed text follows them. -/
def Lexes (m : Marks) (follow : List Char → Prop) (cs : List Char) (ts : List Token) : Prop :=
  ∀ rest, follow rest → tokensAs? m (cs ++ rest) = (tokensAs? m rest).map (ts ++ ·)

namespace Lexes

variable {m : Marks} {F G : List Char → Prop} {cs ds : List Char} {ts us : List Token}

theorem nil : Lexes m F [] [] := by
  intro rest _
  cases h : tokensAs? m rest <;> simp [h]

theorem weaken (h : Lexes m F cs ts) (hf : ∀ rest, G rest → F rest) : Lexes m G cs ts :=
  fun rest hg => h rest (hf rest hg)

theorem append (hc : Lexes m F cs ts) (hd : Lexes m G ds us)
    (hf : ∀ rest, G rest → F (ds ++ rest)) : Lexes m G (cs ++ ds) (ts ++ us) := by
  intro rest hg
  rw [List.append_assoc, hc _ (hf rest hg), hd rest hg, Option.map_map]
  congr 1
  funext xs
  simp

/-- After a phrase that nothing can extend, any phrase may come. -/
theorem join (hc : Lexes m Anything cs ts) (hd : Lexes m G ds us) :
    Lexes m G (cs ++ ds) (ts ++ us) := hc.append hd fun _ _ => trivial

/-- One step of the lexer, then a phrase. -/
theorem step {c : Char} {r : List Char} (hc : isDirectionMark c = false)
    (hs : ∀ rest, F rest → step? (c :: (r ++ rest)) = some (ts, cs ++ rest))
    (h : Lexes m F cs us) : Lexes m F (c :: r) (ts ++ us) := by
  intro rest hf
  rw [List.cons_append, tokensAs?_of_step m hc (hs rest hf), h rest hf, Option.map_map]
  congr 1
  funext xs
  simp

theorem skip {c : Char} (hm : isDirectionMark c = false) (hc : isSkipped c = true)
    (h : Lexes m F cs ts) : Lexes m F (c :: cs) ts := by
  have hs : ∀ rest, F rest → step? (c :: (cs ++ rest)) = some ([], cs ++ rest) :=
    fun rest _ => by rw [step?, if_pos hc]
  simpa using step hm hs h

theorem space (h : Lexes m F cs ts) : Lexes m F (' ' :: cs) ts := h.skip rfl rfl

theorem newline (h : Lexes m F cs ts) : Lexes m F ('\n' :: cs) ts := h.skip rfl rfl

end Lexes

/-! ## Marks -/

namespace Mark

/-- No longer mark starts with this one. -/
def isClosed : Mark → Bool
  | colon | assign | minus => false
  | _ => true

theorem chars_eq_cons (x : Mark) : ∃ c r, x.chars = c :: r ∧ isDirectionMark c = false := by
  cases x <;> exact ⟨_, _, rfl, by decide⟩

theorem step?_closed (x : Mark) (h : x.isClosed = true) (rest : List Char) :
    step? (x.chars ++ rest) = some ([.mark x], rest) := by
  cases x <;> first | rfl | simp [isClosed] at h

theorem step?_spaced (x : Mark) (rest : List Char) :
    step? (x.chars ++ ' ' :: rest) = some ([.mark x], ' ' :: rest) := by
  cases x <;> rfl

end Mark

namespace Lexes

variable {m : Marks} {F : List Char → Prop} {cs : List Char} {ts : List Token}

theorem stepMark (x : Mark)
    (hx : ∀ rest, F rest → step? (x.chars ++ (cs ++ rest)) = some ([.mark x], cs ++ rest))
    (h : Lexes m F cs ts) : Lexes m F (x.chars ++ cs) (.mark x :: ts) := by
  obtain ⟨c, r, hcr, hc⟩ := x.chars_eq_cons
  have hs : ∀ rest, F rest → step? (c :: (r ++ cs ++ rest)) = some ([.mark x], cs ++ rest) := by
    intro rest hf
    have := hx rest hf
    rwa [hcr, List.cons_append, ← List.append_assoc] at this
  rw [hcr, List.cons_append]
  exact step hc hs h

theorem mark (x : Mark) (hx : x.isClosed = true) (h : Lexes m F cs ts) :
    Lexes m F (x.chars ++ cs) (.mark x :: ts) :=
  stepMark x (fun rest _ => x.step?_closed hx (cs ++ rest)) h

/-- A mark with a space behind it, even if longer marks start with it. -/
theorem markSpace (x : Mark) (h : Lexes m F cs ts) :
    Lexes m F (x.chars ++ ' ' :: cs) (.mark x :: ts) :=
  stepMark x (fun rest _ => x.step?_spaced (cs ++ rest)) h.space

end Lexes

/-! ## Words -/

/-- A character of identifiers after a character that starts one, or nothing after it. -/
def isName : List Char → Bool
  | [] => false
  | c :: r => Text.isIdentifierStart c && r.all Text.isIdentifierPart

/-- What is read as one word: a name, or a name after `r#` that may stand there. -/
inductive IsWord : String → Prop where
  | plain {w : String} (h : isName w.toList = true) : IsWord w
  | raw {n : String} (h : isName n.toList = true) (hn : n ∉ unrawable) : IsWord ("r#" ++ n)

theorem WordEnd.not_part {rest : List Char} (h : WordEnd rest) :
    ∀ c ∈ rest.head?, Text.isIdentifierPart c = false := by
  intro c hc
  have hend := h c hc
  simp only [endsWord, Bool.and_eq_true, Bool.not_eq_true'] at hend
  exact hend.1.1.1

theorem isName_all {cs : List Char} (h : isName cs = true) :
    ∀ c ∈ cs, Text.isIdentifierPart c = true := by
  cases cs with
  | nil => simp [isName] at h
  | cons c r =>
      simp only [isName, Bool.and_eq_true, List.all_eq_true] at h
      intro d hd
      rcases List.mem_cons.mp hd with rfl | hd
      · exact Text.isIdentifierPart_of_start h.1
      · exact h.2 d hd

/-- The characters of an identifier are read up to the first that is none. -/
theorem name_run {cs rest : List Char} (h : ∀ c ∈ cs, Text.isIdentifierPart c = true)
    (hr : WordEnd rest) : (cs ++ rest).takeWhile Text.isIdentifierPart = cs ∧
      (cs ++ rest).dropWhile Text.isIdentifierPart = rest :=
  Text.takeWhile_dropWhile_run h hr.not_part

theorem step?_of_start {c : Char} (r : List Char) (h : Text.isIdentifierStart c = true) :
    step? (c :: r) = word? (c :: r) := by
  rw [step?, if_neg (by simp [isSkipped_of_isIdentifierStart h]),
    if_neg (ne_slash_of_isIdentifierStart h), if_pos h]

theorem step?_plain {w : String} {rest : List Char} (h : isName w.toList = true)
    (hr : WordEnd rest) : step? (w.toList ++ rest) = some ([.word w], rest) := by
  obtain ⟨ht, hd⟩ := name_run (isName_all h) hr
  cases hw : w.toList with
  | nil => simp [hw, isName] at h
  | cons c r =>
      rw [hw] at h ht hd
      simp only [isName, Bool.and_eq_true] at h
      rw [List.cons_append, step?_of_start _ h.1, ← List.cons_append]
      unfold word?
      simp only [ht, hd]
      cases rest with
      | nil => simp [← hw]
      | cons d r' =>
          have he := hr d (by simp)
          simp only [endsWord, Bool.and_eq_true, bne_iff_ne, ne_eq] at he
          split
          · rename_i heq; simp_all
          · rename_i heq
            simp_all [← hw]
          · rename_i heq; simp at heq

theorem step?_raw {n : String} {rest : List Char} (h : isName n.toList = true)
    (hn : n ∉ unrawable) (hr : WordEnd rest) :
    step? (("r#" ++ n).toList ++ rest) = some ([.word ("r#" ++ n)], rest) := by
  obtain ⟨ht, hd⟩ := name_run (isName_all h) hr
  have hchars : ("r#" ++ n).toList = 'r' :: '#' :: n.toList := by simp
  cases hw : n.toList with
  | nil => simp [hw, isName] at h
  | cons c r =>
      rw [hw] at h ht hd
      simp only [isName, Bool.and_eq_true] at h
      have hself : String.ofList (c :: r) = n := by rw [← hw, String.ofList_toList]
      have htr : ('r' :: '#' :: (c :: r ++ rest)).takeWhile Text.isIdentifierPart = ['r'] := rfl
      have hdr : ('r' :: '#' :: (c :: r ++ rest)).dropWhile Text.isIdentifierPart =
          '#' :: (c :: r ++ rest) := rfl
      rw [hchars, hw, List.cons_append, List.cons_append, step?_of_start _ (by decide)]
      unfold word?
      simp only [htr, hdr]
      simp only [List.cons_append] at ht hd ⊢
      simp [h.1, ht, hd, hself, hn]

theorem step?_word {w : String} {rest : List Char} (h : IsWord w) (hr : WordEnd rest) :
    step? (w.toList ++ rest) = some ([.word w], rest) := by
  cases h with
  | plain h => exact step?_plain h hr
  | raw h hn => exact step?_raw h hn hr

theorem IsWord.toList_eq_cons {w : String} (h : IsWord w) :
    ∃ c r, w.toList = c :: r ∧ Text.isIdentifierStart c = true := by
  cases h with
  | plain h =>
      cases hw : w.toList with
      | nil => simp [hw, isName] at h
      | cons c r =>
          simp only [hw, isName, Bool.and_eq_true] at h
          exact ⟨c, r, rfl, h.1⟩
  | raw _ _ => exact ⟨'r', _, String.toList_append .., by decide⟩

theorem Lexes.word {m : Marks} {w : String} (h : IsWord w) :
    Lexes m WordEnd w.toList [.word w] := by
  intro rest hr
  obtain ⟨c, r, hcr, hc⟩ := h.toList_eq_cons
  have hs := step?_word h hr
  rw [hcr, List.cons_append] at hs ⊢
  exact tokensAs?_of_step m
    (isDirectionMark_of_not_isSkipped (isSkipped_of_isIdentifierStart hc)) hs

/-- A word with a space behind it. -/
theorem Lexes.wordThen {m : Marks} {F : List Char → Prop} {cs : List Char} {ts : List Token}
    {w : String} (hw : IsWord w) (h : Lexes m F cs ts) :
    Lexes m F (w.toList ++ ' ' :: cs) (.word w :: ts) :=
  (Lexes.word hw).append h.space fun _ _ => .cons _ (by decide)

/-- The spelling of a word with direction marks in front of it. -/
def Marks.spelling (m : Marks) (marks : List Char) (w : String) : String :=
  match m with
  | .dropped => w
  | .kept => String.ofList marks ++ w

theorem Lexes.markedWord {m : Marks} {marks : List Char} {w : String}
    (hm : ∀ c ∈ marks, isDirectionMark c = true) (hw : IsWord w) :
    Lexes m WordEnd (marks ++ w.toList) [.word (m.spelling marks w)] := by
  intro rest hr
  rw [List.append_assoc]
  cases m with
  | dropped => exact (tokens?_append_marks hm _).trans (Lexes.word (m := .dropped) hw rest hr)
  | kept =>
      obtain ⟨c, r, hcr, hc⟩ := hw.toList_eq_cons
      have hs := step?_word hw hr
      have hmark := isDirectionMark_of_not_isSkipped (isSkipped_of_isIdentifierStart hc)
      rw [tokensAs?, directedWithin_append_marks hm, List.nil_append]
      rw [hcr, List.cons_append] at hs ⊢
      exact directedWithin_of_step hmark hs

/-! ## Literals -/

theorem WordEnd.not_start {rest : List Char} (h : WordEnd rest) :
    rest.head?.any Text.isIdentifierStart = false := by
  cases rest with
  | nil => rfl
  | cons c r =>
      rw [List.head?_cons, Option.any_some, ← Bool.not_eq_true]
      intro hs
      cases (h.not_part c rfl).symm.trans (Text.isIdentifierPart_of_start hs)

theorem toList_quote (s : String) :
    (Text.quote s).toList = '"' :: (s.toList.flatMap Text.escape ++ ['"']) := by
  rw [Text.quote, String.toList_ofList, Text.quotedChars, List.cons_append]

theorem step?_quote (s : String) {rest : List Char} (hr : WordEnd rest) :
    step? ((Text.quote s).toList ++ rest) = some ([.text s], rest) := by
  have hb := Text.Quoted.body?_flatMap_escape s.toList rest
  rw [toList_quote, List.cons_append, List.append_assoc, List.singleton_append, step?,
    if_neg (by decide), if_neg (by decide), if_neg (by decide), if_neg (by decide), if_pos rfl,
    string?]
  simp [hb, hr.not_start]

theorem Lexes.text {m : Marks} (s : String) :
    Lexes m WordEnd (Text.quote s).toList [.text s] := by
  intro rest hr
  have hs := step?_quote s hr
  rw [toList_quote, List.cons_append] at hs ⊢
  exact tokensAs?_of_step m (by decide) hs

theorem ofText?_text (w : Width) : Width.ofText? w.text = some w := by cases w <;> decide

theorem number?_numeral (n : Nat) (suffix : Option Width) {rest : List Char}
    (hr : PhraseEnd rest) :
    number? (Text.natDigits n ++ ((suffix.map Width.text).getD "").toList ++ rest) =
      some ([.number n suffix], rest) := by
  have hdot : rest.head? ≠ some '.' := fun h => (hr '.' h).2 rfl
  have hdig : ∀ c ∈ Text.natDigits n, c.isDigit = true := fun c h => Text.isDigit_of_mem_natDigits h
  have hstop : ∀ c ∈ (((suffix.map Width.text).getD "").toList ++ rest).head?,
      c.isDigit = false := by
    intro c hc
    cases suffix with
    | none =>
        rw [← Bool.not_eq_true]
        intro hd
        cases (hr.wordEnd.not_part c hc).symm.trans (isIdentifierPart_of_isDigit hd)
    | some w => cases w <;> (cases hc; rfl)
  have hpart : ∀ c ∈ ((suffix.map Width.text).getD "").toList,
      Text.isIdentifierPart c = true := by
    cases suffix with
    | none => simp
    | some w => exact List.all_eq_true.mp (by cases w <;> decide)
  obtain ⟨htn, hdn⟩ := Text.takeWhile_dropWhile_run hdig hstop
  obtain ⟨hts, hds⟩ := name_run hpart hr.wordEnd
  rw [List.append_assoc, number?, htn, hdn, Text.readDigits_natDigits, hts, hds]
  cases suffix with
  | none => simp [hdot]
  | some w =>
      have hne : w.text.toList ≠ [] := by cases w <;> decide
      simp [hdot, hne, ofText?_text]

theorem step?_numeral (n : Nat) (suffix : Option Width) {rest : List Char} (hr : PhraseEnd rest) :
    step? (Text.natDigits n ++ ((suffix.map Width.text).getD "").toList ++ rest) =
      some ([.number n suffix], rest) := by
  have hn := number?_numeral n suffix hr
  obtain ⟨c, r, hcr⟩ := List.exists_cons_of_ne_nil (Text.natDigits_ne_nil n)
  have hc : c.isDigit = true := Text.isDigit_of_mem_natDigits (n := n) (by simp [hcr])
  rw [hcr] at hn ⊢
  have hslash : c ≠ '/' := by rintro rfl; simp at hc
  rw [List.cons_append, List.cons_append, step?, if_neg (by simp [isSkipped_of_isDigit hc]),
    if_neg hslash, if_neg (by simp [isIdentifierStart_of_isDigit hc]), if_pos hc]
  exact hn

theorem Lexes.numeral {m : Marks} (n : Nat) (suffix : Option Width) :
    Lexes m PhraseEnd (Text.natDigits n ++ ((suffix.map Width.text).getD "").toList)
      [.number n suffix] := by
  intro rest hr
  have hs := step?_numeral n suffix hr
  obtain ⟨c, r, hcr⟩ := List.exists_cons_of_ne_nil (Text.natDigits_ne_nil n)
  have hc : c.isDigit = true := Text.isDigit_of_mem_natDigits (n := n) (by simp [hcr])
  rw [hcr] at hs ⊢
  exact tokensAs?_of_step m (isDirectionMark_of_not_isSkipped (isSkipped_of_isDigit hc)) hs

theorem step?_minus {c : Char} (r : List Char) (hc : c.isDigit = true) :
    step? ('-' :: c :: r) = some ([.mark .minus], c :: r) := by
  have hmem := Text.mem_digits hc
  simp only [String.reduceToList, List.mem_cons, List.not_mem_nil, or_false] at hmem
  rcases hmem with rfl | rfl | rfl | rfl | rfl | rfl | rfl | rfl | rfl | rfl <;> rfl

theorem Lexes.number {m : Marks} (value : Int) (suffix : Option Width) :
    Lexes m PhraseEnd (spellNumber value suffix).toList (numberTokens value suffix) := by
  rw [spellNumber, String.toList_append, Text.intText, String.toList_ofList]
  cases value with
  | ofNat n => exact .numeral n suffix
  | negSucc n =>
      obtain ⟨c, r, hcr⟩ := List.exists_cons_of_ne_nil (Text.natDigits_ne_nil (n + 1))
      have hc : c.isDigit = true := Text.isDigit_of_mem_natDigits (n := n + 1) (by simp [hcr])
      have hn := Lexes.numeral (m := m) (n + 1) suffix
      simp only [Text.intDigits, List.cons_append]
      rw [hcr] at hn ⊢
      have hs : ∀ rest, PhraseEnd rest →
          step? ('-' :: (c :: r ++ ((suffix.map Width.text).getD "").toList ++ rest)) =
            some ([.mark .minus], c :: r ++ ((suffix.map Width.text).getD "").toList ++ rest) :=
        fun rest _ => step?_minus _ hc
      exact Lexes.step rfl hs hn

/-! ## Lifetimes -/

theorem Lexes.lifetime {m : Marks} {l : String} (h : isName l.toList = true) :
    Lexes m WordEnd ('\'' :: l.toList) [.lifetime l] := by
  intro rest hr
  cases hl : l.toList with
  | nil => simp [hl, isName] at h
  | cons c r =>
      rw [hl] at h
      simp only [isName, Bool.and_eq_true, List.all_eq_true] at h
      have hquote : rest.head? ≠ some '\'' := fun he => by simpa [endsWord] using hr '\'' he
      have hself : String.ofList (c :: r) = l := by rw [← hl, String.ofList_toList]
      obtain ⟨ht, hd⟩ := name_run h.2 hr
      refine tokensAs?_of_step m (by decide) ?_
      rw [step?, if_neg (by decide), if_neg (by decide), if_neg (by decide), if_neg (by decide),
        if_neg (by decide), if_pos rfl]
      simp only [lifetime?]
      simp [h.1, ht, hd, hquote, hself]

/-! ## Comments -/

/-- The text stays on its line, and its line ends where the text does. -/
def OneLine (cs : List Char) : Prop := '\n' ∉ cs ∧ '\r' ∉ cs

theorem OneLine.tail {c : Char} {r : List Char} (h : OneLine (c :: r)) : OneLine r :=
  ⟨fun hn => h.1 (by simp [hn]), fun hn => h.2 (by simp [hn])⟩

theorem splitLine_of_oneLine {cs : List Char} (h : OneLine cs) (rest : List Char) :
    splitLine (cs ++ '\n' :: rest) = (cs, '\n' :: rest) := by
  induction cs with
  | nil => rfl
  | cons c r ih =>
      have hn : c ≠ '\n' := by rintro rfl; exact h.1 (by simp)
      have hr : c ≠ '\r' := by rintro rfl; exact h.2 (by simp)
      rw [List.cons_append, splitLine]
      · rw [ih h.tail]
      · exact hn
      · intro _ he; exact absurd he hr

theorem returnsPaired_of_oneLine {cs : List Char} (h : OneLine cs) : returnsPaired cs = true := by
  induction cs with
  | nil => rfl
  | cons c r ih =>
      have hr : c ≠ '\r' := by rintro rfl; exact h.2 (by simp)
      rw [returnsPaired]
      · exact ih h.tail
      · intro _ he; exact absurd he hr
      · exact hr

/-- What is read up to the end of its line, and the line feed. -/
theorem Lexes.ofLine {m : Marks} {c : Char} {r : List Char} {ts : List Token}
    (hc : isDirectionMark c = false)
    (hs : ∀ rest, step? (c :: (r ++ '\n' :: rest)) = some (ts, '\n' :: rest)) :
    Lexes m Anything (c :: r ++ ['\n']) ts := by
  have hs' : ∀ rest, Anything rest →
      step? (c :: (r ++ ['\n'] ++ rest)) = some (ts, ['\n'] ++ rest) := by
    intro rest _
    simpa using hs rest
  simpa using Lexes.step hc hs' (Lexes.newline .nil)

theorem step?_slash (r : List Char) : step? ('/' :: r) = comment? ('/' :: r) := by
  rw [step?, if_neg (by decide), if_pos rfl]

theorem docToken_of_oneLine {cs : List Char} (h : OneLine cs) (inner : Bool) (rest : List Char) :
    docToken inner cs rest = some ([.doc inner (String.ofList cs)], rest) := by
  rw [docToken, if_pos (returnsPaired_of_oneLine h)]

/-- A comment that is no documentation. -/
theorem Lexes.remark {m : Marks} {cs : List Char} (h : OneLine cs) :
    Lexes m Anything ('/' :: ('/' :: ' ' :: cs) ++ ['\n']) [] := by
  refine .ofLine (by decide) fun rest => ?_
  have hl : splitLine (' ' :: (cs ++ '\n' :: rest)) = (' ' :: cs, '\n' :: rest) := by
    have hsp : OneLine (' ' :: cs) := ⟨by simpa using h.1, by simpa using h.2⟩
    simpa using splitLine_of_oneLine hsp rest
  rw [step?_slash]
  simp only [List.cons_append]
  rw [comment?, hl] <;> simp

/-- Documentation of the module. -/
theorem Lexes.innerDoc {m : Marks} {d : String} (h : OneLine d.toList) :
    Lexes m Anything ('/' :: ('/' :: '!' :: d.toList) ++ ['\n']) [.doc true d] := by
  refine .ofLine (by decide) fun rest => ?_
  rw [step?_slash]
  simp only [List.cons_append, comment?, splitLine_of_oneLine h rest, docToken_of_oneLine h,
    String.ofList_toList]

/-- Documentation of an item. A fourth slash would make it a plain comment. -/
theorem Lexes.outerDoc {m : Marks} {d : String} (h : OneLine d.toList)
    (hd : d.toList.head? ≠ some '/') :
    Lexes m Anything ('/' :: ('/' :: '/' :: d.toList) ++ ['\n']) [.doc false d] := by
  refine .ofLine (by decide) fun rest => ?_
  have hslash : ∀ r, d.toList ++ '\n' :: rest = '/' :: r → False := by
    intro r he
    cases hc : d.toList with
    | nil => simp [hc] at he
    | cons c cs => simp_all
  rw [step?_slash]
  simp only [List.cons_append]
  rw [comment?]
  · simp only [splitLine_of_oneLine h rest, docToken_of_oneLine h, String.ofList_toList]
  · exact hslash

end EnumLookup.Source
