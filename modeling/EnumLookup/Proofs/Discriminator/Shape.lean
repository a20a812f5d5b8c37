import EnumLookup.Discriminator
import EnumLookup.Proofs.Outcome
import EnumLookup.Proofs.Source.Phrase

/-!
# The shape of a discriminator

A discriminator has to be an identifier, but the check sees through a byte order mark in front and
direction marks at either end. So a discriminator is a word with direction marks before and behind
it, and perhaps a byte order mark before everything.
-/

namespace EnumLookup.Source

/-! ## Words that were read -/

theorem isName_takeWhile {c : Char} {r : List Char} (h : Text.isIdentifierStart c = true) :
    isName ((c :: r).takeWhile Text.isIdentifierPart) = true := by
  rw [List.takeWhile_cons_of_pos (Text.isIdentifierPart_of_start h), isName, h, Bool.true_and]
  exact List.all_takeWhile

/-- What is read as a word is a word and stands at the front of the text. -/
theorem isWord_of_word? {c : Char} {r rest : List Char} {ts : List Token}
    (hc : Text.isIdentifierStart c = true) (h : word? (c :: r) = some (ts, rest)) :
    ∃ w, IsWord w ∧ ts = [.word w] ∧ c :: r = w.toList ++ rest := by
  have hsplit := List.takeWhile_append_dropWhile (p := Text.isIdentifierPart) (l := c :: r)
  have hplain : some ([Token.word (String.ofList ((c :: r).takeWhile Text.isIdentifierPart))],
      (c :: r).dropWhile Text.isIdentifierPart) = some (ts, rest) →
      ∃ w, IsWord w ∧ ts = [.word w] ∧ c :: r = w.toList ++ rest := by
    intro he
    simp only [Option.some.injEq, Prod.mk.injEq] at he
    refine ⟨_, .plain ?_, he.1.symm, ?_⟩
    · rw [String.toList_ofList]
      exact isName_takeWhile hc
    · rw [String.toList_ofList, ← he.2, hsplit]
  unfold word? at h
  dsimp only at h
  split at h
  · rename_i c' r' heq
    split at h
    · rename_i hraw
      split at h
      · cases h
      · rename_i hallowed
        simp only [Option.some.injEq, Prod.mk.injEq] at h
        refine ⟨_, .raw ?_ (by simpa using hallowed), h.1.symm, ?_⟩
        · rw [String.toList_ofList]
          exact isName_takeWhile hraw.2
        · have hr : (c :: r).takeWhile Text.isIdentifierPart = ['r'] := by
            rw [← String.toList_ofList (l := (c :: r).takeWhile Text.isIdentifierPart), hraw.1]
            rfl
          have hraw' := List.takeWhile_append_dropWhile (p := Text.isIdentifierPart) (l := c' :: r')
          rw [← hsplit, hr, heq, ← h.2, ← hraw']
          simp
    · split at h
      · cases h
      · exact hplain h
  · split at h
    · cases h
    · exact hplain h
  · exact hplain h

/-- The characters are direction marks. -/
def AreMarks (cs : List Char) : Prop := ∀ c ∈ cs, isDirectionMark c = true

/-- Neither white space nor a comment stands in the text, apart from direction marks. -/
def IsDense (cs : List Char) : Prop := ∀ c ∈ cs, c ≠ '/' ∧ Text.isSpace c = false

theorem IsDense.tail {c : Char} {r : List Char} (h : IsDense (c :: r)) : IsDense r :=
  fun d hd => h d (List.mem_cons_of_mem _ hd)

theorem number?_token {cs rest : List Char} {ts : List Token} (h : number? cs = some (ts, rest)) :
    ∃ t, ts = [t] ∧ ∀ w, t ≠ .word w := by
  unfold number? at h
  obtain ⟨n, _, h⟩ := Option.bind_eq_some_iff.mp h
  dsimp only at h
  split at h
  · cases h
  split at h
  · cases h
    exact ⟨_, rfl, fun _ ht => by cases ht⟩
  · obtain ⟨w, _, h⟩ := Option.bind_eq_some_iff.mp h
    cases h
    exact ⟨_, rfl, fun _ ht => by cases ht⟩

theorem lifetime?_token {cs rest : List Char} {ts : List Token}
    (h : lifetime? cs = some (ts, rest)) : ∃ t, ts = [t] ∧ ∀ w, t ≠ .word w := by
  unfold lifetime? at h
  split at h
  · cases h
  split at h
  · dsimp only at h
    split at h
    · cases h
    · cases h
      exact ⟨_, rfl, fun _ ht => by cases ht⟩
  · cases h

/-- In a dense text, what is no direction mark starts a token. -/
theorem step?_of_dense {c : Char} {r rest : List Char} {ts : List Token} (hd : IsDense (c :: r))
    (hm : isDirectionMark c = false) (h : step? (c :: r) = some (ts, rest)) :
    (∃ w, IsWord w ∧ ts = [.word w] ∧ c :: r = w.toList ++ rest) ∨
      ∃ t, ts = [t] ∧ ∀ w, t ≠ .word w := by
  have hskip : isSkipped c = false := by
    simp only [isDirectionMark, Bool.or_eq_false_iff] at hm
    simp [isSkipped, (hd c List.mem_cons_self).2, hm.1, hm.2]
  have hslash : c ≠ '/' := (hd c List.mem_cons_self).1
  rw [step?, if_neg (by simp [hskip]), if_neg hslash] at h
  split at h
  · exact .inl (isWord_of_word? ‹_› h)
  right
  split at h
  · exact number?_token h
  split at h
  · obtain ⟨p, _, h⟩ := Option.bind_eq_some_iff.mp h
    dsimp only at h
    split at h
    · cases h
    · cases h
      exact ⟨_, rfl, fun _ ht => by cases ht⟩
  split at h
  · exact lifetime?_token h
  · obtain ⟨x, _, h⟩ := Option.bind_eq_some_iff.mp h
    cases h
    exact ⟨_, rfl, fun _ ht => by cases ht⟩

theorem dense_append {cs ds : List Char} (h : IsDense (cs ++ ds)) : IsDense ds :=
  fun c hc => h c (List.mem_append_right _ hc)

/-- A dense text starts with a direction mark, with a word or with another token. -/
theorem tokens?_of_dense {c : Char} {r : List Char} {us : List Token} (hd : IsDense (c :: r))
    (h : tokens? (c :: r) = some us) :
    (isDirectionMark c = true ∧ tokens? r = some us) ∨
      ∃ t ts rest, us = t :: ts ∧ tokens? rest = some ts ∧
        ((∃ w, IsWord w ∧ t = .word w ∧ c :: r = w.toList ++ rest) ∨ ∀ w, t ≠ .word w) := by
  by_cases hm : isDirectionMark c = true
  · rw [tokens?_skip r (isSkipped_of_isDirectionMark hm)] at h
    exact .inl ⟨hm, h⟩
  right
  simp only [Bool.not_eq_true] at hm
  cases hs : step? (c :: r) with
  | none =>
      rw [tokens?_of_stuck hs] at h
      cases h
  | some p =>
      obtain ⟨ts, rest⟩ := p
      rw [tokens?_of_step hs] at h
      obtain ⟨vs, hrest, rfl⟩ := Option.map_eq_some_iff.mp h
      rcases step?_of_dense hd hm hs with ⟨w, hw, rfl, he⟩ | ⟨t, rfl, ht⟩
      · exact ⟨_, vs, rest, rfl, hrest, .inl ⟨w, hw, rfl, he⟩⟩
      · exact ⟨t, vs, rest, rfl, hrest, .inr ht⟩

/-- A dense text without tokens is made of direction marks. -/
theorem areMarks_of_tokens?_nil {cs : List Char} (hd : IsDense cs) (h : tokens? cs = some []) :
    AreMarks cs := by
  induction cs with
  | nil => nofun
  | cons c r ih =>
      rcases tokens?_of_dense hd h with ⟨hm, hr⟩ | ⟨_, _, _, hus, _⟩
      · exact List.forall_mem_cons.mpr ⟨hm, ih hd.tail hr⟩
      · cases hus

/-- A dense text whose only token is a word is that word between direction marks. -/
theorem word_of_tokens? {cs : List Char} {w : String} (hd : IsDense cs)
    (h : tokens? cs = some [.word w]) :
    ∃ before after, cs = before ++ w.toList ++ after ∧ AreMarks before ∧ AreMarks after ∧
      IsWord w := by
  induction cs with
  | nil => cases h
  | cons c r ih =>
      rcases tokens?_of_dense hd h with ⟨hm, hr⟩ | ⟨_, _, rest, hus, hrest, hw | hother⟩
      · obtain ⟨before, after, rfl, hbefore, hafter, hw⟩ := ih hd.tail hr
        exact ⟨c :: before, after, rfl, List.forall_mem_cons.mpr ⟨hm, hbefore⟩, hafter, hw⟩
      · obtain ⟨v, hv, rfl, he⟩ := hw
        cases hus
        rw [he] at hd ⊢
        exact ⟨[], rest, rfl, nofun, areMarks_of_tokens?_nil (dense_append hd) hrest, hv⟩
      · cases hus
        exact absurd rfl (hother w)

end EnumLookup.Source

namespace EnumLookup

open Source Outcome

namespace Discriminator

/-- No separator gets into a segment. -/
theorem segmentsFrom_mem {run cs seg : List Char} (h : seg ∈ segmentsFrom run cs) {c : Char}
    (hc : c ∈ seg) : c ∈ run ∨ c ∈ cs ∧ isSeparator c = false := by
  fun_induction segmentsFrom run cs with
  | case1 => cases h
  | case2 => exact .inl (List.mem_singleton.mp h ▸ hc)
  | case3 _ x r _ _ ih =>
      rcases ih h with hnil | ⟨hr, hsep⟩
      · cases hnil
      · exact .inr ⟨List.mem_cons_of_mem x hr, hsep⟩
  | case4 _ x r _ _ ih =>
      rcases List.mem_cons.mp h with rfl | h
      · exact .inl hc
      rcases ih h with hnil | ⟨hr, hsep⟩
      · cases hnil
      · exact .inr ⟨List.mem_cons_of_mem x hr, hsep⟩
  | case5 _ x r hx ih =>
      rcases ih h with hrun | ⟨hr, hsep⟩
      · rcases List.mem_append.mp hrun with hrun | hlast
        · exact .inl hrun
        · obtain rfl := List.mem_singleton.mp hlast
          exact .inr ⟨List.mem_cons_self, by simpa using hx⟩
      · exact .inr ⟨List.mem_cons_of_mem x hr, hsep⟩

theorem mem_intercalate {x c : Char} {segs : List (List Char)} (h : c ∈ [x].intercalate segs) :
    c = x ∨ ∃ seg ∈ segs, c ∈ seg := by
  induction segs with
  | nil => cases h
  | cons seg segs ih =>
      cases segs with
      | nil =>
          rw [List.intercalate_singleton] at h
          exact .inr ⟨seg, List.mem_cons_self, h⟩
      | cons s segs =>
          rw [List.intercalate_cons_cons] at h
          simp only [List.append_assoc, List.mem_append, List.mem_singleton] at h
          rcases h with h | h | h
          · exact .inr ⟨seg, List.mem_cons_self, h⟩
          · exact .inl h
          · rcases ih h with h | ⟨t, ht, hc⟩
            · exact .inl h
            · exact .inr ⟨t, List.mem_cons_of_mem _ ht, hc⟩

theorem not_isSeparator_slash {c : Char} (h : isSeparator c = false) :
    c ≠ '/' ∧ Text.isSpace c = false := by
  simp only [isSeparator, Bool.or_eq_false_iff] at h
  refine ⟨?_, h.2⟩
  rintro rfl
  exact absurd h.1 (by decide)

/-- Joined segments hold neither white space nor a slash. -/
theorem isDense_join (name : String) : IsDense (join (segments name)).toList := by
  intro c hc
  rw [join, String.toList_ofList] at hc
  rcases mem_intercalate hc with rfl | ⟨seg, hseg, hc⟩
  · exact ⟨by decide, by decide⟩
  · rcases segmentsFrom_mem hseg hc with h | ⟨_, h⟩
    · cases h
    · exact not_isSeparator_slash h

end Discriminator

theorem discriminator_ok {name d : String} (h : discriminator name = .ok d) :
    (∀ c ∈ name.toList, Text.isControl c = false) ∧ d = Discriminator.join (Discriminator.segments name) ∧
      (identifier? d).isSome = true := by
  rw [discriminator] at h
  split at h
  · cases h
  rename_i hcontrol
  dsimp only at h
  split at h
  · cases h
  split at h
  · rename_i hid
    cases h
    refine ⟨?_, rfl, hid⟩
    intro c hc
    rw [Bool.not_eq_true, List.any_eq_false] at hcontrol
    simpa using hcontrol c hc
  · cases h

namespace Discriminator

/-- The text is a word with direction marks before and behind it, and perhaps a byte order mark in
front of them. -/
structure IsWrapped (d : String) (front before : List Char) (w : String) (after : List Char) :
    Prop where
  text : d.toList = front ++ (before ++ w.toList ++ after)
  front : front = [] ∨ front = ['\ufeff']
  before : AreMarks before
  after : AreMarks after
  word : IsWord w
  isIdentifier : isIdentifier w = true

theorem isWrapped_of_ok {name d : String} (h : discriminator name = .ok d) :
    ∃ front before w after, IsWrapped d front before w after := by
  obtain ⟨_, hjoin, hid⟩ := discriminator_ok h
  have hdense := isDense_join name
  rw [← hjoin] at hdense
  have hfront : ∃ front, (front = [] ∨ front = ['\ufeff']) ∧
      d.toList = front ++ dropOrderMark d.toList := by
    unfold dropOrderMark
    split
    · rename_i r heq
      exact ⟨['\ufeff'], .inr rfl, heq⟩
    · exact ⟨[], .inl rfl, rfl⟩
  obtain ⟨front, hfront, htext⟩ := hfront
  rw [htext] at hdense
  unfold identifier? at hid
  split at hid
  · rename_i w htokens
    split at hid
    · rename_i hw
      obtain ⟨before, after, hcs, hbefore, hafter, hword⟩ :=
        word_of_tokens? (dense_append hdense) htokens
      exact ⟨front, before, w, after, by rw [← hcs]; exact htext, hfront, hbefore, hafter, hword, hw⟩
    · cases hid
  · cases hid

/-! ## Discriminators that can be extended -/

/-- A longer name can be made by writing on: neither a byte order mark in front nor a direction mark
at the end is in the way. -/
def IsSound (d : String) : Prop :=
  d.toList.head? ≠ some '\ufeff' ∧ ∀ c ∈ d.toList.getLast?, isDirectionMark c = false

theorem isSound_iff {d : String} : IsSound d ↔ d.toList.head? ≠ some '\ufeff' ∧
    (d.toList.getLast?.all fun c => !isDirectionMark c) = true := by
  rw [IsSound]
  cases d.toList.getLast? <;> simp

instance (d : String) : Decidable (IsSound d) := decidable_of_iff _ isSound_iff.symm

/-- An enum of the name can have functions: its discriminator, if it has one, can be extended. -/
def IsNameable (name : String) : Prop := ∀ base, discriminator name = .ok base → IsSound base

instance (name : String) : Decidable (IsNameable name) :=
  match h : discriminator name with
  | .ok base => decidable_of_iff (IsSound base) (by simp [IsNameable, h])
  | .error _ => .isTrue (by simp [IsNameable, h])

set_option maxRecDepth 4000 in
theorem isIdentifierStart_orderMark : Text.isIdentifierStart '\ufeff' = false := by decide

set_option maxRecDepth 4000 in
theorem isDirectionMark_of_isIdentifierPart {c : Char} (h : Text.isIdentifierPart c = true) :
    isDirectionMark c = false := by
  rw [← Bool.not_eq_true]
  intro hm
  simp only [isDirectionMark, Bool.or_eq_true, beq_iff_eq] at hm
  rcases hm with rfl | rfl
  · exact absurd h (by decide)
  · exact absurd h (by decide)

/-- A word ends in a character of identifiers. -/
theorem getLast?_word {w : String} (h : IsWord w) :
    ∃ c, w.toList.getLast? = some c ∧ Text.isIdentifierPart c = true := by
  have hname : ∀ {cs : List Char}, isName cs = true →
      ∃ c, cs.getLast? = some c ∧ Text.isIdentifierPart c = true := by
    intro cs hcs
    have hne : cs ≠ [] := by rintro rfl; cases hcs
    exact ⟨_, List.getLast?_eq_some_getLast hne, isName_all hcs _ (List.getLast_mem hne)⟩
  cases h with
  | plain h => exact hname h
  | @raw n h _ =>
      obtain ⟨c, hc, hpart⟩ := hname h
      refine ⟨c, ?_, hpart⟩
      rw [String.toList_append, List.getLast?_append, hc]
      rfl

/-- Neither a direction mark nor a word starts with a byte order mark. -/
theorem IsWrapped.head?_ne {d : String} {before after : List Char} {w : String}
    (h : IsWrapped d [] before w after) : d.toList.head? ≠ some '\ufeff' := by
  rw [h.text, List.nil_append]
  cases hbefore : before with
  | nil =>
      obtain ⟨x, r, hx, hstart⟩ := h.word.toList_eq_cons
      rw [List.nil_append, hx, List.cons_append, List.head?_cons, ne_eq, Option.some.injEq]
      rintro rfl
      rw [isIdentifierStart_orderMark] at hstart
      cases hstart
  | cons y r =>
      have hy : isDirectionMark y = true := h.before y (by simp [hbefore])
      rw [List.cons_append, List.cons_append, List.head?_cons, ne_eq, Option.some.injEq]
      rintro rfl
      exact absurd hy (by decide)

theorem IsWrapped.isSound_iff {d : String} {front before after : List Char} {w : String}
    (h : IsWrapped d front before w after) : IsSound d ↔ front = [] ∧ after = [] := by
  obtain ⟨c, hc, hpart⟩ := getLast?_word h.word
  constructor
  · rintro ⟨hhead, hlast⟩
    have hfront : front = [] := by
      rcases h.front with hf | hf
      · exact hf
      · rw [h.text, hf] at hhead
        exact absurd rfl hhead
    refine ⟨hfront, ?_⟩
    cases ha : after.getLast? with
    | none => exact List.getLast?_eq_none_iff.mp ha
    | some y =>
        have hy : d.toList.getLast? = some y := by
          rw [h.text, List.getLast?_append, List.getLast?_append, ha]
          rfl
        have := h.after y (List.mem_of_getLast? ha)
        rw [hlast y hy] at this
        cases this
  · rintro ⟨rfl, rfl⟩
    refine ⟨h.head?_ne, fun y hy => ?_⟩
    rw [h.text, List.nil_append, List.append_nil, List.getLast?_append, hc] at hy
    cases hy
    exact isDirectionMark_of_isIdentifierPart hpart

/-- What is written behind a discriminator: an underscore and more characters of identifiers. -/
def IsTail (tail : String) : Prop :=
  ∃ c r, tail.toList = '_' :: c :: r ∧ ∀ x ∈ c :: r, Text.isIdentifierPart x = true

/-- Of the keywords, only the underscore itself holds one. -/
theorem length_of_underscore : ∀ k ∈ keywords ++ unrawable, '_' ∈ k.toList → k.toList.length = 1 := by
  decide

theorem IsTail.not_mem_keywords {tail : String} (h : IsTail tail) (s : String) :
    s ++ tail ∉ keywords ++ unrawable := by
  intro hmem
  obtain ⟨c, r, htail, _⟩ := h
  have hlen := length_of_underscore _ hmem (by rw [String.toList_append, htail]; simp)
  rw [String.toList_append, htail] at hlen
  simp at hlen
  omega

theorem IsTail.isIdentifier {tail : String} (h : IsTail tail) (s : String) :
    isIdentifier (s ++ tail) = true := by
  have := h.not_mem_keywords s
  simp only [List.mem_append, not_or] at this
  simpa [Source.isIdentifier] using this.1

theorem IsTail.isWord {tail w : String} (h : IsTail tail) (hw : IsWord w) : IsWord (w ++ tail) := by
  have hname : ∀ {s : String}, isName s.toList = true → isName (s ++ tail).toList = true := by
    obtain ⟨c, r, htail, hpart⟩ := h
    intro s hs
    rw [String.toList_append, htail]
    cases hcs : s.toList with
    | nil => rw [hcs] at hs; cases hs
    | cons x cs =>
        rw [hcs, isName, Bool.and_eq_true, List.all_eq_true] at hs
        rw [List.cons_append, isName, hs.1, Bool.true_and, List.all_eq_true]
        intro y hy
        rcases List.mem_append.mp hy with hy | hy
        · exact hs.2 y hy
        · rcases List.mem_cons.mp hy with rfl | hy
          · decide
          · exact hpart y hy
  cases hw with
  | plain hw => exact .plain (hname hw)
  | @raw n hn _ =>
      rw [String.append_assoc]
      refine .raw (hname hn) fun hmem => ?_
      exact h.not_mem_keywords n (List.mem_append_right _ hmem)

end Discriminator

end EnumLookup
