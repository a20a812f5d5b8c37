import EnumLookup.Proofs.Layout.Writer

/-!
# Indentation is layout only

A forest written with two indentations has the same lines but for the spaces and tabs in front of
them. The texts of a forest may hold line feeds and blanks of their own: those are the same in both.
-/

namespace EnumLookup.Layout

def textLines (s : String) : List (List Char) := s.toList.splitOn '\n'

/-- An indentation is made of these. -/
def IsBlank (c : Char) : Prop := c = ' ' ∨ c = '\t'

instance : DecidablePred IsBlank := fun _ => inferInstanceAs (Decidable (_ ∨ _))

/-- A line without the spaces and tabs that it starts with. -/
def unindent (line : List Char) : List Char := line.dropWhile fun c => IsBlank c

/-- Texts of as many lines, which are the same without the spaces and tabs in front. -/
structure SameButIndent (s t : String) : Prop where
  length : (textLines s).length = (textLines t).length
  lines : (textLines s).map unindent = (textLines t).map unindent

/-- The lines of a text without the spaces and tabs in front. -/
def bareLines (cs : List Char) : List (List Char) := (cs.splitOn '\n').map unindent

theorem SameButIndent.of_bareLines {s t : String} (h : bareLines s.toList = bareLines t.toList) :
    SameButIndent s t where
  length := by simpa [bareLines, textLines] using congrArg List.length h
  lines := h

theorem bareLines_lineEnd (cs rest : List Char) :
    bareLines (cs ++ '\n' :: rest) = bareLines cs ++ bareLines rest := by
  rw [bareLines, List.splitOn_append_cons_self, List.map_append]
  rfl

theorem bareLines_blank {c : Char} (h : IsBlank c) (cs : List Char) :
    bareLines (c :: cs) = bareLines cs := by
  have hc : (c == '\n') = false := by rcases h with rfl | rfl <;> rfl
  obtain ⟨l, ls, hsplit⟩ := List.exists_cons_of_ne_nil (List.splitOn_ne_nil '\n' cs)
  have hline : unindent (c :: l) = unindent l := List.dropWhile_cons_of_pos (decide_eq_true h)
  rw [bareLines, bareLines, List.splitOn_cons_eq_if_modifyHead, hc, if_neg Bool.false_ne_true, hsplit,
    List.modifyHead_cons, List.map_cons, List.map_cons, hline]

theorem bareLines_blanks {cs : List Char} (h : ∀ c ∈ cs, IsBlank c) (rest : List Char) :
    bareLines (cs ++ rest) = bareLines rest := by
  induction cs with
  | nil => rfl
  | cons c cs ih =>
      rw [List.forall_mem_cons] at h
      rw [List.cons_append, bareLines_blank h.1, ih h.2]

/-! ## Two writers -/

section TwoIndents

variable {i j : String}

theorem blank_of_indentation (hi : ∀ c ∈ i.toList, IsBlank c) :
    ∀ depth, ∀ c ∈ (indentation i depth).toList, IsBlank c
  | 0 => by simp [indentation]
  | depth + 1 => by
      rw [indentation, String.toList_append, List.forall_mem_append]
      exact ⟨hi, blank_of_indentation hi depth⟩

theorem bareLines_renderLine (hi : ∀ c ∈ i.toList, IsBlank c) (depth : Nat) (text : String)
    (rest : List Char) : bareLines ((renderLine i depth text).toList ++ rest) =
      bareLines text.toList ++ bareLines rest := by
  rw [renderLine]
  split
  · rename_i he
    rw [String.isEmpty_iff.mp he]
    exact bareLines_lineEnd [] rest
  · rw [String.toList_append, String.toList_append, List.append_assoc, List.append_assoc,
      bareLines_blanks (blank_of_indentation hi depth)]
    exact bareLines_lineEnd text.toList rest

mutual
/-- Two writers that go through one block side by side, whatever their depths are, write the same lines
but for the spaces and tabs in front. -/
theorem bareLines_render (hi : ∀ c ∈ i.toList, IsBlank c) (hj : ∀ c ∈ j.toList, IsBlank c) :
    (b : Block) → {d d' : Nat} → {rest rest' : List Char} →
    bareLines rest = bareLines rest' →
    bareLines ((b.render i d).toList ++ rest) = bareLines ((b.render j d').toList ++ rest')
  | .line text, _, _, _, _, h => by
      rw [Block.render, Block.render, bareLines_renderLine hi, bareLines_renderLine hj, h]
  | .scope header delimiter terminator body, d, d', rest, rest', h => by
      have hclose : bareLines ((renderLine i d (delimiter.closeLine terminator)).toList ++ rest) =
          bareLines ((renderLine j d' (delimiter.closeLine terminator)).toList ++ rest') := by
        rw [bareLines_renderLine hi, bareLines_renderLine hj, h]
      rw [Block.render, Block.render]
      simp only [String.toList_append, List.append_assoc]
      rw [bareLines_renderLine hi, bareLines_renderLine hj, bareLines_renderAll hi hj body hclose]

theorem bareLines_renderAll (hi : ∀ c ∈ i.toList, IsBlank c) (hj : ∀ c ∈ j.toList, IsBlank c) :
    (bs : List Block) → {d d' : Nat} → {rest rest' : List Char} →
    bareLines rest = bareLines rest' →
    bareLines ((Block.renderAll i d bs).toList ++ rest) =
      bareLines ((Block.renderAll j d' bs).toList ++ rest')
  | [], _, _, _, _, h => by
      rw [Block.renderAll, Block.renderAll]
      exact h
  | b :: bs, _, _, _, _, h => by
      rw [Block.renderAll, Block.renderAll, String.toList_append, String.toList_append,
        List.append_assoc, List.append_assoc]
      exact bareLines_render hi hj b (bareLines_renderAll hi hj bs h)
end

/-- What a writer writes differs in the indentation only. -/
theorem write_sameButIndent (hi : ∀ c ∈ i.toList, IsBlank c) (hj : ∀ c ∈ j.toList, IsBlank c)
    (bs : List Block) : SameButIndent (write i bs) (write j bs) := by
  have h : bareLines ((Block.renderAll i 0 bs).toList ++ []) =
      bareLines ((Block.renderAll j 0 bs).toList ++ []) := bareLines_renderAll hi hj bs rfl
  rw [List.append_nil, List.append_nil, ← write_eq, ← write_eq] at h
  exact .of_bareLines h

end TwoIndents

end EnumLookup.Layout
