import EnumLookup.Layout.Writer

/-!
# A writer writes the text of its forest

Driving a writer through a forest adds the text of the forest at the writer's depth and leaves its
depth and its open scopes as they were.
-/

namespace EnumLookup.Layout

theorem Block.renderAll_append (indent : String) (depth : Nat) (bs cs : List Block) :
    renderAll indent depth (bs ++ cs) = renderAll indent depth bs ++ renderAll indent depth cs := by
  induction bs with
  | nil => rw [List.nil_append, renderAll, String.empty_append]
  | cons b bs ih => rw [List.cons_append, renderAll, renderAll, ih, String.append_assoc]

namespace Writer

theorem pushIndents_eq : (n : Nat) → (w : Writer) →
    w.pushIndents n = { w with text := w.text ++ indentation w.indent n }
  | 0, w => by rw [pushIndents, indentation, String.append_empty]
  | n + 1, w => by rw [pushIndents, pushIndents_eq n, push, indentation, String.append_assoc]

theorem line_eq (w : Writer) (text : String) :
    w.line text = { w with text := w.text ++ renderLine w.indent w.depth text } := by
  rw [line, renderLine]
  split
  · rfl
  · rw [pushIndents_eq, push, push, String.append_assoc, String.append_assoc, String.append_assoc]

theorem openScope_eq (w : Writer) (header : String) (d : Delimiter) (terminator : String) :
    w.openScope header d terminator = { w with
      text := w.text ++ renderLine w.indent w.depth (d.openLine header)
      depth := w.depth + 1
      closers := ⟨w.depth, d, terminator⟩ :: w.closers } := by
  rw [openScope, line_eq]

theorem close_eq {w : Writer} {c : Closer} {outer : List Closer} (h : w.closers = c :: outer) :
    w.close = { w with
      text := w.text ++ renderLine w.indent c.depth (c.delimiter.closeLine c.terminator)
      depth := c.depth
      closers := outer } := by
  rw [close, h]
  dsimp only
  rw [line_eq]

mutual
theorem block_eq : (b : Block) → (w : Writer) →
    w.block b = { w with text := w.text ++ b.render w.indent w.depth }
  | .line text, w => by rw [block, Block.render, line_eq]
  | .scope header d terminator body, w => by
      have hbody := blocks_eq body (w.openScope header d terminator)
      rw [openScope_eq] at hbody
      rw [block, openScope_eq, hbody, close_eq rfl, Block.render]
      simp only [String.append_assoc]

theorem blocks_eq : (bs : List Block) → (w : Writer) →
    w.blocks bs = { w with text := w.text ++ Block.renderAll w.indent w.depth bs }
  | [], w => by rw [blocks, Block.renderAll, String.append_empty]
  | b :: bs, w => by
      rw [blocks, block_eq b w, blocks_eq bs, Block.renderAll]
      simp only [String.append_assoc]
end

end Writer

/-- The text of a forest is what a writer writes. -/
theorem write_eq (indent : String) (bs : List Block) :
    write indent bs = Block.renderAll indent 0 bs := by
  rw [write, Writer.blocks_eq]
  exact String.empty_append

end EnumLookup.Layout
