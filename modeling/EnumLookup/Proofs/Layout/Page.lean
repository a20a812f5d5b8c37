import EnumLookup.Layout.Page

/-!
# Laying out sequences

A sequence is laid out document by document, and what comes behind a part counts only for how far
the line has to reach. A box that is done leaves the indentation as it was.
-/

namespace EnumLookup.Layout

theorem Doc.reach_append (after : Nat) (ds es : List Doc) :
    Doc.reach after (ds ++ es) = Doc.reach (Doc.reach after es) ds := by
  induction ds with
  | nil => rfl
  | cons d ds ih =>
      cases d with
      | gap g => rfl
      | text s => rw [List.cons_append, Doc.reach, Doc.reach, ih] <;> simp
      | box isConsistent offset content =>
          rw [List.cons_append, Doc.reach, Doc.reach, ih] <;> simp

theorem Doc.widthAll_append (ds es : List Doc) :
    Doc.widthAll (ds ++ es) = Doc.widthAll ds + Doc.widthAll es := by
  induction ds with
  | nil => rw [List.nil_append, Doc.widthAll, Nat.zero_add]
  | cons d ds ih => rw [List.cons_append, Doc.widthAll, Doc.widthAll, ih, Nat.add_assoc]

namespace Page

theorem docs_append (p : Page) (mode : Mode) (reach : Nat) (ds es : List Doc) :
    p.docs mode reach (ds ++ es) = (p.docs mode (Doc.reach reach es) ds).docs mode reach es := by
  induction ds generalizing p with
  | nil => rw [List.nil_append, docs]
  | cons d ds ih => rw [List.cons_append, docs, docs, ih, Doc.reach_append]

theorem indent_put (p : Page) (s : String) : (p.put s).indent = p.indent := rfl

theorem indent_turn (p : Page) (g : Gap) : (p.turn g).indent = p.indent := by
  unfold turn
  dsimp only
  split <;> rfl

theorem room_turn (p : Page) {g : Gap} (h : g.after = "") :
    (p.turn g).room = max (margin - (p.indent + g.offset)) leastRoom := by
  unfold turn
  dsimp only
  rw [h]
  rfl

theorem indent_gap (p : Page) (mode : Mode) (reach : Nat) (g : Gap) :
    (p.gap mode reach g).indent = p.indent := by
  unfold gap
  split
  · rfl
  cases mode with
  | fits => rfl
  | consistent => exact indent_turn p g
  | inconsistent =>
      dsimp only
      split
      · rfl
      · exact indent_turn p g

mutual
theorem indent_doc : ∀ (d : Doc) (p : Page) (mode : Mode) (reach : Nat),
    (p.doc mode reach d).indent = p.indent
  | .text s, p, mode, reach => by rw [doc, indent_put]
  | .gap g, p, mode, reach => by rw [doc, indent_gap]
  | .box isConsistent offset content, p, mode, reach => by
      rw [doc]
      split
      · exact indent_docs content p .fits reach
      · rfl

theorem indent_docs : ∀ (ds : List Doc) (p : Page) (mode : Mode) (reach : Nat),
    (p.docs mode reach ds).indent = p.indent
  | [], p, mode, reach => by rw [docs]
  | d :: ds, p, mode, reach => by rw [docs, indent_docs ds, indent_doc d]
end

/-- The page stands at the left edge, with no more room than a line has. -/
structure AtEdge (p : Page) : Prop where
  indent : p.indent = 0
  room : p.room ≤ margin

/-- The end of a line at the left edge leaves the page there. -/
theorem AtEdge.lineEnd {p : Page} (h : p.indent = 0) (reach : Nat) (ds : List Doc) {blanks : Nat} :
    (p.docs .consistent reach (ds ++ [.gap { blanks := blanks }])).AtEdge := by
  have hindent : (p.docs .consistent (Doc.reach reach [.gap { blanks := blanks }]) ds).indent = 0 :=
    (indent_docs ..).trans h
  refine ⟨(indent_docs ..).trans h, ?_⟩
  rw [docs_append, docs, docs, doc, gap, if_neg Bool.false_ne_true, room_turn _ rfl, hindent]
  show max (margin - (0 + 0)) leastRoom ≤ margin
  decide

/-- A box that is wider than any line is broken. -/
theorem AtEdge.doc_box {p : Page} (h : p.AtEdge) {content : List Doc}
    (hwide : unbounded ≤ Doc.widthAll content) (mode : Mode) (reach : Nat) (offset : Int) :
    p.doc mode reach (.box true offset content) =
      { ({ p with indent := offset } : Page).docs .consistent reach content with indent := 0 } := by
  have hroom : ¬ ((Doc.widthAll content + reach : Nat) : Int) ≤ p.room := by
    have hmargin := h.room
    simp only [margin, unbounded] at hmargin hwide
    omega
  rw [doc, if_neg hroom, h.indent, Int.zero_add]
  rfl

end Page

end EnumLookup.Layout
