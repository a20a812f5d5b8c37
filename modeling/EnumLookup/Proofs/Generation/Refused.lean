import EnumLookup.Proofs.Generation.Written
import EnumLookup.Proofs.Source.PlainLayout

/-!
# Files that are not read

Written on, a discriminator with a byte order mark in front of it or a direction mark behind it is
no identifier any more. A lookup file is refused where the first such discriminator stands.
-/

namespace EnumLookup

namespace Source

theorem step?_orderMark (r : List Char) : step? ('\ufeff' :: r) = none := by
  rw [step?, if_neg (by decide), if_neg (by decide),
    if_neg (by rw [Discriminator.isIdentifierStart_orderMark]; decide), if_neg (by decide),
    if_neg (by decide), if_neg (by decide)]
  rfl

set_option maxRecDepth 4000 in
theorem WordEnd.of_marks {marks rest : List Char} (hm : AreMarks marks) (hne : marks ≠ []) :
    WordEnd (marks ++ rest) := by
  obtain ⟨c, r, rfl⟩ := List.exists_cons_of_ne_nil hne
  have hc := hm c List.mem_cons_self
  refine .cons _ ?_
  simp only [isDirectionMark, Bool.or_eq_true, beq_iff_eq] at hc
  rcases hc with rfl | rfl
  · decide
  · decide

end Source

open Source

namespace Discriminator

theorem IsTail.isName {tail : String} (h : IsTail tail) : isName tail.toList = true := by
  obtain ⟨c, r, htail, hpart⟩ := h
  rw [htail, Source.isName, List.all_eq_true.mpr hpart]
  decide

/-- Written on, an unsound discriminator has no tokens, or it falls apart into two words. -/
theorem IsWrapped.splits {base tail : String} {front before after : List Char} {w : String}
    (h : IsWrapped base front before w after) (hbase : ¬ IsSound base) (ht : IsTail tail)
    {rest : List Char} (hr : WordEnd rest) {ts : List Token}
    (hts : tokens? ((base ++ tail).toList ++ rest) = some ts) :
    ∃ v v' us, ts = .word v :: .word v' :: us := by
  rw [h.isSound_iff] at hbase
  rw [String.toList_append, h.text] at hts
  rcases h.front with rfl | rfl
  · have hafter : after ≠ [] := fun ha => hbase ⟨rfl, ha⟩
    have hword := Lexes.markedWord (m := .dropped) h.before h.word
      (after ++ (tail.toList ++ rest)) (.of_marks h.after hafter)
    have htail := Lexes.word (m := .dropped) (.plain ht.isName) rest hr
    simp only [tokensAs?] at hword htail
    simp only [List.nil_append, List.append_assoc] at hts hword
    rw [hword, tokens?_append_marks h.after, htail] at hts
    obtain ⟨us, hus, rfl⟩ := Option.map_eq_some_iff.mp hts
    obtain ⟨vs, _, rfl⟩ := Option.map_eq_some_iff.mp hus
    exact ⟨_, _, _, rfl⟩
  · rw [List.append_assoc, List.singleton_append, List.cons_append,
      tokens?_of_stuck (step?_orderMark _)] at hts
    cases hts

end Discriminator

namespace Source

/-- The text of a function starts with its keywords and its name. -/
theorem Function.block_text (f : Function) (indent : String) : ∃ back,
    (f.block true).render indent 0 = "pub fn " ++ (f.name ++ ("(" ++ back)) := by
  have hne : ∀ s, ¬ ("pub " ++ s).isEmpty = true := by simp [String.isEmpty_iff]
  have hopen : Layout.Delimiter.brace.openLine ("pub " ++ f.spellSignature) =
      "pub " ++ (f.spellSignature ++ " \x7b") := by
    rw [Layout.Delimiter.openLine, if_neg (hne _)]
    simp only [String.append_assoc]
    rfl
  rw [Function.block, Layout.Block.braced, Layout.Block.render, spellVisibility, if_pos rfl, hopen,
    Layout.renderLine, if_neg (hne _), Function.spellSignature, Layout.indentation,
    show "pub fn " = "pub " ++ "fn " from rfl]
  simp only [String.append_assoc, String.empty_append]
  exact ⟨_, rfl⟩

end Source

namespace Generation

open Discriminator

variable {o : Operation} {e : Resolved} {d indent : String} {ps qs : List (Resolved × String)}

theorem blocks_lookup (o : Operation) (ps qs : List (Resolved × String)) (e : Resolved) (d : String) :
    ∃ rest, (lookupListing o (ps ++ (e, d) :: qs)).blocks =
      Listing.docBlocks (lookupListing o (ps ++ (e, d) :: qs)).docs ++
        (([{ kind := .use ["super", errorType] }] :: ps.map fun (e, d) => [helperItem o e d]).flatMap
          (fun items => .blank :: items.flatMap Item.blocks) ++
        (.blank :: Attr.blocks (helperItem o e d).attrs ++ (helper o e d).block true :: rest)) := by
  have hitem : (helperItem o e d).blocks =
      Attr.blocks (helperItem o e d).attrs ++ [(helper o e d).block true] := rfl
  rw [Listing.blocks, lookupListing]
  simp only [List.map_append, List.map_cons, List.cons_append, List.append_assoc,
    List.flatMap_cons, List.flatMap_append, List.flatMap_nil, List.append_nil, hitem,
    List.nil_append]
  exact ⟨_, rfl⟩

theorem exists_first {α : Type} {P : α → Prop} {xs : List α} (h : ∃ x ∈ xs, P x) :
    ∃ ys x zs, xs = ys ++ x :: zs ∧ (∀ y ∈ ys, ¬ P y) ∧ P x := by
  classical
  have hsome : (xs.find? fun x => decide (P x)).isSome = true := by simpa using h
  obtain ⟨x, hx⟩ := Option.isSome_iff_exists.mp hsome
  obtain ⟨hP, ys, zs, he, hys⟩ := List.find?_eq_some_iff_append.mp hx
  exact ⟨ys, x, zs, he, by simpa using hys, by simpa using hP⟩

/-- Up to the name of a helper, a lookup file is read as long as the discriminators before it can be
written on. -/
theorem lookup_split (h : IsIndent indent) (hps : ∀ p ∈ ps, IsExtensible p.2)
    (hline : ∀ p ∈ ps ++ (e, d) :: qs, IsLine p.1.name) :
    ∃ (ds : List String) (is : List Item) (ts : List Token) (as : List Attr) (us : List Token)
        (front back : String),
      Sequence Item.Spells is ts ∧ Sequence Attr.Spells as us ∧
      Phrase .dropped Anything front (ds.map (Token.doc true) ++ (ts ++ us)) ∧
      (lookupListing o (ps ++ (e, d) :: qs)).text indent =
        front ++ ("pub fn " ++ (helperName o d ++ ("(" ++ back))) := by
  have hdocs : ∀ t ∈ (lookupListing o (ps ++ (e, d) :: qs)).docs, OneLine t.toList := by
    refine isLine_header (isLine_title o) fun x hx => ?_
    obtain ⟨p, hp, rfl⟩ := List.mem_map.mp hx
    exact hline p hp
  have hgood : List.Forall₂ (List.Forall₂ (Item.ReadsAs .dropped))
      (ps.map fun p => [helperItem o p.1 p.2])
      (ps.map fun p => [helperItem o p.1 (Marks.dropped.read p.2)]) := by
    rw [List.forall₂_map_left_iff, List.forall₂_map_right_iff]
    exact List.forall₂_same.mpr fun p hp =>
      .cons (helperItem_reads (hps p hp) (hline p (List.mem_append_left _ hp))) .nil
  have huse : Item.ReadsAs .dropped { kind := .use ["super", errorType] }
      { kind := .use ["super", errorType] } := .mk (by simp) (.use (by decide))
  have hattrs : ∀ a ∈ (helperItem o e d).attrs, a.IsWritten :=
    helperAttrs_written (hline (e, d) (List.mem_append_right _ List.mem_cons_self))
  obtain ⟨ts, hts, hitems⟩ := paragraphs_blocks h (.cons (.cons huse .nil) hgood)
  obtain ⟨us, hus, hattrs⟩ := attrs_blocks h (m := .dropped) hattrs
  obtain ⟨rest, hblocks⟩ := blocks_lookup o ps qs e d
  obtain ⟨back, hback⟩ := (helper o e d).block_text indent
  have hfront := (docs_blocks h hdocs).append (hts.append ((BlocksLex.blank h).append hus)) 0
  refine ⟨_, _, ts, _, us, _, back ++ Layout.Block.renderAll indent 0 rest, hitems, hattrs, hfront, ?_⟩
  rw [Listing.text, Layout.write_eq, hblocks]
  simp only [Layout.Block.renderAll_append, Layout.Block.renderAll, hback, helper_name,
    String.append_assoc, List.cons_append, List.nil_append]

/-- A lookup file is not read if one of its discriminators cannot be written on. -/
theorem lookup_unread (o : Operation) (h : IsIndent indent) {ps : List (Resolved × String)}
    (hps : ∀ p ∈ ps, ∃ base, discriminator p.1.name = .ok base ∧ IsForm base p.2)
    (hline : ∀ p ∈ ps, IsLine p.1.name)
    (hbad : ∃ p ∈ ps, ∃ base, discriminator p.1.name = .ok base ∧ ¬ IsSound base) :
    File.read? ((lookupListing o ps).text indent) = none := by
  -- the first of them is what stops the reader
  obtain ⟨qs, ⟨e, d⟩, rs, rfl, hqs, base, hbase, hunsound⟩ := exists_first hbad
  have hext : ∀ p ∈ qs, IsExtensible p.2 := by
    intro p hp
    obtain ⟨base, hbase, hform⟩ := hps p (List.mem_append_left _ hp)
    exact .of_isSound hbase (not_not.mp fun hs => hqs p hp ⟨base, hbase, hs⟩) hform
  obtain ⟨_, hbase', hform⟩ := hps (e, d) (List.mem_append_right _ List.mem_cons_self)
  cases hbase'.symm.trans hbase
  obtain ⟨front, before, w, after, hwrapped⟩ := isWrapped_of_ok hbase
  obtain ⟨tail, htail, hname⟩ := helperName_of_form hform o
  obtain ⟨ds, is, ts, as, us, start, back, his, has, hstart, htext⟩ := lookup_split h hext hline
  have hpub : Phrase .dropped Anything "pub fn " [.word "pub", .word "fn"] :=
    Lexes.wordThen (w := "pub") (.plain (by decide))
      (Lexes.wordThen (w := "fn") (.plain (by decide)) .nil)
  have htokens := (hstart.join hpub) (helperName o d ++ ("(" ++ back)).toList trivial
  rw [← String.toList_append, String.append_assoc, ← htext] at htokens
  show (tokensAs? .dropped _).bind _ = none
  rw [htokens]
  cases hts : tokensAs? .dropped (helperName o d ++ ("(" ++ back)).toList with
  | none => rfl
  | some us' =>
      rw [hname, String.toList_append] at hts
      have hparen : WordEnd ("(" ++ back).toList := by
        rw [String.toList_append]
        exact .cons _ (by decide)
      obtain ⟨v, v', vs, rfl⟩ := hwrapped.splits hunsound htail hparen hts
      rw [Option.map_some, Option.bind_some, List.append_assoc, List.append_assoc]
      have hsplit := File.ofTokens?_of_split ds his has v v' vs
      simpa using hsplit

end Generation

end EnumLookup
