import EnumLookup.Proofs.Layout.Writer
import EnumLookup.Source.Listing
import Mathlib.Data.List.Forall2

/-!
# String literals in the plain layout

The text of a listing holds the quotations of its string literals one behind another, each in a
place of its own. A text is joined from texts, so this is one lemma for each way to join them.
-/

namespace EnumLookup.Source

open Layout (Block Delimiter)

/-! ## The string literals of a file -/

mutual
/-- The texts of the string literals in an expression, from left to right. -/
def Expr.texts : Expr → List String
  | .text value => [value]
  | .number _ _ => []
  | .path _ => []
  | .call callee args => callee.texts ++ (Expr.textsEach args).flatten
  | .method receiver _ args => receiver.texts ++ (Expr.textsEach args).flatten
  | .invoke _ args => (Expr.textsEach args).flatten
  | .borrow target => target.texts
  | .array items => (Expr.textsEach items).flatten
  | .tuple items => (Expr.textsEach items).flatten
  | .closure _ body => body.texts
  | .equal left right => left.texts ++ right.texts
  | .choose subject arms => subject.texts ++ (Expr.textsArms arms).flatten

/-- The texts of the string literals in each of several expressions. -/
def Expr.textsEach : List Expr → List (List String)
  | [] => []
  | e :: es => e.texts :: Expr.textsEach es

/-- The texts of the string literals in each arm of a choice. -/
def Expr.textsArms : List (Expr × Expr) → List (List String)
  | [] => []
  | (p, e) :: arms => (p.texts ++ e.texts) :: Expr.textsArms arms
end

theorem textsEach_map {α : Type} (f : α → Expr) (xs : List α) :
    (Expr.textsEach (xs.map f)).flatten = xs.flatMap fun x => (f x).texts := by
  induction xs with
  | nil => rfl
  | cons x xs ih =>
      rw [List.map_cons, Expr.textsEach, List.flatten_cons, ih, List.flatMap_cons]

def Stmt.texts : Stmt → List String
  | discard value => value.texts
  | returnIf condition value => condition.texts ++ value.texts

/-- The texts of the string literals in the body of a function. -/
def Function.texts (f : Function) : List String := f.body.flatMap Stmt.texts ++ f.value.texts

/-- The texts of the string literals in what an item declares. -/
def ItemKind.texts : ItemKind → List String
  | constant _ _ value => value.texts
  | function f => f.texts
  | implementation _ _ methods => methods.flatMap Function.texts
  | module _ | use _ | enumeration _ _ => []

def File.texts (file : File) : List String := file.items.flatMap fun i => i.kind.texts

/-! ## Texts that hold quotations -/

/-- The text holds the quotations of texts one behind another, whatever stands between them. -/
inductive Quotes : String → List String → Prop where
  | nil (t) : Quotes t []
  | cons (front) {s t ss} : Quotes t ss → Quotes (front ++ Text.quote s ++ t) (s :: ss)

namespace Quotes

variable {s t u : String} {ss us : List String}

theorem quote (s : String) : Quotes (Text.quote s) [s] := by
  have h := cons "" (s := s) (nil "")
  rwa [String.empty_append, String.append_empty] at h

theorem behind (h : Quotes u ss) (t : String) : Quotes (t ++ u) ss := by
  cases h with
  | nil => exact nil _
  | cons front h =>
      rw [← String.append_assoc, ← String.append_assoc]
      exact cons (t ++ front) h

theorem append (ht : Quotes t ss) (hu : Quotes u us) : Quotes (t ++ u) (ss ++ us) := by
  induction ht with
  | nil t => exact hu.behind t
  | cons front _ ih =>
      rw [String.append_assoc]
      exact cons front ih

theorem before (h : Quotes t ss) (u : String) : Quotes (t ++ u) ss := by
  have happend := h.append (nil u)
  rwa [List.append_nil] at happend

theorem intercalate (sep : String) {ts : List String} {rows : List (List String)}
    (h : List.Forall₂ Quotes ts rows) : Quotes (sep.intercalate ts) rows.flatten := by
  induction h with
  | nil => exact nil _
  | @cons t row ts rows ht hts ih =>
      cases hts with
      | nil =>
          rw [String.intercalate_singleton, List.flatten_singleton]
          exact ht
      | cons =>
          rw [String.intercalate_cons_cons, List.flatten_cons]
          exact (ht.before sep).append ih

theorem isEmpty_eq (h : Quotes t (s :: ss)) : t.isEmpty = false := by
  cases h with
  | cons front h =>
      rw [← Bool.not_eq_true, String.isEmpty_iff, ← String.toList_inj]
      simp [Text.quote, Text.quotedChars]

theorem renderLine (h : Quotes t ss) (indent : String) (depth : Nat) :
    Quotes (Layout.renderLine indent depth t) ss := by
  cases ss with
  | nil => exact nil _
  | cons s ss =>
      rw [Layout.renderLine, h.isEmpty_eq, if_neg Bool.false_ne_true]
      exact (h.behind _).before _

theorem openLine (h : Quotes t ss) (d : Delimiter) : Quotes (d.openLine t) ss := by
  cases ss with
  | nil => exact nil _
  | cons s ss =>
      unfold Delimiter.openLine
      rw [h.isEmpty_eq, if_neg Bool.false_ne_true]
      split
      · exact (h.before _).before _
      · exact h.before _

end Quotes

/-! ## Expressions on one line -/

mutual
theorem expr_quotes : (e : Expr) → Quotes e.spell e.texts
  | .text value => by
      rw [Expr.spell, Expr.texts]
      exact .quote value
  | .number _ _ => by
      rw [Expr.texts]
      exact .nil _
  | .path _ => by
      rw [Expr.texts]
      exact .nil _
  | .call callee args => by
      rw [Expr.spell, Expr.texts]
      exact (((expr_quotes callee).before _).append (.intercalate _ (exprs_quote args))).before _
  | .method receiver name args => by
      rw [Expr.spell, Expr.texts]
      have hreceiver := (((expr_quotes receiver).before ".").before name).before "("
      exact (hreceiver.append (.intercalate _ (exprs_quote args))).before _
  | .invoke name args => by
      rw [Expr.spell, Expr.texts]
      exact ((Quotes.intercalate _ (exprs_quote args)).behind _).before _
  | .borrow target => by
      rw [Expr.spell, Expr.texts]
      exact (expr_quotes target).behind _
  | .array items => by
      rw [Expr.spell, Expr.texts]
      exact ((Quotes.intercalate _ (exprs_quote items)).behind _).before _
  | .tuple [item] => by
      rw [Expr.spell, Expr.texts, Expr.textsEach, Expr.textsEach, List.flatten_singleton]
      exact ((expr_quotes item).behind _).before _
  | .tuple [] => by
      rw [Expr.texts]
      exact .nil _
  | .tuple (x :: y :: items) => by
      rw [Expr.spell, Expr.texts]
      · exact ((Quotes.intercalate _ (exprs_quote (x :: y :: items))).behind _).before _
      · simp
  | .closure _ body => by
      rw [Expr.spell, Expr.texts]
      exact (expr_quotes body).behind _
  | .equal left right => by
      rw [Expr.spell, Expr.texts]
      exact ((expr_quotes left).before _).append (expr_quotes right)
  | .choose subject arms => by
      rw [Expr.spell, Expr.texts]
      have hsubject := ((expr_quotes subject).behind "match ").before " \x7b "
      exact (hsubject.append (.intercalate _ (arms_quote arms))).before _

theorem exprs_quote : (es : List Expr) →
    List.Forall₂ Quotes (Expr.spellEach es) (Expr.textsEach es)
  | [] => by
      rw [Expr.spellEach, Expr.textsEach]
      exact .nil
  | e :: es => by
      rw [Expr.spellEach, Expr.textsEach]
      exact .cons (expr_quotes e) (exprs_quote es)

theorem arms_quote : (arms : List (Expr × Expr)) →
    List.Forall₂ Quotes (Expr.spellArms arms) (Expr.textsArms arms)
  | [] => by
      rw [Expr.spellArms, Expr.textsArms]
      exact .nil
  | (p, e) :: arms => by
      rw [Expr.spellArms, Expr.textsArms]
      exact .cons ((((expr_quotes p).before _).append (expr_quotes e)).before _) (arms_quote arms)
end

/-! ## Blocks -/

/-- In every indentation and at every depth the blocks hold the quotations. -/
def BlocksQuote (bs : List Block) (ss : List String) : Prop :=
  ∀ indent depth, Quotes (Block.renderAll indent depth bs) ss

namespace BlocksQuote

variable {t header terminator : String} {d : Delimiter} {bs cs : List Block} {ss us : List String}

theorem none (bs : List Block) : BlocksQuote bs [] := fun _ _ => .nil _

theorem append (hb : BlocksQuote bs ss) (hc : BlocksQuote cs us) :
    BlocksQuote (bs ++ cs) (ss ++ us) := by
  intro indent depth
  rw [Block.renderAll_append]
  exact (hb indent depth).append (hc indent depth)

theorem flatMap {α : Type} {f : α → List Block} {g : α → List String} (xs : List α)
    (h : ∀ x, BlocksQuote (f x) (g x)) : BlocksQuote (xs.flatMap f) (xs.flatMap g) := by
  induction xs with
  | nil => exact none _
  | cons x xs ih =>
      rw [List.flatMap_cons, List.flatMap_cons]
      exact (h x).append ih

theorem line (h : Quotes t ss) : BlocksQuote [.line t] ss := by
  intro indent depth
  rw [Block.renderAll, Block.render]
  exact (h.renderLine indent depth).before _

theorem lines {ts : List String} {rows : List (List String)} (h : List.Forall₂ Quotes ts rows)
    (trail : String) : BlocksQuote (ts.map fun t => .line (t ++ trail)) rows.flatten := by
  induction h with
  | nil => exact none _
  | cons ht _ ih =>
      rw [List.map_cons, List.flatten_cons]
      exact (line (ht.before trail)).append ih

theorem scope (hheader : Quotes header ss) (hbody : BlocksQuote bs us) :
    BlocksQuote [.scope header d terminator bs] (ss ++ us) := by
  intro indent depth
  rw [Block.renderAll, Block.render]
  have hopen := (hheader.openLine d).renderLine indent depth
  exact ((hopen.append (hbody indent (depth + 1))).before _).before _

theorem body (h : BlocksQuote bs ss) : BlocksQuote [.scope header d terminator bs] ss :=
  scope (.nil header) h

end BlocksQuote

theorem arms_blocksQuote (arms : List (Expr × Expr)) :
    BlocksQuote (arms.map fun (p, e) => .braced (p.spell ++ " =>") [.line e.spell])
      (Expr.textsArms arms).flatten := by
  induction arms with
  | nil => exact .none _
  | cons arm arms ih =>
      obtain ⟨p, e⟩ := arm
      rw [List.map_cons, Expr.textsArms, List.flatten_cons]
      exact (BlocksQuote.scope ((expr_quotes p).before _) (.line (expr_quotes e))).append ih

/-- The blocks of an expression hold what is put in front of it, and then its literals. -/
theorem expr_blocksQuote (e : Expr) {ss : List String} {lead : String} (hlead : Quotes lead ss)
    (trail : String) : BlocksQuote (e.blocks lead trail) (ss ++ e.texts) := by
  fun_induction Expr.blocks lead trail e generalizing ss with
  | case1 lead trail item items =>
      rw [Expr.texts]
      exact .scope hlead (.lines (exprs_quote _) _)
  | case2 lead trail target _ ih =>
      rw [Expr.texts]
      exact ih (hlead.before _)
  | case3 lead trail target _ =>
      rw [Expr.texts]
      exact .line (((hlead.before _).append (expr_quotes target)).before _)
  | case4 lead trail callee arg _ ih =>
      rw [Expr.texts, Expr.textsEach, Expr.textsEach, List.flatten_singleton, ← List.append_assoc]
      exact ih ((hlead.append (expr_quotes callee)).before _)
  | case5 lead trail callee arg _ =>
      rw [Expr.texts, Expr.textsEach, Expr.textsEach, List.flatten_singleton, ← List.append_assoc]
      have hcallee := (hlead.append (expr_quotes callee)).before "("
      exact .line (((hcallee.append (expr_quotes arg)).before _).before _)
  | case6 lead trail subject arms =>
      rw [Expr.texts, ← List.append_assoc]
      exact .scope ((hlead.before _).append (expr_quotes subject)) (arms_blocksQuote arms)
  | case7 lead trail e =>
      exact .line ((hlead.append (expr_quotes e)).before _)

theorem value_blocksQuote (e : Expr) (lead trail : String) :
    BlocksQuote (e.blocks lead trail) e.texts :=
  expr_blocksQuote e (.nil lead) trail

theorem stmt_blocksQuote (t : Stmt) : BlocksQuote t.blocks t.texts := by
  cases t with
  | discard value => exact .line (((expr_quotes value).behind _).before _)
  | returnIf condition value =>
      exact .scope ((expr_quotes condition).behind _) (value_blocksQuote value _ _)

theorem function_blocksQuote (f : Function) (isPublic : Bool) :
    BlocksQuote [f.block isPublic] f.texts :=
  .body ((BlocksQuote.flatMap f.body stmt_blocksQuote).append (value_blocksQuote f.value _ _))

theorem item_blocksQuote (i : Item) : BlocksQuote i.blocks i.kind.texts := by
  refine (BlocksQuote.none (Attr.blocks i.attrs)).append ?_
  obtain ⟨attrs, isPublic, kind⟩ := i
  cases kind with
  | constant name type value => exact value_blocksQuote value _ _
  | function f => exact function_blocksQuote f isPublic
  | implementation interface target methods =>
      cases methods with
      | nil => exact .none _
      | cons f fs =>
          have hfunctions := BlocksQuote.flatMap (f :: fs) fun f => function_blocksQuote f false
          rw [← List.map_eq_flatMap] at hfunctions
          exact .body hfunctions
  | module _ => exact .none _
  | use _ => exact .none _
  | enumeration _ _ => exact .none _

/-- The text of a listing holds the quotations of its string literals. -/
theorem Listing.quotes_text (l : Listing) (indent : String) :
    Quotes (l.text indent) l.file.texts := by
  have hparagraphs := BlocksQuote.flatMap l.paragraphs fun items =>
    (BlocksQuote.none [.blank]).append (.flatMap items item_blocksQuote)
  have hblocks := (BlocksQuote.none (docBlocks l.docs)).append hparagraphs
  have htexts : l.file.texts =
      l.paragraphs.flatMap fun items => items.flatMap fun i => i.kind.texts := by
    rw [File.texts, Listing.file, ← List.flatMap_id, List.flatMap_assoc]
    rfl
  rw [Listing.text, Layout.write_eq, htexts]
  exact hblocks indent 0

end EnumLookup.Source
