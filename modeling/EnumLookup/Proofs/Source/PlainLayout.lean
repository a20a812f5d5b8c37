import EnumLookup.Proofs.Layout.Writer
import EnumLookup.Proofs.Source.ReadingFiles
import EnumLookup.Proofs.Source.Spelling

/-!
# The plain layout spells what it lays out

Indentation is white space, so the blocks of an expression or an item spell the same tokens at every
depth. Each lemma gives those tokens together with the proof that the grammar allows them.
-/

namespace EnumLookup.Source

open Layout (Block Delimiter)
open Phrase

variable {m : Marks} {indent : String}

/-! ## Blocks -/

/-- The text consists of spaces and tabs. -/
def IsIndent (indent : String) : Prop := ∀ c ∈ indent.toList, c = ' ' ∨ c = '\t'

theorem blanks_lex {cs : List Char} (h : ∀ c ∈ cs, c = ' ' ∨ c = '\t') :
    Lexes m Anything cs [] := by
  induction cs with
  | nil => exact .nil
  | cons c r ih =>
      have hr := ih fun d hd => h d (List.mem_cons_of_mem _ hd)
      rcases h c List.mem_cons_self with rfl | rfl
      · exact hr.space
      · exact hr.skip (by decide) (by decide)

theorem IsIndent.indentation (h : IsIndent indent) :
    ∀ depth, Phrase m Anything (Layout.indentation indent depth) []
  | 0 => nil
  | depth + 1 => Phrase.join (blanks_lex h) (h.indentation depth)

/-- The text with the end of its line spells the tokens. -/
def LineLexes (m : Marks) (s : String) (ts : List Token) : Prop := Phrase m Anything (s ++ "\n") ts

/-- The blocks spell the tokens at every depth. -/
def BlocksLex (m : Marks) (indent : String) (bs : List Block) (ts : List Token) : Prop :=
  ∀ depth, Phrase m Anything (Block.renderAll indent depth bs) ts

theorem lineEnd_lexes : Phrase m Anything "\n" [] := Lexes.newline .nil

theorem LineLexes.of_phrase {s : String} {ts : List Token} (h : Phrase m PhraseEnd s ts) :
    LineLexes m s ts := by
  have hline := h.before lineEnd_lexes (by decide)
  rwa [List.append_nil] at hline

theorem LineLexes.prepend {s t : String} {ts us : List Token} (h : Phrase m Anything s ts)
    (ht : LineLexes m t us) : LineLexes m (s ++ t) (ts ++ us) := by
  rw [LineLexes, String.append_assoc]
  exact h.join ht

theorem renderLine_lexes (h : IsIndent indent) {s : String} {ts : List Token}
    (hs : LineLexes m s ts) (depth : Nat) :
    Phrase m Anything (Layout.renderLine indent depth s) ts := by
  rw [Layout.renderLine]
  split
  · rename_i he
    rw [String.isEmpty_iff.mp he] at hs
    exact hs
  · rw [String.append_assoc]
    exact (h.indentation depth).join hs

namespace BlocksLex

variable {bs cs : List Block} {ts us : List Token}

theorem nil : BlocksLex m indent [] [] := fun _ => Phrase.nil

theorem append (hb : BlocksLex m indent bs ts) (hc : BlocksLex m indent cs us) :
    BlocksLex m indent (bs ++ cs) (ts ++ us) := by
  intro depth
  rw [Block.renderAll_append]
  exact (hb depth).join (hc depth)

theorem line (h : IsIndent indent) {s : String} (hs : LineLexes m s ts) :
    BlocksLex m indent [.line s] ts := by
  intro depth
  rw [Block.renderAll, Block.render, Block.renderAll, String.append_empty]
  exact renderLine_lexes h hs depth

theorem blank (h : IsIndent indent) : BlocksLex m indent [.blank] [] := line h lineEnd_lexes

/-- The blocks of several things, one behind the other. -/
theorem each {α β : Type} {f : α → List Block} {spells : β → List Token → Prop} {xs : List α}
    {ys : List β} (h : List.Forall₂ (fun x y => ∃ ts, BlocksLex m indent (f x) ts ∧ spells y ts)
      xs ys) : ∃ ts, BlocksLex m indent (xs.flatMap f) ts ∧ Sequence spells ys ts := by
  induction h with
  | nil => exact ⟨[], nil, .nil⟩
  | cons hx _ ih =>
      obtain ⟨ts, hts, hspells⟩ := hx
      obtain ⟨us, hus, hrest⟩ := ih
      exact ⟨ts ++ us, hts.append hus, .cons hspells hrest⟩

end BlocksLex

def openMark : Delimiter → Mark
  | .brace => .openBrace
  | .bracket => .openBracket
  | .paren => .openParen

def closeMark : Delimiter → Mark
  | .brace => .closeBrace
  | .bracket => .closeBracket
  | .paren => .closeParen

theorem opening_lexes (d : Delimiter) : Phrase m Anything d.opening [.mark (openMark d)] :=
  .ofMark (openMark d) (by cases d <;> rfl) (by cases d <;> rfl)

theorem closing_lexes (d : Delimiter) : Phrase m Anything d.closing [.mark (closeMark d)] :=
  .ofMark (closeMark d) (by cases d <;> rfl) (by cases d <;> rfl)

theorem Phrase.eq_nil_of_empty {F : List Char → Prop} {ts : List Token} (h : Phrase m F "" ts)
    (hf : F []) : ts = [] := by
  have := h [] hf
  rw [List.append_nil, show "".toList = [] from rfl, tokensAs?_nil] at this
  simpa using this

theorem openLine_lexes (d : Delimiter) {s : String} {ts : List Token}
    (hs : Phrase m PhraseEnd s ts) : LineLexes m (d.openLine s) (ts ++ [.mark (openMark d)]) := by
  have hopening := opening_lexes (m := m) d
  have hopen : LineLexes m d.opening [.mark (openMark d)] := .of_phrase hopening.ofAnything
  have hspace : Phrase m Anything " " [] := Lexes.space .nil
  unfold Delimiter.openLine
  split
  · rename_i he
    rw [String.isEmpty_iff.mp he] at hs
    rw [hs.eq_nil_of_empty .nil]
    exact hopen
  · cases d with
    | brace =>
        have h := (hs.before hspace (by decide)).join hopen
        dsimp only
        rw [LineLexes, String.append_assoc]
        simpa using h
    | bracket => exact .of_phrase (hs.before hopening (by decide)).ofAnything
    | paren => exact .of_phrase (hs.before hopening (by decide)).ofAnything

namespace BlocksLex

theorem scope (h : IsIndent indent) {header terminator : String} (d : Delimiter) {body : List Block}
    {hs bs ts : List Token} (hheader : Phrase m PhraseEnd header hs)
    (hbody : BlocksLex m indent body bs) (hterminator : LineLexes m terminator ts) :
    BlocksLex m indent [.scope header d terminator body]
      (hs ++ .mark (openMark d) :: bs ++ .mark (closeMark d) :: ts) := by
  intro depth
  have hclose : LineLexes m (d.closeLine terminator) (.mark (closeMark d) :: ts) :=
    .prepend (closing_lexes d) hterminator
  have hscope := ((renderLine_lexes h (openLine_lexes d hheader) depth).join
    (hbody (depth + 1))).join (renderLine_lexes h hclose depth)
  rw [Block.renderAll, Block.render, Block.renderAll, String.append_empty]
  simpa using hscope

end BlocksLex

/-! ## Expressions -/

/-- The text behind an expression: the line ends with it, and it ends what is before it. -/
structure Trails (m : Marks) (s : String) (ts : List Token) : Prop where
  line : LineLexes m s ts
  ends : ∀ rest, PhraseEnd (s.toList ++ '\n' :: rest)

theorem Trails.empty : Trails m "" [] := ⟨lineEnd_lexes, fun _ => .cons _ (by decide) (by decide)⟩

theorem Trails.mark (x : Mark) {s t : String} {ts : List Token} (hs : s.toList = x.chars)
    (hx : x.isClosed = true) (he : startsOff s = true) (ht : Trails m t ts) :
    Trails m (s ++ t) (.mark x :: ts) := by
  refine ⟨.prepend (.ofMark x hs hx) ht.line, fun rest => ?_⟩
  rw [String.toList_append, List.append_assoc]
  exact .of_startsOff he _

/-- A phrase with its trail ends a line. -/
theorem Phrase.trail {s t : String} {ts us : List Token} (h : Phrase m PhraseEnd s ts)
    (ht : Trails m t us) : LineLexes m (s ++ t) (ts ++ us) := by
  rw [LineLexes, String.append_assoc]
  refine h.append ht.line fun rest _ => ?_
  rw [String.toList_append, List.append_assoc]
  exact ht.ends rest

theorem Level.follow_of_phraseEnd {l : Level} {rest : List Char} (h : PhraseEnd rest) :
    l.follow rest := by
  cases l with
  | chain => exact h.wordEnd
  | operand => exact h
  | full => exact h

/-- Whatever spells an operand spells an expression of that level. -/
theorem ofOperand_of_ne_chain {l : Level} (hl : l ≠ .chain) {e : Expr} {ts : List Token}
    (h : Expr.Spells .operand e ts) : Expr.Spells l e ts := by
  cases l with
  | chain => exact absurd rfl hl
  | operand => exact h
  | full => exact .ofOperand h

/-- Whatever spells a chain spells an expression of that level. -/
theorem ofChain_level (l : Level) {e : Expr} {ts : List Token} (h : Expr.Spells .chain e ts) :
    Expr.Spells l e ts := by
  cases l with
  | chain => exact h
  | operand => exact .ofChain h
  | full => exact .ofOperand (.ofChain h)

theorem readsAs_array {l : Level} {items : List Expr} {e' : Expr}
    (h : Expr.ReadsAs m l (.array items) e') :
    ∃ items', e' = .array items' ∧ Expr.ReadEachAs m items items' := by
  cases h with
  | array hi => exact ⟨_, rfl, hi⟩
  | ofChain h => cases h with | array hi => exact ⟨_, rfl, hi⟩
  | ofOperand h => cases h with | ofChain h => cases h with | array hi => exact ⟨_, rfl, hi⟩

theorem readsAs_call {l : Level} {f : Expr} {args : List Expr} {e' : Expr}
    (h : Expr.ReadsAs m l (.call f args) e') :
    ∃ f' args', e' = .call f' args' ∧ Expr.ReadsAs m .chain f f' ∧
      Expr.ReadEachAs m args args' := by
  cases h with
  | call hf ha => exact ⟨_, _, rfl, hf, ha⟩
  | ofChain h => cases h with | call hf ha => exact ⟨_, _, rfl, hf, ha⟩
  | ofOperand h =>
      cases h with | ofChain h => cases h with | call hf ha => exact ⟨_, _, rfl, hf, ha⟩

theorem readsAs_borrow {l : Level} {t e' : Expr} (h : Expr.ReadsAs m l (.borrow t) e') :
    ∃ t', e' = .borrow t' ∧ Expr.ReadsAs m .operand t t' ∧ l ≠ .chain := by
  cases h with
  | borrow ht => exact ⟨_, rfl, ht, by decide⟩
  | ofChain h => cases h
  | ofOperand h =>
      cases h with
      | borrow ht => exact ⟨_, rfl, ht, by decide⟩
      | ofChain h => cases h

theorem readsAs_choose {l : Level} {e : Expr} {as : List (Expr × Expr)} {e' : Expr}
    (h : Expr.ReadsAs m l (.choose e as) e') :
    ∃ s' as', e' = .choose s' as' ∧ Expr.ReadsAs m .full e s' ∧ Expr.ReadArmsAs m as as' ∧
      l ≠ .chain := by
  cases h with
  | choose he ha => exact ⟨_, _, rfl, he, ha, by decide⟩
  | ofChain h => cases h
  | ofOperand h =>
      cases h with
      | choose he ha => exact ⟨_, _, rfl, he, ha, by decide⟩
      | ofChain h => cases h

section Layout

variable (h : IsIndent indent) {lead trail : String} {lt tt : List Token}

include h

/-- An expression on one line. -/
theorem spell_line (hlead : Phrase m Anything lead lt) (htrail : Trails m trail tt) {l : Level}
    {e e' : Expr} (he : Expr.ReadsAs m l e e') :
    ∃ ts, BlocksLex m indent [.line (lead ++ e.spell ++ trail)] (lt ++ ts ++ tt) ∧
      Expr.Spells l e' ts := by
  obtain ⟨ts, hts, hspells⟩ := expr_lexes he
  have hphrase : Phrase m PhraseEnd e.spell ts := hts.weaken fun _ => Level.follow_of_phraseEnd
  exact ⟨ts, .line h ((hlead.join hphrase).trail htrail), hspells⟩

/-- The entries of a table have a line each, with a comma at its end. -/
theorem entries_lex {ss : List String} {xs : List Expr}
    (hs : List.Forall₂ (Spelt m PhraseEnd (Expr.Spells .full)) ss xs) (hne : xs ≠ []) :
    ∃ ts, BlocksLex m indent (ss.map fun s => .line (s ++ ",")) ts ∧
      Items (Expr.Spells .full) xs ts := by
  have hcomma : Phrase m PhraseEnd "," [.mark .comma] := (ofMark .comma rfl rfl).ofAnything
  induction hs with
  | nil => exact absurd rfl hne
  | @cons s x ss xs hx hxs ih =>
      obtain ⟨ts, hts, hspells⟩ := hx
      have hline : BlocksLex m indent [.line (s ++ ",")] (ts ++ [.mark .comma]) :=
        .line h (.of_phrase (hts.before hcomma (by decide)))
      cases hxs with
      | nil => exact ⟨_, hline, .lastComma hspells⟩
      | cons hy hys =>
          obtain ⟨us, hus, hitems⟩ := ih (by simp)
          refine ⟨_, ?_, .cons hspells hitems⟩
          simpa using hline.append hus

/-- The arms of a choice have a scope each. -/
theorem arms_blocks {as as' : List (Expr × Expr)} (has : Expr.ReadArmsAs m as as') :
    ∃ ts, BlocksLex m indent
        (as.map fun (p, e) => .braced (p.spell ++ " =>") [.line e.spell]) ts ∧
      Arms (Expr.Spells .operand) (Expr.Spells .full) as' ts := by
  induction as generalizing as' with
  | nil =>
      cases has
      exact ⟨[], .nil, .nil⟩
  | cons a as ih =>
      cases has with
      | cons hp he has =>
          obtain ⟨ps, hps, hpattern⟩ := expr_lexes hp
          obtain ⟨es, hes, hvalue⟩ := expr_lexes he
          obtain ⟨ts, hts, harms⟩ := ih has
          refine ⟨_, ?_, .braced hpattern hvalue .absent harms⟩
          have harrow : Phrase m PhraseEnd " =>" [.mark .fatArrow] :=
            .space (.mark .fatArrow rfl .nil)
          have harm : BlocksLex m indent _ _ :=
            .scope h .brace (Phrase.before hps harrow (by decide)) (.line h (.of_phrase hes))
              Trails.empty.line
          simpa [openMark, closeMark, Block.braced] using harm.append hts

/-- The blocks of an expression spell it between what the texts around it spell. -/
theorem expr_blocks {e e' : Expr} {l : Level} {lead trail : String} {lt tt : List Token}
    (hlead : Phrase m Anything lead lt) (htrail : Trails m trail tt) (he : Expr.ReadsAs m l e e') :
    ∃ ts, BlocksLex m indent (e.blocks lead trail) (lt ++ ts ++ tt) ∧ Expr.Spells l e' ts := by
  induction lead, trail, e using Expr.blocks.induct generalizing l e' lt tt with
  | case1 lead trail item items =>
      obtain ⟨items', rfl, hitems⟩ := readsAs_array he
      have hne : items' ≠ [] := by rintro rfl; cases hitems
      obtain ⟨ts, hts, hspells⟩ := entries_lex h (exprs_lex hitems) hne
      refine ⟨_, ?_, ofChain_level l (.array hspells)⟩
      rw [Expr.blocks]
      have hscope := BlocksLex.scope h .bracket hlead.ofAnything hts htrail.line
      simpa [openMark, closeMark] using hscope
  | case2 lead trail target ht ih =>
      obtain ⟨t', rfl, htarget, hl⟩ := readsAs_borrow he
      have hamp : Phrase m Anything "&" [.mark .amp] := .ofMark .amp rfl rfl
      obtain ⟨ts, hts, hspells⟩ := ih (hlead.join hamp) htrail htarget
      refine ⟨_, ?_, ofOperand_of_ne_chain hl (.borrow hspells)⟩
      rw [Expr.blocks, if_pos ht]
      simpa using hts
  | case3 lead trail target ht =>
      have hline := spell_line h hlead htrail he
      rw [Expr.blocks, if_neg ht]
      simpa only [Expr.spell, String.append_assoc] using hline
  | case4 lead trail callee arg ht ih =>
      obtain ⟨f', args', rfl, hf, hargs⟩ := readsAs_call he
      cases hargs with
      | cons harg hnil =>
          cases hnil
          obtain ⟨fs, hfs, hcallee⟩ := expr_lexes hf
          have hopen : Phrase m Anything "(" [.mark .openParen] := .ofMark .openParen rfl rfl
          obtain ⟨ts, hts, hspells⟩ := ih ((hlead.join hfs).wordBefore hopen (by decide))
            (.mark .closeParen rfl rfl (by decide) htrail) harg
          refine ⟨_, ?_, ofChain_level l (.call hcallee (.last hspells))⟩
          rw [Expr.blocks, if_pos ht]
          simpa using hts
  | case5 lead trail callee arg ht =>
      have hline := spell_line h hlead htrail he
      rw [Expr.blocks, if_neg ht]
      simpa only [Expr.spell, Expr.spellEach, String.intercalate_singleton, String.append_assoc]
        using hline
  | case6 lead trail subject arms =>
      obtain ⟨s', as', rfl, hs, harms, hl⟩ := readsAs_choose he
      obtain ⟨ss, hss, hsubject⟩ := expr_lexes hs
      obtain ⟨ts, hts, harms⟩ := arms_blocks h harms
      have hmatch : Phrase m Anything "match " [.word "match"] :=
        keyword_lexes (w := "match") (by decide)
      refine ⟨_, ?_, ofOperand_of_ne_chain hl (.choose hsubject harms)⟩
      rw [Expr.blocks]
      have hscope := BlocksLex.scope h .brace ((hlead.join hmatch).join hss) hts htrail.line
      simpa [openMark, closeMark] using hscope
  | case7 lead trail e harray hborrow hcall hchoose =>
      have hline := spell_line h hlead htrail he
      rw [Expr.blocks]
      · exact hline
      · exact harray
      · exact hborrow
      · exact hcall
      · exact hchoose

end Layout

/-! ## Functions -/

theorem trails_semicolon : Trails m ";" [.mark .semicolon] := by
  refine ⟨.of_phrase (ofMark .semicolon rfl rfl).ofAnything, fun rest => ?_⟩
  exact .cons _ (by decide) (by decide)

theorem param_lexes {p : Param} (hp : p.IsWritten) : Spelt m PhraseEnd Param.Spells p.spell p := by
  cases hp with
  | receiver =>
      have hself : Phrase m PhraseEnd "&self" [.mark .amp, .word "self"] :=
        Phrase.join (s := "&") (t := "self") (.ofMark .amp rfl rfl)
          (Phrase.ofWord (Lexes.word (.plain (by decide))))
      exact ⟨_, hself, .receiver⟩
  | typed hname ht =>
      obtain ⟨ts, hts, hspells⟩ := ty_lexes ht
      refine ⟨_, ?_, .typed hname.2 hspells⟩
      have hcolon : Phrase m Anything ": " [.mark .colon] := .markSpace .colon .nil
      rw [Param.spell]
      exact (((plain_lexes hname).wordBefore hcolon (by decide)).join hts).ofWord

theorem params_lex {ps : List Param} (hps : ∀ p ∈ ps, p.IsWritten) :
    Spelt m PhraseEnd (Items Param.Spells) (", ".intercalate (ps.map Param.spell)) ps :=
  Phrase.separated (List.forall₂_map_left_iff.mpr (List.forall₂_same.mpr fun p hp =>
    param_lexes (hps p hp)))

theorem visibility_lexes (isPublic : Bool) :
    Phrase m Anything (spellVisibility isPublic) (if isPublic then [.word "pub"] else []) := by
  cases isPublic with
  | true => exact keyword_lexes (w := "pub") (by decide)
  | false => exact nil

section Items

variable (h : IsIndent indent)

include h

theorem stmt_blocks {s s' : Stmt} (hs : s.ReadsAs m s') :
    ∃ ts, BlocksLex m indent s.blocks ts ∧ s'.Spells ts := by
  cases hs with
  | discard he =>
      obtain ⟨ts, hts, hspells⟩ := expr_lexes he
      refine ⟨_, ?_, .discard hspells⟩
      have hlet : Phrase m Anything "let _ = " [.word "let", .word "_", .mark .assign] :=
        Lexes.wordThen (w := "let") (.plain (by decide))
          (Lexes.wordThen (w := "_") (.plain (by decide)) (.markSpace .assign .nil))
      exact .line h (by simpa using (hlet.join hts).trail trails_semicolon)
  | returnIf hc he =>
      obtain ⟨cs, hcs, hcondition⟩ := expr_lexes hc
      have hif : Phrase m Anything "if " [.word "if"] := keyword_lexes (w := "if") (by decide)
      have hreturn : Phrase m Anything "return " [.word "return"] :=
        keyword_lexes (w := "return") (by decide)
      obtain ⟨ts, hts, hspells⟩ := expr_blocks h hreturn trails_semicolon he
      refine ⟨_, ?_, .returnIf hcondition hspells⟩
      simpa [openMark, closeMark, Block.braced, Stmt.blocks] using
        BlocksLex.scope h .brace (hif.join hcs) hts Trails.empty.line

theorem stmts_blocks {ss ss' : List Stmt} (hss : List.Forall₂ (Stmt.ReadsAs m) ss ss') :
    ∃ ts, BlocksLex m indent (ss.flatMap Stmt.blocks) ts ∧ Sequence Stmt.Spells ss' ts :=
  BlocksLex.each (hss.imp fun _ _ => stmt_blocks h)

theorem function_blocks {f f' : Function} (hf : f.ReadsAs m f') (isPublic : Bool) :
    ∃ ts, BlocksLex m indent [f.block isPublic]
        ((if isPublic then [.word "pub"] else []) ++ .word "fn" :: ts) ∧ f'.Spells ts := by
  cases hf with
  | mk hname hid hparams hresult hbody hvalue =>
      obtain ⟨ps, hps, hparams⟩ := params_lex (m := m) hparams
      obtain ⟨rs, hrs, hresult⟩ := ty_lexes (m := m) hresult
      obtain ⟨ss, hss, hbody⟩ := stmts_blocks h hbody
      obtain ⟨es, hes, hvalue⟩ := expr_blocks h nil .empty hvalue
      refine ⟨_, ?_, .mk hid hparams hresult hbody hvalue⟩
      have hfn : Phrase m Anything "fn " [.word "fn"] := keyword_lexes (w := "fn") (by decide)
      have hopen : Phrase m Anything "(" [.mark .openParen] := .ofMark .openParen rfl rfl
      have harrow : Phrase m Anything ") -> " [.mark .closeParen, .mark .arrow] :=
        .mark .closeParen rfl (.space (.mark .arrow rfl (.space .nil)))
      have hsignature := (((hfn.join (Phrase.wordBefore hname hopen (by decide))).join hps).before
        harrow (by decide)).join hrs
      have hscope := BlocksLex.scope h .brace ((visibility_lexes isPublic).join hsignature).ofWord
        (hss.append hes) Trails.empty.line
      simpa [openMark, closeMark, Block.braced, Function.block, Function.spellSignature,
        String.append_assoc] using hscope

/-! ## Items -/

omit h in
theorem attr_lexes {a : Attr} (ha : a.IsWritten) : ∃ ts, LineLexes m a.spell ts ∧ a.Spells ts := by
  cases ha with
  | @doc t hline hslash =>
      refine ⟨_, ?_, .doc⟩
      have hdoc := Lexes.outerDoc (m := m) hline hslash
      rw [LineLexes, Phrase, Attr.spell, String.toList_append, String.toList_append]
      simpa using hdoc
  | @list name args hname hargs =>
      have hnames : List.Forall₂ (Spelt m PhraseEnd SpellsName) args args :=
        List.forall₂_same.mpr fun a ha =>
          ⟨_, (plain_lexes (hargs a ha)).ofWord, .mk (hargs a ha).2⟩
      obtain ⟨ts, hts, hitems⟩ := separated hnames
      refine ⟨_, ?_, .list hname.2 hitems⟩
      have hopen : Phrase m Anything "#[" [.mark .hash, .mark .openBracket] :=
        .mark .hash rfl (.mark .openBracket rfl .nil)
      have hparen : Phrase m Anything "(" [.mark .openParen] := .ofMark .openParen rfl rfl
      have hclose : Phrase m Anything ")]" [.mark .closeParen, .mark .closeBracket] :=
        .mark .closeParen rfl (.mark .closeBracket rfl .nil)
      have hattr := ((hopen.join ((plain_lexes hname).wordBefore hparen (by decide))).join
        hts).before hclose (by decide)
      rw [Attr.spell]
      refine .of_phrase ?_
      simpa [String.append_assoc] using hattr.ofAnything

theorem attrs_blocks {as : List Attr} (has : ∀ a ∈ as, a.IsWritten) :
    ∃ ts, BlocksLex m indent (Attr.blocks as) ts ∧ Sequence Attr.Spells as ts := by
  rw [Attr.blocks, List.map_eq_flatMap]
  refine BlocksLex.each (List.forall₂_same.mpr fun a ha => ?_)
  obtain ⟨ts, hts, hspells⟩ := attr_lexes (m := m) (has a ha)
  exact ⟨ts, .line h hts, hspells⟩

/-- A variant has a line of its own, with a comma at its end. -/
theorem variant_blocks {v : Variant} (hv : v.IsWritten) :
    ∃ ts, BlocksLex m indent v.blocks (ts ++ [.mark .comma]) ∧ v.Spells ts := by
  obtain ⟨as, has, hattrs⟩ := attrs_blocks h (m := m) hv.attrs
  obtain ⟨ts, hts, hfields⟩ := separated (tys_lex (m := m) hv.fields)
  refine ⟨_, ?_, .mk hattrs hv.name.2 hfields⟩
  have hopen : Phrase m Anything "(" [.mark .openParen] := .ofMark .openParen rfl rfl
  have hclose : Phrase m Anything ")," [.mark .closeParen, .mark .comma] :=
    .mark .closeParen rfl (.mark .comma rfl .nil)
  have hline := (((plain_lexes hv.name).wordBefore hopen (by decide)).join hts).before hclose
    (by decide)
  have hblocks := has.append (BlocksLex.line h (.of_phrase hline.ofAnything))
  simpa [Variant.blocks, Ty.spellEach_eq_map, String.append_assoc] using hblocks

theorem variants_blocks {vs : List Variant} (hvs : ∀ v ∈ vs, v.IsWritten) :
    ∃ ts, BlocksLex m indent (vs.flatMap Variant.blocks) ts ∧ Items Variant.Spells vs ts := by
  induction vs with
  | nil => exact ⟨[], .nil, .nil⟩
  | cons v vs ih =>
      obtain ⟨ts, hts, hspells⟩ := variant_blocks h (m := m) (hvs v (by simp))
      obtain ⟨us, hus, hrest⟩ := ih fun w hw => hvs w (by simp [hw])
      cases vs with
      | nil =>
          refine ⟨_, ?_, .lastComma hspells⟩
          simpa using hts
      | cons w vs =>
          refine ⟨_, ?_, .cons hspells hrest⟩
          simpa using hts.append hus

theorem methods_blocks {fs fs' : List Function} (hfs : List.Forall₂ (Function.ReadsAs m) fs fs') :
    ∃ ts, BlocksLex m indent (fs.map fun f => f.block false) ts ∧
      Sequence Function.SpellsMethod fs' ts := by
  rw [List.map_eq_flatMap]
  refine BlocksLex.each (hfs.imp fun f f' hf => ?_)
  obtain ⟨ts, hts, hspells⟩ := function_blocks h hf false
  exact ⟨_, hts, .mk hspells⟩

theorem constant_blocks {isPublic : Bool} {name : String} {t : Ty} {e e' : Expr}
    (hname : IsPlain name) (ht : t.IsWritten) (he : Expr.ReadsAs m .full e e') :
    ∃ ts, BlocksLex m indent (Item.blocks ⟨[], isPublic, .constant name t e⟩)
        ((if isPublic then [.word "pub"] else []) ++ ts) ∧
      ItemKind.Spells (.constant name t e') ts := by
  obtain ⟨ts, hts, htype⟩ := ty_lexes (m := m) ht
  have hconst : Phrase m Anything "const " [.word "const"] :=
    keyword_lexes (w := "const") (by decide)
  have hcolon : Phrase m Anything ": " [.mark .colon] := .markSpace .colon .nil
  have hassign : Phrase m Anything " = " [.mark .assign] := .space (.markSpace .assign .nil)
  have hlead := (((((visibility_lexes isPublic).join hconst).join (plain_lexes hname)).wordBefore
    hcolon (by decide)).join hts).wordBefore hassign (by decide)
  obtain ⟨es, hes, hvalue⟩ := expr_blocks h hlead trails_semicolon he
  refine ⟨_, ?_, .constant hname.2 htype hvalue⟩
  simpa [Item.blocks, Attr.blocks] using hes

theorem enum_blocks {isPublic : Bool} {name : String} {vs : List Variant} (hname : IsPlain name)
    (hvs : ∀ v ∈ vs, v.IsWritten) :
    ∃ ts, BlocksLex m indent (Item.blocks ⟨[], isPublic, .enumeration name vs⟩)
        ((if isPublic then [.word "pub"] else []) ++ ts) ∧
      ItemKind.Spells (.enumeration name vs) ts := by
  obtain ⟨ts, hts, hitems⟩ := variants_blocks h (m := m) hvs
  refine ⟨_, ?_, .enumeration hname.2 hitems⟩
  have henum : Phrase m Anything "enum " [.word "enum"] := keyword_lexes (w := "enum") (by decide)
  have hheader := ((visibility_lexes isPublic).join henum).join (plain_lexes hname)
  have hscope := BlocksLex.scope h .brace hheader.ofWord hts Trails.empty.line
  simpa [Item.blocks, Attr.blocks, openMark, closeMark, Block.braced] using hscope

theorem implementation_blocks {interface target : Ty} {fs fs' : List Function}
    (hi : interface.IsWritten) (ht : target.IsWritten)
    (hfs : List.Forall₂ (Function.ReadsAs m) fs fs') :
    ∃ ts, BlocksLex m indent (Item.blocks ⟨[], false, .implementation interface target fs⟩) ts ∧
      ItemKind.Spells (.implementation interface target fs') ts := by
  obtain ⟨is, his, hinterface⟩ := ty_lexes (m := m) hi
  obtain ⟨ts, hts, htarget⟩ := ty_lexes (m := m) ht
  obtain ⟨us, hus, hmethods⟩ := methods_blocks h hfs
  refine ⟨_, ?_, .implementation hinterface htarget hmethods⟩
  have himpl : Phrase m Anything "impl " [.word "impl"] := keyword_lexes (w := "impl") (by decide)
  have hfor : Phrase m Anything " for " [.word "for"] :=
    Lexes.space (keyword_lexes (w := "for") (by decide))
  have hheader := ((himpl.join his).wordBefore hfor (by decide)).join hts
  cases hfs with
  | nil =>
      have hbraces : Phrase m Anything " \x7b\x7d" [.mark .openBrace, .mark .closeBrace] :=
        .space (.mark .openBrace rfl (.mark .closeBrace rfl .nil))
      cases hmethods
      have hline := hheader.wordBefore hbraces (by decide)
      simpa [Item.blocks, Attr.blocks] using BlocksLex.line h (.of_phrase hline.ofAnything)
  | cons hf hfs =>
      have hscope := BlocksLex.scope h .brace hheader.ofWord hus Trails.empty.line
      simpa [Item.blocks, Attr.blocks, openMark, closeMark, Block.braced] using hscope

/-- What an item declares, behind its visibility. -/
theorem kind_blocks {isPublic : Bool} {k k' : ItemKind} (hk : k.ReadsAs m isPublic k') :
    ∃ ts, BlocksLex m indent (Item.blocks ⟨[], isPublic, k⟩)
        ((if isPublic then [.word "pub"] else []) ++ ts) ∧ k'.Spells ts := by
  have hvisibility := visibility_lexes (m := m) isPublic
  have hend : Phrase m PhraseEnd ";" [.mark .semicolon] := (ofMark .semicolon rfl rfl).ofAnything
  cases hk with
  | module hname =>
      refine ⟨_, ?_, .module hname.2⟩
      have hmod : Phrase m Anything "mod " [.word "mod"] := keyword_lexes (w := "mod") (by decide)
      have hline := ((hvisibility.join hmod).join (plain_lexes hname).ofWord).before hend (by decide)
      simpa [Item.blocks, Attr.blocks] using BlocksLex.line h (.of_phrase hline)
  | use hp =>
      refine ⟨_, ?_, .use hp.1⟩
      have huse : Phrase m Anything "use " [.word "use"] := keyword_lexes (w := "use") (by decide)
      have hline := ((hvisibility.join huse).join hp.lexes.ofWord).before hend (by decide)
      simpa [Item.blocks, Attr.blocks] using BlocksLex.line h (.of_phrase hline)
  | constant hname ht he => exact constant_blocks h hname ht he
  | function hf =>
      obtain ⟨ts, hts, hspells⟩ := function_blocks h hf isPublic
      refine ⟨_, ?_, .function hspells⟩
      simpa [Item.blocks, Attr.blocks] using hts
  | enumeration hname hvs => exact enum_blocks h hname hvs
  | implementation hi ht hfs => exact implementation_blocks h hi ht hfs

theorem item_blocks {i i' : Item} (hi : i.ReadsAs m i') :
    ∃ ts, BlocksLex m indent i.blocks ts ∧ i'.Spells ts := by
  cases hi with
  | @mk attrs isPublic kind kind' hattrs hkind =>
      obtain ⟨as, has, hattrs⟩ := attrs_blocks h (m := m) hattrs
      obtain ⟨ts, hts, hkind⟩ := kind_blocks h hkind
      refine ⟨_, ?_, .mk isPublic hattrs hkind⟩
      rw [List.append_assoc]
      exact has.append hts

theorem items_blocks {is is' : List Item} (his : List.Forall₂ (Item.ReadsAs m) is is') :
    ∃ ts, BlocksLex m indent (is.flatMap Item.blocks) ts ∧ Sequence Item.Spells is' ts :=
  BlocksLex.each (his.imp fun _ _ => item_blocks h)

/-! ## Listings -/

omit h in
theorem docLine_lexes {d : String} (h : OneLine d.toList) : LineLexes m ("//!" ++ d) [.doc true d] := by
  have hdoc := Lexes.innerDoc (m := m) h
  rw [LineLexes, Phrase, String.toList_append, String.toList_append]
  simpa using hdoc

theorem docs_blocks {ds : List String} (hds : ∀ d ∈ ds, OneLine d.toList) :
    BlocksLex m indent (Listing.docBlocks ds) (ds.map (Token.doc true)) := by
  induction ds with
  | nil => exact .nil
  | cons d ds ih =>
      rw [List.forall_mem_cons] at hds
      exact (BlocksLex.line h (docLine_lexes hds.1)).append (ih hds.2)

theorem paragraphs_blocks {ps ps' : List (List Item)}
    (hps : List.Forall₂ (List.Forall₂ (Item.ReadsAs m)) ps ps') :
    ∃ ts, BlocksLex m indent (ps.flatMap fun items => .blank :: items.flatMap Item.blocks) ts ∧
      Sequence Item.Spells ps'.flatten ts := by
  -- A paragraph is an empty line and its items.
  have hparagraphs : List.Forall₂ (fun items items' =>
      ∃ ts, BlocksLex m indent (.blank :: items.flatMap Item.blocks) ts ∧
        Sequence Item.Spells items' ts) ps ps' := by
    refine hps.imp fun items items' hp => ?_
    obtain ⟨ts, hts, hspells⟩ := items_blocks h hp
    exact ⟨ts, (BlocksLex.blank h).append hts, hspells⟩
  obtain ⟨ts, hts, hspells⟩ := BlocksLex.each hparagraphs
  exact ⟨ts, hts, hspells.flatten⟩

end Items

/-- A listing in the plain layout spells the file that is read from it. -/
theorem Listing.ReadsAs.lexes {l l' : Listing} (h : IsIndent indent) (hl : l.ReadsAs m l') :
    Spelt m Anything File.Spells (l.text indent) l'.file := by
  cases hl with
  | mk hdocs hparagraphs =>
      obtain ⟨ts, hts, hspells⟩ := paragraphs_blocks h hparagraphs
      refine ⟨_, ?_, .mk hspells⟩
      rw [Listing.text, Layout.write_eq]
      exact (docs_blocks h hdocs).append hts 0

/-- What spells a file is read as that file. -/
theorem Spelt.readAs {F : List Char → Prop} {s : String} {f : File} (h : Spelt m F File.Spells s f)
    (hf : F []) : File.readAs? m s = some f := by
  obtain ⟨ts, hts, hspells⟩ := h
  have htokens := hts [] hf
  rw [List.append_nil, tokensAs?_nil, Option.map_some, List.append_nil] at htokens
  rw [File.readAs?, htokens]
  exact File.ofTokens?_of_spells hspells

end EnumLookup.Source
