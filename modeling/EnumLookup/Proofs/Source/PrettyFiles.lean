import EnumLookup.Proofs.Source.PrettyLayout

/-!
# Files in the layout for reading

A documentation comment needs the end of its line. It stands at the left edge of the page or in the
lines of an enum, and there no line goes on: whatever holds the end of a line is wider than any line.
-/

namespace EnumLookup.Source

open Layout (Doc Gap Mode Page)
open Phrase Pretty

variable {m : Marks} {G : List Char → Prop} {A : List Token → Prop} {ds : List Doc}

/-! ## Items -/

/-- No space stands at the end of documentation. -/
def Attr.IsTrimmed : Attr → Prop
  | .doc text => dropEndSpaces text = text
  | .list _ _ => True

/-- A line that the next line feed ends. -/
theorem Lays.line {s : String} {us : List Token} (h : LineLexes m s us) (offset : Int) :
    Lays m .consistent Anything Anything [.text s, lineEnd offset] (· = us) := by
  intro reach p ts hp
  have hline : Phrase m Anything (p.text ++ Page.blanks p.pending ++ s ++ "\n") (ts ++ us) := by
    rw [String.append_assoc]
    exact hp.continues.join h
  exact ⟨us, rfl, .newLine hline rfl⟩

/-- A comment with its mark, up to the line feed that ends it. -/
theorem Lays.comment {s t : String} {us : List Token} (h : LineLexes m (s ++ t) us) :
    Lays m .consistent Anything Anything [.text s, .text t, lineEnd 0] (· = us) := by
  intro reach p ts hp
  have hline : Phrase m Anything (p.text ++ Page.blanks p.pending ++ (s ++ t) ++ "\n")
      (ts ++ us) := by
    rw [String.append_assoc]
    exact hp.continues.join h
  refine ⟨us, rfl, .newLine hline ?_⟩
  have hnone : Page.blanks 0 = "" := rfl
  show p.text ++ Page.blanks p.pending ++ s ++ Page.blanks 0 ++ t ++ "\n" = _
  rw [hnone, String.append_empty]
  simp only [String.append_assoc]

theorem attr_laid {a : Attr} (h : a.IsWritten) (htrim : a.IsTrimmed) :
    Lays m .consistent Anything Anything (Pretty.attr a) a.Spells := by
  obtain ⟨ts, hts, hspells⟩ := attr_lexes (m := m) h
  cases a with
  | doc text =>
      rw [Pretty.attr, htrim]
      refine (Lays.comment hts).mono ?_
      rintro _ rfl
      exact hspells
  | list name args =>
      refine (Lays.line hts 0).mono ?_
      rintro _ rfl
      exact hspells

theorem attrs_laid {as : List Attr} (h : ∀ a ∈ as, a.IsWritten) (htrim : ∀ a ∈ as, a.IsTrimmed) :
    Lays m .consistent Anything Anything (as.flatMap Pretty.attr) (Sequence Attr.Spells as) := by
  induction as with
  | nil => exact .nil .nil
  | cons a as ih =>
      have hrest := ih (fun b hb => h b (List.mem_cons_of_mem _ hb))
        fun b hb => htrim b (List.mem_cons_of_mem _ hb)
      rw [List.flatMap_cons]
      refine ((attr_laid (h a List.mem_cons_self) (htrim a List.mem_cons_self)).join hrest).mono ?_
      rintro _ ⟨ts, us, hts, hus, rfl⟩
      exact .cons hts hus

/-- The tokens of a variant with the comma behind it. -/
def SpellsVariant (v : Variant) (ts : List Token) : Prop :=
  ∃ us, v.Spells us ∧ ts = us ++ [.mark .comma]

theorem tys_eq_map (ts : List Ty) : Pretty.tys ts = ts.map Pretty.ty := by
  induction ts with
  | nil => rfl
  | cons t ts ih => rw [Pretty.tys, ih, List.map_cons]

theorem variant_laid {v : Variant} (h : v.IsWritten) (htrim : ∀ a ∈ v.attrs, a.IsTrimmed) :
    Lays m .consistent Anything Anything (Pretty.variant v) (SpellsVariant v) := by
  have hfields := listed_laid (tys_laid (m := m) h.fields) step .consistent
  rw [tys_eq_map] at hfields
  have hcomma : Lays m .consistent PhraseEnd Anything [.text ","] (· = [.mark .comma]) :=
    .mark .comma rfl rfl (by decide)
  have hname : Lays m .consistent Anything PhraseEnd [.text v.name] (· = [.word v.name]) :=
    (Lays.word (plain_lexes h.name)).ofWord
  have hline := (attrs_laid h.attrs htrim).join ((hname.join hfields.parens).join hcomma.anywhere)
  have hdocs : Pretty.variant v = v.attrs.flatMap Pretty.attr ++ ([.text v.name] ++ ([.text "("] ++
      listed step (v.fields.map Pretty.ty) ++ [.text ")"]) ++ [.text ","]) := by
    simp [Pretty.variant]
  rw [hdocs]
  refine hline.mono ?_
  rintro _ ⟨as, _, has, ⟨_, _, ⟨_, _, rfl, ⟨ts, hts, rfl⟩, rfl⟩, rfl, rfl⟩, rfl⟩
  refine ⟨_, .mk has h.name.2 hts, ?_⟩
  simp

/-- Variants have lines of their own. -/
theorem variants_laid {vs : List Variant} (h : ∀ v ∈ vs, v.IsWritten)
    (htrim : ∀ v ∈ vs, ∀ a ∈ v.attrs, a.IsTrimmed) :
    Lays m .consistent Anything Anything (Pretty.lines (vs.map Pretty.variant))
      (Items Variant.Spells vs) := by
  induction vs with
  | nil => exact .nil .nil
  | cons v vs ih =>
      have hv := variant_laid (m := m) (h v List.mem_cons_self) (htrim v List.mem_cons_self)
      cases vs with
      | nil =>
          refine (hv.join (Lays.lineGap (-step)).anywhere).mono ?_
          rintro _ ⟨_, _, ⟨ts, hts, rfl⟩, rfl, rfl⟩
          rw [List.append_nil]
          exact .lastComma hts
      | cons w vs =>
          have hrest := ih (fun x hx => h x (List.mem_cons_of_mem _ hx))
            fun x hx => htrim x (List.mem_cons_of_mem _ hx)
          refine ((hv.join (Lays.lineGap 0).anywhere).join hrest).mono ?_
          rintro _ ⟨_, us, ⟨_, _, ⟨ts, hts, rfl⟩, rfl, rfl⟩, hus, rfl⟩
          have hitems := Items.cons hts hus
          simpa using hitems

/-- The methods of an implementation. -/
theorem methods_laid {fs fs' : List Function} (h : List.Forall₂ (Function.ReadsAs m) fs fs') :
    LaidOut m Anything (Sequence Function.SpellsMethod) (Pretty.methods fs) fs' := by
  intro mode
  induction h with
  | nil => exact .nil .nil
  | @cons f f' fs fs' hf hfs ih =>
      have hmethod : Lays m mode Anything Anything (Pretty.function f false).dropLast
          f'.SpellsMethod := by
        refine (function_laid hf false mode).mono ?_
        rintro _ ⟨us, hus, rfl⟩
        exact .mk hus
      cases hfs with
      | nil =>
          refine (hmethod.join (Lays.lineGap (-step)).anywhere).mono ?_
          rintro _ ⟨ts, _, hts, rfl, rfl⟩
          exact .cons hts .nil
      | cons hf' hfs =>
          refine ((hmethod.join (Lays.lineGap 0).anywhere).join ih).mono ?_
          rintro _ ⟨_, us, ⟨ts, _, hts, rfl, rfl⟩, hus, rfl⟩
          rw [List.append_nil]
          exact .cons hts hus

/-! ## The left edge -/

/-- At the left edge of a page that is broken everywhere, the documents are laid out as tokens of a
kind. -/
def LaysAtEdge (m : Marks) (G : List Char → Prop) (ds : List Doc) (A : List Token → Prop) : Prop :=
  ∀ (reach : Nat) (p : Page) (ts : List Token), p.AtEdge → Shows m Anything p ts →
    ∃ us, A us ∧ Shows m G (p.docs .consistent reach ds) (ts ++ us)

/-- The documents end with their line, so that what follows stands at the left edge again. -/
def EndsLine (ds : List Doc) : Prop := ∃ cs, ds = cs ++ [lineEnd 0]

namespace LaysAtEdge

variable {H : List Char → Prop} {es : List Doc} {B : List Token → Prop}

theorem of_lays (h : Lays m .consistent Anything G ds A) : LaysAtEdge m G ds A :=
  fun reach p ts _ hp => h reach p ts hp

theorem mono (h : LaysAtEdge m G ds A) (hab : ∀ us, A us → B us) : LaysAtEdge m G ds B := by
  intro reach p ts hedge hp
  obtain ⟨us, hus, hshows⟩ := h reach p ts hedge hp
  exact ⟨us, hab us hus, hshows⟩

theorem join (h : LaysAtEdge m G ds A) (h' : Lays m .consistent G H es B) :
    LaysAtEdge m H (ds ++ es) (Joined A B) :=
  fun reach p ts hedge hp => Shows.docs_append (h _ p ts hedge hp) fun us => h' reach _ us

theorem next (h : LaysAtEdge m Anything ds A) (hend : EndsLine ds) (h' : LaysAtEdge m G es B) :
    LaysAtEdge m G (ds ++ es) (Joined A B) := by
  intro reach p ts hedge hp
  obtain ⟨cs, rfl⟩ := hend
  exact Shows.docs_append (h _ p ts hedge hp) fun us => h' reach _ us (.lineEnd hedge.indent _ _)

/-- Each of several things, and what follows them. -/
theorem each {α β : Type} {f : α → List Doc} {spells : β → List Token → Prop} {xs : List α}
    {ys : List β} (h : List.Forall₂ (fun x y => LaysAtEdge m Anything (f x) (spells y)) xs ys)
    (hend : ∀ x, EndsLine (f x)) (hrest : LaysAtEdge m G es B) :
    LaysAtEdge m G (xs.flatMap f ++ es) (Joined (Sequence spells ys) B) := by
  induction h with
  | nil =>
      refine hrest.mono fun us hus => ?_
      exact ⟨[], us, .nil, hus, rfl⟩
  | @cons x y xs ys hx _ ih =>
      rw [List.flatMap_cons, List.append_assoc]
      refine (hx.next (hend x) ih).mono ?_
      rintro _ ⟨ts, _, hts, ⟨us, vs, hus, hvs, rfl⟩, rfl⟩
      exact ⟨ts ++ us, vs, .cons hts hus, hvs, (List.append_assoc ..).symm⟩

/-- A box that holds the end of a line is broken there. -/
theorem box (h : Lays m .consistent Anything G ds A) (hwide : Layout.unbounded ≤ Doc.widthAll ds)
    (offset : Int) : LaysAtEdge m G [.box true offset ds] A := by
  intro reach p ts hedge hp
  have hinner : Shows m Anything ({ p with indent := offset } : Page) ts :=
    ⟨hp.ends, hp.continues⟩
  obtain ⟨us, hus, hshows⟩ := h (Doc.reach reach []) _ ts hinner
  rw [Page.docs, Page.docs, hedge.doc_box hwide]
  exact ⟨us, hus, hshows.ends, hshows.continues⟩

end LaysAtEdge

theorem unbounded_le_lineEnd (cs ds : List Doc) (offset : Int) :
    Layout.unbounded ≤ Doc.widthAll (cs ++ lineEnd offset :: ds) := by
  rw [Layout.Doc.widthAll_append, Doc.widthAll, lineEnd, Doc.width]
  exact Nat.le_trans (Nat.le_add_right ..) (Nat.le_add_left ..)

/-! ## Files -/

theorem attrs_atEdge {as : List Attr} (h : ∀ a ∈ as, a.IsWritten) (htrim : ∀ a ∈ as, a.IsTrimmed)
    {es : List Doc} {B : List Token → Prop} (hrest : LaysAtEdge m G es B) :
    LaysAtEdge m G (as.flatMap Pretty.attr ++ es) (Joined (Sequence Attr.Spells as) B) := by
  refine .each (List.forall₂_same.mpr fun a ha => .of_lays (attr_laid (h a ha) (htrim a ha))) ?_ hrest
  intro a
  cases a with
  | doc text => exact ⟨[.text "///", .text (dropEndSpaces text)], rfl⟩
  | list name args => exact ⟨[.text (Attr.spell (.list name args))], rfl⟩

/-- The attributes of an item and of what stands in it. -/
def Item.allAttrs (i : Item) : List Attr :=
  i.attrs ++ match i.kind with
    | .enumeration _ vs => vs.flatMap Variant.attrs
    | _ => []

/-- The tokens of what an item declares, with its visibility. -/
def SpellsKind (isPublic : Bool) (k : ItemKind) (ts : List Token) : Prop :=
  ∃ us, k.Spells us ∧ ts = visibilityTokens isPublic ++ us

theorem kind_endsLine (isPublic : Bool) (k : ItemKind) : EndsLine (Pretty.itemKind isPublic k) := by
  cases k with
  | module name => exact ⟨[_, _, _, _], rfl⟩
  | use path => exact ⟨[_, _, _, _], rfl⟩
  | constant name type value => exact ⟨[_], rfl⟩
  | function f => exact ⟨[_, _], rfl⟩
  | enumeration name vs =>
      rw [Pretty.itemKind, braces]
      split
      · exact ⟨[_, _], rfl⟩
      · exact ⟨[_, _], rfl⟩
  | implementation interface target fs =>
      rw [Pretty.itemKind]
      split
      · exact ⟨[_, _], rfl⟩
      · exact ⟨[_, _], rfl⟩

/-- The end of a body in braces. -/
theorem Lays.bodyEnd : Lays m mode Anything Anything [.text "\x7d", lineEnd 0]
    (· = [.mark .closeBrace]) := by
  refine (Lays.closeBrace.anywhere.cons (Lays.lineGap 0).anywhere).mono ?_
  rintro _ ⟨_, _, rfl, rfl, rfl⟩
  rfl

theorem enum_atEdge {isPublic : Bool} {name : String} {vs : List Variant} (hname : IsPlain name)
    (hvs : ∀ v ∈ vs, v.IsWritten) (htrim : ∀ v ∈ vs, ∀ a ∈ v.attrs, a.IsTrimmed) :
    LaysAtEdge m Anything (Pretty.itemKind isPublic (.enumeration name vs))
      (SpellsKind isPublic (.enumeration name vs)) := by
  have henum : ∀ mode, Lays m mode Anything Anything [.text "enum "] (· = [.word "enum"]) :=
    fun _ => .keyword (w := "enum") (by decide)
  have hheader : ∀ mode, Lays m mode Anything Anything
      [.text (spellVisibility isPublic), .text "enum ", .text name, .text " "]
      (· = visibilityTokens isPublic ++ [.word "enum", .word name]) := by
    intro mode
    refine ((Lays.visibility isPublic).cons ((henum mode).cons
      ((Lays.word (plain_lexes hname)).ofWord.cons Lays.spaceText))).mono ?_
    rintro _ ⟨_, _, rfl, ⟨_, _, rfl, ⟨_, _, rfl, rfl, rfl⟩, rfl⟩, rfl⟩
    rfl
  rw [Pretty.itemKind, braces]
  split
  · rename_i hempty
    have hnil : vs = [] := by simpa using hempty
    have hbox : Lays m .consistent Anything Anything [.box true step _] _ := .anyBox fun mode =>
      (hheader mode).join Lays.openBrace.anywhere
    refine .of_lays ((hbox.cons Lays.bodyEnd).mono ?_)
    rintro _ ⟨_, _, ⟨_, _, rfl, rfl, rfl⟩, rfl, rfl⟩
    subst hnil
    refine ⟨_, .enumeration hname.2 .nil, ?_⟩
    simp
  · have hbox : LaysAtEdge m Anything [.box true step _] _ :=
      .box (((hheader _).join (Lays.openBrace.anywhere.cons (Lays.lineGap 0).anywhere)).join
        (variants_laid hvs htrim)) (by
          rw [List.append_cons, List.append_assoc]
          exact unbounded_le_lineEnd ..) step
    refine (hbox.join Lays.bodyEnd).mono ?_
    rintro _ ⟨_, _, ⟨_, us, ⟨_, _, rfl, ⟨_, _, rfl, rfl, rfl⟩, rfl⟩, hus, rfl⟩, rfl, rfl⟩
    refine ⟨_, .enumeration hname.2 hus, ?_⟩
    simp

theorem constant_laid {isPublic : Bool} {name : String} {t : Ty} {e e' : Expr} (hname : IsPlain name)
    (ht : t.IsWritten) (he : Expr.ReadsAs m .full e e') :
    Lays m mode Anything Anything (Pretty.itemKind isPublic (.constant name t e))
      (SpellsKind isPublic (.constant name t e')) := by
  have hconst : ∀ mode, Lays m mode Anything Anything [.text "const "] (· = [.word "const"]) :=
    fun _ => .keyword (w := "const") (by decide)
  have hcolon : ∀ mode, Lays m mode PhraseEnd Anything [.text ": "] (· = [.mark .colon]) :=
    fun _ => .closing (.markSpace .colon .nil) (by decide)
  have hassign : ∀ mode, Lays m mode PhraseEnd Anything [.text " = "] (· = [.mark .assign]) :=
    fun _ => .closing (.space (.markSpace .assign .nil)) (by decide)
  have hbox : Lays m mode Anything Anything [.box true 0 _] _ := .anyBox fun mode =>
    ((((Lays.visibility isPublic).cons ((hconst mode).cons ((Lays.word (plain_lexes hname)).ofWord.cons
      (hcolon mode)))).join (ty_laid ht mode).ofWord).join ((hassign mode).cons Lays.rigidGap)).join
      ((expr_laid he).expr mode) |>.join Lays.semicolon
  refine (hbox.cons (Lays.lineGap 0).anywhere).mono ?_
  rintro _ ⟨_, _, ⟨_, _, ⟨_, es, ⟨_, _, ⟨_, ts, ⟨_, _, rfl, ⟨_, _, rfl, ⟨_, _, rfl, rfl, rfl⟩, rfl⟩,
    rfl⟩, hts, rfl⟩, ⟨_, _, rfl, rfl, rfl⟩, rfl⟩, hes, rfl⟩, rfl, rfl⟩, rfl, rfl⟩
  refine ⟨_, .constant hname.2 hts hes, ?_⟩
  simp

/-- The header of an implementation. -/
theorem header_laid {interface target : Ty} (hi : interface.IsWritten) (ht : target.IsWritten) :
    Lays m mode Anything Anything
      [.box false (-step) ([.box true step [.text "impl"], .text " "] ++ Pretty.ty interface ++
        [Pretty.space, .text "for "] ++ Pretty.ty target), .text " "]
      (fun us => ∃ is ts, interface.Spells is ∧ target.Spells ts ∧
        us = .word "impl" :: is ++ .word "for" :: ts) := by
  have himpl : ∀ mode, Lays m mode Anything WordEnd [.text "impl"] (· = [.word "impl"]) :=
    fun _ => .word (Lexes.word (.plain (by decide)))
  have hbox : ∀ mode, Lays m mode Anything WordEnd [.box true step [.text "impl"]]
      (· = [.word "impl"]) := fun _ => .anyBox himpl
  have hfor : ∀ mode, Lays m mode Anything Anything [.text "for "] (· = [.word "for"]) :=
    fun _ => .keyword (w := "for") (by decide)
  have hheader : Lays m mode Anything PhraseEnd [.box false (-step) _] _ := .anyBox fun mode =>
    ((((hbox mode).ofWord.cons Lays.spaceText).join (ty_laid hi mode).ofWord).join
      (Lays.spaceGap.cons (hfor mode))).join (ty_laid ht mode).ofWord
  refine (hheader.cons Lays.spaceText).mono ?_
  rintro _ ⟨_, _, ⟨_, ts, ⟨_, _, ⟨_, is, ⟨_, _, rfl, rfl, rfl⟩, his, rfl⟩, ⟨_, _, rfl, rfl, rfl⟩, rfl⟩,
    hts, rfl⟩, rfl, rfl⟩
  refine ⟨is, ts, his, hts, ?_⟩
  simp

theorem implementation_laid {interface target : Ty} {fs fs' : List Function}
    (hi : interface.IsWritten) (ht : target.IsWritten)
    (hfs : List.Forall₂ (Function.ReadsAs m) fs fs') :
    Lays m mode Anything Anything (Pretty.itemKind false (.implementation interface target fs))
      (SpellsKind false (.implementation interface target fs')) := by
  have hheader : ∀ mode, Lays m mode Anything Anything _ _ := fun mode => header_laid hi ht
  rw [Pretty.itemKind]
  split
  · rename_i hempty
    have hnil : fs' = [] := by
      cases hfs with
      | nil => rfl
      | cons _ _ => cases hempty
    have hbox : Lays m mode Anything Anything [.box true step _] _ := .anyBox fun mode =>
      (hheader mode).join Lays.openBrace.anywhere
    refine (hbox.cons Lays.bodyEnd).mono ?_
    rintro _ ⟨_, _, ⟨_, _, ⟨is, ts, his, hts, rfl⟩, rfl, rfl⟩, rfl, rfl⟩
    subst hnil
    refine ⟨_, .implementation his hts .nil, ?_⟩
    simp [visibilityTokens]
  · have hbox : Lays m mode Anything Anything [.box true step _] _ := .anyBox fun mode =>
      ((hheader mode).join (Lays.openBrace.anywhere.cons (Lays.lineGap 0).anywhere)).join
        (methods_laid hfs mode)
    refine (hbox.cons Lays.bodyEnd).mono ?_
    rintro _ ⟨_, _, ⟨_, us, ⟨_, _, ⟨is, ts, his, hts, rfl⟩, ⟨_, _, rfl, rfl, rfl⟩, rfl⟩, hus, rfl⟩,
      rfl, rfl⟩
    refine ⟨_, .implementation his hts hus, ?_⟩
    simp [visibilityTokens]

theorem kind_laid {isPublic : Bool} {k k' : ItemKind} (h : k.ReadsAs m isPublic k')
    (htrim : ∀ a ∈ Item.allAttrs ⟨[], isPublic, k⟩, a.IsTrimmed) :
    LaysAtEdge m Anything (Pretty.itemKind isPublic k) (SpellsKind isPublic k') := by
  have hvisibility : Lays m .consistent _ _ _ _ := Lays.visibility isPublic
  have hgap : Lays m .consistent _ _ _ _ := Lays.lineGap 0
  have hline := hgap.anywhere (G := Anything)
  cases h with
  | module hname =>
      have hmod : Lays m .consistent Anything Anything [.text "mod "] (· = [.word "mod"]) :=
        .keyword (w := "mod") (by decide)
      refine .of_lays ((hvisibility.cons (hmod.cons ((Lays.word (plain_lexes hname)).ofWord.cons
        (Lays.semicolon.cons hline)))).mono ?_)
      rintro _ ⟨_, _, rfl, ⟨_, _, rfl, ⟨_, _, rfl, ⟨_, _, rfl, rfl, rfl⟩, rfl⟩, rfl⟩, rfl⟩
      exact ⟨_, .module hname.2, rfl⟩
  | use hp =>
      have huse : Lays m .consistent Anything Anything [.text "use "] (· = [.word "use"]) :=
        .keyword (w := "use") (by decide)
      refine .of_lays ((hvisibility.cons (huse.cons ((Lays.path hp).ofWord.cons
        (Lays.semicolon.cons hline)))).mono ?_)
      rintro _ ⟨_, _, rfl, ⟨_, _, rfl, ⟨_, _, rfl, ⟨_, _, rfl, rfl, rfl⟩, rfl⟩, rfl⟩, rfl⟩
      exact ⟨_, .use hp.1, rfl⟩
  | constant hname ht he => exact .of_lays (constant_laid hname ht he)
  | function hf =>
      refine .of_lays (((function_laid hf isPublic _).join hline).mono ?_)
      rintro _ ⟨_, _, ⟨us, hus, rfl⟩, rfl, rfl⟩
      exact ⟨_, .function hus, List.append_nil _⟩
  | enumeration hname hvs =>
      refine enum_atEdge hname hvs fun v hv a ha => htrim a ?_
      exact List.mem_append_right _ (List.mem_flatMap.mpr ⟨v, hv, ha⟩)
  | implementation hi ht hfs => exact .of_lays (implementation_laid hi ht hfs)

theorem item_laid {i i' : Item} (h : i.ReadsAs m i') (htrim : ∀ a ∈ i.allAttrs, a.IsTrimmed) :
    LaysAtEdge m Anything (Pretty.item i) i'.Spells := by
  cases h with
  | @mk attrs isPublic kind kind' hattrs hkind =>
      have hkind := kind_laid hkind fun a ha => htrim a (List.mem_append_right _ ha)
      refine (attrs_atEdge hattrs (fun a ha => htrim a (List.mem_append_left _ ha)) hkind).mono ?_
      rintro _ ⟨as, _, has, ⟨us, hus, rfl⟩, rfl⟩
      rw [← List.append_assoc]
      exact .mk isPublic has hus

theorem item_endsLine (i : Item) : EndsLine (Pretty.item i) := by
  obtain ⟨cs, hcs⟩ := kind_endsLine i.isPublic i.kind
  exact ⟨i.attrs.flatMap Pretty.attr ++ cs, by rw [Pretty.item, hcs, List.append_assoc]⟩

/-- No space stands at the end of any documentation of the file. -/
structure File.IsTrimmed (f : File) : Prop where
  docs : ∀ d ∈ f.docs, dropEndSpaces d = d
  attrs : ∀ i ∈ f.items, ∀ a ∈ i.allAttrs, a.IsTrimmed

/-- The token is a line of the documentation of a module. -/
def SpellsDoc (d : String) (ts : List Token) : Prop := ts = [.doc true d]

theorem doc_laid {d : String} (h : OneLine d.toList) (htrim : dropEndSpaces d = d) :
    LaysAtEdge m Anything [.text "//!", .text (dropEndSpaces d), lineEnd 0] (SpellsDoc d) := by
  rw [htrim]
  exact .of_lays (.comment (docLine_lexes h))

theorem sequence_docs {ds : List String} {ts : List Token} (h : Sequence SpellsDoc ds ts) :
    ts = ds.map (Token.doc true) := by
  induction h with
  | nil => rfl
  | cons hd _ ih => rw [hd, ih]; rfl

/-- The documents of a file, or nothing at all. -/
theorem file_wide (f : File) : f.docs = [] ∧ f.items = [] ∨ Layout.unbounded ≤ Doc.widthAll
    (f.docs.flatMap (fun d => [.text "//!", .text (dropEndSpaces d), lineEnd 0]) ++
      f.items.flatMap Pretty.item) := by
  obtain ⟨docs, items⟩ := f
  cases docs with
  | nil =>
      cases items with
      | nil => exact .inl ⟨rfl, rfl⟩
      | cons i is =>
          obtain ⟨cs, hcs⟩ := item_endsLine i
          right
          rw [List.flatMap_nil, List.nil_append, List.flatMap_cons, hcs, List.append_assoc]
          exact unbounded_le_lineEnd ..
  | cons d ds => exact .inr (unbounded_le_lineEnd [_, _] _ 0)

theorem items_laid {is is' : List Item} (h : List.Forall₂ (Item.ReadsAs m) is is')
    (htrim : ∀ i ∈ is, ∀ a ∈ i.allAttrs, a.IsTrimmed) :
    List.Forall₂ (fun i i' => LaysAtEdge m Anything (Pretty.item i) i'.Spells) is is' := by
  induction h with
  | nil => exact .nil
  | cons hi _ ih =>
      exact .cons (item_laid hi (htrim _ List.mem_cons_self))
        (ih fun j hj => htrim j (List.mem_cons_of_mem _ hj))

/-- A file in the layout for reading spells the file that is read from it. -/
theorem File.ReadsAs.pretty_spelt {f f' : File} (h : f.ReadsAs m f') (htrim : f.IsTrimmed) :
    Spelt m PhraseEnd File.Spells f.pretty f' := by
  have hwide := file_wide f
  have hedge : ({} : Page).AtEdge := ⟨rfl, Int.le_refl _⟩
  have hstart : Shows m Anything ({} : Page) [] := ⟨nil, nil⟩
  rw [File.pretty, Doc.render, Pretty.file, Page.docs, Page.docs]
  cases h with
  | @mk docs items items' hdocs hitems =>
      rcases hwide with ⟨rfl, rfl⟩ | hwide
      · cases hitems
        refine ⟨[], ?_, .mk .nil⟩
        rw [Page.doc]
        split
        · exact nil
        · exact nil
      · have hitems := LaysAtEdge.each (items_laid hitems htrim.attrs) item_endsLine
          (.of_lays (.nil (F := Anything) (A := (· = [])) rfl))
        have hfile := LaysAtEdge.each (List.forall₂_same.mpr fun d hd =>
          doc_laid (hdocs d hd) (htrim.docs d hd)) (fun d => ⟨[_, _], rfl⟩) hitems
        rw [List.append_nil] at hfile
        obtain ⟨_, ⟨ds, _, hds, ⟨ts, _, hts, rfl, rfl⟩, rfl⟩, hshows⟩ := hfile 0 _ _ hedge hstart
        rw [hedge.doc_box hwide]
        refine ⟨_, hshows.ends, ?_⟩
        rw [sequence_docs hds, List.append_nil]
        exact .mk hts

end EnumLookup.Source
