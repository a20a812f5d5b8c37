import EnumLookup.Proofs.Source.Paging

/-!
# Functions in the layout for reading

Wherever lines are broken, the layout for reading writes tokens that the grammar allows for what is
read there. A comma behind the last item of a list and the braces of an arm or a closure are all
that depends on the width of the page.
-/

namespace EnumLookup.Source

open Layout (Doc Gap Mode Page)
open Phrase Pretty

variable {m : Marks} {mode : Mode} {F G : List Char → Prop} {A : List Token → Prop} {ds : List Doc}

/-- Tokens of a kind between two marks. -/
def Enclosed (l r : Mark) (A : List Token → Prop) (ts : List Token) : Prop :=
  ∃ us, A us ∧ ts = .mark l :: us ++ [.mark r]

theorem Lays.enclosed (l r : Mark) {o c : String} (h : Lays m mode Anything PhraseEnd ds A)
    (ho : o.toList = l.chars) (hc : c.toList = r.chars) (hl : l.isClosed = true)
    (hr : r.isClosed = true) (hoff : startsOff o = true) (hend : startsOff c = true) :
    Lays m mode PhraseEnd Anything ([.text o] ++ ds ++ [.text c]) (Enclosed l r A) := by
  have hopen : Lays m mode PhraseEnd Anything [.text o] (· = [.mark l]) := .mark l ho hl hoff
  have hclose : Lays m mode PhraseEnd Anything [.text c] (· = [.mark r]) := .mark r hc hr hend
  refine ((hopen.join h).join hclose).mono ?_
  rintro _ ⟨_, _, ⟨_, us, rfl, hus, rfl⟩, rfl, rfl⟩
  exact ⟨us, hus, rfl⟩

theorem Lays.zeroGap : Lays m mode F F [Pretty.zero] (· = []) := .zero rfl rfl rfl

theorem Lays.rigidGap : Lays m mode F F [Pretty.rigid] (· = []) := .zero rfl rfl rfl

theorem Lays.spaceGap : Lays m mode PhraseEnd Anything [Pretty.space] (· = []) :=
  .space rfl rfl rfl (by decide)

theorem Lays.lineGap (offset : Int) :
    Lays m mode PhraseEnd Anything [Pretty.lineEnd offset] (· = []) :=
  .space rfl rfl rfl (by simp [Layout.unbounded])

theorem Lays.spaceText : Lays m mode PhraseEnd Anything [.text " "] (· = []) :=
  .closing (Lexes.space .nil) (by decide)

/-! ## Types -/

theorem Lays.path {p : Path} (h : IsPlainPath p) :
    Lays m mode Anything WordEnd [.text (spellPath p)] (· = pathTokens p) := .word h.lexes

theorem Lays.angles (h : Lays m mode Anything PhraseEnd ds A) :
    Lays m mode PhraseEnd Anything ([.text "<"] ++ ds ++ [.text ">"])
      (Enclosed .less .greater A) :=
  .enclosed .less .greater h rfl rfl rfl rfl (by decide) (by decide)

theorem Lays.brackets (h : Lays m mode Anything PhraseEnd ds A) :
    Lays m mode PhraseEnd Anything ([.text "["] ++ ds ++ [.text "]"])
      (Enclosed .openBracket .closeBracket A) :=
  .enclosed .openBracket .closeBracket h rfl rfl rfl rfl (by decide) (by decide)

theorem Lays.parens (h : Lays m mode Anything PhraseEnd ds A) :
    Lays m mode PhraseEnd Anything ([.text "("] ++ ds ++ [.text ")"])
      (Enclosed .openParen .closeParen A) :=
  .enclosed .openParen .closeParen h rfl rfl rfl rfl (by decide) (by decide)

/-- The token spells the lifetime. -/
def SpellsLifetime (l : String) (ts : List Token) : Prop := ts = [.lifetime l]

theorem lifetime_laid {l : String} (h : isName l.toList = true) :
    LaidOut m PhraseEnd SpellsLifetime [.text ("'" ++ l)] l :=
  fun _ => (Lays.word (lifetime_lexes h)).ofWord

theorem bound_laid {p : Path} {l : String} (hp : IsPlainPath p) (hl : isName l.toList = true) :
    LaidOut m WordEnd Ty.Spells (Pretty.ty (.named p [l] [])) (.named p [l] []) := by
  intro mode
  have hargs := listed_laid (.cons (lifetime_laid (m := m) hl) .nil) step mode
  have hdocs : Pretty.ty (.named p [l] []) = [.text (spellPath p)] ++
      ([.text "<"] ++ listed step [[.text ("'" ++ l)]] ++ [.text ">"]) := by
    rw [Pretty.ty, Pretty.tys] <;> simp
  rw [hdocs]
  refine ((Lays.path hp).ofWord.join hargs.angles).ofAnything.mono ?_
  rintro _ ⟨_, _, rfl, ⟨_, hitems, rfl⟩, rfl⟩
  cases hitems with
  | last h =>
      have hspells := Ty.Spells.bound (l := l) hp.1 .absent
      rw [h]
      simpa using hspells
  | lastComma h =>
      have hspells := Ty.Spells.bound (l := l) hp.1 .present
      rw [h]
      simpa using hspells

theorem generic_laid {p : Path} {t : Ty} {args : List Ty} (hp : IsPlainPath p)
    (hargs : List.Forall₂ (LaidOut m PhraseEnd Ty.Spells) (Pretty.tys (t :: args)) (t :: args)) :
    LaidOut m WordEnd Ty.Spells (Pretty.ty (.named p [] (t :: args))) (.named p [] (t :: args)) := by
  intro mode
  have hargs := listed_laid hargs step mode
  have hdocs : Pretty.ty (.named p [] (t :: args)) = [.text (spellPath p)] ++
      ([.text "<"] ++ listed step (Pretty.tys (t :: args)) ++ [.text ">"]) := by
    rw [Pretty.ty] <;> simp
  rw [hdocs]
  refine ((Lays.path hp).ofWord.join hargs.angles).ofAnything.mono ?_
  rintro _ ⟨_, _, rfl, ⟨ts, hts, rfl⟩, rfl⟩
  have hspells := Ty.Spells.generic hp.1 hts
  simpa using hspells

theorem reference_laid {l : Option String} {isMut : Bool} {t : Ty}
    (hl : ∀ x, l = some x → isName x.toList = true)
    (ht : LaidOut m WordEnd Ty.Spells (Pretty.ty t) t) :
    LaidOut m WordEnd Ty.Spells (Pretty.ty (.reference l isMut t)) (.reference l isMut t) := by
  intro mode
  have hamp : Lays m mode Anything Anything [.text "&"] (· = [.mark .amp]) :=
    .whole (.ofMark .amp rfl rfl)
  have hlifetime : Lays m mode Anything Anything
      ((l.map fun l => [.text ("'" ++ l), .text " "]).getD [])
      (· = (l.map Token.lifetime).toList) := by
    cases l with
    | none => exact .nil rfl
    | some l =>
        refine ((lifetime_laid (hl l rfl) mode).cons Lays.spaceText).mono ?_
        rintro _ ⟨_, _, rfl, rfl, rfl⟩
        rfl
  have hmut : Lays m mode Anything Anything (if isMut then [.text "mut "] else [])
      (· = if isMut then [Token.word "mut"] else []) := by
    cases isMut with
    | false => exact .nil rfl
    | true => exact .whole (keyword_lexes (w := "mut") (by decide))
  rw [Pretty.ty]
  refine (((hamp.join hlifetime).join hmut).join (ht mode)).mono ?_
  rintro _ ⟨_, ts, ⟨_, _, ⟨_, _, rfl, rfl, rfl⟩, rfl, rfl⟩, hts, rfl⟩
  have hspells : Ty.Spells (.reference l isMut _) _ := .reference hts
  simpa [referenceTokens] using hspells

mutual
theorem ty_laid : ∀ {t : Ty}, t.IsWritten → LaidOut m WordEnd Ty.Spells (Pretty.ty t) t
  | _, .plain hp => fun mode => by
      rw [Pretty.ty]
      refine (Lays.path hp).mono ?_
      rintro _ rfl
      exact .plain hp.1
  | _, .bound hp hl => bound_laid hp hl
  | _, .generic hp hargs => generic_laid hp (tys_laid hargs)
  | _, .reference hl ht => reference_laid hl (ty_laid ht)
  | _, .slice ht => fun mode => by
      rw [Pretty.ty]
      refine (ty_laid ht mode).ofWord.brackets.anywhere.ofAnything.mono ?_
      rintro _ ⟨ts, hts, rfl⟩
      exact .slice hts
  | _, @Ty.IsWritten.tuple t u items hitems => fun mode => by
      have hitems := listed_laid (tys_laid hitems) step mode
      have hdocs : Pretty.ty (.tuple (t :: u :: items)) =
          [.text "("] ++ listed step (Pretty.tys (t :: u :: items)) ++ [.text ")"] := by
        rw [Pretty.ty, Pretty.tys, Pretty.tys, tupled]
        simp
      rw [hdocs]
      refine hitems.parens.anywhere.ofAnything.mono ?_
      rintro _ ⟨ts, hts, rfl⟩
      exact .tuple hts

theorem tys_laid : ∀ {ts : List Ty}, Ty.AreWritten ts →
    List.Forall₂ (LaidOut m PhraseEnd Ty.Spells) (Pretty.tys ts) ts
  | _, .nil => .nil
  | _, .cons ht hts => .cons (fun mode => (ty_laid ht mode).ofWord) (tys_laid hts)
end

/-! ## Expressions -/

/-- Tokens of an expression, as it stands and in braces. -/
def MayBrace (A : List Token → Prop) (ts : List Token) : Prop :=
  A ts ∨ Enclosed .openBrace .closeBrace A ts

/-- A gap that writes nothing when its line goes on. -/
theorem Lays.fittingZero {g : Gap} (h : g.flat = "") : Lays m .fits F F [.gap g] (· = []) := by
  refine .fitting fun p ts hp => ⟨[], rfl, ?_⟩
  rw [List.append_nil]
  exact hp.stay h

/-- The gap that ends its line with an opening brace. -/
theorem Lays.openGap :
    Lays m .consistent PhraseEnd Anything [.gap { before := "\x7b" }] (· = [.mark .openBrace]) := by
  refine .breaking rfl fun p ts hp => ⟨_, rfl, ?_⟩
  have hmark : "\x7b".toList = Mark.openBrace.chars := rfl
  have hoff : startsOff "\x7b" = true := by decide
  exact hp.turnBefore hmark rfl hoff rfl

/-- A gap that starts the next line with a closing brace. -/
theorem Lays.closeGap {offset : Int} {flat : String} : Lays m .consistent PhraseEnd Anything
    [.gap { offset := offset, after := "\x7d", flat := flat }] (· = [.mark .closeBrace]) := by
  refine .breaking rfl fun p ts hp => ⟨_, rfl, ?_⟩
  have hmark : "\x7d".toList = Mark.closeBrace.chars := rfl
  have hne : "\x7d".isEmpty = false := by decide
  exact hp.turnAfter rfl hmark rfl hne

theorem Lays.braceBody (h : Lays m .consistent Anything PhraseEnd ds A) {offset : Int}
    {flat : String} : Lays m .consistent PhraseEnd Anything
      (.gap { before := "\x7b" } :: ds ++
        [.gap { offset := offset, after := "\x7d", flat := flat }])
      (Enclosed .openBrace .closeBrace A) := by
  refine ((Lays.openGap.cons h).join Lays.closeGap).mono ?_
  rintro _ ⟨_, _, ⟨_, us, rfl, hus, rfl⟩, rfl, rfl⟩
  exact ⟨us, hus, rfl⟩

/-- The body of a closure gets braces when it is broken. -/
theorem Lays.closureBox (h : ∀ mode, Lays m mode Anything PhraseEnd ds A) :
    Lays m mode Anything PhraseEnd [.box true step (.gap { before := "\x7b" } :: ds ++
      [.gap { offset := -step, after := "\x7d" }])] (MayBrace A) := by
  -- On one line the braces are gaps that write nothing.
  refine .box ?_ ((h _).braceBody.anywhere.ofAnything.mono fun _ => .inr)
  refine (((Lays.fittingZero rfl).cons (h _)).join (Lays.fittingZero rfl)).mono ?_
  rintro _ ⟨_, _, ⟨_, us, rfl, hus, rfl⟩, rfl, rfl⟩
  rw [List.append_nil]
  exact .inl hus

/-- The value of an arm has a comma behind it, or braces when it is broken. -/
theorem Lays.armBox (h : ∀ mode, Lays m mode Anything PhraseEnd ds A) :
    Lays m mode Anything Anything [.box true step (.gap { before := "\x7b" } :: ds ++
      [.gap { offset := -step, after := "\x7d", flat := "," }])]
      (fun ts => (∃ us, A us ∧ ts = us ++ [.mark .comma]) ∨ Enclosed .openBrace .closeBrace A ts) := by
  refine .box ?_ ((h _).braceBody.anywhere.mono fun _ => .inr)
  have hcomma : Lays m .fits PhraseEnd Anything
      [.gap { offset := -step, after := "\x7d", flat := "," }] (· = [.mark .comma]) := by
    refine .fitting fun p ts hp => ⟨_, rfl, ?_⟩
    have hmark : ",".toList = Mark.comma.chars := rfl
    have hoff : startsOff "," = true := by decide
    exact hp.stayBehind hmark rfl hoff
  refine (((Lays.fittingZero rfl).cons (h _)).join hcomma).mono ?_
  rintro _ ⟨_, _, ⟨_, us, rfl, hus, rfl⟩, rfl, rfl⟩
  exact .inl ⟨_, hus, rfl⟩

theorem callArgs_laid {es xs : List Expr}
    (h : List.Forall₂ (LaidOut m PhraseEnd (Expr.Spells .full)) (Pretty.exprs es) xs) :
    LaidOut m PhraseEnd (Items (Expr.Spells .full)) (Pretty.callArgs es) xs := by
  cases es with
  | nil => rw [Pretty.callArgs]; exact listed_laid h step; simp
  | cons e es =>
      cases es with
      | nil =>
          rw [Pretty.callArgs]
          split
          · rw [Pretty.exprs, Pretty.exprs] at h
            cases h with
            | cons he hnil =>
                cases hnil
                exact fun mode => (he mode).mono fun _ => .last
          · rw [Pretty.exprs, Pretty.exprs] at h
            exact listed_laid h step
      | cons e' es => rw [Pretty.callArgs]; exact listed_laid h step; simp

theorem call_laid {ds : List Doc} {f : Expr} {es xs : List Expr}
    (hf : LaidOut m WordEnd (Expr.Spells .chain) ds f)
    (h : List.Forall₂ (LaidOut m PhraseEnd (Expr.Spells .full)) (Pretty.exprs es) xs) :
    LaidOut m WordEnd (Expr.Spells .chain)
      (ds ++ [.text "("] ++ Pretty.callArgs es ++ [.text ")"]) (.call f xs) := by
  intro mode
  have hargs := (callArgs_laid h mode).parens
  rw [List.append_assoc, List.append_assoc]
  rw [List.append_assoc] at hargs
  refine ((hf mode).ofWord.join hargs).ofAnything.mono ?_
  rintro _ ⟨fs, _, hfs, ⟨ts, hts, rfl⟩, rfl⟩
  have hspells := Expr.Spells.call hfs hts
  simpa using hspells

theorem method_laid {ds : List Doc} {r : Expr} {name : String} {es xs : List Expr}
    (hr : LaidOut m WordEnd (Expr.Spells .chain) ds r) (hname : IsPlain name)
    (h : List.Forall₂ (LaidOut m PhraseEnd (Expr.Spells .full)) (Pretty.exprs es) xs) :
    LaidOut m WordEnd (Expr.Spells .chain) (ds ++ [Pretty.zero, .text ("." ++ name),
      .box true 0 ([.text "("] ++ Pretty.callArgs es ++ [.text ")"])]) (.method r name xs) := by
  intro mode
  have hdot : Phrase m Anything "." [.mark .dot] := .ofMark .dot rfl rfl
  have hword : Lays m mode WordEnd WordEnd [.text ("." ++ name)]
      (· = [.mark .dot] ++ [.word name]) := by
    refine .text (hdot.join (plain_lexes hname)) (fun rest _ => ?_) fun _ => PhraseEnd.wordEnd
    exact .of_startsApart (any_head?_append (by decide) _) rest
  have hargs : Lays m mode PhraseEnd Anything
      [.box true 0 ([.text "("] ++ Pretty.callArgs es ++ [.text ")"])]
      (Enclosed .openParen .closeParen (Items (Expr.Spells .full) xs)) :=
    .anyBox fun mode => (callArgs_laid h mode).parens
  refine ((hr mode).join (Lays.zeroGap.cons (hword.ofWord.cons hargs))).ofAnything.mono ?_
  rintro _ ⟨rs, _, hrs, ⟨_, _, rfl, ⟨_, _, rfl, ⟨us, hus, rfl⟩, rfl⟩, rfl⟩, rfl⟩
  have hspells := Expr.Spells.method hrs hname.2 hus
  simpa using hspells

theorem invoke_laid {name : String} {es xs : List Expr} (hname : IsPlain name)
    (h : List.Forall₂ (LaidOut m PhraseEnd (Expr.Spells .full)) (Pretty.exprs es) xs) :
    LaidOut m WordEnd (Expr.Spells .chain) (Pretty.expr (.invoke name es)) (.invoke name xs) := by
  intro mode
  have hargs := (listed_laid h step mode).parens
  have hbang : Phrase m Anything "!" [.mark .bang] := .ofMark .bang rfl rfl
  have hword : Lays m mode Anything Anything [.text (name ++ "!")]
      (· = [.word name] ++ [.mark .bang]) :=
    .whole ((plain_lexes hname).wordBefore hbang (by decide))
  rw [Pretty.expr]
  refine (hword.ofAnything.cons hargs).ofAnything.mono ?_
  rintro _ ⟨_, _, rfl, ⟨ts, hts, rfl⟩, rfl⟩
  exact .invoke hname.2 hts

theorem borrow_laid {e e' : Expr}
    (h : LaidOut m PhraseEnd (Expr.Spells .operand) (Pretty.expr e) e') :
    LaidOut m PhraseEnd (Expr.Spells .operand) (Pretty.expr (.borrow e)) (.borrow e') := by
  intro mode
  have hamp : Lays m mode Anything Anything [.text "&"] (· = [.mark .amp]) :=
    .whole (.ofMark .amp rfl rfl)
  rw [Pretty.expr]
  refine (hamp.join (h mode)).mono ?_
  rintro _ ⟨_, ts, rfl, hts, rfl⟩
  exact .borrow hts

theorem choose_laid {ds : List Doc} {e : Expr} {as xs : List (Expr × Expr)} {offset : Int}
    (he : LaidOut m PhraseEnd (Expr.Spells .full) ds e)
    (has : ∀ mode, Lays m mode Anything Anything (Pretty.armDocs as)
      (Arms (Expr.Spells .operand) (Expr.Spells .full) xs)) :
    LaidOut m PhraseEnd (Expr.Spells .operand)
      [.box false 0 ([.text "match ", .box true 0 (ds ++ [.text " "]), .text "\x7b",
        Pretty.rigid, .box true step (lineEnd offset :: Pretty.armDocs as), .text "\x7d"])]
      (.choose e xs) := by
  intro mode
  refine .anyBox fun mode => ?_
  have hmatch : Lays m mode Anything Anything [.text "match "] (· = [.word "match"]) :=
    .whole (keyword_lexes (w := "match") (by decide))
  have hsubject : Lays m mode Anything Anything [.box true 0 (ds ++ [.text " "])]
      (Joined (Expr.Spells .full e) (· = [])) := .anyBox fun mode => (he mode).join .spaceText
  have hopen : Lays m mode PhraseEnd Anything [.text "\x7b"] (· = [.mark .openBrace]) :=
    .mark .openBrace rfl rfl (by decide)
  have harms : Lays m mode Anything Anything [.box true step (lineEnd offset :: Pretty.armDocs as)]
      (Joined (· = []) (Arms (Expr.Spells .operand) (Expr.Spells .full) xs)) :=
    .anyBox fun mode => (Lays.lineGap offset).anywhere.cons (has mode)
  have hclose : Lays m mode PhraseEnd Anything [.text "\x7d"] (· = [.mark .closeBrace]) :=
    .mark .closeBrace rfl rfl (by decide)
  have hchoose := hmatch.cons (hsubject.cons (hopen.anywhere.cons (Lays.rigidGap.cons
    (harms.cons hclose.anywhere))))
  refine hchoose.ofAnything.mono ?_
  rintro _ ⟨_, _, rfl, ⟨_, _, ⟨ss, _, hss, rfl, rfl⟩, ⟨_, _, rfl, ⟨_, _, rfl,
    ⟨_, _, ⟨_, ts, rfl, hts, rfl⟩, rfl, rfl⟩, rfl⟩, rfl⟩, rfl⟩, rfl⟩
  have hspells := Expr.Spells.choose hss hts
  simpa using hspells

theorem arm_laid {ds es : List Doc} {p e : Expr} {as xs : List (Expr × Expr)} {offset : Int}
    (hp : LaidOut m PhraseEnd (Expr.Spells .operand) ds p)
    (he : LaidOut m PhraseEnd (Expr.Spells .full) es e)
    (has : Lays m mode Anything Anything (Pretty.armDocs as)
      (Arms (Expr.Spells .operand) (Expr.Spells .full) xs)) :
    Lays m mode Anything Anything
      ([.box false 0 (ds ++ [.text " =>", .text " ", Pretty.rigid,
        .box true step (.gap { before := "\x7b" } :: es ++
          [.gap { offset := -step, after := "\x7d", flat := "," }])]), lineEnd offset] ++
        Pretty.armDocs as)
      (Arms (Expr.Spells .operand) (Expr.Spells .full) ((p, e) :: xs)) := by
  have harrow : ∀ mode, Lays m mode PhraseEnd Anything [.text " =>"] (· = [.mark .fatArrow]) :=
    fun _ => .closing (.space (.mark .fatArrow rfl .nil)) (by decide)
  have harm : Lays m mode Anything Anything [.box false 0 _] _ := .anyBox fun mode =>
    (hp mode).join ((harrow mode).cons (Lays.spaceText.anywhere.cons
      (Lays.rigidGap.cons (Lays.armBox he))))
  refine ((harm.cons (Lays.lineGap offset).anywhere).join has).mono ?_
  rintro _ ⟨_, us, ⟨_, _, ⟨ps, _, hps, ⟨_, _, rfl, ⟨_, _, rfl, ⟨_, _, rfl, hbody, rfl⟩, rfl⟩, rfl⟩,
    rfl⟩, rfl, rfl⟩, hus, rfl⟩
  rcases hbody with ⟨ts, hts, rfl⟩ | ⟨ts, hts, rfl⟩
  · have hspells := Arms.bare hps hts hus
    simpa using hspells
  · have hspells := Arms.braced hps hts .absent hus
    simpa using hspells

theorem closure_laid {ds : List Doc} {param : String} {e : Expr} (hparam : IsPlain param)
    (h : ∀ mode, Lays m mode Anything PhraseEnd ds (MayBrace (Expr.Spells .full e))) :
    LaidOut m PhraseEnd (Expr.Spells .full)
      [.box false 0 ([.box true step [.text "|", Pretty.zero, .text param, .text "|",
        .gap { blanks := 1, offset := -step }], Pretty.rigid] ++ ds)] (.closure param e) := by
  intro mode
  refine .anyBox fun mode => ?_
  have hbar : ∀ mode, Lays m mode PhraseEnd Anything [.text "|"] (· = [.mark .bar]) :=
    fun _ => .mark .bar rfl rfl (by decide)
  have hspace : ∀ mode, Lays m mode Anything Anything [.gap { blanks := 1, offset := -step }]
      (· = []) := fun _ => .zero rfl rfl rfl
  have hhead : Lays m mode Anything Anything [.box true step _] _ := .anyBox fun mode =>
    (hbar mode).anywhere.cons (Lays.zeroGap.cons ((Lays.word (plain_lexes hparam)).ofWord.cons
      ((hbar mode).cons (hspace mode))))
  refine ((hhead.cons Lays.rigidGap).join (h mode)).mono ?_
  rintro _ ⟨_, _, ⟨_, _, ⟨_, _, rfl, ⟨_, _, rfl, ⟨_, _, rfl, ⟨_, _, rfl, rfl, rfl⟩, rfl⟩, rfl⟩, rfl⟩,
    rfl, rfl⟩, hbody, rfl⟩
  rcases hbody with hts | ⟨ts, hts, rfl⟩
  · exact .closure hparam.2 hts
  · exact .bracedClosure hparam.2 hts

theorem equal_laid {ds es : List Doc} {l r : Expr} (hl : LaidOut m PhraseEnd (Expr.Spells .operand) ds l)
    (hr : LaidOut m PhraseEnd (Expr.Spells .operand) es r) :
    LaidOut m PhraseEnd (Expr.Spells .full)
      [.box false step ([.box false (-step) ds, Pretty.space, .text "==", .text " "] ++ es)]
      (.equal l r) := by
  intro mode
  refine .anyBox fun mode => ?_
  have hequal : Lays m mode Anything Anything [.text "=="] (· = [.mark .equal]) :=
    .whole (.ofMark .equal rfl rfl)
  have hleft : Lays m mode Anything PhraseEnd [.box false (-step) ds] _ := .anyBox hl
  refine ((hleft.cons (Lays.spaceGap.cons (hequal.cons Lays.spaceText.anywhere))).join
    (hr mode)).mono ?_
  rintro _ ⟨_, rs, ⟨ls, _, hls, ⟨_, _, rfl, ⟨_, _, rfl, rfl, rfl⟩, rfl⟩, rfl⟩, hrs, rfl⟩
  have hspells := Expr.Spells.equal hls hrs
  simpa using hspells

/-- An expression is laid out on its own, and as the receiver of a method if it can be one. -/
structure ExprLaid (m : Marks) (l : Level) (e e' : Expr) : Prop where
  expr : LaidOut m l.follow (Expr.Spells l) (Pretty.expr e) e'
  chain : l = .chain → LaidOut m WordEnd (Expr.Spells .chain) (Pretty.chain e) e'

theorem ExprLaid.ofExpr {e e' : Expr} (h : LaidOut m WordEnd (Expr.Spells .chain) (Pretty.expr e) e')
    (hchain : Pretty.chain e = [.box true (-step) (Pretty.expr e)]) : ExprLaid m .chain e e' :=
  ⟨h, fun _ _ => hchain ▸ .anyBox h⟩

theorem ExprLaid.mono {l l' : Level} {e e' : Expr} (h : ExprLaid m l e e') (hl : l' ≠ .chain)
    (hspells : ∀ ts, Expr.Spells l e' ts → Expr.Spells l' e' ts) : ExprLaid m l' e e' := by
  refine ⟨fun mode => ((h.expr mode).weaken fun rest hrest => ?_).mono hspells,
    fun he => absurd he hl⟩
  refine Level.follow_of_phraseEnd ?_
  cases l' with
  | chain => exact absurd rfl hl
  | operand => exact hrest
  | full => exact hrest

mutual
theorem expr_laid : ∀ {l : Level} {e e' : Expr}, Expr.ReadsAs m l e e' → ExprLaid m l e e'
  | _, _, _, .text => by
      refine .ofExpr (fun mode => ?_) (by rw [Pretty.chain] <;> simp)
      rw [Pretty.expr]
      refine (Lays.word (Lexes.text _)).mono ?_
      rintro _ rfl
      exact .text
  | _, _, _, .path hp hq => by
      refine .ofExpr (fun mode => ?_) (by rw [Pretty.chain] <;> simp)
      rw [Pretty.expr]
      refine (Lays.word (path_lexes hp hq.1)).mono ?_
      rintro _ rfl
      exact .path hq
  | _, _, _, .call hf hargs => by
      have hf := expr_laid hf
      have hargs := exprs_laid hargs
      refine ⟨?_, fun _ => ?_⟩
      · rw [Pretty.expr]
        exact call_laid hf.expr hargs
      · rw [Pretty.chain]
        exact call_laid (hf.chain rfl) hargs
  | _, _, _, .method hr hname hargs => by
      have hmethod := method_laid ((expr_laid hr).chain rfl) hname (exprs_laid hargs)
      refine ⟨?_, fun _ => ?_⟩
      · rw [Pretty.expr]
        exact fun _ => .anyBox hmethod
      · rw [Pretty.chain]
        exact hmethod
  | _, _, _, .invoke hname hargs =>
      .ofExpr (invoke_laid hname (exprs_laid hargs)) (by rw [Pretty.chain] <;> simp)
  | _, _, _, .array hitems => by
      have hitems := listed_laid (exprs_laid hitems) step
      refine .ofExpr (fun mode => ?_) (by rw [Pretty.chain] <;> simp)
      rw [Pretty.expr]
      refine (hitems mode).brackets.anywhere.ofAnything.mono ?_
      rintro _ ⟨ts, hts, rfl⟩
      exact .array hts
  | _, _, _, .tuple hitems => by
      have hitems := exprs_laid hitems
      refine .ofExpr (fun mode => ?_) (by rw [Pretty.chain] <;> simp)
      rw [Pretty.expr]
      rw [Pretty.exprs, Pretty.exprs] at hitems ⊢
      rw [tupled]
      · refine (listed_laid hitems step mode).parens.anywhere.ofAnything.mono ?_
        rintro _ ⟨ts, hts, rfl⟩
        exact .tuple hts
      · simp
  | _, _, _, @Expr.ReadsAs.number _ v w => by
      refine ⟨fun mode => ?_, nofun⟩
      rw [Pretty.expr]
      refine (Lays.literal (Lexes.number v w)).mono ?_
      rintro _ rfl
      exact .number
  | _, _, _, .choose he harms => by
      refine ⟨?_, nofun⟩
      rw [Pretty.expr]
      exact choose_laid (expr_laid he).expr (arms_laid harms)
  | _, _, _, .ofChain h => (expr_laid h).mono (by decide) fun _ => .ofChain
  | _, _, _, .borrow h => ⟨borrow_laid (expr_laid h).expr, nofun⟩
  | _, _, _, .ofOperand h => (expr_laid h).mono (by decide) fun _ => .ofOperand
  | _, _, _, .closure hp h => by
      have h := (expr_laid h).expr
      refine ⟨?_, nofun⟩
      rw [Pretty.expr]
      refine closure_laid hp fun mode => ?_
      split
      · exact (h mode).mono fun _ => .inl
      · exact .closureBox h
  | _, _, _, .equal hl hr => by
      refine ⟨?_, nofun⟩
      rw [Pretty.expr]
      exact equal_laid (expr_laid hl).expr (expr_laid hr).expr

theorem exprs_laid : ∀ {es es' : List Expr}, Expr.ReadEachAs m es es' →
    List.Forall₂ (LaidOut m PhraseEnd (Expr.Spells .full)) (Pretty.exprs es) es'
  | _, _, .nil => by
      rw [Pretty.exprs]
      exact .nil
  | _, _, .cons he hes => by
      rw [Pretty.exprs]
      exact .cons (expr_laid he).expr (exprs_laid hes)

theorem arms_laid : ∀ {as as' : List (Expr × Expr)}, Expr.ReadArmsAs m as as' → ∀ mode,
    Lays m mode Anything Anything (Pretty.armDocs as)
      (Arms (Expr.Spells .operand) (Expr.Spells .full) as')
  | _, _, .nil, _ => by
      rw [Pretty.armDocs]
      exact .nil .nil
  | _, _, .cons hp he has, mode => by
      rw [Pretty.armDocs]
      exact arm_laid (expr_laid hp).expr (expr_laid he).expr (arms_laid has mode)
end

/-! ## Functions -/

theorem Lays.semicolon : Lays m mode PhraseEnd Anything [.text ";"] (· = [.mark .semicolon]) :=
  .mark .semicolon rfl rfl (by decide)

theorem Lays.openBrace : Lays m mode PhraseEnd Anything [.text "\x7b"] (· = [.mark .openBrace]) :=
  .mark .openBrace rfl rfl (by decide)

theorem Lays.closeBrace : Lays m mode PhraseEnd Anything [.text "\x7d"] (· = [.mark .closeBrace]) :=
  .mark .closeBrace rfl rfl (by decide)

theorem Lays.keyword {w : String} (hw : isName w.toList = true) :
    Lays m mode Anything Anything [.text (w ++ " ")] (· = [.word w]) := .whole (keyword_lexes hw)

theorem discard_laid {ds : List Doc} {e : Expr} (h : LaidOut m PhraseEnd (Expr.Spells .full) ds e) :
    LaidOut m Anything Stmt.Spells
      [.box false 0 ([.text "let ", .text "_", .text " = ", Pretty.rigid] ++ ds ++ [.text ";"])]
      (.discard e) := by
  intro mode
  refine .anyBox fun mode => ?_
  have hlet : Lays m mode Anything Anything [.text "let "] (· = [.word "let"]) :=
    .keyword (w := "let") (by decide)
  have hblank : Lays m mode Anything WordEnd [.text "_"] (· = [.word "_"]) :=
    .word (Lexes.word (.plain (by decide)))
  have hassign : Lays m mode PhraseEnd Anything [.text " = "] (· = [.mark .assign]) :=
    .closing (.space (.markSpace .assign .nil)) (by decide)
  refine (((hlet.cons (hblank.ofWord.cons (hassign.cons Lays.rigidGap))).join (h mode)).join
    Lays.semicolon).mono ?_
  rintro _ ⟨_, _, ⟨_, ts, ⟨_, _, rfl, ⟨_, _, rfl, ⟨_, _, rfl, rfl, rfl⟩, rfl⟩, rfl⟩, hts, rfl⟩, rfl,
    rfl⟩
  exact .discard hts

theorem returnIf_laid {cs ds : List Doc} {c e : Expr} {closing : Doc}
    (hclosing : ∀ mode, Lays m mode PhraseEnd Anything [closing] (· = []))
    (hc : LaidOut m PhraseEnd (Expr.Spells .full) cs c)
    (he : LaidOut m PhraseEnd (Expr.Spells .full) ds e) :
    LaidOut m Anything Stmt.Spells
      [.box false 0 [.box true step ([.text "if ", .box true (-step) (cs ++ [closing]),
        .text "\x7b", lineEnd 0, .box false 0 ([.text "return", .text " "] ++ ds ++ [.text ";"]),
        lineEnd (-step), .text "\x7d"])]] (.returnIf c e) := by
  intro mode
  refine .anyBox fun mode => .anyBox fun mode => ?_
  have hif : Lays m mode Anything Anything [.text "if "] (· = [.word "if"]) :=
    .keyword (w := "if") (by decide)
  have hcondition : Lays m mode Anything Anything [.box true (-step) (cs ++ [closing])] _ :=
    .anyBox fun mode => (hc mode).join (hclosing mode)
  have hreturn : ∀ mode, Lays m mode Anything WordEnd [.text "return"] (· = [.word "return"]) :=
    fun _ => .word (Lexes.word (.plain (by decide)))
  have hvalue : Lays m mode Anything Anything [.box false 0 _] _ := .anyBox fun mode =>
    (((hreturn mode).ofWord.cons Lays.spaceText).join (he mode)).join Lays.semicolon
  refine (hif.cons (hcondition.cons (Lays.openBrace.anywhere.cons ((Lays.lineGap 0).anywhere.cons
    (hvalue.cons ((Lays.lineGap (-step)).anywhere.cons Lays.closeBrace.anywhere)))))).mono ?_
  rintro _ ⟨_, _, rfl, ⟨_, _, ⟨cs, _, hcs, rfl, rfl⟩, ⟨_, _, rfl, ⟨_, _, rfl, ⟨_, _,
    ⟨_, _, ⟨_, ts, ⟨_, _, rfl, rfl, rfl⟩, hts, rfl⟩, rfl, rfl⟩, ⟨_, _, rfl, rfl, rfl⟩, rfl⟩, rfl⟩,
    rfl⟩, rfl⟩, rfl⟩
  have hspells := Stmt.Spells.returnIf hcs hts
  simpa using hspells

theorem stmt_laid {s s' : Stmt} (h : s.ReadsAs m s') :
    LaidOut m Anything Stmt.Spells (Pretty.stmt s) s' := by
  cases h with
  | discard he => exact discard_laid (expr_laid he).expr
  | returnIf hc he =>
      refine returnIf_laid (fun mode => ?_) (expr_laid hc).expr (expr_laid he).expr
      split
      · exact .spaceGap
      · exact .spaceText

theorem stmts_laid {ss ss' : List Stmt} (h : List.Forall₂ (Stmt.ReadsAs m) ss ss') :
    LaidOut m Anything (Sequence Stmt.Spells)
      (ss.flatMap fun s => Pretty.stmt s ++ [lineEnd 0]) ss' := by
  intro mode
  induction h with
  | nil => exact .nil .nil
  | cons hs _ ih =>
      rw [List.flatMap_cons]
      refine (((stmt_laid hs mode).join (Lays.lineGap 0).anywhere).join ih).mono ?_
      rintro _ ⟨_, us, ⟨ts, _, hts, rfl, rfl⟩, hus, rfl⟩
      rw [List.append_nil]
      exact .cons hts hus

theorem param_laid {p : Param} (h : p.IsWritten) :
    LaidOut m PhraseEnd Param.Spells (Pretty.param p) p := by
  intro mode
  cases h with
  | receiver =>
      obtain ⟨ts, hts, hspells⟩ := param_lexes (m := m) .receiver
      refine (Lays.literal hts).mono ?_
      rintro _ rfl
      exact hspells
  | typed hname ht =>
      have hcolon : Lays m mode PhraseEnd Anything [.text ": "] (· = [.mark .colon]) :=
        .closing (.markSpace .colon .nil) (by decide)
      refine (((Lays.word (plain_lexes hname)).ofWord.cons hcolon).join
        (ty_laid ht mode).ofWord).mono ?_
      rintro _ ⟨_, ts, ⟨_, _, rfl, rfl, rfl⟩, hts, rfl⟩
      exact .typed hname.2 hts

theorem params_laid {ps : List Param} (h : ∀ p ∈ ps, p.IsWritten) :
    List.Forall₂ (LaidOut m PhraseEnd Param.Spells) (ps.map Pretty.param) ps :=
  List.forall₂_map_left_iff.mpr (List.forall₂_same.mpr fun p hp => param_laid (h p hp))

def visibilityTokens (isPublic : Bool) : List Token := if isPublic then [.word "pub"] else []

theorem Lays.visibility (isPublic : Bool) : Lays m mode Anything Anything
    [.text (spellVisibility isPublic)] (· = visibilityTokens isPublic) :=
  .whole (visibility_lexes isPublic)

/-- The tokens of a function up to its opening brace. -/
def SpellsSignature (isPublic : Bool) (name : String) (params : List Param) (result : Ty)
    (ts : List Token) : Prop :=
  ∃ ps rs, Items Param.Spells params ps ∧ result.Spells rs ∧
    ts = visibilityTokens isPublic ++ .word "fn" :: .word name :: .mark .openParen :: ps ++
      .mark .closeParen :: .mark .arrow :: rs ++ [.mark .openBrace]

theorem signature_laid {name name' : String} {params : List Param} {result : Ty}
    (hname : WordReads m name name') (hparams : ∀ p ∈ params, p.IsWritten)
    (hresult : result.IsWritten) (isPublic : Bool) :
    Lays m mode Anything Anything
      ([.text (spellVisibility isPublic), .text "fn ", .text name, .text "(", Pretty.rigid] ++
        listed 0 (params.map Pretty.param) ++
        [.text ")", .box true (-step) (.text " -> " :: Pretty.ty result), .text " ",
          .text "\x7b", lineEnd 0])
      (SpellsSignature isPublic name' params result) := by
  have hfn : Lays m mode Anything Anything [.text "fn "] (· = [.word "fn"]) :=
    .keyword (w := "fn") (by decide)
  have hopen : Lays m mode PhraseEnd Anything [.text "("] (· = [.mark .openParen]) :=
    .mark .openParen rfl rfl (by decide)
  have hclose : Lays m mode PhraseEnd Anything [.text ")"] (· = [.mark .closeParen]) :=
    .mark .closeParen rfl rfl (by decide)
  have harrow : ∀ mode, Lays m mode Anything Anything [.text " -> "] (· = [.mark .arrow]) :=
    fun _ => .whole (.space (.mark .arrow rfl (.space .nil)))
  have hanswer : Lays m mode Anything PhraseEnd
      [.box true (-step) (.text " -> " :: Pretty.ty result)] _ :=
    .anyBox fun mode => (harrow mode).cons (ty_laid hresult mode).ofWord
  refine ((((Lays.visibility isPublic).cons (hfn.cons ((Lays.word hname).ofWord.cons
    (hopen.cons Lays.rigidGap)))).join (listed_laid (params_laid hparams) 0 mode)).join
    (hclose.cons (hanswer.cons (Lays.spaceText.cons (Lays.openBrace.anywhere.cons
      (Lays.lineGap 0).anywhere))))).mono ?_
  rintro _ ⟨_, _, ⟨_, ps, ⟨_, _, rfl, ⟨_, _, rfl, ⟨_, _, rfl, ⟨_, _, rfl, rfl, rfl⟩, rfl⟩, rfl⟩, rfl⟩,
    hps, rfl⟩, ⟨_, _, rfl, ⟨_, _, ⟨_, rs, rfl, hrs, rfl⟩, ⟨_, _, rfl, ⟨_, _, rfl, rfl, rfl⟩, rfl⟩, rfl⟩,
    rfl⟩, rfl⟩
  refine ⟨ps, rs, hps, hrs, ?_⟩
  simp

/-- The tokens of a function with its visibility and keyword. -/
def SpellsFunction (isPublic : Bool) (f : Function) (ts : List Token) : Prop :=
  ∃ us, f.Spells us ∧ ts = visibilityTokens isPublic ++ .word "fn" :: us

/-- A function up to its closing brace. -/
theorem function_laid {f f' : Function} (h : f.ReadsAs m f') (isPublic : Bool) :
    LaidOut m Anything (SpellsFunction isPublic) (Pretty.function f isPublic).dropLast f' := by
  intro mode
  cases h with
  | @mk name name' params result body body' value value' hname hid hparams hresult hbody hvalue =>
      have hvalue : ∀ mode, Lays m mode Anything PhraseEnd [.box false 0 (Pretty.expr value)]
          (Expr.Spells .full value') := fun _ => .anyBox (expr_laid hvalue).expr
      have hbox : Lays m mode Anything Anything [.box true step _] _ := .anyBox fun mode =>
        ((signature_laid hname hparams hresult isPublic).join (stmts_laid hbody mode)).join
          ((hvalue mode).cons (Lays.lineGap (-step)))
      refine (hbox.cons Lays.closeBrace.anywhere).mono ?_
      rintro _ ⟨_, _, ⟨_, _, ⟨_, ss, ⟨ps, rs, hps, hrs, rfl⟩, hss, rfl⟩, ⟨es, _, hes, rfl, rfl⟩, rfl⟩,
        rfl, rfl⟩
      refine ⟨_, .mk hid hps hrs hss hes, ?_⟩
      simp

end EnumLookup.Source
