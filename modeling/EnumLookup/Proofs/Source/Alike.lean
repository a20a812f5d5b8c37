import EnumLookup.Source.Grammar
import EnumLookup.Source.Spelling

/-!
# Spellings of the same syntax

A layout may put a comma behind the last item of a list and braces around the expression of an arm
or a closure. Without these, a type, an expression, an item or a file has one spelling, so any two
of its spellings differ in nothing else.
-/

namespace EnumLookup.Source

/-- The mark ends a list. -/
def Mark.closes : Mark → Bool
  | closeParen | closeBracket | closeBrace | greater => true
  | _ => false

/-- The second tokens are the first without some that are optional: commas behind the last items of
lists, and the braces around the expression of an arm, which leave a comma, or of a closure. -/
inductive Omits : List Token → List Token → Prop where
  | refl (ts : List Token) : Omits ts ts
  | append {ts ts' us us'} : Omits ts ts' → Omits us us' → Omits (ts ++ us) (ts' ++ us')
  | comma {x} : x.closes = true → Omits [.mark .comma, .mark x] [.mark x]
  | arm {e ts ts' comma} : Expr.Spells .full e ts → OptionalComma comma → Omits ts ts' →
      Omits (.mark .fatArrow :: .mark .openBrace :: ts ++ .mark .closeBrace :: comma)
        (.mark .fatArrow :: ts' ++ [.mark .comma])
  | closure {p e ts ts'} : isIdentifier p = true → Expr.Spells .full e ts → Omits ts ts' →
      Omits (.mark .bar :: .word p :: .mark .bar :: .mark .openBrace :: ts ++ [.mark .closeBrace])
        (.mark .bar :: .word p :: .mark .bar :: ts')

/-- The tokens are the same apart from optional ones. -/
def Alike (ts us : List Token) : Prop := ∃ vs, Omits ts vs ∧ Omits us vs

theorem Omits.cons {ts ts' : List Token} (t : Token) (h : Omits ts ts') : Omits (t :: ts) (t :: ts') :=
  .append (.refl [t]) h

theorem Omits.then {ts ts' : List Token} (h : Omits ts ts') (us : List Token) :
    Omits (ts ++ us) (ts' ++ us) := .append h (.refl us)

/-- Not a comma and not a brace. -/
def Token.isFixed : Token → Bool
  | .mark .comma | .mark .openBrace | .mark .closeBrace => false
  | _ => true

theorem Omits.filter_isFixed {ts us : List Token} (h : Omits ts us) :
    ts.filter Token.isFixed = us.filter Token.isFixed := by
  induction h with
  | refl ts => rfl
  | append _ _ ih ih' => rw [List.filter_append, List.filter_append, ih, ih']
  | comma _ => rfl
  | arm _ hcomma _ ih =>
      cases hcomma with
      | absent => simp [List.filter_cons, Token.isFixed, ih]
      | present => simp [List.filter_cons, Token.isFixed, ih]
  | closure _ _ _ ih => simp [List.filter_cons, Token.isFixed, ih]

/-- Everything but commas and braces stands in alike tokens in the same order. -/
theorem Alike.filter_isFixed {ts us : List Token} (h : Alike ts us) :
    ts.filter Token.isFixed = us.filter Token.isFixed := by
  obtain ⟨vs, hts, hus⟩ := h
  exact hts.filter_isFixed.trans hus.filter_isFixed.symm

/-! ## The shortest spelling -/

/-- Tokens with commas between them. -/
def separate (tss : List (List Token)) : List Token := [Token.mark .comma].intercalate tss

mutual
def Ty.tokens : Ty → List Token
  | .named path [] [] => pathTokens path
  | .named path lifetimes args =>
    pathTokens path ++ .mark .less ::
      separate (lifetimes.map (fun l => [.lifetime l]) ++ Ty.tokensEach args) ++ [.mark .greater]
  | .reference lifetime isMut target =>
    .mark .amp :: referenceTokens lifetime isMut ++ target.tokens
  | .slice item => .mark .openBracket :: item.tokens ++ [.mark .closeBracket]
  | .tuple items => .mark .openParen :: separate (Ty.tokensEach items) ++ [.mark .closeParen]

def Ty.tokensEach : List Ty → List (List Token)
  | [] => []
  | t :: ts => t.tokens :: Ty.tokensEach ts
end

mutual
def Expr.tokens : Expr → List Token
  | .text value => [.text value]
  | .number value suffix => numberTokens value suffix
  | .path p => pathTokens p
  | .call callee args =>
    callee.tokens ++ .mark .openParen :: separate (Expr.tokensEach args) ++ [.mark .closeParen]
  | .method receiver name args =>
    receiver.tokens ++ .mark .dot :: .word name :: .mark .openParen ::
      separate (Expr.tokensEach args) ++ [.mark .closeParen]
  | .invoke name args =>
    .word name :: .mark .bang :: .mark .openParen :: separate (Expr.tokensEach args) ++
      [.mark .closeParen]
  | .borrow target => .mark .amp :: target.tokens
  | .array items =>
    .mark .openBracket :: separate (Expr.tokensEach items) ++ [.mark .closeBracket]
  | .tuple items => .mark .openParen :: separate (Expr.tokensEach items) ++ [.mark .closeParen]
  | .closure param body => .mark .bar :: .word param :: .mark .bar :: body.tokens
  | .equal left right => left.tokens ++ .mark .equal :: right.tokens
  | .choose subject arms =>
    .word "match" :: subject.tokens ++ .mark .openBrace :: Expr.armTokens arms ++
      [.mark .closeBrace]

def Expr.tokensEach : List Expr → List (List Token)
  | [] => []
  | e :: es => e.tokens :: Expr.tokensEach es

def Expr.armTokens : List (Expr × Expr) → List Token
  | [] => []
  | (p, e) :: arms =>
    p.tokens ++ .mark .fatArrow :: e.tokens ++ .mark .comma :: Expr.armTokens arms
end

def Stmt.tokens : Stmt → List Token
  | .discard value =>
    .word "let" :: .word "_" :: .mark .assign :: value.tokens ++ [.mark .semicolon]
  | .returnIf condition value =>
    .word "if" :: condition.tokens ++ .mark .openBrace :: .word "return" :: value.tokens ++
      [.mark .semicolon, .mark .closeBrace]

def Param.tokens : Param → List Token
  | .receiver => [.mark .amp, .word "self"]
  | .typed name type => .word name :: .mark .colon :: type.tokens

/-- The tokens of a function behind its keyword. -/
def Function.tokens (f : Function) : List Token :=
  .word f.name :: .mark .openParen :: separate (f.params.map Param.tokens) ++
    .mark .closeParen :: .mark .arrow :: f.result.tokens ++
    .mark .openBrace :: f.body.flatMap Stmt.tokens ++ f.value.tokens ++ [.mark .closeBrace]

def Attr.tokens : Attr → List Token
  | .doc text => [.doc false text]
  | .list name args =>
    .mark .hash :: .mark .openBracket :: .word name :: .mark .openParen ::
      separate (args.map fun a => [.word a]) ++ [.mark .closeParen, .mark .closeBracket]

def Variant.tokens (v : Variant) : List Token :=
  v.attrs.flatMap Attr.tokens ++ .word v.name :: .mark .openParen ::
    separate (v.fields.map Ty.tokens) ++ [.mark .closeParen]

def ItemKind.tokens : ItemKind → List Token
  | .module name => [.word "mod", .word name, .mark .semicolon]
  | .use path => .word "use" :: pathTokens path ++ [.mark .semicolon]
  | .constant name type value =>
    .word "const" :: .word name :: .mark .colon :: type.tokens ++ .mark .assign :: value.tokens ++
      [.mark .semicolon]
  | .function f => .word "fn" :: f.tokens
  | .enumeration name variants =>
    .word "enum" :: .word name :: .mark .openBrace :: separate (variants.map Variant.tokens) ++
      [.mark .closeBrace]
  | .implementation interface target methods =>
    .word "impl" :: interface.tokens ++ .word "for" :: target.tokens ++
      .mark .openBrace :: methods.flatMap (fun f => .word "fn" :: f.tokens) ++ [.mark .closeBrace]

def Item.tokens (i : Item) : List Token :=
  i.attrs.flatMap Attr.tokens ++ (if i.isPublic then [.word "pub"] else []) ++ i.kind.tokens

def File.tokens (f : File) : List Token :=
  f.docs.map (Token.doc true) ++ f.items.flatMap Item.tokens

theorem Ty.tokensEach_eq_map (ts : List Ty) : Ty.tokensEach ts = ts.map Ty.tokens := by
  induction ts with
  | nil => rfl
  | cons t ts ih => rw [Ty.tokensEach, ih, List.map_cons]

/-! ## Spellings without what is optional -/

section Lists

variable {α : Type} {spells : α → List Token → Prop} {f : α → List Token} {xs : List α}
  {ts : List Token}

theorem Sequence.omits (h : Sequence spells xs ts) (hf : ∀ x us, spells x us → Omits us (f x)) :
    Omits ts (xs.flatMap f) := by
  induction h with
  | nil => exact .refl []
  | cons hx _ ih =>
      rw [List.flatMap_cons]
      exact .append (hf _ _ hx) ih

theorem separate_singleton (ts : List Token) : separate [ts] = ts := List.intercalate_singleton

theorem separate_cons_cons (ts us : List Token) (tss : List (List Token)) :
    separate (ts :: us :: tss) = ts ++ .mark .comma :: separate (us :: tss) := by
  rw [separate, List.intercalate_cons_cons, List.append_assoc]
  rfl

/-- A list with its closing mark loses the comma between them. -/
theorem Items.omits (h : Items spells xs ts) (hf : ∀ x us, spells x us → Omits us (f x)) {x : Mark}
    (hx : x.closes = true) : Omits (ts ++ [.mark x]) (separate (xs.map f) ++ [.mark x]) := by
  induction h with
  | nil => exact .refl _
  | last hy =>
      rw [List.map_singleton, separate_singleton]
      exact (hf _ _ hy).then _
  | lastComma hy =>
      rw [List.map_singleton, separate_singleton, List.append_assoc]
      exact .append (hf _ _ hy) (.comma hx)
  | cons hy _ ih =>
      rw [List.map_cons, List.map_cons, separate_cons_cons, List.append_assoc, List.append_assoc]
      exact .append (hf _ _ hy) (.cons _ ih)

end Lists

mutual
theorem ty_omits : ∀ {t : Ty} {ts : List Token}, t.Spells ts → Omits ts t.tokens
  | _, _, .plain _ => by
      rw [Ty.tokens]
      exact .refl _
  | _, _, @Ty.Spells.bound p l comma _ hcomma => by
      have hlist : Omits (.lifetime l :: comma ++ [.mark .greater])
          (separate [[.lifetime l]] ++ [.mark .greater]) := by
        rw [separate_singleton]
        cases hcomma with
        | absent => exact .refl _
        | present => exact .cons _ (.comma rfl)
      rw [Ty.tokens, Ty.tokensEach, List.append_assoc, List.append_assoc]
      · exact .append (.refl _) (hlist.cons _)
      · simp
  | _, _, @Ty.Spells.generic p t args ts _ hargs => by
      have h := (tys_omit hargs).omits (fun _ _ h => h) (x := .greater) rfl
      rw [Ty.tokens, Ty.tokensEach_eq_map, List.append_assoc, List.append_assoc]
      · exact .append (.refl _) (h.cons _)
      · simp
  | _, _, @Ty.Spells.reference l isMut t ts ht => by
      have h := Omits.append (.refl (.mark .amp :: referenceTokens l isMut)) (ty_omits ht)
      rwa [Ty.tokens]
  | _, _, .slice ht => by
      rw [Ty.tokens]
      exact ((ty_omits ht).cons _).then _
  | _, _, .tuple hitems => by
      have h := (tys_omit hitems).omits (fun _ _ h => h) (x := .closeParen) rfl
      rw [Ty.tokens, Ty.tokensEach_eq_map]
      exact h.cons _

theorem tys_omit : ∀ {ts : List Ty} {us : List Token}, Items Ty.Spells ts us →
    Items (fun t us => Omits us t.tokens) ts us
  | _, _, .nil => .nil
  | _, _, .last h => .last (ty_omits h)
  | _, _, .lastComma h => .lastComma (ty_omits h)
  | _, _, .cons h hs => .cons (ty_omits h) (tys_omit hs)
end

theorem Expr.tokensEach_eq_map (es : List Expr) : Expr.tokensEach es = es.map Expr.tokens := by
  induction es with
  | nil => rw [Expr.tokensEach, List.map_nil]
  | cons e es ih => rw [Expr.tokensEach, ih, List.map_cons]

mutual
theorem expr_omits : ∀ {l : Level} {e : Expr} {ts : List Token}, Expr.Spells l e ts →
    Omits ts e.tokens
  | _, _, _, .text => by
      rw [Expr.tokens]
      exact .refl _
  | _, _, _, .path _ => by
      rw [Expr.tokens]
      exact .refl _
  | _, _, _, .call hf hargs => by
      have h := (exprs_omit hargs).omits (fun _ _ h => h) (x := .closeParen) rfl
      rw [Expr.tokens, Expr.tokensEach_eq_map, List.append_assoc, List.append_assoc]
      exact .append (expr_omits hf) (h.cons _)
  | _, _, _, .method hr _ hargs => by
      have h := (exprs_omit hargs).omits (fun _ _ h => h) (x := .closeParen) rfl
      rw [Expr.tokens, Expr.tokensEach_eq_map, List.append_assoc, List.append_assoc]
      exact .append (expr_omits hr) (((h.cons _).cons _).cons _)
  | _, _, _, .invoke _ hargs => by
      have h := (exprs_omit hargs).omits (fun _ _ h => h) (x := .closeParen) rfl
      rw [Expr.tokens, Expr.tokensEach_eq_map]
      exact ((h.cons _).cons _).cons _
  | _, _, _, .array hitems => by
      have h := (exprs_omit hitems).omits (fun _ _ h => h) (x := .closeBracket) rfl
      rw [Expr.tokens, Expr.tokensEach_eq_map]
      exact h.cons _
  | _, _, _, .tuple hitems => by
      have h := (exprs_omit hitems).omits (fun _ _ h => h) (x := .closeParen) rfl
      rw [Expr.tokens, Expr.tokensEach_eq_map]
      exact h.cons _
  | _, _, _, .number => by
      rw [Expr.tokens]
      exact .refl _
  | _, _, _, .choose he harms => by
      rw [Expr.tokens, List.append_assoc, List.append_assoc]
      exact .cons _ (.append (expr_omits he) ((arms_omit harms).then _ |>.cons _))
  | _, _, _, .ofChain h => expr_omits h
  | _, _, _, .borrow h => by
      rw [Expr.tokens]
      exact (expr_omits h).cons _
  | _, _, _, .ofOperand h => expr_omits h
  | _, _, _, .closure _ h => by
      rw [Expr.tokens]
      exact (((expr_omits h).cons _).cons _).cons _
  | _, _, _, .bracedClosure hp h => by
      rw [Expr.tokens]
      exact .closure hp h (expr_omits h)
  | _, _, _, .equal hl hr => by
      rw [Expr.tokens]
      exact .append (expr_omits hl) ((expr_omits hr).cons _)

theorem exprs_omit : ∀ {es : List Expr} {us : List Token}, Items (Expr.Spells .full) es us →
    Items (fun e us => Omits us e.tokens) es us
  | _, _, .nil => .nil
  | _, _, .last h => .last (expr_omits h)
  | _, _, .lastComma h => .lastComma (expr_omits h)
  | _, _, .cons h hs => .cons (expr_omits h) (exprs_omit hs)

theorem arms_omit : ∀ {as : List (Expr × Expr)} {us : List Token},
    Arms (Expr.Spells .operand) (Expr.Spells .full) as us → Omits us (Expr.armTokens as)
  | _, _, .nil => by
      rw [Expr.armTokens]
      exact .refl _
  | _, _, .bare hp he has => by
      rw [Expr.armTokens, List.append_assoc, List.append_assoc]
      exact .append (expr_omits hp)
        ((Omits.append (expr_omits he) ((arms_omit has).cons _)).cons _)
  | _, _, .braced hp he hcomma has => by
      have harm := (Omits.arm he hcomma (expr_omits he)).append (arms_omit has)
      rw [Expr.armTokens]
      simpa using Omits.append (expr_omits hp) harm
end

theorem stmt_omits {s : Stmt} {ts : List Token} (h : s.Spells ts) : Omits ts s.tokens := by
  cases h with
  | discard he => exact (((expr_omits he).then _).cons _).cons _ |>.cons _
  | returnIf hc he =>
      rw [Stmt.tokens, List.append_assoc, List.append_assoc]
      exact .cons _ (.append (expr_omits hc) ((((expr_omits he).then _).cons _).cons _))

theorem param_omits {p : Param} {ts : List Token} (h : p.Spells ts) : Omits ts p.tokens := by
  cases h with
  | receiver => exact .refl _
  | typed _ ht => exact ((ty_omits ht).cons _).cons _

theorem function_omits {f : Function} {ts : List Token} (h : f.Spells ts) : Omits ts f.tokens := by
  cases h with
  | mk _ hparams hresult hbody hvalue =>
      have hparams := hparams.omits (fun _ _ => param_omits) (x := .closeParen) rfl
      have hbody := hbody.omits fun _ _ => stmt_omits
      have h := ((hparams.append ((ty_omits hresult).cons (.mark .arrow))).append
        (hbody.cons (.mark .openBrace))).append ((expr_omits hvalue).then [.mark .closeBrace])
      rw [Function.tokens]
      simpa using (h.cons (.mark .openParen)).cons _

theorem attr_omits {a : Attr} {ts : List Token} (h : a.Spells ts) : Omits ts a.tokens := by
  cases h with
  | doc => exact .refl _
  | list _ hargs =>
      have hname : ∀ w ts, SpellsName w ts → Omits ts [.word w] := by
        rintro _ _ ⟨_⟩
        exact .refl _
      have hargs := (hargs.omits hname (x := .closeParen) rfl).then [.mark .closeBracket]
      rw [Attr.tokens]
      simpa using (((hargs.cons (.mark .openParen)).cons (.word _)).cons (.mark .openBracket)).cons _

theorem variant_omits {v : Variant} {ts : List Token} (h : v.Spells ts) : Omits ts v.tokens := by
  cases h with
  | mk hattrs _ hfields =>
      have hattrs := hattrs.omits fun _ _ => attr_omits
      have hfields := hfields.omits (fun _ _ => ty_omits) (x := .closeParen) rfl
      rw [Variant.tokens, List.append_assoc, List.append_assoc]
      exact .append hattrs ((hfields.cons _).cons _)

theorem kind_omits {k : ItemKind} {ts : List Token} (h : k.Spells ts) : Omits ts k.tokens := by
  cases h with
  | module _ => exact .refl _
  | use _ => exact .refl _
  | constant _ ht he =>
      have h := (ty_omits ht).append (((expr_omits he).then [.mark .semicolon]).cons (.mark .assign))
      rw [ItemKind.tokens]
      simpa using ((h.cons (.mark .colon)).cons (.word _)).cons (.word "const")
  | function hf => exact (function_omits hf).cons _
  | enumeration _ hvs =>
      have hvs := hvs.omits (fun _ _ => variant_omits) (x := .closeBrace) rfl
      exact ((hvs.cons _).cons _).cons _
  | implementation hi ht hfs =>
      have hmethod : ∀ f ts, Function.SpellsMethod f ts → Omits ts (.word "fn" :: f.tokens) := by
        rintro _ _ ⟨hf⟩
        exact (function_omits hf).cons _
      have hfs := (hfs.omits hmethod).then [.mark .closeBrace]
      have h := ((ty_omits hi).append ((ty_omits ht).cons (.word "for"))).append
        (hfs.cons (.mark .openBrace))
      rw [ItemKind.tokens]
      simpa using h.cons (.word "impl")

theorem item_omits {i : Item} {ts : List Token} (h : i.Spells ts) : Omits ts i.tokens := by
  cases h with
  | mk isPublic hattrs hkind =>
      have hattrs := hattrs.omits fun _ _ => attr_omits
      exact .append (.append hattrs (.refl _)) (kind_omits hkind)

/-- What spells a file is its shortest spelling, but for what is optional. -/
theorem file_omits {f : File} {ts : List Token} (h : f.Spells ts) : Omits ts f.tokens := by
  cases h with
  | mk hitems => exact .append (.refl _) (hitems.omits fun _ _ => item_omits)

/-- Two spellings of a file are the same, but for what is optional. -/
theorem File.Spells.alike {f : File} {ts us : List Token} (h : f.Spells ts) (h' : f.Spells us) :
    Alike ts us := ⟨f.tokens, file_omits h, file_omits h'⟩

end EnumLookup.Source
