import EnumLookup.Source.Syntax

/-!
# The grammar of generated code

Which tokens spell a type, an expression, an item or a file, as relations that know nothing of how
they are read. Layouts may differ where the grammar leaves a choice: a comma may stand behind the
last item of a list, and the arm of a choice or the body of a closure may stand in braces.
-/

namespace EnumLookup.Source

/-- The keywords that may stand in a path. -/
def pathKeywords : List String := ["self", "Self", "super", "crate"]

/-- The word may stand in a path. -/
def isSegment (w : String) : Bool := isIdentifier w || pathKeywords.contains w

def pathTokens : Path → List Token
  | [] => []
  | s :: p => .word s :: p.flatMap fun t => [.mark .pathSep, .word t]

/-- The words make up a path. -/
def IsPath (p : Path) : Prop := p ≠ [] ∧ ∀ s ∈ p, isSegment s = true

/-- The tokens of things that follow each other. -/
inductive Sequence {α : Type} (spells : α → List Token → Prop) : List α → List Token → Prop where
  | nil : Sequence spells [] []
  | cons {x xs ts us} : spells x ts → Sequence spells xs us → Sequence spells (x :: xs) (ts ++ us)

/-- The tokens of things with commas between them, with or without a comma behind the last one. -/
inductive Items {α : Type} (spells : α → List Token → Prop) : List α → List Token → Prop where
  | nil : Items spells [] []
  | last {x ts} : spells x ts → Items spells [x] ts
  | lastComma {x ts} : spells x ts → Items spells [x] (ts ++ [.mark .comma])
  | cons {x y xs ts us} : spells x ts → Items spells (y :: xs) us →
      Items spells (x :: y :: xs) (ts ++ .mark .comma :: us)

inductive OptionalComma : List Token → Prop where
  | absent : OptionalComma []
  | present : OptionalComma [.mark .comma]

/-! ## Types -/

/-- What stands between the mark of a reference and its target. -/
def referenceTokens (lifetime : Option String) (isMut : Bool) : List Token :=
  (lifetime.map Token.lifetime).toList ++ if isMut then [.word "mut"] else []

inductive Ty.Spells : Ty → List Token → Prop where
  | plain {p} : IsPath p → Ty.Spells (.named p [] []) (pathTokens p)
  | bound {p l comma} : IsPath p → OptionalComma comma →
      Ty.Spells (.named p [l] [])
        (pathTokens p ++ .mark .less :: .lifetime l :: comma ++ [.mark .greater])
  | generic {p t args ts} : IsPath p → Items Ty.Spells (t :: args) ts →
      Ty.Spells (.named p [] (t :: args)) (pathTokens p ++ .mark .less :: ts ++ [.mark .greater])
  | reference {l isMut t ts} : Ty.Spells t ts →
      Ty.Spells (.reference l isMut t) (.mark .amp :: referenceTokens l isMut ++ ts)
  | slice {t ts} : Ty.Spells t ts →
      Ty.Spells (.slice t) (.mark .openBracket :: ts ++ [.mark .closeBracket])
  | tuple {t u items ts} : Items Ty.Spells (t :: u :: items) ts →
      Ty.Spells (.tuple (t :: u :: items)) (.mark .openParen :: ts ++ [.mark .closeParen])

/-! ## Expressions -/

/-- How closely an expression holds together: like something that a call may follow, like an operand
of a comparison, or not at all. -/
inductive Level where
  | chain | operand | full
  deriving DecidableEq, Repr

def numberTokens (value : Int) (suffix : Option Width) : List Token :=
  match value with
  | .ofNat n => [.number n suffix]
  | .negSucc n => [.mark .minus, .number (n + 1) suffix]

/-- The tokens of the arms of a choice. A value without braces has a comma behind it. -/
inductive Arms (pattern value : Expr → List Token → Prop) :
    List (Expr × Expr) → List Token → Prop where
  | nil : Arms pattern value [] []
  | bare {p e arms ps ts us} : pattern p ps → value e ts → Arms pattern value arms us →
      Arms pattern value ((p, e) :: arms)
        (ps ++ .mark .fatArrow :: ts ++ .mark .comma :: us)
  | braced {p e arms ps ts comma us} : pattern p ps → value e ts → OptionalComma comma →
      Arms pattern value arms us →
      Arms pattern value ((p, e) :: arms)
        (ps ++ .mark .fatArrow :: .mark .openBrace :: ts ++ .mark .closeBrace :: comma ++ us)

inductive Expr.Spells : Level → Expr → List Token → Prop where
  | text {s} : Expr.Spells .chain (.text s) [.text s]
  | path {p} : IsPath p → Expr.Spells .chain (.path p) (pathTokens p)
  | call {f args fs ts} : Expr.Spells .chain f fs → Items (Expr.Spells .full) args ts →
      Expr.Spells .chain (.call f args) (fs ++ .mark .openParen :: ts ++ [.mark .closeParen])
  | method {r name args rs ts} : Expr.Spells .chain r rs → isIdentifier name = true →
      Items (Expr.Spells .full) args ts →
      Expr.Spells .chain (.method r name args)
        (rs ++ .mark .dot :: .word name :: .mark .openParen :: ts ++ [.mark .closeParen])
  | invoke {name args ts} : isIdentifier name = true → Items (Expr.Spells .full) args ts →
      Expr.Spells .chain (.invoke name args)
        (.word name :: .mark .bang :: .mark .openParen :: ts ++ [.mark .closeParen])
  | array {items ts} : Items (Expr.Spells .full) items ts →
      Expr.Spells .chain (.array items) (.mark .openBracket :: ts ++ [.mark .closeBracket])
  | tuple {x y items ts} : Items (Expr.Spells .full) (x :: y :: items) ts →
      Expr.Spells .chain (.tuple (x :: y :: items)) (.mark .openParen :: ts ++ [.mark .closeParen])
  | number {v w} : Expr.Spells .operand (.number v w) (numberTokens v w)
  | choose {e arms ss ts} : Expr.Spells .full e ss →
      Arms (Expr.Spells .operand) (Expr.Spells .full) arms ts →
      Expr.Spells .operand (.choose e arms)
        (.word "match" :: ss ++ .mark .openBrace :: ts ++ [.mark .closeBrace])
  | ofChain {e ts} : Expr.Spells .chain e ts → Expr.Spells .operand e ts
  | borrow {e ts} : Expr.Spells .operand e ts → Expr.Spells .operand (.borrow e) (.mark .amp :: ts)
  | ofOperand {e ts} : Expr.Spells .operand e ts → Expr.Spells .full e ts
  | closure {p e ts} : isIdentifier p = true → Expr.Spells .full e ts →
      Expr.Spells .full (.closure p e) (.mark .bar :: .word p :: .mark .bar :: ts)
  | bracedClosure {p e ts} : isIdentifier p = true → Expr.Spells .full e ts →
      Expr.Spells .full (.closure p e)
        (.mark .bar :: .word p :: .mark .bar :: .mark .openBrace :: ts ++ [.mark .closeBrace])
  | equal {l r ls rs} : Expr.Spells .operand l ls → Expr.Spells .operand r rs →
      Expr.Spells .full (.equal l r) (ls ++ .mark .equal :: rs)

/-! ## Functions -/

inductive Stmt.Spells : Stmt → List Token → Prop where
  | discard {e ts} : Expr.Spells .full e ts →
      Stmt.Spells (.discard e)
        (.word "let" :: .word "_" :: .mark .assign :: ts ++ [.mark .semicolon])
  | returnIf {c e cs ts} : Expr.Spells .full c cs → Expr.Spells .full e ts →
      Stmt.Spells (.returnIf c e)
        (.word "if" :: cs ++ .mark .openBrace :: .word "return" :: ts ++
          [.mark .semicolon, .mark .closeBrace])

inductive Param.Spells : Param → List Token → Prop where
  | receiver : Param.Spells .receiver [.mark .amp, .word "self"]
  | typed {name t ts} : isIdentifier name = true → t.Spells ts →
      Param.Spells (.typed name t) (.word name :: .mark .colon :: ts)

/-- The tokens, behind the keyword, spell the function. -/
inductive Function.Spells : Function → List Token → Prop where
  | mk {name params result body value ps rs ss es} : isIdentifier name = true →
      Items Param.Spells params ps → result.Spells rs → Sequence Stmt.Spells body ss →
      Expr.Spells .full value es →
      Function.Spells ⟨name, params, result, body, value⟩
        (.word name :: .mark .openParen :: ps ++ .mark .closeParen :: .mark .arrow :: rs ++
          .mark .openBrace :: ss ++ es ++ [.mark .closeBrace])

/-! ## Items -/

/-- The token spells the identifier. -/
inductive SpellsName : String → List Token → Prop where
  | mk {w} : isIdentifier w = true → SpellsName w [.word w]

inductive Attr.Spells : Attr → List Token → Prop where
  | doc {t} : Attr.Spells (.doc t) [.doc false t]
  | list {name args ts} : isIdentifier name = true → Items SpellsName args ts →
      Attr.Spells (.list name args)
        (.mark .hash :: .mark .openBracket :: .word name :: .mark .openParen :: ts ++
          [.mark .closeParen, .mark .closeBracket])

inductive Variant.Spells : Variant → List Token → Prop where
  | mk {attrs name fields as ts} : Sequence Attr.Spells attrs as → isIdentifier name = true →
      Items Ty.Spells fields ts →
      Variant.Spells ⟨attrs, name, fields⟩
        (as ++ .word name :: .mark .openParen :: ts ++ [.mark .closeParen])

/-- The tokens of a method are those of a function behind its keyword. -/
inductive Function.SpellsMethod : Function → List Token → Prop where
  | mk {f ts} : f.Spells ts → Function.SpellsMethod f (.word "fn" :: ts)

/-- The tokens spell what an item declares. -/
inductive ItemKind.Spells : ItemKind → List Token → Prop where
  | module {name} : isIdentifier name = true →
      ItemKind.Spells (.module name) [.word "mod", .word name, .mark .semicolon]
  | use {p} : IsPath p →
      ItemKind.Spells (.use p) (.word "use" :: pathTokens p ++ [.mark .semicolon])
  | constant {name t e ts es} : isIdentifier name = true → t.Spells ts → Expr.Spells .full e es →
      ItemKind.Spells (.constant name t e)
        (.word "const" :: .word name :: .mark .colon :: ts ++ .mark .assign :: es ++
          [.mark .semicolon])
  | function {f ts} : f.Spells ts → ItemKind.Spells (.function f) (.word "fn" :: ts)
  | enumeration {name vs ts} : isIdentifier name = true → Items Variant.Spells vs ts →
      ItemKind.Spells (.enumeration name vs)
        (.word "enum" :: .word name :: .mark .openBrace :: ts ++ [.mark .closeBrace])
  | implementation {interface target fs is ts us} : interface.Spells is → target.Spells ts →
      Sequence Function.SpellsMethod fs us →
      ItemKind.Spells (.implementation interface target fs)
        (.word "impl" :: is ++ .word "for" :: ts ++ .mark .openBrace :: us ++ [.mark .closeBrace])

inductive Item.Spells : Item → List Token → Prop where
  | mk {attrs kind as ts} (isPublic : Bool) : Sequence Attr.Spells attrs as → kind.Spells ts →
      Item.Spells ⟨attrs, isPublic, kind⟩ (as ++ (if isPublic then [.word "pub"] else []) ++ ts)

inductive File.Spells : File → List Token → Prop where
  | mk {docs items ts} : Sequence Item.Spells items ts →
      File.Spells ⟨docs, items⟩ (docs.map (Token.doc true) ++ ts)

end EnumLookup.Source
