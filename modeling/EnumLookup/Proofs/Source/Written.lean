import EnumLookup.Proofs.Source.Phrase
import EnumLookup.Source.Grammar
import EnumLookup.Source.Listing
import Mathlib.Data.List.Forall2

/-!
# What is written and what is read

A name is written with its direction marks and may be read without them, so the syntax that comes
back from a text need not be the syntax that was written. `ReadsAs` relates the two, for words that
the lexer gives back whole. It also says how closely a written expression holds together, since no
parentheses are written.
-/

namespace EnumLookup.Source

/-- The first word is written where the second is read. -/
def WordReads (m : Marks) (w v : String) : Prop := Lexes m WordEnd w.toList [.word v]

/-- The word is a name that is read as it is written. -/
def IsPlain (w : String) : Prop := isName w.toList = true ∧ isIdentifier w = true

instance (w : String) : Decidable (IsPlain w) := inferInstanceAs (Decidable (_ ∧ _))

/-- The words make up a path that is read as it is written. -/
def IsPlainPath (p : Path) : Prop := IsPath p ∧ ∀ w ∈ p, isName w.toList = true

instance (p : Path) : Decidable (IsPath p) := inferInstanceAs (Decidable (_ ∧ _))

instance (p : Path) : Decidable (IsPlainPath p) := inferInstanceAs (Decidable (_ ∧ _))

theorem WordReads.of_isName {m : Marks} {w : String} (h : isName w.toList = true) :
    WordReads m w w := .word (.plain h)

/-! ## Types -/

mutual
/-- The type is read as it is written. -/
inductive Ty.IsWritten : Ty → Prop where
  | plain {p} : IsPlainPath p → Ty.IsWritten (.named p [] [])
  | bound {p l} : IsPlainPath p → isName l.toList = true → Ty.IsWritten (.named p [l] [])
  | generic {p t args} : IsPlainPath p → Ty.AreWritten (t :: args) →
      Ty.IsWritten (.named p [] (t :: args))
  | reference {l isMut t} : (∀ x ∈ l, isName (String.toList x) = true) → Ty.IsWritten t →
      Ty.IsWritten (.reference l isMut t)
  | slice {t} : Ty.IsWritten t → Ty.IsWritten (.slice t)
  | tuple {t u items} : Ty.AreWritten (t :: u :: items) → Ty.IsWritten (.tuple (t :: u :: items))

/-- The types are read as they are written. -/
inductive Ty.AreWritten : List Ty → Prop where
  | nil : Ty.AreWritten []
  | cons {t ts} : Ty.IsWritten t → Ty.AreWritten ts → Ty.AreWritten (t :: ts)
end

/-! ## Expressions -/

mutual
/-- The first expression is written where the second is read, at a level. -/
inductive Expr.ReadsAs (m : Marks) : Level → Expr → Expr → Prop where
  | text {s} : Expr.ReadsAs m .chain (.text s) (.text s)
  | path {p q} : List.Forall₂ (WordReads m) p q → IsPath q →
      Expr.ReadsAs m .chain (.path p) (.path q)
  | call {f f' args args'} : Expr.ReadsAs m .chain f f' → Expr.ReadEachAs m args args' →
      Expr.ReadsAs m .chain (.call f args) (.call f' args')
  | method {r r' name args args'} : Expr.ReadsAs m .chain r r' → IsPlain name →
      Expr.ReadEachAs m args args' →
      Expr.ReadsAs m .chain (.method r name args) (.method r' name args')
  | invoke {name args args'} : IsPlain name → Expr.ReadEachAs m args args' →
      Expr.ReadsAs m .chain (.invoke name args) (.invoke name args')
  | array {items items'} : Expr.ReadEachAs m items items' →
      Expr.ReadsAs m .chain (.array items) (.array items')
  | tuple {x y items x' y' items'} : Expr.ReadEachAs m (x :: y :: items) (x' :: y' :: items') →
      Expr.ReadsAs m .chain (.tuple (x :: y :: items)) (.tuple (x' :: y' :: items'))
  | number {v w} : Expr.ReadsAs m .operand (.number v w) (.number v w)
  | choose {e e' arms arms'} : Expr.ReadsAs m .full e e' → Expr.ReadArmsAs m arms arms' →
      Expr.ReadsAs m .operand (.choose e arms) (.choose e' arms')
  | ofChain {e e'} : Expr.ReadsAs m .chain e e' → Expr.ReadsAs m .operand e e'
  | borrow {e e'} : Expr.ReadsAs m .operand e e' → Expr.ReadsAs m .operand (.borrow e) (.borrow e')
  | ofOperand {e e'} : Expr.ReadsAs m .operand e e' → Expr.ReadsAs m .full e e'
  | closure {p e e'} : IsPlain p → Expr.ReadsAs m .full e e' →
      Expr.ReadsAs m .full (.closure p e) (.closure p e')
  | equal {l l' r r'} : Expr.ReadsAs m .operand l l' → Expr.ReadsAs m .operand r r' →
      Expr.ReadsAs m .full (.equal l r) (.equal l' r')

/-- The same for expressions between commas. -/
inductive Expr.ReadEachAs (m : Marks) : List Expr → List Expr → Prop where
  | nil : Expr.ReadEachAs m [] []
  | cons {e e' es es'} : Expr.ReadsAs m .full e e' → Expr.ReadEachAs m es es' →
      Expr.ReadEachAs m (e :: es) (e' :: es')

/-- The same for the arms of a choice. -/
inductive Expr.ReadArmsAs (m : Marks) : List (Expr × Expr) → List (Expr × Expr) → Prop where
  | nil : Expr.ReadArmsAs m [] []
  | cons {p p' e e' arms arms'} : Expr.ReadsAs m .operand p p' → Expr.ReadsAs m .full e e' →
      Expr.ReadArmsAs m arms arms' → Expr.ReadArmsAs m ((p, e) :: arms) ((p', e') :: arms')
end

/-! ## Items and files -/

/-- The first statement is written where the second is read. -/
inductive Stmt.ReadsAs (m : Marks) : Stmt → Stmt → Prop where
  | discard {e e'} : Expr.ReadsAs m .full e e' → Stmt.ReadsAs m (.discard e) (.discard e')
  | returnIf {c c' e e'} : Expr.ReadsAs m .full c c' → Expr.ReadsAs m .full e e' →
      Stmt.ReadsAs m (.returnIf c e) (.returnIf c' e')

/-- The parameter is read as it is written. -/
inductive Param.IsWritten : Param → Prop where
  | receiver : Param.IsWritten .receiver
  | typed {name t} : IsPlain name → Ty.IsWritten t → Param.IsWritten (.typed name t)

/-- The first function is written where the second is read. -/
inductive Function.ReadsAs (m : Marks) : Function → Function → Prop where
  | mk {name name' params result body body' value value'} : WordReads m name name' →
      isIdentifier name' = true → (∀ p ∈ params, Param.IsWritten p) → result.IsWritten →
      List.Forall₂ (Stmt.ReadsAs m) body body' → Expr.ReadsAs m .full value value' →
      Function.ReadsAs m ⟨name, params, result, body, value⟩ ⟨name', params, result, body', value'⟩

/-- The attribute is read as it is written: documentation stays on its line and does not start with
another slash. -/
inductive Attr.IsWritten : Attr → Prop where
  | doc {t} : OneLine (String.toList t) → t.toList.head? ≠ some '/' → Attr.IsWritten (.doc t)
  | list {name args} : IsPlain name → (∀ a ∈ args, IsPlain a) → Attr.IsWritten (.list name args)

/-- The variant is read as it is written. -/
structure Variant.IsWritten (v : Variant) : Prop where
  attrs : ∀ a ∈ v.attrs, a.IsWritten
  name : IsPlain v.name
  fields : Ty.AreWritten v.fields

/-- What the first item declares is written where the second is read. An implementation is written
without a visibility. -/
inductive ItemKind.ReadsAs (m : Marks) : Bool → ItemKind → ItemKind → Prop where
  | module {isPublic name} : IsPlain name →
      ItemKind.ReadsAs m isPublic (.module name) (.module name)
  | use {isPublic p} : IsPlainPath p → ItemKind.ReadsAs m isPublic (.use p) (.use p)
  | constant {isPublic name t e e'} : IsPlain name → t.IsWritten → Expr.ReadsAs m .full e e' →
      ItemKind.ReadsAs m isPublic (.constant name t e) (.constant name t e')
  | function {isPublic f f'} : f.ReadsAs m f' →
      ItemKind.ReadsAs m isPublic (.function f) (.function f')
  | enumeration {isPublic name vs} : IsPlain name → (∀ v ∈ vs, Variant.IsWritten v) →
      ItemKind.ReadsAs m isPublic (.enumeration name vs) (.enumeration name vs)
  | implementation {interface target fs fs'} : interface.IsWritten → target.IsWritten →
      List.Forall₂ (Function.ReadsAs m) fs fs' →
      ItemKind.ReadsAs m false (.implementation interface target fs)
        (.implementation interface target fs')

/-- The first item is written where the second is read. -/
inductive Item.ReadsAs (m : Marks) : Item → Item → Prop where
  | mk {attrs isPublic kind kind'} : (∀ a ∈ attrs, Attr.IsWritten a) →
      kind.ReadsAs m isPublic kind' → Item.ReadsAs m ⟨attrs, isPublic, kind⟩ ⟨attrs, isPublic, kind'⟩

/-- The first file is written where the second is read. -/
inductive File.ReadsAs (m : Marks) : File → File → Prop where
  | mk {docs items items'} : (∀ d ∈ docs, OneLine (String.toList d)) →
      List.Forall₂ (Item.ReadsAs m) items items' → File.ReadsAs m ⟨docs, items⟩ ⟨docs, items'⟩

/-- The first listing is written where the second is read. -/
inductive Listing.ReadsAs (m : Marks) : Listing → Listing → Prop where
  | mk {docs paragraphs paragraphs'} : (∀ d ∈ docs, OneLine (String.toList d)) →
      List.Forall₂ (List.Forall₂ (Item.ReadsAs m)) paragraphs paragraphs' →
      Listing.ReadsAs m ⟨docs, paragraphs⟩ ⟨docs, paragraphs'⟩

end EnumLookup.Source
