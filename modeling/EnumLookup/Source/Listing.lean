import EnumLookup.Layout.Writer
import EnumLookup.Source.Spelling

/-!
# The plain layout

A listing is a file in paragraphs. In the plain layout every table has a line for each of its
entries, every body and every arm of a choice has lines of its own, and an empty line stands before
each paragraph; nothing else is broken, whatever its length.
-/

namespace EnumLookup.Source

open Layout (Block)

/-- The expression is a table with entries, or ends in one. -/
def Expr.isTable : Expr → Bool
  | .array items => !items.isEmpty
  | .borrow target => target.isTable
  | .call _ [arg] => arg.isTable
  | _ => false

/-- The blocks of an expression, with a text before and one behind it. -/
def Expr.blocks (lead trail : String) : Expr → List Block
  | .array (item :: items) =>
    [.scope lead .bracket trail ((Expr.spellEach (item :: items)).map fun s => .line (s ++ ","))]
  | .borrow target =>
    if target.isTable then target.blocks (lead ++ "&") trail
    else [.line (lead ++ "&" ++ target.spell ++ trail)]
  | .call callee [arg] =>
    if arg.isTable then arg.blocks (lead ++ callee.spell ++ "(") (")" ++ trail)
    else [.line (lead ++ callee.spell ++ "(" ++ arg.spell ++ ")" ++ trail)]
  | .choose subject arms =>
    [.scope (lead ++ "match " ++ subject.spell) .brace trail
      (arms.map fun (p, e) => .braced (p.spell ++ " =>") [.line e.spell])]
  | e => [.line (lead ++ e.spell ++ trail)]

def Stmt.blocks : Stmt → List Block
  | discard value => [.line ("let _ = " ++ value.spell ++ ";")]
  | returnIf condition value => [.braced ("if " ++ condition.spell) (value.blocks "return " ";")]

def Function.block (f : Function) (isPublic : Bool) : Block :=
  .braced (spellVisibility isPublic ++ f.spellSignature)
    (f.body.flatMap Stmt.blocks ++ f.value.blocks "" "")

def Attr.blocks (attrs : List Attr) : List Block := attrs.map fun a => .line a.spell

def Variant.blocks (v : Variant) : List Block :=
  Attr.blocks v.attrs ++
    [.line (v.name ++ "(" ++ ", ".intercalate (v.fields.map Ty.spell) ++ "),")]

def Item.blocks (i : Item) : List Block :=
  Attr.blocks i.attrs ++
    let visibility := spellVisibility i.isPublic
    match i.kind with
    | .module name => [.line (visibility ++ "mod " ++ name ++ ";")]
    | .use path => [.line (visibility ++ "use " ++ spellPath path ++ ";")]
    | .constant name type value =>
      value.blocks (visibility ++ "const " ++ name ++ ": " ++ type.spell ++ " = ") ";"
    | .function f => [f.block i.isPublic]
    | .enumeration name variants =>
      [.braced (visibility ++ "enum " ++ name) (variants.flatMap Variant.blocks)]
    | .implementation interface target methods =>
      let header := "impl " ++ interface.spell ++ " for " ++ target.spell
      if methods.isEmpty then [.line (header ++ " \x7b\x7d")]
      else [.braced header (methods.map fun f => f.block false)]

/-- A file in paragraphs. -/
structure Listing where
  docs : List String
  paragraphs : List (List Item)
  deriving Repr

namespace Listing

/-- The lines of the documentation of a module. -/
def docBlocks (docs : List String) : List Block := docs.map fun d => .line ("//!" ++ d)

def blocks (l : Listing) : List Block :=
  docBlocks l.docs ++ l.paragraphs.flatMap fun items => .blank :: items.flatMap Item.blocks

def text (indent : String) (l : Listing) : String := Layout.write indent l.blocks

/-- The listing as a file, without its paragraphs. -/
def file (l : Listing) : File := ⟨l.docs, l.paragraphs.flatten⟩

end Listing

end EnumLookup.Source
