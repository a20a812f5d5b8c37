import EnumLookup.Source.Syntax

/-!
# Spelling on one line

The text of types, expressions and signatures when all of it stands on one line. Items of a list
are separated by a comma and a space, and a tuple of one item keeps a comma behind it.
-/

namespace EnumLookup.Source

def spellPath (p : Path) : String := "::".intercalate p

mutual
def Ty.spell : Ty → String
  | .named path [] [] => spellPath path
  | .named path lifetimes args =>
    spellPath path ++ "<" ++
      ", ".intercalate (lifetimes.map ("'" ++ ·) ++ Ty.spellEach args) ++ ">"
  | .reference lifetime isMut target =>
    "&" ++ (lifetime.map fun l => "'" ++ l ++ " ").getD "" ++ (if isMut then "mut " else "") ++
      target.spell
  | .slice item => "[" ++ item.spell ++ "]"
  | .tuple [item] => "(" ++ item.spell ++ ",)"
  | .tuple items => "(" ++ ", ".intercalate (Ty.spellEach items) ++ ")"

def Ty.spellEach : List Ty → List String
  | [] => []
  | t :: ts => t.spell :: Ty.spellEach ts
end

def spellNumber (value : Int) (suffix : Option Width) : String :=
  Text.intText value ++ (suffix.map Width.text).getD ""

mutual
def Expr.spell : Expr → String
  | .text value => Text.quote value
  | .number value suffix => spellNumber value suffix
  | .path p => spellPath p
  | .call callee args => callee.spell ++ "(" ++ ", ".intercalate (Expr.spellEach args) ++ ")"
  | .method receiver name args =>
    receiver.spell ++ "." ++ name ++ "(" ++ ", ".intercalate (Expr.spellEach args) ++ ")"
  | .invoke name args => name ++ "!(" ++ ", ".intercalate (Expr.spellEach args) ++ ")"
  | .borrow target => "&" ++ target.spell
  | .array items => "[" ++ ", ".intercalate (Expr.spellEach items) ++ "]"
  | .tuple [item] => "(" ++ item.spell ++ ",)"
  | .tuple items => "(" ++ ", ".intercalate (Expr.spellEach items) ++ ")"
  | .closure param body => "|" ++ param ++ "| " ++ body.spell
  | .equal left right => left.spell ++ " == " ++ right.spell
  | .choose subject arms =>
    "match " ++ subject.spell ++ " \x7b " ++ " ".intercalate (Expr.spellArms arms) ++ " \x7d"

def Expr.spellEach : List Expr → List String
  | [] => []
  | e :: es => e.spell :: Expr.spellEach es

def Expr.spellArms : List (Expr × Expr) → List String
  | [] => []
  | (p, e) :: arms => (p.spell ++ " => \x7b " ++ e.spell ++ " \x7d") :: Expr.spellArms arms
end

def Param.spell : Param → String
  | receiver => "&self"
  | typed name type => name ++ ": " ++ type.spell

/-- The text of a function up to its body. -/
def Function.spellSignature (f : Function) : String :=
  "fn " ++ f.name ++ "(" ++ ", ".intercalate (f.params.map Param.spell) ++ ") -> " ++ f.result.spell

def Attr.spell : Attr → String
  | doc text => "///" ++ text
  | list name args => "#[" ++ name ++ "(" ++ ", ".intercalate args ++ ")]"

def spellVisibility (isPublic : Bool) : String := if isPublic then "pub " else ""

end EnumLookup.Source
