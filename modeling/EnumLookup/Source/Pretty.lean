import EnumLookup.Layout.Page
import EnumLookup.Source.Spelling

/-!
# The layout for reading

Items stand below each other without empty lines, an expression stays on one line while it fits, and
one that does not is broken at its outermost lists first. A list that is broken has a line for each
item and a comma behind the last one. The arm of a choice and the body of a closure get braces when
they are broken.
-/

namespace EnumLookup.Source

open Layout (Doc Gap)

namespace Pretty

def step : Int := 4

def space : Doc := .gap { blanks := 1 }

def zero : Doc := .gap {}

/-- The end of a line, with the next one indented by an offset. -/
def lineEnd (offset : Int) : Doc := .gap { blanks := Layout.unbounded, offset := offset }

/-- A gap at which the line never ends. -/
def rigid : Doc := .gap { isRigid := true }

/-- Items with commas between them, and one more at the end if the list is broken. -/
def separated : List (List Doc) → List Doc
  | [] => []
  | [item] => item ++ [.gap { before := ",", offset := -step }]
  | item :: items => item ++ [.text ",", space] ++ separated items

/-- A list of items in a box of its own. -/
def listed (offset : Int) (items : List (List Doc)) : List Doc :=
  if items.isEmpty then [] else [.box true offset (zero :: separated items)]

/-- The items of a tuple in a box of their own. -/
def tupled : List (List Doc) → List Doc
  | [item] => [.box true step (zero :: item ++ [.text ",", .gap { offset := -step }])]
  | items => listed step items

mutual
def ty : Ty → List Doc
  | .named path [] [] => [.text (spellPath path)]
  | .named path lifetimes args =>
    [.text (spellPath path), .text "<"] ++
      listed step (lifetimes.map (fun l => [.text ("'" ++ l)]) ++ tys args) ++ [.text ">"]
  | .reference lifetime isMut target =>
    [.text "&"] ++ (lifetime.map fun l => [.text ("'" ++ l), .text " "]).getD [] ++
      (if isMut then [.text "mut "] else []) ++ ty target
  | .slice item => [.text "["] ++ ty item ++ [.text "]"]
  | .tuple items => [.text "("] ++ tupled (tys items) ++ [.text ")"]

def tys : List Ty → List (List Doc)
  | [] => []
  | t :: ts => ty t :: tys ts
end

/-- The expression brings its own brackets, so that it can follow a parenthesis directly. -/
def isBlocklike : Expr → Bool
  | .closure _ _ => true
  | .array _ => true
  | .tuple _ => true
  | _ => false

/-- The expression needs no braces as the body of a closure, even when it is broken. -/
def isBareBody : Expr → Bool
  | .call _ _ => true
  | .choose _ _ => true
  | e => isBlocklike e

/-- A condition that is broken puts the brace after it on a line of its own. -/
def endsOwnLine : Expr → Bool
  | .equal _ _ => true
  | .method _ _ _ => true
  | .call callee _ => endsOwnLine callee
  | _ => false

mutual
def expr : Expr → List Doc
  | .text value => [.text (Text.quote value)]
  | .number value suffix => [.text (spellNumber value suffix)]
  | .path p => [.text (spellPath p)]
  | .call callee args => expr callee ++ [.text "("] ++ callArgs args ++ [.text ")"]
  | .method receiver name args =>
    [.box true step (chain receiver ++ [zero, .text ("." ++ name),
      .box true 0 ([.text "("] ++ callArgs args ++ [.text ")"])])]
  | .invoke name args =>
    [.text (name ++ "!"), .text "("] ++ listed step (exprs args) ++ [.text ")"]
  | .borrow target => [.text "&"] ++ expr target
  | .array items => [.text "["] ++ listed step (exprs items) ++ [.text "]"]
  | .tuple items => [.text "("] ++ tupled (exprs items) ++ [.text ")"]
  | .closure param body =>
    let braced :=
      if isBareBody body then expr body
      else [.box true step (.gap { before := "\x7b" } :: expr body ++
        [.gap { offset := -step, after := "\x7d" }])]
    [.box false 0 ([.box true step [.text "|", zero, .text param, .text "|",
      .gap { blanks := 1, offset := -step }], rigid] ++ braced)]
  | .equal left right =>
    [.box false step ([.box false (-step) (expr left), space, .text "==", .text " "] ++
      expr right)]
  | .choose subject arms =>
    [.box false 0 ([.text "match ", .box true 0 (expr subject ++ [.text " "]), .text "\x7b",
      rigid, .box true step (lineEnd (if arms.isEmpty then -step else 0) :: armDocs arms),
      .text "\x7d"])]

def exprs : List Expr → List (List Doc)
  | [] => []
  | e :: es => expr e :: exprs es

def callArgs : List Expr → List Doc
  | [e] => if isBlocklike e then expr e else listed step [expr e]
  | args => listed step (exprs args)

/-- The receiver of a method call. -/
def chain : Expr → List Doc
  | .method receiver name args =>
    chain receiver ++ [zero, .text ("." ++ name),
      .box true 0 ([.text "("] ++ callArgs args ++ [.text ")"])]
  | .call callee args => chain callee ++ [.text "("] ++ callArgs args ++ [.text ")"]
  | e => [.box true (-step) (expr e)]

def armDocs : List (Expr × Expr) → List Doc
  | [] => []
  | (p, e) :: arms =>
    [.box false 0 (expr p ++ [.text " =>", .text " ", rigid,
      .box true step (.gap { before := "\x7b" } :: expr e ++
        [.gap { offset := -step, after := "\x7d", flat := "," }])]),
      lineEnd (if arms.isEmpty then -step else 0)] ++ armDocs arms
end

def stmt : Stmt → List Doc
  | .discard value =>
    [.box false 0 ([.text "let ", .text "_", .text " = ", rigid] ++ expr value ++ [.text ";"])]
  | .returnIf condition value =>
    let closing := if endsOwnLine condition then space else .text " "
    [.box false 0 [.box true step ([.text "if ", .box true (-step) (expr condition ++ [closing]),
      .text "\x7b", lineEnd 0,
      .box false 0 ([.text "return", .text " "] ++ expr value ++ [.text ";"]), lineEnd (-step),
      .text "\x7d"])]]

def param : Param → List Doc
  | .receiver => [.text "&self"]
  | .typed name type => [.text name, .text ": "] ++ ty type

def function (f : Function) (isPublic : Bool) : List Doc :=
  [.box true step ([.text (spellVisibility isPublic), .text "fn ", .text f.name, .text "(",
    rigid] ++
    listed 0 (f.params.map param) ++
    [.text ")", .box true (-step) (.text " -> " :: ty f.result), .text " ", .text "\x7b",
      lineEnd 0] ++
    f.body.flatMap (fun s => stmt s ++ [lineEnd 0]) ++
    [.box false 0 (expr f.value), lineEnd (-step)]),
    .text "\x7d", lineEnd 0]

/-- The text without spaces at its end. -/
def dropEndSpaces (s : String) : String :=
  String.ofList (s.toList.reverse.dropWhile (· == ' ')).reverse

/-- An attribute on a line of its own. -/
def attr : Attr → List Doc
  | .doc text => [.text "///", .text (dropEndSpaces text), lineEnd 0]
  | .list name args =>
    [.text (Attr.spell (.list name args)), lineEnd 0]

def variant (v : Variant) : List Doc :=
  v.attrs.flatMap attr ++ [.text v.name, .text "("] ++ listed step (v.fields.map ty) ++
    [.text ")", .text ","]

/-- What stands between braces, line by line. -/
def lines : List (List Doc) → List Doc
  | [] => []
  | [l] => l ++ [lineEnd (-step)]
  | l :: ls => l ++ [lineEnd 0] ++ lines ls

/-- A body in braces, from the opening brace to the end of the line. -/
def braces (header : List Doc) (ls : List (List Doc)) : List Doc :=
  if ls.isEmpty then [.box true step (header ++ [.text "\x7b"]), .text "\x7d", lineEnd 0]
  else [.box true step (header ++ [.text "\x7b", lineEnd 0] ++ lines ls), .text "\x7d", lineEnd 0]

def methods : List Function → List Doc
  | [] => []
  -- The line end of the last method is that of the body.
  | [f] => (function f false).dropLast ++ [lineEnd (-step)]
  | f :: fs => function f false ++ methods fs

def itemKind (isPublic : Bool) : ItemKind → List Doc
  | .module name =>
    [.text (spellVisibility isPublic), .text "mod ", .text name, .text ";", lineEnd 0]
  | .use path =>
    [.text (spellVisibility isPublic), .text "use ", .text (spellPath path), .text ";", lineEnd 0]
  | .constant name type value =>
    [.box true 0 ([.text (spellVisibility isPublic), .text "const ", .text name, .text ": "] ++
      ty type ++ [.text " = ", rigid] ++ expr value ++ [.text ";"]), lineEnd 0]
  | .function f => function f isPublic
  | .enumeration name variants =>
    braces [.text (spellVisibility isPublic), .text "enum ", .text name, .text " "]
      (variants.map variant)
  | .implementation interface target fs =>
    let header := [.box false (-step) ([.box true step [.text "impl"], .text " "] ++ ty interface ++
      [space, .text "for "] ++ ty target), .text " "]
    if fs.isEmpty then braces header []
    else [.box true step (header ++ [.text "\x7b", lineEnd 0] ++ methods fs), .text "\x7d",
      lineEnd 0]

def item (i : Item) : List Doc := i.attrs.flatMap attr ++ itemKind i.isPublic i.kind

def file (f : File) : List Doc :=
  [.box true 0 (f.docs.flatMap (fun d => [.text "//!", .text (dropEndSpaces d), lineEnd 0]) ++
    f.items.flatMap item)]

end Pretty

/-- The text of a file in the layout for reading. -/
def File.pretty (f : File) : String := Doc.render (Pretty.file f)

end EnumLookup.Source
