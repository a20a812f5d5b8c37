import EnumLookup.Generation.Header
import EnumLookup.Source.Listing

/-!
# Lookup files

The file of one lookup operation: a typed helper for every enum and one function that compares the
type tag with every enum's name in order and asks that enum's helper. Members and enums are tried in
order, so the first match decides.
-/

namespace EnumLookup.Generation

open Source

def errorType : String := "EnumLookupError"

namespace LookupType

/-- A type without arguments. -/
def plain (name : String) : Ty := .named [name] [] []

def width (w : Width) : Ty := plain w.text

/-- A text that lives as long as the program. -/
def name : Ty := .reference (some "static") false (plain "str")

def borrowedText : Ty := .reference none false (plain "str")

def optional (t : Ty) : Ty := .named ["Option"] [] [t]

/-- An answer of a lookup that can fail. -/
def answer (t : Ty) : Ty := .named ["Result"] [] [t, plain errorType]

def table (value : Ty) : Ty := .reference (some "static") false (.slice (.tuple [name, value]))

end LookupType

namespace Term

/-- A variable or function. -/
def var (name : String) : Expr := .path [name]

def call (f : String) (args : List Expr) : Expr := .call (var f) args

/-- The constant of a member, with its width. -/
def constant (c : Constant) : Expr := .number c.value (some c.width)

theorem spell_constant (c : Constant) : (constant c).spell = c.literal := rfl

/-- A member's name with an expression for its value. -/
def pair (m : Entry) (value : Expr) : Expr := .tuple [.text m.name, value]

def blankArgument : Expr :=
  call "Err" [.call (.path [errorType, "InvalidArgument"]) [.text "name"]]

def unknownTag : Expr :=
  call "Err" [.call (.path [errorType, "UnsupportedEnumType"]) [.method (var "tag") "to_string" []]]

/-- A blank name is refused. -/
def blankGuard : Stmt :=
  .returnIf (.method (.method (var "name") "trim" []) "is_empty" []) blankArgument

end Term

open LookupType Term

def title : Operation → String
  | .nameLookup => "Member-name lookup for reflected enums."
  | .valueTable => "Declaration-ordered value tables for reflected enums."
  | .tryParse => "Name-to-value parsing for reflected enums."

def helperName (o : Operation) (discriminator : String) : String :=
  discriminator ++ "_" ++ o.suffix

def helperDocs (o : Operation) (e : Resolved) : List String :=
  match o with
  | .nameLookup =>
    [" Returns the name of the first \x60" ++ e.name ++ "\x60 member declared with \x60value\x60."]
  | .valueTable =>
    [" Returns every \x60" ++ e.name ++ "\x60 member with its value, in declaration order."]
  | .tryParse =>
    [" Parses the exact (case-sensitive) name of a \x60" ++ e.name ++ "\x60 member.", "",
      " Fails with \x60InvalidArgument\x60 for a blank name."]

/-- The helper of an enum. -/
def helper (o : Operation) (e : Resolved) (discriminator : String) : Function :=
  let w := width e.width
  match o with
  | .nameLookup => {
      name := helperName o discriminator
      params := [.typed (if e.entries.isEmpty then "_value" else "value") w]
      result := optional name
      body := e.entries.map fun m =>
        .returnIf (.equal (var "value") (constant m.value)) (call "Some" [.text m.name])
      value := var "None" }
  | .valueTable => {
      name := helperName o discriminator
      params := []
      result := table w
      body := []
      value := .borrow (.array (e.entries.map fun m => pair m (constant m.value))) }
  | .tryParse => {
      name := helperName o discriminator
      params := [.typed "name" borrowedText]
      result := answer (optional w)
      body := blankGuard :: e.entries.map fun m =>
        .returnIf (.equal (var "name") (.text m.name))
          (call "Ok" [call "Some" [constant m.value]])
      value := call "Ok" [var "None"] }

theorem helper_name (o : Operation) (e : Resolved) (d : String) :
    (helper o e d).name = helperName o d := by cases o <;> rfl

def helperItem (o : Operation) (e : Resolved) (discriminator : String) : Item where
  attrs := (helperDocs o e).map .doc ++ [.list "allow" ["non_snake_case"]]
  isPublic := true
  kind := .function (helper o e discriminator)

def dispatcherDocs : Operation → List String
  | .nameLookup =>
    [" Returns the member name for \x60value\x60 in the enum tagged \x60tag\x60.", "",
      " A value that no member declares (or that does not fit the enum's",
      " underlying type) yields \x60Ok(None)\x60."]
  | .valueTable =>
    [" Returns every \x60(name, value)\x60 pair of the enum tagged \x60tag\x60, in",
      " declaration order."]
  | .tryParse =>
    [" Parses a member name of the enum tagged \x60tag\x60.", "",
      " A blank name fails with \x60InvalidArgument\x60 before the tag is looked at;",
      " an unknown name yields \x60Ok(None)\x60."]

/-- What the dispatcher returns for one enum. -/
def delegate (o : Operation) (e : Resolved) (discriminator : String) : Expr :=
  match o with
  | .nameLookup =>
    call "Ok" [.method (.method (.call (.path [e.width.text, "try_from"]) [var "value"]) "ok" [])
      "and_then" [var (helperName o discriminator)]]
  | .valueTable =>
    call "Ok" [.borrow (.array (e.entries.map fun m => pair m (.number m.value.value none)))]
  | .tryParse =>
    .method (call (helperName o discriminator) [var "name"]) "map"
      [.closure "value" (.method (var "value") "map" [.path ["i128", "from"]])]

/-- The dispatcher's statements before it looks at the tag. -/
def preamble (o : Operation) (enums : List Resolved) : List Stmt :=
  match o with
  | .nameLookup => if enums.isEmpty then [.discard (var "value")] else []
  | .valueTable => []
  | .tryParse => [blankGuard]

/-- The parameters of a dispatcher behind the tag. -/
def arguments : Operation → List Param
  | .nameLookup => [.typed "value" (plain "i128")]
  | .valueTable => []
  | .tryParse => [.typed "name" borrowedText]

def answerType : Operation → Ty
  | .nameLookup => answer (optional name)
  | .valueTable => answer (table (plain "i128"))
  | .tryParse => answer (optional (plain "i128"))

/-- The function that dispatches on the type tag, for enums with their discriminators. -/
def dispatcher (o : Operation) (enums : List (Resolved × String)) : Function where
  name := o.dispatcher
  params := .typed "tag" borrowedText :: arguments o
  result := answerType o
  body := preamble o (enums.map Prod.fst) ++ enums.map fun (e, d) =>
    .returnIf (.equal (var "tag") (.text e.name)) (delegate o e d)
  value := unknownTag

def dispatcherItem (o : Operation) (enums : List (Resolved × String)) : Item where
  attrs := (dispatcherDocs o).map .doc
  isPublic := true
  kind := .function (dispatcher o enums)

/-- The file of an operation, for enums with their discriminators. -/
def lookupListing (o : Operation) (enums : List (Resolved × String)) : Listing where
  docs := header (title o) (enums.map Prod.fst) (some o)
  paragraphs := [{ kind := .use ["super", errorType] }] ::
    enums.map (fun (e, d) => [helperItem o e d]) ++ [[dispatcherItem o enums]]

/-- The file of an operation, if every enum's name yields a discriminator. -/
def lookup (o : Operation) (enums : List Resolved) : Except Fault Listing := do
  let ds ← Discriminator.assign (enums.map Resolved.name)
  return lookupListing o (enums.zip ds)

end EnumLookup.Generation
