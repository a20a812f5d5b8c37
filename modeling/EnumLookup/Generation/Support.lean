import EnumLookup.Config
import EnumLookup.Generation.Lookup

/-!
# The support file

The root of the generated module: it declares the file of every enabled operation, gives its
dispatcher on, lists the tags of all enums, and defines the error that lookups report.
-/

namespace EnumLookup.Generation

open Source LookupType Term

def tagsItem (enums : List Resolved) : Item where
  attrs := [.doc " Type tags of every reflected enum, in dispatch order."]
  isPublic := true
  kind := .constant "SUPPORTED_ENUM_TAGS" (.reference none false (.slice borrowedText))
    (.borrow (.array (enums.map fun e => .text e.name)))

/-- What a lookup with an unknown tag is told. -/
def hint (marker : String) : String := "only enums marked with #[" ++ marker ++ "] are supported"

/-- The error that lookups report. -/
def errorItem : Item where
  attrs := [
    .doc " Error returned by generated enum lookups.", .doc "",
    .doc " A value or name missing from a reflected enum is not an error; lookups",
    .doc " report it as \x60None\x60.",
    .list "derive" ["Debug", "Clone", "PartialEq", "Eq"]]
  isPublic := true
  kind := .enumeration errorType [
    ⟨[.doc " The type tag does not belong to a reflected enum."], "UnsupportedEnumType",
      [plain "String"]⟩,
    ⟨[.doc " The named argument was blank."], "InvalidArgument", [name]⟩]

/-- An arm that writes a message about one variant of the error. -/
def messageArm (variant binding message : String) : Expr × Expr :=
  (.call (.path ["Self", variant]) [var binding], .invoke "write" [var "f", .text message])

def displayItem : Item where
  kind := .implementation (.named ["std", "fmt", "Display"] [] []) (plain errorType) [{
    name := "fmt"
    params := [.receiver,
      .typed "f" (.reference none true (.named ["std", "fmt", "Formatter"] ["_"] []))]
    result := .named ["std", "fmt", "Result"] [] []
    body := []
    value := .choose (var "self") [
      messageArm "UnsupportedEnumType" "tag"
        "unsupported enum type '\x7btag\x7d': \x7bUNSUPPORTED_HINT\x7d",
      messageArm "InvalidArgument" "argument"
        "invalid argument '\x7bargument\x7d': value cannot be blank"] }]

def support (enums : List Resolved) (c : Config) : Listing where
  docs := header ("Lookup helpers for enums marked with \x60#[" ++ c.marker ++ "]\x60.") enums none
  paragraphs := [
    c.operations.map fun o => { isPublic := true, kind := .module o.moduleName },
    c.operations.map fun o => { isPublic := true, kind := .use [o.moduleName, o.dispatcher] },
    [tagsItem enums],
    [{ kind := .constant "UNSUPPORTED_HINT" borrowedText (.text (hint c.marker)) }],
    [errorItem],
    [displayItem],
    [{ kind := .implementation (.named ["std", "error", "Error"] [] []) (plain errorType) [] }]]

end EnumLookup.Generation
