import EnumLookup.Declaration

/-!
# Manifest data

What a manifest's text says, whatever its format: scalars, lists and tables. A scalar is known by
what it stands for where a text is wanted, where a member's value is wanted, and where a list or
table is wanted. A place may also refer to an anchored node of the same document.
-/

namespace EnumLookup.Manifest

/-- What a scalar stands for where a member's value is wanted. -/
inductive Reading where
  /-- No value. -/
  | absent
  | integer (n : Int)
  /-- Something that is no value. -/
  | other
  deriving DecidableEq, Repr

structure Scalar where
  /-- The text, where one is wanted. -/
  text : Option String
  /-- The member's value, where one is wanted. -/
  value : Reading
  /-- The scalar stands for an empty list or table. -/
  isVoid : Bool := false
  deriving DecidableEq, Repr

/-- Data of a manifest. A key is known by its text, if it has one. -/
inductive Node where
  | scalar (s : Scalar)
  | list (items : List Node)
  | table (fields : List (Option String × Node))
  /-- A reference to the node of an anchor. -/
  | alias (anchor : Nat)
  deriving Repr

/-- A document: its data and the nodes of its anchors. -/
structure Document where
  root : Node
  anchors : List (Nat × Node) := []
  deriving Repr

/-- What a format allows where a table with known fields is wanted. -/
structure Rules where
  /-- A list may stand for a table, its items in the order of the fields. -/
  allowsLists : Bool
  /-- Such a list may be longer than there are fields. -/
  allowsExtras : Bool
  deriving DecidableEq, Repr

/-- The node itself, or the one it refers to. -/
def Document.resolve (d : Document) (n : Node) : Option Node :=
  match n with
  | .alias anchor => (d.anchors.find? (·.1 == anchor)).map Prod.snd
  | n => some n

/-- The text that a node stands for. -/
def Document.text (d : Document) (n : Node) : Option String := do
  match ← d.resolve n with
  | .scalar s => s.text
  | _ => none

/-- The items of the list that a node stands for. -/
def Document.items (d : Document) (n : Node) : Option (List Node) := do
  match ← d.resolve n with
  | .list items => some items
  | .scalar s => if s.isVoid then some [] else none
  | _ => none

/-- The value that a node gives to a member. -/
def Document.value (d : Document) (n : Node) : Option (Option Explicit) := do
  match ← d.resolve n with
  | .scalar s =>
    match s.value with
    | .absent => some none
    | .integer i => (Explicit.ofInt? i).map some
    | .other => none
  | _ => none

/-- The value of one of the known fields: nothing if it is missing, a failure if it is repeated. -/
def field (name : String) (fields : List (Option String × Node)) : Option (Option Node) :=
  match fields.filter (·.1 == some name) with
  | [] => some none
  | [(_, n)] => some (some n)
  | _ => none

/-- The values of the known fields of a table. Every key has to be a text. -/
def Document.fields (d : Document) (rules : Rules) (names : List String) (n : Node) :
    Option (List (Option Node)) := do
  match ← d.resolve n with
  | .table fields =>
    if fields.all (·.1.isSome) then names.mapM fun name => field name fields else none
  | .list items =>
    if rules.allowsLists && (rules.allowsExtras || items.length ≤ names.length) then
      some ((List.range names.length).map fun i => items[i]?)
    else none
  | .scalar s => if s.isVoid then some (names.map fun _ => none) else none
  | .alias _ => none

end EnumLookup.Manifest
