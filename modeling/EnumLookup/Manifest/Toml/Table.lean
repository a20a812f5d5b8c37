import EnumLookup.Manifest.Node

/-!
# Tables in TOML

A table grows while its document is read, and how it came about decides who may still extend it: a
header may define a table that so far exists only as part of a longer header, dotted keys may extend
only tables made by dotted keys, and nothing extends an inline table.
-/

namespace EnumLookup.Manifest.Toml

/-- How a table came about. -/
inductive Kind where
  /-- By a header of its own, or as the document. -/
  | defined
  /-- As a part of a longer header. -/
  | implied
  /-- By dotted keys. -/
  | dotted
  /-- In braces. -/
  | inline
  deriving DecidableEq, Repr

/-- A value. The tables of an array that headers extend are listed from the last to the first. -/
inductive Value where
  | scalar (s : Scalar)
  | array (isExtensible : Bool) (items : List Value)
  | table (kind : Kind) (fields : List (String × Value))
  deriving Repr

abbrev Fields := List (String × Value)

namespace Fields

def get? (fs : Fields) (key : String) : Option Value := (fs.find? (·.1 == key)).map Prod.snd

/-- The fields with a value for a key, in place of any other. -/
def set (fs : Fields) (key : String) (v : Value) : Fields :=
  (key, v) :: fs.filter (·.1 != key)

/-- A change of the table that a path leads to. Tables that the path lacks come about on the way; an
array of tables leads to its last one. -/
def modify (isDotted : Bool) (change : Kind → Fields → Option (Kind × Fields)) :
    List String → Kind → Fields → Option (Kind × Fields)
  | [], kind, fs => change kind fs
  | key :: path, kind, fs =>
    match fs.get? key with
    | none => do
      let (k, t) ← modify isDotted change path (if isDotted then .dotted else .implied) []
      return (kind, fs.set key (.table k t))
    | some (.table k t) =>
      if k = .inline ∨ (isDotted ∧ k = .defined) then none
      else do
        let (k, t) ← modify isDotted change path k t
        return (kind, fs.set key (.table k t))
    | some (.array true (.table k t :: items)) => do
      let (k, t) ← modify isDotted change path k t
      return (kind, fs.set key (.array true (.table k t :: items)))
    | some _ => none

/-- A table is defined by its header. -/
def define (path : List String) (fs : Fields) : Option Fields := do
  let key ← path.getLast?
  let change := fun kind (parent : Fields) =>
    match parent.get? key with
    | none => some (kind, parent.set key (.table .defined []))
    | some (.table .implied t) => some (kind, parent.set key (.table .defined t))
    | some _ => none
  return (← modify false change path.dropLast .defined fs).2

/-- An array of tables gets one more table by its header. -/
def extend (path : List String) (fs : Fields) : Option Fields := do
  let key ← path.getLast?
  let change := fun kind (parent : Fields) =>
    match parent.get? key with
    | none => some (kind, parent.set key (.array true [.table .defined []]))
    | some (.array true items) =>
      some (kind, parent.set key (.array true (.table .defined [] :: items)))
    | some _ => none
  return (← modify false change path.dropLast .defined fs).2

/-- A value is added under a dotted key of a table. -/
def insert (path : List String) (v : Value) (kind : Kind) (fs : Fields) :
    Option (Kind × Fields) := do
  let key ← path.getLast?
  let change := fun (kind : Kind) (parent : Fields) =>
    -- A plain key adds nothing to a table of dotted keys, nor a dotted key to any other.
    if (kind == .dotted) == path.dropLast.isEmpty then none
    else match parent.get? key with
      | none => some (kind, parent.set key v)
      | some _ => none
  modify true change path.dropLast kind fs

/-- A value is added under a dotted key of the table that a header leads to. -/
def insertAt (header path : List String) (v : Value) (fs : Fields) : Option Fields :=
  (modify false (insert path v) header .defined fs).map Prod.snd

end Fields

mutual
/-- A value as manifest data. -/
def Value.node : Value → Node
  | .scalar s => .scalar s
  | .array isExtensible items =>
    .list (if isExtensible then (nodes items).reverse else nodes items)
  | .table _ fields => .table (fieldNodes fields)

def nodes : List Value → List Node
  | [] => []
  | v :: vs => v.node :: nodes vs

def fieldNodes : List (String × Value) → List (Option String × Node)
  | [] => []
  | (k, v) :: fs => (some k, v.node) :: fieldNodes fs
end

end EnumLookup.Manifest.Toml
