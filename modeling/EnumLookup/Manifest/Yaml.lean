import EnumLookup.Manifest.Yaml.Lexer
import EnumLookup.Manifest.Yaml.Tree

/-!
# Manifests in YAML

A reader for YAML texts of at most one document. Anchors are numbered as they come: a new one gets
the number of names known so far, so that after a name has been given twice a number may be given
again. A reference means the number its name has at that place, and the last node of that number.
-/

namespace EnumLookup.Manifest.Yaml

/-- The numbers of the anchors' names known so far, each name once. -/
abbrev Names := List (String × Nat)

mutual
/-- A tree with numbers for the names of its anchors, and the names known behind it. A reference to
a name not known yet is refused. -/
def number? (names : Names) : Tree String → Option (Tree Nat × Names)
  | .scalar s => some (.scalar s, names)
  | .list ts => (numberItems? names ts).map fun (ts, names) => (.list ts, names)
  | .table fs => (numberFields? names fs).map fun (fs, names) => (.table fs, names)
  | .alias a => (names.find? (·.1 == a)).map fun known => (.alias known.2, names)
  | .anchored a t =>
    let i := names.length
    (number? ((a, i) :: names.filter (·.1 != a)) t).map fun (t, names) => (.anchored i t, names)

/-- Items with numbers for names. -/
def numberItems? (names : Names) : List (Tree String) → Option (List (Tree Nat) × Names)
  | [] => some ([], names)
  | t :: ts => do
    let (t, names) ← number? names t
    let (ts, names) ← numberItems? names ts
    return (t :: ts, names)

def numberFields? (names : Names) :
    List (Tree String × Tree String) → Option (List (Tree Nat × Tree Nat) × Names)
  | [] => some ([], names)
  | (k, v) :: fs => do
    let (k, names) ← number? names k
    let (v, names) ← number? names v
    let (fs, names) ← numberFields? names fs
    return ((k, v) :: fs, names)
end

mutual
/-- The anchored nodes of a tree, the first one first. -/
def anchors : Tree Nat → List (Nat × Tree Nat)
  | .scalar _ => []
  | .list ts => itemAnchors ts
  | .table fs => fieldAnchors fs
  | .alias _ => []
  | .anchored i t => (i, t) :: anchors t

/-- The anchored nodes of items. -/
def itemAnchors : List (Tree Nat) → List (Nat × Tree Nat)
  | [] => []
  | t :: ts => anchors t ++ itemAnchors ts

def fieldAnchors : List (Tree Nat × Tree Nat) → List (Nat × Tree Nat)
  | [] => []
  | (k, v) :: fs => anchors k ++ anchors v ++ fieldAnchors fs
end

def scalarText : Tree Nat → Option String
  | .scalar s => s.text
  | .anchored _ (.scalar s) => s.text
  | _ => none

/-- The text of a key, which may be a reference to a scalar. -/
def keyText (known : List (Nat × Tree Nat)) : Tree Nat → Option String
  | .alias i => (known.find? (·.1 == i)).bind fun (_, t) => scalarText t
  | t => scalarText t

mutual
/-- A tree as manifest data. -/
def node (known : List (Nat × Tree Nat)) : Tree Nat → Node
  | .scalar s => .scalar s
  | .list ts => .list (nodes known ts)
  | .table fs => .table (fields known fs)
  | .alias i => .alias i
  | .anchored _ t => node known t

def nodes (known : List (Nat × Tree Nat)) : List (Tree Nat) → List Node
  | [] => []
  | t :: ts => node known t :: nodes known ts

def fields (known : List (Nat × Tree Nat)) :
    List (Tree Nat × Tree Nat) → List (Option String × Node)
  | [] => []
  | (k, v) :: fs => (keyText known k, node known v) :: fields known fs
end

/-- The document of a YAML text. A text without one stands for an empty scalar. -/
def document? (cs : List Char) : Option Document := do
  let (tree, _) ← number? [] ((← Tree.ofTokens? (← tokens? cs)).getD Tree.void)
  let known := (anchors tree).reverse
  return { root := node known tree, anchors := known.map fun (i, t) => (i, node known t) }

/-- In YAML a list never stands for a table. -/
def rules : Rules := { allowsLists := false, allowsExtras := false }

end EnumLookup.Manifest.Yaml
