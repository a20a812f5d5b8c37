import EnumLookup.Manifest.Yaml.Schema
import EnumLookup.Manifest.Yaml.Token

/-!
# Trees of a YAML document

What the tokens of a text amount to: scalars, lists and tables, some of them anchored under a name,
and references to anchors. Missing keys, values and items are empty plain scalars.
-/

namespace EnumLookup.Manifest.Yaml

/-- The data of a document, with its anchors called by values of `α`. -/
inductive Tree (α : Type) where
  | scalar (s : Scalar)
  | list (items : List (Tree α))
  | table (fields : List (Tree α × Tree α))
  | alias (anchor : α)
  | anchored (anchor : α) (node : Tree α)

namespace Tree

/-- What stands where nothing is written. -/
def void : Tree String := .scalar (Yaml.scalar none true "")

/-- The handles of tags and what they stand for. -/
abbrev Handles := List (List Char × List Char)

/-- The full tag: a handle has to be known, but for the tags without one. -/
def fullTag? (handles : Handles) (t : Tag) : Option (List Char) :=
  if t.handle.isEmpty then some t.suffix
  else (handles.find? (·.1 == t.handle)).map fun h => h.2 ++ t.suffix

/-- The anchor and the tag in front of a node, in either order. -/
def properties : List Token → Option String × Option Tag × List Token
  | .anchor a :: .tag t :: ts => (some a, some t, ts)
  | .anchor a :: ts => (some a, none, ts)
  | .tag t :: .anchor a :: ts => (some a, some t, ts)
  | .tag t :: ts => (none, some t, ts)
  | ts => (none, none, ts)

/-- The node under its anchor, if it has one. -/
def under : Option String → Tree String → Tree String
  | some a, t => .anchored a t
  | none, t => t

/-- A reader finds a result at the start of tokens, and the tokens behind it. -/
abbrev Reader (α : Type) := List Token → Option (α × List Token)

/-- Tokens that end a key or value in block style before it has begun. -/
def endsBlockPart : Token → Bool
  | .key | .value | .blockEnd => true
  | _ => false

mutual
/-- A node. Block style is possible outside brackets only, and a list without indentation of its
own only as a key or value of a table. -/
def node? (handles : Handles) (isBlock isPart : Bool) : Nat → Reader (Tree String)
  | 0, _ => none
  | n + 1, ts =>
    match ts with
    | .alias a :: rest => some (.alias a, rest)
    | ts => do
      let (anchor, tag, ts) := properties ts
      let full ← match tag with
        | some t => (fullTag? handles t).map some
        | none => some none
      let (node, rest) ← content? handles isBlock isPart (tag.isSome || anchor.isSome) full n ts
      return (under anchor node, rest)

/-- What follows an anchor and a tag. -/
def content? (handles : Handles) (isBlock isPart hasProperties : Bool)
    (tag : Option (List Char)) : Nat → Reader (Tree String)
  | 0, _ => none
  | n + 1, ts =>
    match ts with
    | .scalar isPlain text :: rest =>
      if tag = some ['!'] then some (.scalar (Yaml.scalar none isPlain text), rest)
      else some (.scalar (Yaml.scalar tag isPlain text), rest)
    | .flowList :: rest => (flowItems? handles true n rest).map fun (xs, rest) => (.list xs, rest)
    | .flowTable :: rest =>
      (flowFields? handles true n rest).map fun (fs, rest) => (.table fs, rest)
    | ts =>
      if isPart && ts.head? == some .blockEntry then
        (looseItems? handles n ts).map fun (xs, rest) => (.list xs, rest)
      else if isBlock && ts.head? == some .blockList then
        (items? handles n (ts.drop 1)).map fun (xs, rest) => (.list xs, rest)
      else if isBlock && ts.head? == some .blockTable then
        (fields? handles n (ts.drop 1)).map fun (fs, rest) => (.table fs, rest)
      else if hasProperties then some (.scalar (Yaml.scalar tag true ""), ts)
      else none

/-- The items of a list in block style up to its end. -/
def items? (handles : Handles) : Nat → Reader (List (Tree String))
  | 0, _ => none
  | n + 1, ts => do
    match ts with
    | .blockEnd :: rest => some ([], rest)
    | .blockEntry :: rest =>
      let (x, rest) ← match rest.head? with
        | some .blockEntry => some (void, rest)
        | some .blockEnd => some (void, rest)
        | _ => node? handles true false n rest
      let (xs, rest) ← items? handles n rest
      return (x :: xs, rest)
    | _ => none

/-- The items of a list without indentation of its own. -/
def looseItems? (handles : Handles) : Nat → Reader (List (Tree String))
  | 0, _ => none
  | n + 1, ts => do
    match ts with
    | .blockEntry :: rest =>
      let (x, rest) ← match rest with
        | t :: _ =>
          if t == .blockEntry || endsBlockPart t then some (void, rest)
          else node? handles true false n rest
        | [] => none
      let (xs, rest) ← looseItems? handles n rest
      return (x :: xs, rest)
    | ts => return ([], ts)

/-- The fields of a table in block style up to its end. -/
def fields? (handles : Handles) : Nat → Reader (List (Tree String × Tree String))
  | 0, _ => none
  | n + 1, ts => do
    match ts with
    | .blockEnd :: rest => some ([], rest)
    | .key :: rest =>
      let (k, rest) ← part? handles n rest
      let (v, rest) ← match rest with
        | .value :: rest => part? handles n rest
        | rest => some (void, rest)
      let (fs, rest) ← fields? handles n rest
      return ((k, v) :: fs, rest)
    | _ => none

/-- A key or value in block style, perhaps missing. -/
def part? (handles : Handles) : Nat → Reader (Tree String)
  | 0, _ => none
  | n + 1, ts =>
    match ts with
    | [] => none
    | t :: _ => if endsBlockPart t then some (void, ts) else node? handles true true n ts

/-- The items of a list in brackets up to its end. A key makes a table of an item. -/
def flowItems? (handles : Handles) (isFirst : Bool) : Nat → Reader (List (Tree String))
  | 0, _ => none
  | n + 1, ts => do
    match ts with
    | .flowListEnd :: rest => some ([], rest)
    | _ =>
      let ts ← if isFirst then some ts else match ts with
        | .flowEntry :: rest => some rest
        | _ => none
      match ts with
      | .flowListEnd :: rest => some ([], rest)
      | .key :: rest =>
        let (x, rest) ← pair? handles n rest
        let (xs, rest) ← flowItems? handles false n rest
        return (x :: xs, rest)
      | ts =>
        let (x, rest) ← node? handles false false n ts
        let (xs, rest) ← flowItems? handles false n rest
        return (x :: xs, rest)

/-- The table that a key makes of an item in brackets. A missing key takes the sign behind it with
it. -/
def pair? (handles : Handles) : Nat → Reader (Tree String)
  | 0, _ => none
  | n + 1, ts => do
    let (k, rest) ← match ts with
      | .value :: rest => some (void, rest)
      | .flowEntry :: rest => some (void, rest)
      | .flowListEnd :: rest => some (void, rest)
      | ts => node? handles false false n ts
    let (v, rest) ← match rest with
      | .value :: .flowEntry :: rest => some (void, .flowEntry :: rest)
      | .value :: .flowListEnd :: rest => some (void, .flowListEnd :: rest)
      | .value :: rest => node? handles false false n rest
      | rest => some (void, rest)
    return (.table [(k, v)], rest)

/-- The fields of a table in braces up to its end. -/
def flowFields? (handles : Handles) (isFirst : Bool) : Nat →
    Reader (List (Tree String × Tree String))
  | 0, _ => none
  | n + 1, ts => do
    match ts with
    | .flowTableEnd :: rest => some ([], rest)
    | _ =>
      let ts ← if isFirst then some ts else match ts with
        | .flowEntry :: rest => some rest
        | _ => none
      match ts with
      | .flowTableEnd :: rest => some ([], rest)
      | .key :: rest =>
        let (k, rest) ← flowPart? handles true n rest
        let (v, rest) ← match rest with
          | .value :: rest => flowPart? handles false n rest
          | rest => some (void, rest)
        let (fs, rest) ← flowFields? handles false n rest
        return ((k, v) :: fs, rest)
      | ts =>
        let (k, rest) ← node? handles false false n ts
        let (fs, rest) ← flowFields? handles false n rest
        return ((k, void) :: fs, rest)

/-- A key or value in braces, perhaps missing. -/
def flowPart? (handles : Handles) (isKey : Bool) : Nat → Reader (Tree String)
  | 0, _ => none
  | n + 1, ts =>
    match ts with
    | .flowEntry :: _ => some (void, ts)
    | .flowTableEnd :: _ => some (void, ts)
    | .value :: _ => if isKey then some (void, ts) else none
    | ts => node? handles false false n ts
end

/-- Handles declared in front of a document. -/
structure Directives where
  hasVersion : Bool := false
  handles : Handles := []

/-- The directives at the start of a document, and the tokens behind them. Only versions 1.1 and 1.2
are known, and neither a version nor a handle may be declared twice. -/
def directives? (d : Directives) : List Token → Option (Directives × List Token)
  | .version major minor :: ts =>
    if d.hasVersion || major != 1 || (minor != 1 && minor != 2) then none
    else directives? { d with hasVersion := true } ts
  | .handle name text :: ts =>
    if d.handles.any (·.1 == name) then none
    else directives? { d with handles := (name, text) :: d.handles } ts
  | ts => some (d, ts)

/-- The handles known without a directive come last. -/
def withDefaults (handles : Handles) : Handles :=
  handles ++ [(['!'], ['!']), (['!', '!'], coreHandle)]

/-- The content of a document behind its start. -/
def body? (handles : Handles) (fuel : Nat) : Reader (Tree String)
  | [] => some (void, [])
  | t :: ts =>
    match t with
    | .version _ _ | .handle _ _ | .documentStart | .documentEnd => some (void, t :: ts)
    | _ => node? handles true false fuel (t :: ts)

/-- The only document of the tokens, or nothing if there is none; more of them are refused. -/
def ofTokens? (ts : List Token) : Option (Option (Tree String)) := do
  if ts.isEmpty then return none
  let fuel := 4 * ts.length + 4
  let (d, rest) ← directives? {} ts
  -- Only a document without directives may start without a mark.
  let isBare := rest.length == ts.length && rest.head? != some .documentStart
  let (tree, rest) ←
    if isBare then node? (withDefaults []) true false fuel ts
    else match rest with
      | .documentStart :: rest => body? (withDefaults d.handles) fuel rest
      | _ => none
  if rest.all (· == .documentEnd) then return some tree else none

end Tree

end EnumLookup.Manifest.Yaml
