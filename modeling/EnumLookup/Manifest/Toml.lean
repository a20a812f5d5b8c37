import EnumLookup.Manifest.Toml.Scalar
import EnumLookup.Manifest.Toml.Table

/-!
# Manifests in TOML

A reader for TOML documents: headers, and keys with values, each on a line of its own. Arrays and
inline tables may stretch over lines and end with a comma. Values nest at most 80 deep, and a dotted
key has at most 80 parts.
-/

namespace EnumLookup.Manifest.Toml

/-- How deep values may nest, and how many parts a key may have. -/
def depthLimit : Nat := 80

/-- The text behind spaces and tabs. -/
def skipBlanks (cs : List Char) : List Char := cs.dropWhile isBlank

/-- The text behind white space, line ends and comments. -/
def skipLines (inComment : Bool) : List Char → Option (List Char)
  | [] => some []
  | '\n' :: r => skipLines false r
  | '\r' :: '\n' :: r => skipLines false r
  | c :: r =>
    if inComment then if isForbidden c then none else skipLines true r
    else if isBlank c then skipLines false r
    else if c = '#' then skipLines true r
    else some (c :: r)

/-- The text of the next lines, if nothing but blanks and a comment is left on this one. -/
def finishLine (inComment : Bool) : List Char → Option (List Char)
  | [] => some []
  | '\n' :: r => some r
  | '\r' :: '\n' :: r => some r
  | c :: r =>
    if inComment then if isForbidden c then none else finishLine true r
    else if isBlank c then finishLine false r
    else if c = '#' then finishLine true r
    else none

/-- A character of a key without quotation marks. -/
def isKey (c : Char) : Bool := c.isAlphanum || c == '-' || c == '_'

def part? : List Char → Option (String × List Char)
  | '"' :: '"' :: '"' :: _ => none
  | '\'' :: '\'' :: '\'' :: _ => none
  | '"' :: r => string? ('"' :: r)
  | '\'' :: r => string? ('\'' :: r)
  | cs =>
    let (key, rest) := cs.span isKey
    if key.isEmpty then none else some (String.ofList key, rest)

/-- A key with its parts, blanks allowed around each. -/
def key? : Nat → List Char → Option (List String × List Char)
  | 0, _ => none
  | n + 1, cs => do
    let (p, rest) ← part? (skipBlanks cs)
    match skipBlanks rest with
    | '.' :: r =>
      let (ps, rest) ← key? n r
      return (p :: ps, rest)
    | rest => return ([p], rest)

mutual
/-- A value inside `depth` others, and the rest. -/
def value? (depth : Nat) : Nat → List Char → Option (Value × List Char)
  | 0, _ => none
  | n + 1, cs =>
    match cs with
    | '[' :: r =>
      if depth < depthLimit then
        (items? (depth + 1) n r).map fun (vs, rest) => (.array false vs, rest)
      else none
    | '\x7b' :: r =>
      if depth < depthLimit then
        (fields? (depth + 1) n [] r).map fun (fs, rest) => (.table .inline fs, rest)
      else none
    | '"' :: r => text? ('"' :: r)
    | '\'' :: r => text? ('\'' :: r)
    | cs =>
      let (run, rest) := takePlain cs
      (plain? run).map fun v => (.scalar { text := none, value := v }, rest)

/-- The items of an array up to its end. -/
def items? (depth : Nat) : Nat → List Char → Option (List Value × List Char)
  | 0, _ => none
  | n + 1, cs => do
    match ← skipLines false cs with
    | ']' :: rest => some ([], rest)
    | r =>
      let (v, rest) ← value? depth n r
      match ← skipLines false rest with
      | ',' :: r => (items? depth n r).map fun (vs, rest) => (v :: vs, rest)
      | ']' :: rest => some ([v], rest)
      | _ => none

/-- The fields of an inline table up to its end, added to those before. -/
def fields? (depth : Nat) : Nat → Fields → List Char → Option (Fields × List Char)
  | 0, _, _ => none
  | n + 1, fs, cs => do
    match ← skipLines false cs with
    | '\x7d' :: rest => some (fs, rest)
    | r =>
      let (path, rest) ← key? depthLimit r
      match rest with
      | '=' :: r =>
        let (v, rest) ← value? depth n (skipBlanks r)
        let (_, fs) ← Fields.insert path v .inline fs
        match ← skipLines false rest with
        | ',' :: r => fields? depth n fs r
        | '\x7d' :: rest => some (fs, rest)
        | _ => none
      | _ => none

def text? (cs : List Char) : Option (Value × List Char) :=
  (string? cs).map fun (s, rest) => (.scalar { text := some s, value := .other }, rest)
end

/-- The header of a table, or of one in an array: its path, and what follows it. -/
def header? : List Char → Option (Bool × List String × List Char)
  | '[' :: '[' :: r => do
    let (path, rest) ← key? depthLimit r
    match rest with
    | ']' :: ']' :: rest => some (true, path, rest)
    | _ => none
  | '[' :: r => do
    let (path, rest) ← key? depthLimit r
    match rest with
    | ']' :: rest => some (false, path, rest)
    | _ => none
  | _ => none

/-- The document with the lines of a text added, below the last header. -/
def lines? : Nat → Fields → List String → List Char → Option Fields
  | 0, _, _, _ => none
  | n + 1, root, header, cs => do
    match ← skipLines false cs with
    | [] => some root
    | '[' :: r =>
      let (isArray, path, rest) ← header? ('[' :: r)
      let root ← if isArray then root.extend path else root.define path
      lines? n root path (← finishLine false rest)
    | r =>
      let (path, rest) ← key? depthLimit r
      match rest with
      | '=' :: r =>
        let (v, rest) ← value? 0 (2 * r.length + 2) (skipBlanks r)
        let root ← root.insertAt header path v
        lines? n root header (← finishLine false rest)
      | _ => none

/-- The document of a TOML text. A byte order mark may stand before it. -/
def document? (cs : List Char) : Option Document := do
  let cs := match cs with
    | '\ufeff' :: r => r
    | cs => cs
  let root ← lines? (cs.length + 1) [] [] cs
  some { root := (Value.table .defined root).node }

/-- A list may stand for a table in TOML, whatever its length. -/
def rules : Rules := { allowsLists := true, allowsExtras := true }

end EnumLookup.Manifest.Toml
