import EnumLookup.Source.Grammar
import EnumLookup.Source.Lexer

/-!
# Reading generated code

A recursive-descent reader from tokens to files. It accepts the syntax of `Source.Syntax` and
nothing else, with an optional comma at the end of every list and optional braces around the arm of
a choice and the body of a closure. Each function takes a bound on its depth; `File.ofTokens?`
supplies one that no text can exhaust.
-/

namespace EnumLookup.Source

/-- A reader takes tokens from the front, or refuses them. -/
abbrev Reader := StateT (List Token) Option

namespace Reader

/-- The next token is this mark. -/
def mark (m : Mark) : Reader Unit := fun
  | .mark m' :: r => if m' = m then some ((), r) else none
  | _ => none

/-- The next token is taken if it is this mark. -/
def skip (m : Mark) : Reader Bool := fun
  | .mark m' :: r => if m' = m then some (true, r) else some (false, .mark m' :: r)
  | ts => some (false, ts)

/-- The next token is taken if it is this word. -/
def skipWord (w : String) : Reader Bool := fun
  | .word w' :: r => if w' = w then some (true, r) else some (false, .word w' :: r)
  | ts => some (false, ts)

/-- The next token is this word. -/
def word (w : String) : Reader Unit := fun
  | .word w' :: r => if w' = w then some ((), r) else none
  | _ => none

/-- The next token is an identifier. -/
def identifier : Reader String := fun
  | .word w :: r => if isIdentifier w then some (w, r) else none
  | _ => none

/-- The next token may stand in a path. -/
def segment : Reader String := fun
  | .word w :: r => if isSegment w then some (w, r) else none
  | _ => none

/-- The next token is taken if it is a lifetime. -/
def lifetime? : Reader (Option String) := fun
  | .lifetime l :: r => some (some l, r)
  | ts => some (none, ts)

/-- Items between commas up to a closing mark, and whether a comma stands before that mark. -/
def list (close : Mark) (item : Reader α) : Nat → Reader (List α × Bool)
  | 0 => failure
  | n + 1 => do
    -- Reached behind a comma, or at the start of an empty list.
    if ← skip close then return ([], true)
    let x ← item
    if ← skip .comma then
      let (xs, comma) ← list close item n
      return (x :: xs, comma)
    mark close
    return ([x], false)

/-- The items of a tuple; one item in parentheses is a tuple only with a comma behind it. -/
def tupleItems (items : List α × Bool) : Reader (List α) :=
  match items with
  | ([_], false) => failure
  | (xs, _) => return xs

/-- The segments of a path behind its first. -/
def pathRest : Nat → Reader Path
  | 0 => failure
  | n + 1 => do
    if ← skip .pathSep then return (← segment) :: (← pathRest n)
    return []

def path (n : Nat) : Reader Path := return (← segment) :: (← pathRest n)

/-- The lifetimes at the start of a list of type arguments. -/
def lifetimes : Nat → Reader (List String)
  | 0 => failure
  | n + 1 => do
    match ← lifetime? with
    | some l => do
      let _ ← skip .comma
      return l :: (← lifetimes n)
    | none => return []

def ty : Nat → Reader Ty
  | 0 => failure
  | n + 1 => do
    if ← skip .amp then
      let l ← lifetime?
      let isMut ← skipWord "mut"
      return .reference l isMut (← ty n)
    if ← skip .openBracket then
      let t ← ty n
      mark .closeBracket
      return .slice t
    if ← skip .openParen then
      return .tuple (← tupleItems (← list .closeParen (ty n) n))
    let p ← path n
    if ← skip .less then
      let ls ← lifetimes n
      let (ts, _) ← list .greater (ty n) n
      return .named p ls ts
    return .named p [] []

def literal : Reader Expr := fun
  | .text s :: r => some (.text s, r)
  | .number v w :: r => some (.number v w, r)
  | .mark .minus :: .number v w :: r => some (.number (-v) w, r)
  | _ => none

mutual
def expr : Nat → Reader Expr
  | 0 => failure
  | n + 1 => do
    let left ← operand n
    if ← skip .equal then return .equal left (← operand n)
    return left

/-- An expression without a comparison. -/
def operand : Nat → Reader Expr
  | 0 => failure
  | n + 1 => do
    if ← skip .amp then return .borrow (← operand n)
    suffixes (← primary n) n

/-- An expression with the calls behind it. -/
def suffixes (e : Expr) : Nat → Reader Expr
  | 0 => failure
  | n + 1 => do
    if ← skip .openParen then
      let (args, _) ← list .closeParen (expr n) n
      return ← suffixes (.call e args) n
    if ← skip .dot then
      let m ← identifier
      mark .openParen
      let (args, _) ← list .closeParen (expr n) n
      return ← suffixes (.method e m args) n
    return e

/-- An expression that no operator or call can split. -/
def primary : Nat → Reader Expr
  | 0 => failure
  | n + 1 => do
    if ← skip .openBracket then return .array (← list .closeBracket (expr n) n).1
    if ← skip .openParen then
      return .tuple (← tupleItems (← list .closeParen (expr n) n))
    if ← skip .bar then
      let p ← identifier
      mark .bar
      if ← skip .openBrace then
        let e ← expr n
        mark .closeBrace
        return .closure p e
      return .closure p (← expr n)
    if ← skipWord "match" then
      let subject ← expr n
      mark .openBrace
      return .choose subject (← arms n)
    literal <|> do
      let p ← path n
      match p with
      | [f] =>
        if ← skip .bang then
          mark .openParen
          return .invoke f (← list .closeParen (expr n) n).1
        return .path p
      | _ => return .path p

/-- The arms of a choice up to its closing brace. -/
def arms : Nat → Reader (List (Expr × Expr))
  | 0 => failure
  | n + 1 => do
    if ← skip .closeBrace then return []
    let p ← operand n
    mark .fatArrow
    if ← skip .openBrace then
      let e ← expr n
      mark .closeBrace
      let _ ← skip .comma
      return (p, e) :: (← arms n)
    let e ← expr n
    if ← skip .comma then return (p, e) :: (← arms n)
    mark .closeBrace
    return [(p, e)]
end

/-- The statements and the value of a body, whose opening brace has been read. -/
def body : Nat → Reader (List Stmt × Expr)
  | 0 => failure
  | n + 1 => do
    if ← skipWord "if" then
      let condition ← expr n
      mark .openBrace
      word "return"
      let value ← expr n
      mark .semicolon
      mark .closeBrace
      let (ss, e) ← body n
      return (.returnIf condition value :: ss, e)
    if ← skipWord "let" then
      word "_"
      mark .assign
      let value ← expr n
      mark .semicolon
      let (ss, e) ← body n
      return (.discard value :: ss, e)
    let e ← expr n
    mark .closeBrace
    return ([], e)

def param (n : Nat) : Reader Param := do
  if ← skip .amp then
    word "self"
    return .receiver
  let name ← identifier
  mark .colon
  return .typed name (← ty n)

/-- A function, whose keyword has been read. -/
def function (n : Nat) : Reader Function := do
  let name ← identifier
  mark .openParen
  let (params, _) ← list .closeParen (param n) n
  mark .arrow
  let result ← ty n
  mark .openBrace
  let (ss, e) ← body n
  return ⟨name, params, result, ss, e⟩

def attrs : Nat → Reader (List Attr)
  | 0 => failure
  | n + 1 => fun
    | .doc false t :: r => ((.doc t :: ·) <$> attrs n) r
    | .mark .hash :: r => (do
        mark .openBracket
        let name ← identifier
        mark .openParen
        let (args, _) ← list .closeParen identifier n
        mark .closeBracket
        return .list name args :: (← attrs n) : Reader (List Attr)) r
    | ts => some ([], ts)

/-- The methods of an implementation up to its closing brace. -/
def methods : Nat → Reader (List Function)
  | 0 => failure
  | n + 1 => do
    if ← skip .closeBrace then return []
    word "fn"
    return (← function n) :: (← methods n)

def variant (n : Nat) : Reader Variant := do
  let attrs ← attrs n
  let name ← identifier
  mark .openParen
  let (fields, _) ← list .closeParen (ty n) n
  return ⟨attrs, name, fields⟩

def itemKind (n : Nat) : Reader ItemKind := do
  if ← skipWord "mod" then
    let name ← identifier
    mark .semicolon
    return .module name
  if ← skipWord "use" then
    let p ← path n
    mark .semicolon
    return .use p
  if ← skipWord "const" then
    let name ← identifier
    mark .colon
    let t ← ty n
    mark .assign
    let e ← expr n
    mark .semicolon
    return .constant name t e
  if ← skipWord "fn" then return .function (← function n)
  if ← skipWord "enum" then
    let name ← identifier
    mark .openBrace
    return .enumeration name (← list .closeBrace (variant n) n).1
  word "impl"
  let interface ← ty n
  word "for"
  let target ← ty n
  mark .openBrace
  return .implementation interface target (← methods n)

/-- The documentation of the module at the start of a file. -/
def docs : List Token → List String × List Token
  | .doc true t :: r => let (ts, rest) := docs r; (t :: ts, rest)
  | r => ([], r)

/-- Items up to the end of the file. -/
def items : Nat → Reader (List Item)
  | 0 => failure
  | n + 1 => do
    if (← get).isEmpty then return []
    let attrs ← attrs n
    let isPublic ← skipWord "pub"
    let kind ← itemKind n
    return ⟨attrs, isPublic, kind⟩ :: (← items n)

end Reader

/-- The file that tokens spell, if it is one. -/
def File.ofTokens? (ts : List Token) : Option File := do
  let (docs, rest) := Reader.docs ts
  let (items, _) ← (Reader.items (8 * ts.length + 8)).run rest
  return ⟨docs, items⟩

/-- The file that a text spells, if it is one. -/
def File.read? (s : String) : Option File := do File.ofTokens? (← tokens? s.toList)

end EnumLookup.Source
