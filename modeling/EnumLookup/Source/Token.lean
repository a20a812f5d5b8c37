import EnumLookup.Text.Quoted
import EnumLookup.Width

/-!
# Tokens of generated code

The tokens that generated code is made of: words, lifetimes, string and integer literals, marks and
documentation comments. A word keeps its spelling, so `r#type` and `type` are different words.
-/

namespace EnumLookup.Source

/-- A punctuation mark or bracket. -/
inductive Mark where
  | openParen | closeParen | openBracket | closeBracket | openBrace | closeBrace
  | comma | semicolon | colon | pathSep | dot | amp | bar | assign | equal | bang | hash
  | less | greater | minus | arrow | fatArrow
  deriving DecidableEq, Repr

def Mark.chars : Mark → List Char
  | openParen => ['(']
  | closeParen => [')']
  | openBracket => ['[']
  | closeBracket => [']']
  | openBrace => ['\x7b']
  | closeBrace => ['\x7d']
  | comma => [',']
  | semicolon => [';']
  | colon => [':']
  | pathSep => [':', ':']
  | dot => ['.']
  | amp => ['&']
  | bar => ['|']
  | assign => ['=']
  | equal => ['=', '=']
  | bang => ['!']
  | hash => ['#']
  | less => ['<']
  | greater => ['>']
  | minus => ['-']
  | arrow => ['-', '>']
  | fatArrow => ['=', '>']

/-- The marks, those of two characters before those of one. -/
def Mark.all : List Mark := [
  pathSep, equal, fatArrow, arrow,
  openParen, closeParen, openBracket, closeBracket, openBrace, closeBrace,
  comma, semicolon, colon, dot, amp, bar, assign, bang, hash, less, greater, minus]

/-- A token of generated code. -/
inductive Token where
  /-- An identifier or keyword, with a leading `r#` if it has one. -/
  | word (spelling : String)
  /-- A lifetime, without its tick. -/
  | lifetime (name : String)
  /-- A string literal, by the text it denotes. -/
  | text (value : String)
  /-- An integer literal without sign. -/
  | number (value : Nat) (suffix : Option Width)
  | mark (m : Mark)
  /-- A documentation comment, about the item after it or about the module it stands in. -/
  | doc (inner : Bool) (text : String)
  deriving DecidableEq, Repr

/-- The words that cannot be identifiers. -/
def keywords : List String := [
  "_", "abstract", "as", "async", "await", "become", "box", "break", "const", "continue", "crate",
  "do", "dyn", "else", "enum", "extern", "false", "final", "fn", "for", "if", "impl", "in", "let",
  "loop", "macro", "match", "mod", "move", "mut", "override", "priv", "pub", "ref", "return",
  "Self", "self", "static", "struct", "super", "trait", "true", "try", "type", "typeof", "unsafe",
  "unsized", "use", "virtual", "where", "while", "yield"]

/-- The words that stay keywords after `r#`. -/
def unrawable : List String := ["_", "crate", "self", "Self", "super"]

/-- The word may stand where an identifier is wanted. -/
def isIdentifier (word : String) : Bool := !keywords.contains word

end EnumLookup.Source
