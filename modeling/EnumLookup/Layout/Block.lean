/-!
# Indented blocks

Source text as a forest: lines, and scopes that hold further blocks between a pair of delimiters.
`render` is the text of a forest. A line that is not empty stands after one indentation per
enclosing scope, an empty line is bare, and a scope puts its body one level deeper than the lines
of its two delimiters.
-/

namespace EnumLookup.Layout

inductive Delimiter where
  | brace | bracket | paren
  deriving DecidableEq, Repr

namespace Delimiter

def opening : Delimiter → String
  | brace => "\x7b"
  | bracket => "["
  | paren => "("

def closing : Delimiter → String
  | brace => "\x7d"
  | bracket => "]"
  | paren => ")"

/-- The line that opens a scope. A header stands before the delimiter, with a space between if the
delimiter is a brace. -/
def openLine (d : Delimiter) (header : String) : String :=
  if header.isEmpty then d.opening
  else match d with
    | brace => header ++ " " ++ d.opening
    | _ => header ++ d.opening

/-- The line that closes a scope, with what terminates it. -/
def closeLine (d : Delimiter) (terminator : String) : String := d.closing ++ terminator

end Delimiter

/-- A line, or a scope with its header, delimiters, terminator and body. -/
inductive Block where
  | line (text : String)
  | scope (header : String) (delimiter : Delimiter) (terminator : String) (body : List Block)
  deriving Repr

def Block.blank : Block := .line ""

/-- A scope in braces. -/
def Block.braced (header : String) (body : List Block) : Block := .scope header .brace "" body

def indentation (indent : String) : Nat → String
  | 0 => ""
  | depth + 1 => indent ++ indentation indent depth

def renderLine (indent : String) (depth : Nat) (text : String) : String :=
  if text.isEmpty then "\n" else indentation indent depth ++ text ++ "\n"

mutual
def Block.render (indent : String) (depth : Nat) : Block → String
  | .line text => renderLine indent depth text
  | .scope header delimiter terminator body =>
    renderLine indent depth (delimiter.openLine header) ++
      Block.renderAll indent (depth + 1) body ++
      renderLine indent depth (delimiter.closeLine terminator)

/-- The text of a forest at a depth. -/
def Block.renderAll (indent : String) (depth : Nat) : List Block → String
  | [] => ""
  | b :: bs => b.render indent depth ++ Block.renderAll indent depth bs
end

end EnumLookup.Layout
