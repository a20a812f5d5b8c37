import EnumLookup.Layout.Block

/-!
# The scope writer

A writer collects lines at its current depth. Opening a scope notes the depth of the opening line and
goes one deeper. Closing the scope goes back to the depth that was noted, whatever happened in
between, and writes the closing line there. Driving a writer through a forest opens and closes one
scope for each scope of the forest.
-/

namespace EnumLookup.Layout

/-- An open scope: the depth of its opening line, and what closes it. -/
structure Closer where
  depth : Nat
  delimiter : Delimiter
  terminator : String
  deriving Repr

/-- A text under construction, with the depth of the next line and the open scopes, innermost
first. -/
structure Writer where
  indent : String
  text : String := ""
  depth : Nat := 0
  closers : List Closer := []
  deriving Repr

namespace Writer

/-- The writer after a text on the current line. -/
def push (w : Writer) (s : String) : Writer := { w with text := w.text ++ s }

/-- The writer after a number of indentations. -/
def pushIndents (w : Writer) : Nat → Writer
  | 0 => w
  | n + 1 => (w.push w.indent).pushIndents n

/-- The writer after one more line. An empty one is not indented. -/
def line (w : Writer) (text : String) : Writer :=
  (if text.isEmpty then w else (w.pushIndents w.depth).push text).push "\n"

/-- The writer after the opening line of a scope. -/
def openScope (w : Writer) (header : String) (delimiter : Delimiter) (terminator : String) :
    Writer :=
  let w' := w.line (delimiter.openLine header)
  { w' with depth := w'.depth + 1, closers := ⟨w'.depth, delimiter, terminator⟩ :: w'.closers }

/-- The writer after the innermost scope is closed; without an open scope there is nothing to do. -/
def close (w : Writer) : Writer :=
  match w.closers with
  | [] => w
  | c :: outer =>
    ({ w with depth := c.depth, closers := outer } : Writer).line (c.delimiter.closeLine c.terminator)

mutual
def block (w : Writer) : Block → Writer
  | .line text => w.line text
  | .scope header delimiter terminator body =>
    ((w.openScope header delimiter terminator).blocks body).close

def blocks (w : Writer) : List Block → Writer
  | [] => w
  | b :: bs => (w.block b).blocks bs
end

end Writer

/-- The text that a writer produces from a forest. -/
def write (indent : String) (bs : List Block) : String :=
  (({ indent := indent } : Writer).blocks bs).text

end EnumLookup.Layout
