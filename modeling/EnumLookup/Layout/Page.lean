/-!
# Breaking lines to a margin

A document is a sequence of texts, gaps and boxes. A box that fits on the rest of the line is
written without line breaks. One that does not is broken: in a consistent box at every gap, in an
inconsistent one only at the gaps whose following text does not fit. What has to fit together with a
box or a gap is everything up to the next gap that could still be broken.
-/

namespace EnumLookup.Layout

/-- A place where a line may end. -/
structure Gap where
  /-- The number of spaces if the line goes on. -/
  blanks : Nat := 0
  /-- The indentation of the next line, relative to that of the box. -/
  offset : Int := 0
  /-- What the line ends with if it ends here. -/
  before : String := ""
  /-- What the next line starts with if the line ends here. -/
  after : String := ""
  /-- What stands here, behind the spaces, if the line goes on. -/
  flat : String := ""
  /-- The line never ends here. -/
  isRigid : Bool := false
  deriving Repr

inductive Doc where
  | text (s : String)
  | gap (g : Gap)
  | box (isConsistent : Bool) (offset : Int) (content : List Doc)
  deriving Repr

/-- A width that fits on no line. -/
def unbounded : Nat := 0xFFFF

/-- The length of a line. -/
def margin : Int := 89

/-- The room that a line has, however deep its indentation. -/
def leastRoom : Int := 60

mutual
/-- The width of a document without line breaks. -/
def Doc.width : Doc → Nat
  | .text s => s.utf8ByteSize
  | .gap g => g.blanks
  | .box _ _ content => Doc.widthAll content

/-- The width of a sequence without line breaks. -/
def Doc.widthAll : List Doc → Nat
  | [] => 0
  | d :: ds => d.width + Doc.widthAll ds
end

/-- The width up to the next gap of the sequence, or up to the gap after it. -/
def Doc.reach (after : Nat) : List Doc → Nat
  | [] => after
  | .gap _ :: _ => 0
  | d :: ds => d.width + Doc.reach after ds

/-- How the gaps of a box are treated. -/
inductive Mode where
  /-- The box stands on one line. -/
  | fits
  /-- Every gap ends a line. -/
  | consistent
  /-- A gap ends a line if the text after it does not fit. -/
  | inconsistent
  deriving DecidableEq, Repr

/-- A text under construction. -/
structure Page where
  text : String := ""
  /-- The room left on the line. -/
  room : Int := margin
  /-- The indentation of the innermost broken box. -/
  indent : Int := 0
  /-- The spaces that go before the next text. -/
  pending : Nat := 0
  deriving Repr

namespace Page

def blanks (n : Nat) : String := String.ofList (List.replicate n ' ')

/-- The page with the pending spaces written. -/
def settle (p : Page) : Page := { p with text := p.text ++ blanks p.pending, pending := 0 }

def put (p : Page) (s : String) : Page :=
  { p.settle with text := p.settle.text ++ s, room := p.room - s.utf8ByteSize }

/-- The page after a gap at which the line goes on. -/
def stay (p : Page) (g : Gap) : Page :=
  { p with
    text := p.text ++ g.flat
    pending := p.pending + g.blanks
    room := p.room - g.blanks - g.flat.utf8ByteSize }

/-- The page after a gap at which the line ends. -/
def turn (p : Page) (g : Gap) : Page :=
  -- Spaces that are still pending are lost, unless the gap writes something behind them.
  let ended := if g.before.isEmpty then p.text else p.settle.text ++ g.before
  let column := p.indent + g.offset
  -- The indentation stays pending as well, so that an empty line holds no spaces.
  let next : Page := { p with
    text := ended ++ "\n"
    pending := column.toNat
    room := max (margin - column) leastRoom }
  if g.after.isEmpty then next else next.put g.after

/-- The page after a gap that is followed by `reach` characters up to the next gap. -/
def gap (p : Page) (mode : Mode) (reach : Nat) (g : Gap) : Page :=
  if g.isRigid then p.stay g
  else match mode with
    | .fits => p.stay g
    | .consistent => p.turn g
    | .inconsistent => if (g.blanks + reach : Nat) ≤ p.room then p.stay g else p.turn g

mutual
/-- The page after a document that is followed by `reach` characters up to the next gap. -/
def doc (p : Page) (mode : Mode) (reach : Nat) : Doc → Page
  | .text s => p.put s
  | .gap g => p.gap mode reach g
  | .box isConsistent offset content =>
    if (Doc.widthAll content + reach : Nat) ≤ p.room then p.docs .fits reach content
    else
      let inner : Page := { p with indent := p.indent + offset }
      let p' := inner.docs (if isConsistent then .consistent else .inconsistent) reach content
      { p' with indent := p.indent }

/-- The page after a sequence that is followed by `reach` characters up to the next gap. -/
def docs (p : Page) (mode : Mode) (reach : Nat) : List Doc → Page
  | [] => p
  | d :: ds => (p.doc mode (Doc.reach reach ds) d).docs mode reach ds
end

end Page

def Doc.render (ds : List Doc) : String := (({} : Page).docs .inconsistent 0 ds).text

end EnumLookup.Layout
