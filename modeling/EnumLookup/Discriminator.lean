import EnumLookup.Fault
import EnumLookup.Source.Lexer

/-!
# Discriminators

An enum's functions are named by a discriminator made of its full name: the segments between the
separators are joined by underscores, and the result has to be an identifier. Within a batch, a
discriminator that is already taken gets the least number from two on that makes it new.
-/

namespace EnumLookup

namespace Discriminator

/-- The punctuation that separates the segments of a name. -/
def separators : List Char := ['.', ':', '+', '/', '\\', '-', '<', '>', ',', '\x60', '[', ']']

/-- A separator between segments: one of the marks, or white space. -/
def isSeparator (c : Char) : Bool := separators.contains c || Text.isSpace c

/-- The non-empty runs of characters between separators, after a run that has already begun. -/
def segmentsFrom (run : List Char) : List Char → List (List Char)
  | [] => if run.isEmpty then [] else [run]
  | c :: r =>
    if isSeparator c then
      if run.isEmpty then segmentsFrom [] r else run :: segmentsFrom [] r
    else segmentsFrom (run ++ [c]) r

/-- The non-empty runs of characters between separators. -/
def segments (name : String) : List (List Char) := segmentsFrom [] name.toList

def join (segs : List (List Char)) : String := String.ofList (['_'].intercalate segs)

end Discriminator

/-- The discriminator of an enum's name. -/
def discriminator (name : String) : Except Fault String :=
  if name.toList.any Text.isControl then throw (.invalidName name .control)
  else
    let segs := Discriminator.segments name
    if segs.isEmpty then throw (.invalidName name .noSegment)
    else
      let joined := Discriminator.join segs
      if (Source.identifier? joined).isSome then pure joined
      else throw (.invalidName name (.notIdentifier joined))

namespace Discriminator

/-- The `k`-th numbered form of a base. -/
def numbered (base : String) (k : Nat) : String := base ++ "_" ++ Text.natText k

/-- The first of the numbered forms from `k` on that is not taken, among `fuel` of them. -/
def firstFree (taken : List String) (base : String) : Nat → Nat → String
  | 0, k => numbered base k
  | fuel + 1, k =>
    if taken.contains (numbered base k) then firstFree taken base fuel (k + 1) else numbered base k

/-- The base itself, or its first numbered form that is not taken. Among one more form than there
are taken texts, one is free. -/
def distinct (taken : List String) (base : String) : String :=
  if taken.contains base then firstFree taken base taken.length 2 else base

/-- Discriminators for the names in order, given those assigned before. -/
def assignFrom (taken : List String) : List String → Except Fault (List String)
  | [] => pure []
  | name :: rest => do
    let d := distinct taken (← discriminator name)
    return d :: (← assignFrom (d :: taken) rest)

/-- A distinct discriminator for each name of a batch, in order. -/
def assign (names : List String) : Except Fault (List String) := assignFrom [] names

end Discriminator

end EnumLookup
