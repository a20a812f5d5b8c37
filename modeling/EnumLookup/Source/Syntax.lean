import EnumLookup.Source.Token

/-!
# The syntax of generated code

Generated files are values of a small language: functions whose bodies return early under
conditions and end in an expression, constants, modules, an error type and its implementations.
Documentation comments keep the text after their opening marks, leading space included.
-/

namespace EnumLookup.Source

/-- A path of words. -/
abbrev Path := List String

inductive Ty where
  /-- A named type with its lifetime and type arguments. -/
  | named (path : Path) (lifetimes : List String) (args : List Ty)
  | reference (lifetime : Option String) (isMut : Bool) (target : Ty)
  | slice (item : Ty)
  | tuple (items : List Ty)
  deriving Repr

inductive Expr where
  | text (value : String)
  /-- An integer literal with its sign and its width, if it has one. -/
  | number (value : Int) (suffix : Option Width)
  | path (p : Path)
  | call (callee : Expr) (args : List Expr)
  | method (receiver : Expr) (name : String) (args : List Expr)
  /-- A call with a bang. -/
  | invoke (name : String) (args : List Expr)
  /-- A shared reference to a value. -/
  | borrow (target : Expr)
  | array (items : List Expr)
  | tuple (items : List Expr)
  /-- A function of one argument. -/
  | closure (param : String) (body : Expr)
  /-- A comparison for equality. -/
  | equal (left right : Expr)
  /-- A choice by pattern, each arm a pattern with a block of one expression. -/
  | choose (subject : Expr) (arms : List (Expr × Expr))
  deriving Repr

inductive Stmt where
  /-- A value is discarded. -/
  | discard (value : Expr)
  /-- A value is returned if the condition holds. -/
  | returnIf (condition value : Expr)
  deriving Repr

inductive Param where
  /-- The value that the method is called on, by reference. -/
  | receiver
  | typed (name : String) (type : Ty)
  deriving Repr

/-- A function: after its statements it returns the value of an expression. -/
structure Function where
  name : String
  params : List Param
  result : Ty
  body : List Stmt
  value : Expr
  deriving Repr

/-- What stands before an item: a documentation comment, or a name with arguments in brackets. -/
inductive Attr where
  | doc (text : String)
  | list (name : String) (args : List String)
  deriving DecidableEq, Repr

/-- A variant of an enum with the types of its fields. -/
structure Variant where
  attrs : List Attr
  name : String
  fields : List Ty
  deriving Repr

inductive ItemKind where
  | module (name : String)
  | use (path : Path)
  | constant (name : String) (type : Ty) (value : Expr)
  | function (f : Function)
  | enumeration (name : String) (variants : List Variant)
  | implementation (interface target : Ty) (methods : List Function)
  deriving Repr

/-- An item with its attributes and visibility. -/
structure Item where
  attrs : List Attr := []
  isPublic : Bool := false
  kind : ItemKind
  deriving Repr

/-- A file: documentation of the module, then items. -/
structure File where
  docs : List String
  items : List Item
  deriving Repr

end EnumLookup.Source
