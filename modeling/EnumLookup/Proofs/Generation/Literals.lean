import EnumLookup.Generation.Support
import EnumLookup.Proofs.Generation.Meaning
import EnumLookup.Proofs.Source.Literals

/-!
# Emitted string literals

The string literals of a lookup file are the type tags, the names of the members and the argument
that a guard names. Those of the support file are the type tags, the hint for unknown tags and the
wording of the error.
-/

namespace EnumLookup

open Source

namespace Generation

open Term

/-! ## What is emitted -/

/-- The argument that the guard of an operation names. -/
def guardTexts : Operation → List String
  | .nameLookup | .valueTable => []
  | .tryParse => ["name"]

def helperTexts (o : Operation) (e : Resolved) : List String :=
  guardTexts o ++ e.entries.map Entry.name

/-- The string literals in what a dispatcher does for one enum. -/
def branchTexts (o : Operation) (e : Resolved) : List String :=
  match o with
  | .valueTable => e.name :: e.entries.map Entry.name
  | .nameLookup | .tryParse => [e.name]

def dispatcherTexts (o : Operation) (enums : List Resolved) : List String :=
  guardTexts o ++ enums.flatMap (branchTexts o)

def lookupTexts (o : Operation) (enums : List Resolved) : List String :=
  enums.flatMap (helperTexts o) ++ dispatcherTexts o enums

/-- The string literals in the support file: the tags, the hint, and the wording of the error. -/
def supportTexts (enums : List Resolved) (c : Config) : List String :=
  enums.map Resolved.name ++ [hint c.marker,
    "unsupported enum type '\x7btag\x7d': \x7bUNSUPPORTED_HINT\x7d",
    "invalid argument '\x7bargument\x7d': value cannot be blank"]

variable (o : Operation) (e : Resolved) (d : String)

theorem call_texts (f : String) (arg : Expr) : (call f [arg]).texts = arg.texts := by
  rw [call, Expr.texts, var, Expr.texts, Expr.textsEach, Expr.textsEach, List.flatten_singleton,
    List.nil_append]

/-- A table of members has their names as its only string literals. -/
theorem table_texts (ms : List Entry) (value : Entry → Int) (suffix : Entry → Option Width) :
    (Expr.borrow (.array (ms.map fun m => pair m (.number (value m) (suffix m))))).texts =
      ms.map Entry.name := by
  rw [Expr.texts, Expr.texts, textsEach_map, List.map_eq_flatMap]
  rfl

theorem helper_texts : (helper o e d).texts = helperTexts o e := by
  cases o with
  | nameLookup =>
      rw [helperTexts, List.map_eq_flatMap, Function.texts, helper, List.flatMap_map]
      exact List.append_nil _
  | valueTable => exact table_texts e.entries _ _
  | tryParse =>
      rw [helperTexts, List.map_eq_flatMap, Function.texts, helper, List.flatMap_cons,
        List.flatMap_map]
      exact List.append_nil _

theorem delegate_texts : e.name :: (delegate o e d).texts = branchTexts o e := by
  cases o with
  | nameLookup => rfl
  | valueTable => rw [delegate, call_texts, table_texts, branchTexts]
  | tryParse => rfl

theorem dispatcher_texts (ps : List (Resolved × String)) :
    (dispatcher o ps).texts = dispatcherTexts o (ps.map Prod.fst) := by
  have hpreamble : (preamble o (ps.map Prod.fst)).flatMap Stmt.texts = guardTexts o := by
    cases o with
    | nameLookup => cases ps <;> rfl
    | valueTable => rfl
    | tryParse => rfl
  have hbranches : ps.flatMap (fun p => p.1.name :: (delegate o p.1 p.2).texts) =
      (ps.map Prod.fst).flatMap (branchTexts o) := by
    rw [List.flatMap_map]
    exact congrArg (List.flatMap · ps) (funext fun p => delegate_texts o p.1 p.2)
  rw [Function.texts, dispatcher, List.flatMap_append, hpreamble, List.flatMap_map,
    dispatcherTexts, ← hbranches]
  exact List.append_nil _

/-- Discriminators stand in no string literal, so those of a lookup file depend on the enums alone. -/
theorem lookup_texts (ps : List (Resolved × String)) :
    (lookupListing o ps).file.texts = lookupTexts o (ps.map Prod.fst) := by
  have hhelpers : ps.flatMap (fun p => (helperItem o p.1 p.2).kind.texts) =
      (ps.map Prod.fst).flatMap (helperTexts o) := by
    rw [List.flatMap_map]
    exact congrArg (List.flatMap · ps) (funext fun p => helper_texts o p.1 p.2)
  rw [File.texts, items_lookup, List.flatMap_cons, List.flatMap_append, List.flatMap_map, hhelpers,
    lookupTexts, ← dispatcher_texts]
  exact congrArg (((ps.map Prod.fst).flatMap (helperTexts o)) ++ ·) (List.append_nil _)

theorem support_texts (enums : List Resolved) (c : Config) :
    (support enums c).file.texts = supportTexts enums c := by
  -- The declarations of modules and uses, one of each for every operation, have no literals.
  have hmodules : ∀ f : Operation → ItemKind, (∀ o, (f o).texts = []) →
      ((c.operations.map fun o => ({ isPublic := true, kind := f o } : Item)).flatMap
        fun i => i.kind.texts) = [] := by
    intro f hf
    simp [List.flatMap_map, hf]
  have htags : (tagsItem enums).kind.texts = enums.map Resolved.name := by
    rw [tagsItem, ItemKind.texts, Expr.texts, Expr.texts, textsEach_map, List.map_eq_flatMap]
    rfl
  rw [File.texts, Listing.file, support]
  simp only [List.flatten_cons, List.flatMap_append, htags,
    hmodules (fun o => .module o.moduleName) fun _ => rfl,
    hmodules (fun o => .use [o.moduleName, o.dispatcher]) fun _ => rfl, List.flatMap_cons,
    List.flatMap_nil, List.append_nil, List.nil_append]
  rfl

end Generation

end EnumLookup
