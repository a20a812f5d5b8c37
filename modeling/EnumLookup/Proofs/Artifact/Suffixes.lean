import EnumLookup.Proofs.Artifact.Collisions

/-!
# Suffixes of literals

The integer type in the signature of a helper is the width of its enum, and the suffix of a literal in
its body is the width of a value. Nothing compares the two: what decides whether a lookup file is
built is the names of the enums alone.
-/

namespace EnumLookup

open Source Generation Discriminator Outcome Artifact

namespace Source

/-! ## Integer types and integer literals -/

mutual
/-- The integer types in a type, from left to right. -/
def Ty.widths : Ty → List Width
  | .named [word] _ args => (Width.ofText? word).toList ++ Ty.widthsEach args
  | .named _ _ args => Ty.widthsEach args
  | .reference _ _ target => target.widths
  | .slice item => item.widths
  | .tuple items => Ty.widthsEach items

def Ty.widthsEach : List Ty → List Width
  | [] => []
  | t :: ts => t.widths ++ Ty.widthsEach ts
end

mutual
/-- The suffixes of the integer literals in an expression, from left to right. -/
def Expr.suffixes : Expr → List (Option Width)
  | .text _ => []
  | .number _ suffix => [suffix]
  | .path _ => []
  | .call callee args => callee.suffixes ++ Expr.suffixesEach args
  | .method receiver _ args => receiver.suffixes ++ Expr.suffixesEach args
  | .invoke _ args => Expr.suffixesEach args
  | .borrow target => target.suffixes
  | .array items => Expr.suffixesEach items
  | .tuple items => Expr.suffixesEach items
  | .closure _ body => body.suffixes
  | .equal left right => left.suffixes ++ right.suffixes
  | .choose subject arms => subject.suffixes ++ Expr.suffixesArms arms

def Expr.suffixesEach : List Expr → List (Option Width)
  | [] => []
  | e :: es => e.suffixes ++ Expr.suffixesEach es

/-- The suffixes of the literals in the arms of a choice. -/
def Expr.suffixesArms : List (Expr × Expr) → List (Option Width)
  | [] => []
  | (p, e) :: arms => p.suffixes ++ e.suffixes ++ Expr.suffixesArms arms
end

def Stmt.suffixes : Stmt → List (Option Width)
  | discard value => value.suffixes
  | returnIf condition value => condition.suffixes ++ value.suffixes

def Param.widths : Param → List Width
  | receiver => []
  | typed _ type => type.widths

namespace Function

/-- The integer types in the signature of a function. -/
def widths (f : Function) : List Width := f.params.flatMap Param.widths ++ f.result.widths

/-- The suffixes of the literals in the body of a function. -/
def suffixes (f : Function) : List (Option Width) :=
  f.body.flatMap Stmt.suffixes ++ f.value.suffixes

/-- Every integer literal has the integer type of the signature for its suffix. -/
def SuffixesMatch (f : Function) : Prop := ∀ s ∈ f.suffixes, ∀ w ∈ f.widths, s = some w

end Function

theorem suffixesEach_map {α : Type} (f : α → Expr) (xs : List α) :
    Expr.suffixesEach (xs.map f) = xs.flatMap fun x => (f x).suffixes := by
  induction xs with
  | nil => rfl
  | cons x xs ih => rw [List.map_cons, Expr.suffixesEach, ih, List.flatMap_cons]

end Source

namespace Generation

variable (o : Operation) (e : Resolved) (d : String)

@[simp]
theorem widths_width (w : Width) : (LookupType.width w).widths = [w] := by cases w <;> rfl

@[simp]
theorem widths_name : LookupType.name.widths = [] := rfl

@[simp]
theorem widths_borrowedText : LookupType.borrowedText.widths = [] := rfl

@[simp]
theorem widths_optional (t : Ty) : (LookupType.optional t).widths = t.widths := by
  rw [LookupType.optional, Ty.widths, Ty.widthsEach, Ty.widthsEach, List.append_nil]
  rfl

@[simp]
theorem widths_answer (t : Ty) : (LookupType.answer t).widths = t.widths := by
  have herror : (LookupType.plain errorType).widths = [] := rfl
  rw [LookupType.answer, Ty.widths, Ty.widthsEach, Ty.widthsEach, Ty.widthsEach, herror,
    List.append_nil]
  exact List.append_nil _

@[simp]
theorem widths_table (t : Ty) : (LookupType.table t).widths = t.widths := by
  rw [LookupType.table, Ty.widths, Ty.widths, Ty.widths, Ty.widthsEach, Ty.widthsEach,
    Ty.widthsEach, widths_name]
  exact List.append_nil _

/-- A helper has one integer type in its signature, the width of its enum. -/
theorem helper_widths : (helper o e d).widths = [e.width] := by
  cases o with
  | nameLookup => simp [helper, Function.widths, Param.widths]
  | valueTable => simp [helper, Function.widths]
  | tryParse => simp [helper, Function.widths, Param.widths]

/-- The literals of a helper are the values of the members, each with the width of the value. -/
theorem helper_suffixes : (helper o e d).suffixes = e.entries.map fun m => some m.value.width := by
  have hentries : e.entries.map (fun m => some m.value.width) =
      e.entries.flatMap fun m => (Term.constant m.value).suffixes := List.map_eq_flatMap
  rw [hentries]
  cases o with
  | nameLookup =>
      rw [Function.suffixes, helper, List.flatMap_map]
      exact List.append_nil _
  | valueTable =>
      rw [Function.suffixes, helper, Expr.suffixes, Expr.suffixes, suffixesEach_map]
      congr
  | tryParse =>
      rw [Function.suffixes, helper, List.flatMap_cons, List.flatMap_map]
      exact List.append_nil _

theorem suffixesMatch_helper :
    (helper o e d).SuffixesMatch ↔ ∀ m ∈ e.entries, m.value.width = e.width := by
  rw [Function.SuffixesMatch, helper_widths, helper_suffixes]
  simp

end Generation

namespace Artifact

variable {enums : List Resolved} {c : Config} {o : Operation}

/-- A lookup file is built exactly if every name yields a discriminator that can be written on. -/
theorem build_operation_iff (hc : c.validate = .ok ()) (o : Operation) :
    (∃ a, build enums c (.operation o) = .ok a) ↔
      ∀ e ∈ enums, (∃ base, discriminator e.name = .ok base) ∧ IsNameable e.name := by
  constructor
  · rintro ⟨a, ha⟩ e he
    obtain ⟨ds, hds⟩ := assign_of_build ha
    exact ⟨accepted_of_assigned hds e he, nameable_of_build hc hds ha e he⟩
  · intro h
    obtain ⟨ds, hds⟩ := assign_of_enums fun e he => (h e he).1
    exact build_of_nameable hc hds o fun e he => (h e he).2

/-- A lookup artifact is read as a file of one helper for each enum, in order, and a dispatcher. -/
theorem helpers_of_build (hc : c.validate = .ok ()) {a : Artifact}
    (h : build enums c (.operation o) = .ok a) :
    ∃ file helpers dispatch, File.read? a.text = some file ∧
      file.functions = helpers ++ [dispatch] ∧
      List.Forall₂ (fun e f => ∃ d, f = helper o e d) enums helpers := by
  obtain ⟨ds, hds⟩ := assign_of_build h
  refine ⟨_, _, _, read_text hc hds h, functions_lookup o _, ?_⟩
  conv => arg 2; rw [← names_asRead hds .dropped]
  rw [List.forall₂_map_left_iff, List.forall₂_map_right_iff, List.forall₂_same]
  exact fun p _ => ⟨p.2, rfl⟩

theorem suffixesMatch_of_helpers {helpers : List Function}
    (h : List.Forall₂ (fun e f => ∃ d, f = helper o e d) enums helpers) :
    (∀ f ∈ helpers, f.SuffixesMatch) ↔ ∀ e ∈ enums, ∀ m ∈ e.entries, m.value.width = e.width := by
  induction h with
  | nil => simp
  | cons hf _ ih =>
      obtain ⟨d, rfl⟩ := hf
      rw [List.forall_mem_cons, List.forall_mem_cons, suffixesMatch_helper, ih]

end Artifact

section Run

variable {enums : List Resolved} {c : Config}

/-- What the literals of the helpers say about their types in the lookup artifacts of a run. Each
helper has the width of its enum in its signature and the widths of the values at its literals, so
they match exactly if all values have the widths of their enums. Whether an artifact is there does
not depend on the values. -/
theorem suffixes_of_generate {os : List (Except Fault Artifact)} (h : generate enums c = .ok os)
    (o : Operation) :
    (∀ a, .ok a ∈ os → a.kind = .operation o → ∃ file helpers dispatch,
      File.read? a.text = some file ∧ file.functions = helpers ++ [dispatch] ∧
      List.Forall₂ (fun e f => f.widths = [e.width] ∧
        f.suffixes = e.entries.map fun m => some m.value.width) enums helpers ∧
      ((∀ f ∈ helpers, f.SuffixesMatch) ↔
        ∀ e ∈ enums, ∀ m ∈ e.entries, m.value.width = e.width)) ∧
    (o ∈ c.operations → ((∃ a, .ok a ∈ os ∧ a.kind = .operation o) ↔
      ∀ e ∈ enums, (∃ base, discriminator e.name = .ok base) ∧ IsNameable e.name)) := by
  obtain ⟨hc, _, rfl⟩ := generate_ok h
  constructor
  · intro a ha hkind
    obtain ⟨file, helpers, dispatch, hread, hfunctions, hhelpers⟩ :=
      helpers_of_build hc (build_of_mem ha hkind)
    refine ⟨file, helpers, dispatch, hread, hfunctions, ?_, suffixesMatch_of_helpers hhelpers⟩
    refine hhelpers.imp fun e f hf => ?_
    obtain ⟨d, rfl⟩ := hf
    exact ⟨helper_widths o e d, helper_suffixes o e d⟩
  · intro ho
    have hkind : .operation o ∈ artifactKinds c :=
      List.mem_append_left _ (List.mem_map_of_mem ho)
    rw [← build_operation_iff hc o]
    constructor
    · rintro ⟨a, ha, hk⟩
      exact ⟨a, build_of_mem ha hk⟩
    · rintro ⟨a, ha⟩
      exact ⟨a, List.mem_map.mpr ⟨_, hkind, ha⟩, kind_of_build ha⟩

set_option maxRecDepth 4000 in
theorem suffixes_match_of_collidingLevels : ∃ os a file helpers dispatch,
    generate collidingLevels {} = .ok os ∧ .ok a ∈ os ∧ a.kind = .operation .tryParse ∧
      File.read? a.text = some file ∧ file.functions = helpers ++ [dispatch] ∧
      helpers.length = 2 ∧ ∀ f ∈ helpers, f.SuffixesMatch := by
  have hnames : (collidingLevels.map Resolved.name).Nodup := by decide
  have hos := generate_of_valid (c := {}) hnames rfl
  obtain ⟨hread, hbuilt⟩ := suffixes_of_generate hos .tryParse
  obtain ⟨a, ha, hkind⟩ := (hbuilt (by decide)).mpr fun e he =>
    ⟨⟨_, (names_collidingLevels e he).1⟩, (names_collidingLevels e he).2⟩
  obtain ⟨file, helpers, dispatch, hfile, hfunctions, hhelpers, hmatch⟩ := hread a ha hkind
  exact ⟨_, a, file, helpers, dispatch, hos, ha, hkind, hfile, hfunctions,
    hhelpers.length_eq.symm, hmatch.mpr (by decide)⟩

/-- An enum of 8 bits with a value of 16. -/
def wideRed : Resolved := ⟨"Color", .u8, [⟨"Red", .ofInt .u16 300⟩]⟩

set_option maxRecDepth 4000 in
/-- A value of another width than its enum's does not keep an artifact from being built. -/
theorem wideRed_built : ∃ os a file, generate [wideRed] (({} : Config).only [.valueTable]) = .ok os ∧
    .ok a ∈ os ∧ a.kind = .operation .valueTable ∧ File.read? a.text = some file ∧
    ∃ f ∈ file.functions, f.widths = [.u8] ∧ f.suffixes = [some .u16] := by
  have hvalid : (({} : Config).only [.valueTable]).validate = .ok () := rfl
  have hnames : ([wideRed].map Resolved.name).Nodup := by decide
  have hos := generate_of_valid hnames hvalid
  have hassign : assign ([wideRed].map Resolved.name) = .ok ["Color"] := by decide
  obtain ⟨a, ha⟩ := build_of_nameable hvalid hassign .valueTable (by decide)
  refine ⟨_, a, _, hos, List.mem_map.mpr ⟨_, by decide, ha⟩, kind_of_build ha,
    read_text hvalid hassign ha, helper .valueTable wideRed "Color", ?_, ?_⟩
  · exact helper_mem (p := (wideRed, "Color")) (by decide)
  · exact ⟨helper_widths .valueTable wideRed "Color", helper_suffixes .valueTable wideRed "Color"⟩

end Run

end EnumLookup
