import EnumLookup.Proofs.Generation.Names
import EnumLookup.Proofs.Generation.Trimmed

/-!
# Which tags a dispatcher knows

A dispatcher compares the tag before it calls a helper, so a tag of no enum is refused whatever the
helpers are. For the tag of an enum it returns a success or nothing at all, since helpers refuse
blank names only.
-/

namespace EnumLookup.Generation

open Source Discriminator LookupType Term

/-- What a dispatcher is asked besides the tag: a value of 128 bits, nothing, or a name that is not
blank. -/
inductive Query : Operation → Type where
  | value (n : Int) (isWide : Value.IsWide n) : Query .nameLookup
  | table : Query .valueTable
  | name (s : String) (isShown : Text.isBlank s = false) : Query .tryParse

namespace Query

variable {o : Operation}

def args : Query o → List Value
  | value n _ => [.integer none n]
  | table => []
  | name s _ => [.text s]

/-- The variables of the dispatcher besides the tag. -/
def scope : Query o → Scope
  | value n _ => [("value", .integer none n)]
  | table => []
  | name s _ => [("name", .text s)]

end Query

/-- The answer that the tag is not one of an enum. -/
def unsupported (tag : String) : Value :=
  .err (.variant errorType "UnsupportedEnumType" [.text tag])

/-- The file's dispatcher refuses exactly the tags that are not in the list, whatever it is asked. -/
def RefusesOthers (file : File) (tags : List String) (o : Operation) : Prop :=
  ∀ (q : Query o) (tag : String),
    file.run? o.dispatcher (.text tag :: q.args) = some (unsupported tag) ↔ tag ∉ tags

/-- Nothing but successes is answered. -/
def Succeeds (answer : Option Value) : Prop := ∀ v, answer = some v → ∃ w, v = .ok w

section Evaluation

variable {file : File} {call : Function → List Value → Option Value} {scope : Scope}
  {o : Operation} {ps : List (Resolved × String)}

theorem IsClosed.succeeds_ok (h : IsClosed file) (e : Expr) :
    Succeeds ((Term.call "Ok" [e]).eval? file call scope) := by
  intro v hv
  cases he : e.eval? file call scope with
  | none =>
      rw [Term.call, var, Expr.eval?, Expr.evalEach?, he] at hv
      cases hv
  | some w =>
      rw [h.eval_builtin rfl he] at hv
      cases hv
      exact ⟨w, rfl⟩

theorem succeeds_map {r f : Expr} (h : Succeeds (r.eval? file call scope)) :
    Succeeds ((Expr.method r "map" [f]).eval? file call scope) := by
  intro v hv
  rw [Expr.eval?] at hv
  obtain ⟨u, hu, hv⟩ := Option.bind_eq_some_iff.mp hv
  obtain ⟨w, rfl⟩ := h u hu
  obtain ⟨x, _, rfl⟩ := Option.map_eq_some_iff.mp hv
  exact ⟨x, rfl⟩

/-! ## Queries -/

theorem Query.bind_dispatcher (q : Query o) (tag : String) (ps : List (Resolved × String)) :
    bind? (dispatcher o ps).params (.text tag :: q.args) =
      some (("tag", .text tag) :: q.scope) := by
  cases q with
  | value n hn =>
      simp only [dispatcher, arguments, args, bind?, hasType_wide hn]
      rfl
  | table => rfl
  | name s _ => rfl

/-- No query is turned away before its tag is looked at. -/
theorem IsClosed.run_query (h : IsClosed file) (q : Query o) (tag : String) (es : List Resolved)
    (value : Expr) (body : List Stmt) :
    runBody? file call (("tag", .text tag) :: q.scope) value (preamble o es ++ body) =
      runBody? file call (("tag", .text tag) :: q.scope) value body := by
  cases q with
  | value n _ => exact run_preamble es rfl
  | table => rfl
  | name s hs =>
      rw [preamble, List.singleton_append, h.run_blankGuard rfl, hs, if_neg Bool.false_ne_true]

/-- The first enum of the tag decides, and without one the tag is refused. -/
theorem IsClosed.run_dispatcher (h : IsClosed file) (q : Query o) (tag : String) :
    runBody? file call (("tag", .text tag) :: q.scope) (dispatcher o ps).value
        (dispatcher o ps).body =
      (((ps.find? fun p => p.1.name == tag).map fun p => delegate o p.1 p.2).getD unknownTag).eval?
        file call (("tag", .text tag) :: q.scope) := by
  rw [dispatcher, h.run_query q]
  exact run_returnIfs_find fun p _ => eval_tagEqual rfl p.1

end Evaluation

/-! ## Lookup files -/

section Lookup

variable {o : Operation} {ps : List (Resolved × String)} {s : String}

theorem function?_some {file : File} {n : String} {f : Function} (h : file.function? n = some f) :
    f ∈ file.functions ∧ f.name = n := by
  rw [File.function?] at h
  split at h
  · rename_i g hg
    cases h
    have hmem : f ∈ file.functions.filter (·.name == n) := hg ▸ List.mem_singleton_self f
    rw [List.mem_filter, beq_iff_eq] at hmem
    exact hmem
  · cases h

/-- Two helpers of one name leave calls without an answer, but no call of a helper for parsing is
answered with a failure if the name is not blank. -/
theorem succeeds_parseHelper (h : ∀ p ∈ ps, helperName .tryParse p.2 ≠ Operation.tryParse.dispatcher)
    (hs : Text.isBlank s = false) {p : Resolved × String} (hp : p ∈ ps) (depth : Nat) :
    Succeeds (callAt? (lookupListing .tryParse ps).file
      ((lookupListing .tryParse ps).file.callWithin depth) [helperName .tryParse p.2] [.text s]) := by
  intro v hv
  have hany : (lookupListing .tryParse ps).file.functions.any
      (·.name == helperName .tryParse p.2) = true :=
    List.any_eq_true.mpr ⟨_, helper_mem hp, beq_self_eq_true _⟩
  rw [callAt?, hany, if_pos rfl] at hv
  obtain ⟨f, hf, hcall⟩ := Option.bind_eq_some_iff.mp hv
  obtain ⟨hmem, hname⟩ := function?_some hf
  rw [functions_lookup] at hmem
  cases depth with
  | zero => cases hcall
  | succ depth =>
      -- Whichever helper has the name, its body fails for blank names only.
      rcases List.mem_append.mp hmem with hmem | hmem
      · obtain ⟨q, _, rfl⟩ := List.mem_map.mp hmem
        have hrun := runBody_of_run? (bind_parseHelper q.1 q.2 s) hcall
        rw [(isClosed_lookup .tryParse ps).runBody_parseHelper, hs, if_neg Bool.false_ne_true] at hrun
        cases hrun
        exact ⟨_, rfl⟩
      · rw [List.mem_singleton.mp hmem] at hname
        exact absurd hname.symm (h p hp)

/-- What is returned for an enum is a success. -/
theorem succeeds_delegate (h : ∀ p ∈ ps, helperName o p.2 ≠ o.dispatcher) (q : Query o)
    (tag : String) {p : Resolved × String} (hp : p ∈ ps) (depth : Nat) :
    Succeeds ((delegate o p.1 p.2).eval? (lookupListing o ps).file
      ((lookupListing o ps).file.callWithin depth) (("tag", .text tag) :: q.scope)) := by
  cases q with
  | value n _ => exact (isClosed_lookup _ ps).succeeds_ok _
  | table => exact (isClosed_lookup _ ps).succeeds_ok _
  | name s hs =>
      have hname : Scope.get? (("tag", .text tag) :: (Query.name s hs).scope) "name" =
          some (.text s) := rfl
      refine succeeds_map ?_
      rw [Term.call, var, eval_call (eval_var hname)]
      exact succeeds_parseHelper h hs hp depth

/-- A dispatcher whose name is its own refuses exactly the tags of no enum. -/
theorem refusesOthers_lookup (h : ∀ p ∈ ps, helperName o p.2 ≠ o.dispatcher) :
    RefusesOthers (lookupListing o ps).file (ps.map fun p => p.1.name) o := by
  intro q tag
  have hclosed := isClosed_lookup o ps
  have hbind := q.bind_dispatcher tag ps
  rw [run?_dispatcher h]
  constructor
  · intro hrun hmem
    have hbody := runBody_of_run? hbind hrun
    rw [hclosed.run_dispatcher] at hbody
    cases hfind : ps.find? fun p => p.1.name == tag with
    | none =>
        obtain ⟨p, hp, hname⟩ := List.mem_map.mp hmem
        exact List.find?_eq_none.mp hfind p hp (beq_iff_eq.mpr hname)
    | some p =>
        rw [hfind] at hbody
        obtain ⟨w, hw⟩ := succeeds_delegate h q tag (List.mem_of_find?_eq_some hfind) _ _ hbody
        cases hw
  · intro hmem
    have hfind : ps.find? (fun p => p.1.name == tag) = none := by
      rw [List.find?_eq_none]
      intro p hp hname
      exact hmem (List.mem_map.mpr ⟨p, hp, beq_iff_eq.mp hname⟩)
    refine run?_eq hbind ?_ ?_
    · rw [hclosed.run_dispatcher, hfind]
      exact hclosed.eval_unknownTag rfl
    · cases o <;> rfl

/-! ## Names that are no dispatcher's -/

/-- A discriminator that can be written on is not the keyword. -/
theorem IsExtensible.ne_enum {d : String} (h : IsExtensible d) : d ≠ "enum" := by
  rintro rfl
  obtain ⟨base, before, w, hd, hbase⟩ := h
  rcases hd with rfl | ⟨k, hk⟩
  · have htext : "enum".toList = before ++ w.toList := by simpa using hbase.text
    cases before with
    | nil =>
        have hw : w = "enum" := by rw [← String.toList_inj, htext, List.nil_append]
        exact absurd hbase.isIdentifier (by rw [hw]; decide)
    | cons c r =>
        have hc := hbase.before c List.mem_cons_self
        rw [List.cons_append] at htext
        injection htext with hce _
        exact absurd hc (by rw [← hce]; decide)
  · have hmem : '_' ∈ "enum".toList := by rw [hk, numbered]; simp
    exact absurd hmem (by decide)

theorem IsExtensible.helperName_ne_dispatcher {d : String} (h : IsExtensible d) :
    helperName o d ≠ o.dispatcher :=
  fun he => h.ne_enum (eq_enum_of_helperName he).2

end Lookup

end EnumLookup.Generation
