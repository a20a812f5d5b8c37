import EnumLookup.Generation.Answers
import EnumLookup.Proofs.Text.Blank

/-!
# Generated lookups answer as the registry does

Helpers and the dispatcher try their members and enums in order, as the registry does, so each loop
is one induction over a list. What they call is found by its name, which is why the names of a
file's functions have to be distinct.
-/

namespace EnumLookup.Generation

open Source LookupType Term

/-! ## Functions by name -/

theorem function?_of_mem {file : File} (h : (file.functions.map Function.name).Nodup) {f : Function}
    (hf : f ∈ file.functions) : file.function? f.name = some f := by
  have hfilter : file.functions.filter (·.name == f.name) = [f] := by
    generalize file.functions = fs at h hf
    induction fs with
    | nil => cases hf
    | cons g gs ih =>
        rw [List.map_cons, List.nodup_cons] at h
        rcases List.mem_cons.mp hf with rfl | hf
        · rw [List.filter_cons_of_pos (by simp), List.cons.injEq]
          refine ⟨rfl, List.filter_eq_nil_iff.mpr fun g hg he => h.1 ?_⟩
          exact List.mem_map.mpr ⟨g, hg, by simpa using he⟩
        · rw [List.filter_cons_of_neg, ih h.2 hf]
          intro he
          exact h.1 (List.mem_map.mpr ⟨f, hf, (by simpa using he : g.name = f.name).symm⟩)
  rw [File.function?, hfilter]

/-- The names of the functions in the file of an operation. -/
def functionNames (o : Operation) (ps : List (Resolved × String)) : List String :=
  ps.map (fun p => helperName o p.2) ++ [o.dispatcher]

theorem items_lookup (o : Operation) (ps : List (Resolved × String)) :
    (lookupListing o ps).file.items = { kind := .use ["super", errorType] } ::
      (ps.map (fun p => helperItem o p.1 p.2) ++ [dispatcherItem o ps]) := by
  have hhelpers : (ps.map fun p => [helperItem o p.1 p.2]).flatten =
      ps.map fun p => helperItem o p.1 p.2 := by
    induction ps with
    | nil => rfl
    | cons p ps ih => rw [List.map_cons, List.flatten_cons, ih]; rfl
  have hparagraphs : (lookupListing o ps).paragraphs = [{ kind := .use ["super", errorType] }] ::
      ((ps.map fun p => [helperItem o p.1 p.2]) ++ [[dispatcherItem o ps]]) := rfl
  rw [Listing.file, hparagraphs, List.flatten_cons, List.flatten_append, hhelpers,
    List.flatten_singleton]
  rfl

theorem functions_lookup (o : Operation) (ps : List (Resolved × String)) :
    (lookupListing o ps).file.functions =
      ps.map (fun p => helper o p.1 p.2) ++ [dispatcher o ps] := by
  rw [File.functions, items_lookup, List.filterMap_cons, List.filterMap_append, List.filterMap_map,
    ← List.filterMap_eq_map]
  rfl

theorem length_functions (o : Operation) (ps : List (Resolved × String)) :
    (lookupListing o ps).file.functions.length = ps.length + 1 := by
  rw [functions_lookup, List.length_append, List.length_map, List.length_singleton]

theorem helper_mem {o : Operation} {ps : List (Resolved × String)} {p : Resolved × String}
    (hp : p ∈ ps) : helper o p.1 p.2 ∈ (lookupListing o ps).file.functions := by
  rw [functions_lookup]
  exact List.mem_append_left _ (List.mem_map_of_mem hp)

theorem imports_lookup (o : Operation) (ps : List (Resolved × String)) :
    (lookupListing o ps).file.imports = [errorType] := by
  have hnone : ps.filterMap (fun _ => (none : Option String)) = [] := by
    rw [List.filterMap_eq_nil_iff]
    exact fun _ _ => rfl
  rw [File.imports, items_lookup, List.filterMap_cons, List.filterMap_append, List.filterMap_map]
  exact congrArg (fun names => errorType :: (names ++ [])) hnone

theorem names_lookup (o : Operation) (ps : List (Resolved × String)) :
    (lookupListing o ps).file.functions.map Function.name = functionNames o ps := by
  rw [functions_lookup, List.map_append, List.map_map, functionNames]
  congr 1
  exact List.map_congr_left fun p _ => helper_name o p.1 p.2

/-! ## Evaluation -/

attribute [grind =] Expr.eval? Expr.evalEach?

theorem widthOf?_text (w : Width) : Value.widthOf? w.text = some (some w) := by cases w <;> decide

/-- Of the names that a lookup file uses without defining them, the error type is imported and the
others mean what they mean everywhere. -/
structure IsClosed (file : File) : Prop where
  imports : file.imports = [errorType]
  defines : ∀ f ∈ file.functions, f.name ∉ ["Some", "Ok", "Err"]

section Evaluation

variable {file : File} {call : Function → List Value → Option Value} {scope : Scope}

theorem eval_call {p : Source.Path} {e : Expr} {v : Value} (he : e.eval? file call scope = some v) :
    (Expr.call (.path p) [e]).eval? file call scope = callAt? file call p [v] := by
  simp only [Expr.eval?, Expr.evalEach?, he]
  rfl

theorem eval_equal {l r : Expr} {v w : Value} (hl : l.eval? file call scope = some v)
    (hr : r.eval? file call scope = some w) :
    (Expr.equal l r).eval? file call scope = .bool <$> Value.equal? v w := by
  simp only [Expr.eval?, hl, hr]
  rfl

theorem eval_var {n : String} {v : Value} (h : scope.get? n = some v) :
    (var n).eval? file call scope = some v := by
  rw [var, Expr.eval?, Scope.value?, h]
  rfl

theorem eval_none (h : scope.get? "None" = none) :
    (var "None").eval? file call scope = some .none := by
  rw [var, Expr.eval?, Scope.value?, h]
  rfl

theorem eval_text (s : String) : (Expr.text s).eval? file call scope = some (.text s) := by
  rw [Expr.eval?]

theorem eval_number {n : Int} {w : Option Width} (h : Value.Fits w n) :
    (Expr.number n w).eval? file call scope = some (.integer w n) := by
  rw [Expr.eval?, if_pos h]

theorem eval_constant (c : Constant) :
    (constant c).eval? file call scope = some (.integer (some c.width) c.value) :=
  eval_number c.fits

theorem evalEach_map {α : Type} {f : α → Expr} {v : α → Value} {xs : List α}
    (h : ∀ x ∈ xs, (f x).eval? file call scope = some (v x)) :
    Expr.evalEach? file call scope (xs.map f) = some (xs.map v) := by
  induction xs with
  | nil => rfl
  | cons x xs ih =>
      rw [List.map_cons, Expr.evalEach?, h x List.mem_cons_self,
        ih fun y hy => h y (List.mem_cons_of_mem _ hy)]
      rfl

theorem eval_pair {m : Entry} {e : Expr} {v : Value} (h : e.eval? file call scope = some v) :
    (pair m e).eval? file call scope = some (.tuple [.text m.name, v]) := by
  simp only [pair, Expr.eval?, Expr.evalEach?, h]
  rfl

theorem eval_borrowedArray {es : List Expr} {vs : List Value}
    (h : Expr.evalEach? file call scope es = some vs) :
    (Expr.borrow (.array es)).eval? file call scope = some (.array vs) := by
  rw [Expr.eval?, Expr.eval?, h]
  rfl

/-- Conditions are tried in order, and the first that holds decides. -/
theorem run_returnIfs_find {α : Type} {xs : List α} {condition result : α → Expr} {holds : α → Bool}
    {value : Expr} (hc : ∀ x ∈ xs, (condition x).eval? file call scope = some (.bool (holds x))) :
    runBody? file call scope value (xs.map fun x => .returnIf (condition x) (result x)) =
      (((xs.find? holds).map result).getD value).eval? file call scope := by
  induction xs with
  | nil => rfl
  | cons x xs ih =>
      have ih := ih fun y hy => hc y (List.mem_cons_of_mem _ hy)
      rw [List.map_cons, runBody?, hc x List.mem_cons_self]
      cases hx : holds x with
      | true =>
          rw [List.find?_cons_of_pos hx]
          rfl
      | false =>
          rw [List.find?_cons_of_neg (by simp [hx])]
          exact ih

theorem run_returnIfs {α : Type} {xs : List α} {condition result : α → Expr} {holds : α → Bool}
    {v : α → Value} {value : Expr} {last : Value}
    (hc : ∀ x ∈ xs, (condition x).eval? file call scope = some (.bool (holds x)))
    (hr : ∀ x ∈ xs, (result x).eval? file call scope = some (v x))
    (hlast : value.eval? file call scope = some last) :
    runBody? file call scope value (xs.map fun x => .returnIf (condition x) (result x)) =
      some (((xs.find? holds).map v).getD last) := by
  rw [run_returnIfs_find hc]
  cases hx : xs.find? holds with
  | none => exact hlast
  | some x => exact hr x (List.mem_of_find?_eq_some hx)

namespace IsClosed

variable (h : IsClosed file)
include h

theorem callAt_builtin {n : String} (hn : n ∈ ["Some", "Ok", "Err"]) (args : List Value) :
    callAt? file call [n] args = builtin? [n] args := by
  have hany : file.functions.any (·.name == n) = false := by
    rw [List.any_eq_false]
    intro f hf he
    exact h.defines f hf (by rwa [beq_iff_eq.mp he])
  rw [callAt?, hany]
  rfl

/-- A call of one of the constructors that every program has. -/
theorem eval_builtin {n : String} {e : Expr} {v w : Value} (hw : builtin? [n] [v] = some w)
    (he : e.eval? file call scope = some v) : (Term.call n [e]).eval? file call scope = some w := by
  have hn : n ∈ ["Some", "Ok", "Err"] := by
    unfold builtin? at hw
    split at hw <;> simp_all
  rw [Term.call, var, eval_call he, h.callAt_builtin hn, hw]

theorem eval_fault {variant : String} {e : Expr} {v : Value}
    (he : e.eval? file call scope = some v) :
    (Expr.call (.path [errorType, variant]) [e]).eval? file call scope =
      some (.variant errorType variant [v]) := by
  rw [eval_call he, callAt?, h.imports]
  rfl

theorem callAt_qualified {type name : String} (ht : type ≠ errorType) (args : List Value) :
    callAt? file call [type, name] args = builtin? [type, name] args := by
  rw [callAt?, h.imports, if_neg (by simpa using ht)]

theorem callAt_tryFrom (w : Width) (v : Option Width) (n : Int) :
    callAt? file call [w.text, "try_from"] [.integer v n] =
      some (if w.Holds n then .ok (.integer (some w) n)
        else .err (.variant "TryFromIntError" "TryFromIntError" [])) := by
  rw [h.callAt_qualified (by cases w <;> decide), builtin?, widthOf?_text]
  by_cases hn : w.Holds n
  · rw [if_pos hn]
    exact if_pos hn
  · rw [if_neg hn]
    exact if_neg hn

theorem callAt_from {w : Width} {n : Int} (hn : w.Holds n) :
    callAt? file call ["i128", "from"] [.integer (some w) n] = some (.integer none n) := by
  rw [h.callAt_qualified (by decide), builtin?, if_pos hn]

end IsClosed

end Evaluation

/-! ## Blank names -/

section Blank

variable {file : File} {call : Function → List Value → Option Value} {scope : Scope}

/-- A blank name is refused, and otherwise the statements behind the guard decide. -/
theorem IsClosed.run_blankGuard (h : IsClosed file) {s : String} {value : Expr} {body : List Stmt}
    (hname : scope.get? "name" = some (.text s)) :
    runBody? file call scope value (blankGuard :: body) =
      if Text.isBlank s then some (.err (.variant errorType "InvalidArgument" [.text "name"]))
      else runBody? file call scope value body := by
  have hguard : (Expr.method (.method (var "name") "trim" []) "is_empty" []).eval? file call scope =
      some (.bool (Text.isBlank s)) := by
    rw [Expr.eval?, Expr.eval?, eval_var hname, ← Text.isEmpty_trim]
    rfl
  have hfault : blankArgument.eval? file call scope =
      some (.err (.variant errorType "InvalidArgument" [.text "name"])) :=
    h.eval_builtin rfl (h.eval_fault (eval_text _))
  rw [blankGuard, runBody?, hguard]
  cases Text.isBlank s
  · rfl
  · exact hfault

end Blank

/-! ## Helpers -/

theorem optionalValue_eq {α : Type} (f : α → Value) (o : Option α) :
    optionalValue f o = (o.map fun a => .some (f a)).getD .none := by
  cases o <;> rfl

/-- A call with arguments of the parameters' types answers what the body answers, if that has the
type of the result. -/
theorem run?_eq {file : File} {call : Function → List Value → Option Value} {f : Function}
    {args : List Value} {scope : Scope} {v : Value} (hbind : bind? f.params args = some scope)
    (hrun : runBody? file call scope f.value f.body = some v) (htype : Value.hasType f.result v = true) :
    f.run? file call args = some v := by
  rw [Function.run?, hbind]
  show ((runBody? file call scope f.value f.body).bind fun v =>
    if Value.hasType f.result v then some v else none) = some v
  rw [hrun]
  exact if_pos htype

/-- What a call answers, its body answers. -/
theorem runBody_of_run? {file : File} {call : Function → List Value → Option Value} {f : Function}
    {args : List Value} {scope : Scope} {v : Value} (hbind : bind? f.params args = some scope)
    (h : f.run? file call args = some v) : runBody? file call scope f.value f.body = some v := by
  obtain ⟨scope', hscope, h⟩ := Option.bind_eq_some_iff.mp h
  rw [hbind] at hscope
  cases hscope
  obtain ⟨w, hrun, hw⟩ := Option.bind_eq_some_iff.mp h
  split at hw
  · cases hw
    exact hrun
  · cases hw

theorem hasType_width {w : Width} {n : Int} (h : w.Holds n) :
    Value.hasType (width w) (.integer (some w) n) = true := by
  have hf : Value.Fits (some w) n := h
  cases w <;> simp [LookupType.width, plain, Value.hasType, Width.text, hf] <;> decide

theorem hasType_rows {t : Ty} {w : Option Width} {rows : List (String × Int)}
    (h : ∀ row ∈ rows, Value.hasType t (.integer w row.2) = true) :
    Value.hasType (table t) (tableValue w rows) = true := by
  show ((rows.map _).all (Value.hasType (.tuple [name, t]))) = true
  rw [List.all_map, List.all_eq_true]
  intro row hrow
  show (true && (Value.hasType t (.integer w row.2) && true)) = true
  rw [h row hrow]
  rfl

section Helpers

variable {file : File} {call : Function → List Value → Option Value} {e : Resolved} {d : String}

/-- A helper for names answers as its enum does. -/
theorem IsClosed.run_nameHelper (h : IsClosed file)
    (hw : ∀ m ∈ e.entries, m.value.width = e.width) {n : Int} (hn : e.width.Holds n) :
    (helper .nameLookup e d).run? file call [.integer (some e.width) n] =
      some (optionalValue .text (e.nameOf? n)) := by
  have hbind : bind? (helper .nameLookup e d).params [.integer (some e.width) n] =
      some [(if e.entries.isEmpty then "_value" else "value", .integer (some e.width) n)] := by
    simp only [helper, bind?, hasType_width hn]
    rfl
  refine run?_eq hbind ?_ ?_
  · rw [optionalValue_eq, Resolved.nameOf?, Option.map_map]
    refine run_returnIfs (fun m hm => ?_) (fun m _ => h.eval_builtin rfl (eval_text _))
      (eval_none ?_)
    · have hne : e.entries.isEmpty = false := by
        rw [List.isEmpty_eq_false_iff]
        exact List.ne_nil_of_mem hm
      have hvalue : Scope.get? [(if e.entries.isEmpty then "_value" else "value",
          Value.integer (some e.width) n)] "value" = some (.integer (some e.width) n) := by
        rw [hne]; rfl
      rw [eval_equal (eval_var hvalue) (eval_constant _), Value.equal?, hw m hm, if_pos rfl,
        BEq.comm]
      rfl
    · split <;> rfl
  · rw [helper]
    cases e.nameOf? n <;> rfl

theorem valueOf?_width {e : Resolved} (hw : ∀ m ∈ e.entries, m.value.width = e.width) {s : String}
    {c : Constant} (h : e.valueOf? s = some c) : c.width = e.width := by
  obtain ⟨m, hm, rfl⟩ := Option.map_eq_some_iff.mp h
  exact hw m (List.mem_of_find?_eq_some hm)

/-- A helper for tables answers with the table of its enum. -/
theorem run_tableHelper (hw : ∀ m ∈ e.entries, m.value.width = e.width) :
    (helper .valueTable e d).run? file call [] = some (tableValue (some e.width) e.table) := by
  have hrows : tableValue (some e.width) e.table = .array (e.entries.map fun m =>
      .tuple [.text m.name, .integer (some m.value.width) m.value.value]) := by
    rw [tableValue, Resolved.table, List.map_map]
    exact congrArg Value.array (List.map_congr_left fun m hm => by rw [Function.comp, hw m hm])
  have hbind : bind? (helper .valueTable e d).params [] = some [] := rfl
  refine run?_eq hbind ?_ (hasType_rows fun row hrow => ?_)
  · rw [hrows]
    exact eval_borrowedArray (evalEach_map fun m _ => eval_pair (eval_constant m.value))
  · obtain ⟨m, hm, rfl⟩ := List.mem_map.mp hrow
    have hfits := m.value.fits
    rw [hw m hm] at hfits
    exact hasType_width hfits

/-- The body of a helper for parsing refuses blank names, and otherwise answers as its enum does. -/
theorem IsClosed.runBody_parseHelper (h : IsClosed file) (s : String) :
    runBody? file call [("name", .text s)] (helper .tryParse e d).value
        (helper .tryParse e d).body =
      some (if Text.isBlank s then .err (.variant errorType "InvalidArgument" [.text "name"])
        else .ok (optionalValue (fun c => .integer (some c.width) c.value) (e.valueOf? s))) := by
  have hanswer : Value.ok (optionalValue (fun c => .integer (some c.width) c.value) (e.valueOf? s)) =
      ((e.entries.find? (·.name == s)).map fun m =>
        Value.ok (.some (.integer (some m.value.width) m.value.value))).getD (.ok .none) := by
    rw [Resolved.valueOf?]
    cases e.entries.find? (·.name == s) <;> rfl
  rw [helper, h.run_blankGuard rfl]
  split
  · rfl
  · rw [hanswer]
    refine run_returnIfs (fun m _ => ?_)
      (fun m _ => h.eval_builtin rfl (h.eval_builtin rfl (eval_constant m.value)))
      (h.eval_builtin rfl (eval_none rfl))
    have hname : Scope.get? [("name", Value.text s)] "name" = some (.text s) := rfl
    rw [eval_equal (eval_var hname) (eval_text _), BEq.comm]
    rfl

theorem bind_parseHelper (e : Resolved) (d s : String) :
    bind? (helper .tryParse e d).params [.text s] = some [("name", .text s)] := rfl

/-- A helper for parsing answers what its body does. -/
theorem IsClosed.run_parseHelper (h : IsClosed file)
    (hw : ∀ m ∈ e.entries, m.value.width = e.width) (s : String) :
    (helper .tryParse e d).run? file call [.text s] =
      some (if Text.isBlank s then .err (.variant errorType "InvalidArgument" [.text "name"])
        else .ok (optionalValue (fun c => .integer (some c.width) c.value) (e.valueOf? s))) := by
  refine run?_eq (bind_parseHelper e d s) (h.runBody_parseHelper s) ?_
  split
  · rfl
  · cases hc : e.valueOf? s with
    | none => rfl
    | some c =>
        have htype := hasType_width c.fits
        rw [valueOf?_width hw hc] at htype
        rw [optionalValue, valueOf?_width hw hc]
        exact htype

end Helpers

/-! ## Dispatchers -/

section Dispatchers

variable {file : File} {call : Function → List Value → Option Value} {scope : Scope}
  {e : Resolved} {d : String}

/-- Calls of the function by its name are answered by its own body. -/
def Reaches (file : File) (call : Function → List Value → Option Value) (f : Function) : Prop :=
  ∃ call', ∀ args, callAt? file call [f.name] args = f.run? file call' args

theorem IsClosed.eval_nameDelegate (h : IsClosed file)
    (hw : ∀ m ∈ e.entries, m.value.width = e.width) (hr : Reaches file call (helper .nameLookup e d))
    {n : Int} (hvalue : scope.get? "value" = some (.integer none n)) :
    (delegate .nameLookup e d).eval? file call scope =
      some (.ok (optionalValue .text (e.nameOf? n))) := by
  obtain ⟨call', hcall⟩ := hr
  refine h.eval_builtin rfl ?_
  have htry : (Expr.call (.path [e.width.text, "try_from"]) [var "value"]).eval? file call scope =
      some (if e.width.Holds n then .ok (.integer (some e.width) n)
        else .err (.variant "TryFromIntError" "TryFromIntError" [])) :=
    (eval_call (eval_var hvalue)).trans (h.callAt_tryFrom e.width none n)
  rw [Expr.eval?, Expr.eval?, htry]
  by_cases hn : e.width.Holds n
  · rw [if_pos hn]
    exact (hcall _).trans (h.run_nameHelper hw hn)
  · have hnone : e.nameOf? n = none := by
      rw [Resolved.nameOf?, Option.map_eq_none_iff, List.find?_eq_none]
      intro m hm he
      rw [beq_iff_eq] at he
      have hfits := m.value.fits
      rw [hw m hm, he] at hfits
      exact hn hfits
    rw [if_neg hn, hnone]
    rfl

theorem isWide_of_holds {w : Width} {n : Int} (h : w.Holds n) : Value.IsWide n := by
  have hleast : -(1 <<< 127 : Nat) ≤ w.least := by cases w <;> decide
  have hgreatest : w.greatest < (1 <<< 127 : Nat) := by cases w <;> decide
  exact ⟨Int.le_trans hleast h.1, Int.lt_of_le_of_lt h.2 hgreatest⟩

theorem eval_tableDelegate (h : IsClosed file) :
    (delegate .valueTable e d).eval? file call scope = some (.ok (tableValue none e.table)) := by
  refine h.eval_builtin rfl (eval_borrowedArray ?_)
  rw [Resolved.table, List.map_map]
  exact evalEach_map fun m _ => eval_pair (eval_number (isWide_of_holds m.value.fits))

theorem IsClosed.eval_parseDelegate (h : IsClosed file)
    (hw : ∀ m ∈ e.entries, m.value.width = e.width) (hr : Reaches file call (helper .tryParse e d))
    {s : String} (hname : scope.get? "name" = some (.text s)) (hs : Text.isBlank s = false) :
    (delegate .tryParse e d).eval? file call scope =
      some (.ok (optionalValue (.integer none) ((e.valueOf? s).map Constant.value))) := by
  obtain ⟨call', hcall⟩ := hr
  have hcalled : (Term.call (helperName .tryParse d) [var "name"]).eval? file call scope =
      some (.ok (optionalValue (fun c => .integer (some c.width) c.value) (e.valueOf? s))) := by
    have hrun := (hcall _).trans (h.run_parseHelper hw s)
    rw [hs, if_neg Bool.false_ne_true] at hrun
    exact (eval_call (eval_var hname)).trans hrun
  rw [delegate, Expr.eval?, hcalled]
  cases e.valueOf? s with
  | none => rfl
  | some c =>
      have hfrom : callAt? file call ["i128", "from"] [.integer (some c.width) c.value] =
          some (.integer none c.value) := h.callAt_from c.fits
      show Value.ok <$> (Value.some <$> callAt? file call ["i128", "from"] _) = _
      rw [hfrom]
      rfl

theorem IsClosed.eval_unknownTag (h : IsClosed file) {tag : String}
    (htag : scope.get? "tag" = some (.text tag)) : unknownTag.eval? file call scope =
      some (.err (.variant errorType "UnsupportedEnumType" [.text tag])) := by
  have htext : (Expr.method (var "tag") "to_string" []).eval? file call scope =
      some (.text tag) := by
    rw [Expr.eval?, eval_var htag]
    rfl
  exact h.eval_builtin rfl (h.eval_fault htext)

theorem eval_tagEqual {tag : String} (htag : scope.get? "tag" = some (.text tag)) (e : Resolved) :
    (Expr.equal (var "tag") (.text e.name)).eval? file call scope =
      some (.bool (e.name == tag)) := by
  rw [eval_equal (eval_var htag) (eval_text _), BEq.comm]
  rfl

/-- Tags are compared in order, and the first enum of that name is asked. -/
theorem IsClosed.run_dispatch (h : IsClosed file) {o : Operation} {ps : List (Resolved × String)}
    {tag : String} {v : Resolved → Value} (htag : scope.get? "tag" = some (.text tag))
    (hp : ∀ p ∈ ps, (delegate o p.1 p.2).eval? file call scope = some (v p.1)) :
    runBody? file call scope unknownTag
        (ps.map fun (e, d) => .returnIf (.equal (var "tag") (.text e.name)) (delegate o e d)) =
      some ((((ps.map Prod.fst).find? (·.name == tag)).map v).getD
        (.err (.variant errorType "UnsupportedEnumType" [.text tag]))) := by
  rw [List.find?_map, Option.map_map]
  exact run_returnIfs (fun p _ => eval_tagEqual htag p.1) hp (h.eval_unknownTag htag)

/-- The registry's answer for a tag, as a value. -/
theorem answerValue?_find {α : Type} (r : Registry) (tag : String) (g : Resolved → α)
    (f : α → Value) :
    answerValue? f (r.find tag >>= fun e => pure (g e)) =
      some (((r.enums.find? (·.name == tag)).map fun e => .ok (f (g e))).getD
        (.err (.variant errorType "UnsupportedEnumType" [.text tag]))) := by
  rw [Registry.find]
  cases r.enums.find? (·.name == tag) <;> rfl

theorem hasType_wide {n : Int} (h : Value.IsWide n) :
    Value.hasType (plain "i128") (.integer none n) = true := by
  have hf : Value.Fits none n := h
  simp [plain, Value.hasType, Value.widthOf?, hf]

/-- A value that no enum looks at is discarded. -/
theorem run_preamble {v : Value} {value : Expr} {body : List Stmt} (es : List Resolved)
    (hvalue : scope.get? "value" = some v) :
    runBody? file call scope value (preamble .nameLookup es ++ body) =
      runBody? file call scope value body := by
  unfold preamble
  dsimp only
  split
  · rw [List.singleton_append, runBody?, eval_var hvalue]
    rfl
  · rfl

variable {ps : List (Resolved × String)}

theorem IsClosed.run_nameDispatcher (h : IsClosed file)
    (hw : ∀ p ∈ ps, ∀ m ∈ p.1.entries, m.value.width = p.1.width)
    (hr : ∀ p ∈ ps, Reaches file call (helper .nameLookup p.1 p.2)) (tag : String) {n : Int}
    (hn : Value.IsWide n) :
    (dispatcher .nameLookup ps).run? file call [.text tag, .integer none n] =
      answerValue? (optionalValue .text) (Registry.nameOf ⟨ps.map Prod.fst⟩ tag n) := by
  have hbind : bind? (dispatcher .nameLookup ps).params [.text tag, .integer none n] =
      some [("tag", .text tag), ("value", .integer none n)] := by
    simp only [dispatcher, arguments, bind?, hasType_wide hn]
    rfl
  rw [Registry.nameOf, answerValue?_find]
  refine run?_eq hbind ?_ ?_
  · rw [dispatcher, run_preamble _ rfl]
    exact h.run_dispatch rfl fun p hp => h.eval_nameDelegate (hw p hp) (hr p hp) rfl
  · cases (ps.map Prod.fst).find? (·.name == tag) with
    | none => rfl
    | some e =>
        rw [Option.map_some, Option.getD_some]
        cases e.nameOf? n <;> rfl

theorem hasType_table {e : Resolved} :
    Value.hasType (table (plain "i128")) (tableValue none e.table) = true := by
  refine hasType_rows fun row hrow => ?_
  obtain ⟨m, _, rfl⟩ := List.mem_map.mp hrow
  exact hasType_wide (isWide_of_holds m.value.fits)

theorem IsClosed.run_tableDispatcher (h : IsClosed file) (tag : String) :
    (dispatcher .valueTable ps).run? file call [.text tag] =
      answerValue? (tableValue none) (Registry.valuesOf ⟨ps.map Prod.fst⟩ tag) := by
  have hbind : bind? (dispatcher .valueTable ps).params [.text tag] = some [("tag", .text tag)] := rfl
  rw [Registry.valuesOf, answerValue?_find]
  refine run?_eq hbind (h.run_dispatch rfl fun p _ => eval_tableDelegate h) ?_
  cases (ps.map Prod.fst).find? (·.name == tag) with
  | none => rfl
  | some e => exact hasType_table

theorem IsClosed.run_parseDispatcher (h : IsClosed file)
    (hw : ∀ p ∈ ps, ∀ m ∈ p.1.entries, m.value.width = p.1.width)
    (hr : ∀ p ∈ ps, Reaches file call (helper .tryParse p.1 p.2)) (tag s : String) :
    (dispatcher .tryParse ps).run? file call [.text tag, .text s] =
      answerValue? (optionalValue (.integer none)) (Registry.tryParse ⟨ps.map Prod.fst⟩ tag s) := by
  have hbind : bind? (dispatcher .tryParse ps).params [.text tag, .text s] =
      some [("tag", .text tag), ("name", .text s)] := rfl
  rw [Registry.tryParse]
  cases hs : Text.isBlank s with
  | true =>
      refine run?_eq hbind ?_ rfl
      rw [dispatcher, preamble, List.singleton_append, h.run_blankGuard rfl, hs]
      rfl
  | false =>
      rw [if_neg Bool.false_ne_true, answerValue?_find]
      refine run?_eq hbind ?_ ?_
      · rw [dispatcher, preamble, List.singleton_append, h.run_blankGuard rfl, hs,
          if_neg Bool.false_ne_true]
        exact h.run_dispatch rfl fun p hp => h.eval_parseDelegate (hw p hp) (hr p hp) rfl hs
      · cases (ps.map Prod.fst).find? (·.name == tag) with
        | none => rfl
        | some e =>
            rw [Option.map_some, Option.getD_some]
            cases hc : e.valueOf? s with
            | none => rfl
            | some c => exact hasType_wide (isWide_of_holds c.fits)

end Dispatchers

/-! ## Lookup files -/

section Lookup

variable {o : Operation} {ps : List (Resolved × String)}

theorem helperName_ne_builtin (o : Operation) (d : String) :
    helperName o d ∉ ["Some", "Ok", "Err"] := by
  intro h
  have hmem : '_' ∈ (helperName o d).toList := by simp [helperName]
  have hnone : ∀ n ∈ ["Some", "Ok", "Err"], '_' ∉ n.toList := by decide
  exact hnone _ h hmem

theorem isClosed_lookup (o : Operation) (ps : List (Resolved × String)) :
    IsClosed (lookupListing o ps).file where
  imports := imports_lookup o ps
  defines := by
    intro f hf
    rw [functions_lookup] at hf
    rcases List.mem_append.mp hf with hf | hf
    · obtain ⟨p, _, rfl⟩ := List.mem_map.mp hf
      rw [helper_name]
      exact helperName_ne_builtin o p.2
    · rw [List.mem_singleton.mp hf]
      show o.dispatcher ∉ _
      cases o <;> decide

theorem function?_lookup (h : (functionNames o ps).Nodup) {f : Function}
    (hf : f ∈ (lookupListing o ps).file.functions) :
    (lookupListing o ps).file.function? f.name = some f :=
  function?_of_mem (by rwa [names_lookup]) hf

/-- Below the depth that a file allows there is room for every call of a helper. -/
theorem reaches_helper (h : (functionNames o ps).Nodup) {p : Resolved × String} (hp : p ∈ ps) :
    Reaches (lookupListing o ps).file ((lookupListing o ps).file.callWithin ps.length)
      (helper o p.1 p.2) := by
  have hany : (lookupListing o ps).file.functions.any (·.name == (helper o p.1 p.2).name) = true :=
    List.any_eq_true.mpr ⟨_, helper_mem hp, beq_self_eq_true _⟩
  cases ps with
  | nil => cases hp
  | cons q qs =>
      refine ⟨(lookupListing o (q :: qs)).file.callWithin qs.length, fun args => ?_⟩
      rw [callAt?, hany, if_pos rfl, function?_lookup h (helper_mem hp)]
      rfl

/-- The dispatcher is found as long as no helper has its name. -/
theorem function?_dispatcher (h : ∀ p ∈ ps, helperName o p.2 ≠ o.dispatcher) :
    (lookupListing o ps).file.function? o.dispatcher = some (dispatcher o ps) := by
  have hhelpers : (ps.map fun p => helper o p.1 p.2).filter (·.name == o.dispatcher) = [] := by
    rw [List.filter_eq_nil_iff]
    intro f hf
    obtain ⟨p, hp, rfl⟩ := List.mem_map.mp hf
    rw [helper_name, beq_iff_eq]
    exact h p hp
  have hself : [dispatcher o ps].filter (·.name == o.dispatcher) = [dispatcher o ps] :=
    List.filter_cons_of_pos (beq_self_eq_true o.dispatcher)
  rw [File.function?, functions_lookup, List.filter_append, hhelpers, List.nil_append, hself]

theorem run?_dispatcher (h : ∀ p ∈ ps, helperName o p.2 ≠ o.dispatcher) (args : List Value) :
    (lookupListing o ps).file.run? o.dispatcher args =
      (dispatcher o ps).run? (lookupListing o ps).file
        ((lookupListing o ps).file.callWithin ps.length) args := by
  rw [File.run?, length_functions, function?_dispatcher h]
  rfl

theorem helperName_ne_dispatcher (h : (functionNames o ps).Nodup) :
    ∀ p ∈ ps, helperName o p.2 ≠ o.dispatcher := by
  intro p hp he
  rw [functionNames, List.nodup_append] at h
  exact h.2.2 _ (List.mem_map_of_mem hp) _ (List.mem_singleton_self _) he

theorem run?_lookup (h : (functionNames o ps).Nodup) (args : List Value) :
    (lookupListing o ps).file.run? o.dispatcher args =
      (dispatcher o ps).run? (lookupListing o ps).file
        ((lookupListing o ps).file.callWithin ps.length) args :=
  run?_dispatcher (helperName_ne_dispatcher h) args

/-- A lookup file whose functions have distinct names answers as the registry of its enums does. -/
theorem answers_lookup (h : (functionNames o ps).Nodup)
    (hw : ∀ p ∈ ps, ∀ m ∈ p.1.entries, m.value.width = p.1.width) :
    Answers (lookupListing o ps).file ⟨ps.map Prod.fst⟩ o := by
  have hclosed := isClosed_lookup o ps
  cases o with
  | nameLookup =>
      intro tag n hn
      have hrun : (lookupListing .nameLookup ps).file.run? "enum_name" [.text tag, .integer none n] =
          _ := (run?_lookup h _).trans
        (hclosed.run_nameDispatcher hw (fun p hp => reaches_helper h hp) tag hn)
      rw [hrun, Registry.nameOf, answerValue?_find]
      exact ⟨_, rfl, rfl⟩
  | valueTable =>
      intro tag
      have hrun : (lookupListing .valueTable ps).file.run? "enum_values" [.text tag] = _ :=
        (run?_lookup h _).trans (hclosed.run_tableDispatcher tag)
      rw [hrun, Registry.valuesOf, answerValue?_find]
      exact ⟨_, rfl, rfl⟩
  | tryParse =>
      intro tag s
      have hrun : (lookupListing .tryParse ps).file.run? "try_parse_enum" [.text tag, .text s] = _ :=
        (run?_lookup h _).trans
        (hclosed.run_parseDispatcher hw (fun p hp => reaches_helper h hp) tag s)
      rw [hrun, Registry.tryParse]
      split
      · exact ⟨_, rfl, rfl⟩
      · rw [answerValue?_find]
        exact ⟨_, rfl, rfl⟩

end Lookup

end EnumLookup.Generation
