import EnumLookup.Proofs.Registry
import EnumLookup.Proofs.Report.Runs

/-!
# A report and a registry of the same declarations

A report leaves out what it cannot use and goes on, a registry of the same declarations is refused
for it. The report looks at the names first and the registry at what resolves, so they may blame
different declarations, but they find fault with the same lists.
-/

namespace EnumLookup

open Outcome

theorem Declaration.names_of_resolved {ds : List Declaration} {es : List Resolved}
    (h : ds.map resolve = es.map .ok) : es.map Resolved.name = ds.map name :=
  map_of_map_ok resolve_name h

namespace Report

theorem skippedOf_eq_nil {os : List (Except Skipped Resolved)} :
    skippedOf os = [] ↔ os = (resolvedOf os).map .ok := by
  induction os with
  | nil => exact ⟨fun _ => rfl, fun _ => rfl⟩
  | cons o os ih =>
      cases o with
      | ok e => simpa [skippedOf, resolvedOf] using ih
      | error s =>
          refine ⟨fun h => by simp [skippedOf] at h, fun h => ?_⟩
          have hs : .error s ∈ (resolvedOf (.error s :: os)).map Except.ok := h ▸ List.mem_cons_self
          obtain ⟨_, _, he⟩ := List.mem_map.mp hs
          cases he

theorem outcome_eq_ok {seen : List String} {d : Declaration} {e : Resolved} :
    (if d.name ∈ seen then (.error ⟨d.name, .duplicateEnum d.name⟩ : Except Skipped Resolved)
      else d.resolve.mapError fun f => ⟨d.name, f⟩) = .ok e ↔
    d.name ∉ seen ∧ d.resolve = .ok e := by
  by_cases hseen : d.name ∈ seen
  · simp [hseen]
  · cases d.resolve <;> simp [hseen, Except.mapError]

/-- No declaration is left out exactly if each resolves and none has a name that stood before. -/
theorem outcomes_eq_ok {ds : List Declaration} : ∀ {seen : List String} {es : List Resolved},
    outcomes seen ds = es.map .ok ↔ ds.map Declaration.resolve = es.map .ok ∧
      (ds.map Declaration.name).Nodup ∧ ∀ d ∈ ds, d.name ∉ seen := by
  induction ds with
  | nil => intro seen es; simp [outcomes]
  | cons d ds ih =>
      intro seen es
      rw [outcomes_cons]
      cases es with
      | nil => simp
      | cons e es =>
          rw [List.map_cons, List.map_cons, List.map_cons, List.cons.injEq, List.cons.injEq,
            outcome_eq_ok, ih, List.map_cons, List.nodup_cons, List.forall_mem_cons]
          simp only [List.mem_cons, not_or, List.mem_map, not_exists, not_and]
          constructor
          · rintro ⟨⟨hnew, hd⟩, hds, hnodup, hnames⟩
            exact ⟨⟨hd, hds⟩, ⟨fun x hx => (hnames x hx).1, hnodup⟩, hnew, fun x hx => (hnames x hx).2⟩
          · rintro ⟨⟨hd, hds⟩, ⟨hhead, hnodup⟩, hnew, hnames⟩
            exact ⟨⟨hnew, hd⟩, hds, hnodup, fun x hx => ⟨hhead x hx, hnames x hx⟩⟩

end Report

namespace Registry

variable {ds : List Declaration}

/-- A registry has exactly the enums of a run that leaves nothing out. -/
theorem ofDeclarations_iff_outcomes {r : Registry} :
    ofDeclarations ds = .ok r ↔ Report.outcomes [] ds = r.enums.map .ok := by
  rw [ofDeclarations_ok, Report.outcomes_eq_ok]
  constructor
  · rintro ⟨hresolve, hnodup⟩
    rw [Declaration.names_of_resolved hresolve] at hnodup
    exact ⟨hresolve, hnodup, fun _ _ => List.not_mem_nil⟩
  · rintro ⟨hresolve, hnodup, _⟩
    rw [← Declaration.names_of_resolved hresolve] at hnodup
    exact ⟨hresolve, hnodup⟩

/-- Why declarations make no registry: the first that does not resolve, or, if all of them do, the
first with a name that occurred before. -/
inductive Refusal (ds : List Declaration) : Fault → Prop where
  | unresolved {before d after f} (hsplit : ds = before ++ d :: after)
      (hbefore : ∀ x ∈ before, ∃ e, x.resolve = .ok e) (hd : d.resolve = .error f) : Refusal ds f
  | repeated {name} (hall : ∀ d ∈ ds, ∃ e, d.resolve = .ok e)
      (hname : IsFirstRepeated (ds.map Declaration.name) name) : Refusal ds (.duplicateEnum name)

theorem ofResolved_error {es : List Resolved} {f : Fault} : ofResolved es = .error f ↔
    ∃ name, IsFirstRepeated (es.map Resolved.name) name ∧ f = .duplicateEnum name := by
  rw [ofResolved, bind_error, checkDistinct_eq_error]
  refine or_iff_left ?_
  rintro ⟨_, _, h⟩
  cases h

theorem ofDeclarations_error {f : Fault} : ofDeclarations ds = .error f ↔ Refusal ds f := by
  rw [ofDeclarations, bind_error, mapM_error]
  constructor
  · rintro (⟨before, d, after, hsplit, hbefore, hd⟩ | ⟨es, hes, h⟩)
    · exact .unresolved hsplit hbefore hd
    · obtain ⟨name, hname, rfl⟩ := ofResolved_error.mp h
      have hresolve := mapM_ok.mp hes
      rw [Declaration.names_of_resolved hresolve] at hname
      exact .repeated (exists_map_ok.mp ⟨_, hresolve⟩) hname
  · rintro (⟨hsplit, hbefore, hd⟩ | ⟨hall, hname⟩)
    · exact .inl ⟨_, _, _, hsplit, hbefore, hd⟩
    · obtain ⟨es, hes⟩ := exists_map_ok.mpr hall
      rw [← Declaration.names_of_resolved hes] at hname
      exact .inr ⟨es, mapM_ok.mpr hes, ofResolved_error.mpr ⟨_, hname, rfl⟩⟩

end Registry

/-- Declarations make a registry exactly if a report on them leaves none out, and then the registry
has the enums of the report in their order, each with its own values under its own tag. Otherwise
the registry is refused for the first declaration that does not resolve or, if all do, for the first
name that occurred before. -/
theorem Registry.agrees_with_report {ds : List Declaration} {c : Config} {r : Report}
    (h : Report.ofDeclarations ds c = .ok r) :
    ((∃ s, ofDeclarations ds = .ok s) ↔ r.skipped = []) ∧
    (∀ s, ofDeclarations ds = .ok s → s.enums = r.resolved ∧
      s.tags = r.resolved.map Resolved.name ∧
      ∀ e ∈ r.resolved, s.valuesOf e.name = .ok e.table) ∧
    ∀ f, ofDeclarations ds = .error f ↔ Refusal ds f := by
  obtain ⟨hresolved, hskipped, _⟩ := Report.ofDeclarations_ok h
  refine ⟨?_, fun s hs => ?_, fun f => ofDeclarations_error⟩
  · rw [hskipped, Report.skippedOf_eq_nil]
    constructor
    · rintro ⟨s, hs⟩
      rw [ofDeclarations_iff_outcomes.mp hs, Report.resolvedOf_map_ok]
    · intro hos
      exact ⟨⟨_⟩, ofDeclarations_iff_outcomes.mpr hos⟩
  · have henums : s.enums = r.resolved := by
      rw [hresolved, ofDeclarations_iff_outcomes.mp hs, Report.resolvedOf_map_ok]
    rw [← henums]
    exact ⟨rfl, rfl, fun e he => valuesOf_of_find (find_of_mem (ofDeclarations_ok.mp hs).2 he)⟩

/-- A declaration that resolves. -/
def level : Declaration := { name := "app.Level", members := [⟨"Low", none⟩] }

/-- A name that is repeated, in front of one that does not resolve. -/
def mixedLevels : List Declaration := [level, level, { name := "type" }]

theorem Registry.agrees_on_levels :
    (∃ r s, Report.ofDeclarations [level] {} = .ok r ∧ r.skipped = [] ∧
      ofDeclarations [level] = .ok s ∧ s.enums = r.resolved) ∧
    ∃ r, Report.ofDeclarations mixedLevels {} = .ok r ∧ r.skipped ≠ [] ∧
      ofDeclarations mixedLevels = .error (.invalidName "type" (.notIdentifier "type")) := by
  have hlevel : level.resolve = .ok ⟨"app.Level", .i32, [⟨"Low", .zero .i32⟩]⟩ := rfl
  constructor
  · have hnames : Report.AllNameable [level] := Report.allNameable_of_names (by decide)
    obtain ⟨r, hr, _⟩ := Report.ofDeclarations_of_nameable (c := {}) rfl hnames
    obtain ⟨haccepts, henums, _⟩ := Registry.agrees_with_report hr
    have hs : ofDeclarations [level] = .ok ⟨[⟨"app.Level", .i32, [⟨"Low", .zero .i32⟩]⟩]⟩ := rfl
    exact ⟨r, _, hr, haccepts.mp ⟨_, hs⟩, hs, (henums _ hs).1⟩
  · have hnames : Report.AllNameable mixedLevels := Report.allNameable_of_names (by decide)
    obtain ⟨r, hr, _⟩ := Report.ofDeclarations_of_nameable (c := {}) rfl hnames
    obtain ⟨haccepts, _, hrefused⟩ := Registry.agrees_with_report hr
    have hbefore : ∀ d ∈ [level, level], ∃ e, d.resolve = .ok e := by simp [hlevel]
    have hsplit : mixedLevels = [level, level] ++ [{ name := "type" }] := rfl
    have herror := (hrefused _).mpr (.unresolved hsplit hbefore rfl)
    refine ⟨r, hr, fun hnone => ?_, herror⟩
    obtain ⟨s, hs⟩ := haccepts.mpr hnone
    rw [herror] at hs
    cases hs

end EnumLookup
