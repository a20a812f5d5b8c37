import EnumLookup.Proofs.Artifact.Built
import EnumLookup.Proofs.Report.Partition

/-!
# What a run reports

In a valid configuration a run fails for one reason only: a declaration resolves although its
discriminator cannot be written on. Then no lookup file reads as source, and the whole run is lost.
A report splits the declarations into its enums and those skipped.
-/

namespace EnumLookup

open Discriminator Outcome

namespace Report

variable {c : Config} {ds : List Declaration}

/-- Every enum that resolves can be named. -/
def AllNameable (ds : List Declaration) : Prop := ∀ i e, Resolves ds i e → IsNameable e.name

theorem generateAll_of_valid (hc : c.validate = .ok ()) (ds : List Declaration) :
    generateAll (resolvedOf (outcomes [] ds)) c =
      ((artifactKinds c).map (Artifact.build (resolvedOf (outcomes [] ds)) c)).mapM id := by
  rw [generateAll, generate_of_nodup (nodup_names_resolvedOf ds), hc]
  rfl

theorem accepted_of_resolved (ds : List Declaration) :
    ∀ e ∈ resolvedOf (outcomes [] ds), ∃ base, discriminator e.name = .ok base := by
  intro e he
  obtain ⟨i, hi⟩ := mem_resolvedOf.mp he
  exact Declaration.resolve_accepted hi.2

/-- A run over enums that can be named gives every artifact. -/
theorem ofDeclarations_of_nameable (hc : c.validate = .ok ()) (h : AllNameable ds) :
    ∃ r, ofDeclarations ds c = .ok r ∧ r.artifacts.map Artifact.kind = artifactKinds c := by
  have hn : ∀ e ∈ resolvedOf (outcomes [] ds), IsNameable e.name := by
    intro e he
    obtain ⟨i, hi⟩ := mem_resolvedOf.mp he
    exact h i e hi
  obtain ⟨as, hall⟩ :=
    generateAll_of_nameable (nodup_names_resolvedOf ds) hc (accepted_of_resolved ds) hn
  exact ⟨⟨_, _, as⟩, bind_ok.mpr ⟨_, hall, rfl⟩, kinds_of_generateAll hall⟩

/-- A run with an enum that resolves but cannot be named is lost. -/
theorem ofDeclarations_of_unnameable (hc : c.validate = .ok ()) (h : ¬ AllNameable ds) :
    ofDeclarations ds c = .error .unreadableCode := by
  obtain ⟨names, hnames⟩ := Generation.assign_of_enums (accepted_of_resolved ds)
  have hn : ¬ ∀ e ∈ resolvedOf (outcomes [] ds), IsNameable e.name :=
    fun hn => h fun i e hi => hn e (mem_resolvedOf.mpr ⟨i, hi⟩)
  obtain ⟨o, os, hos⟩ := List.exists_cons_of_ne_nil (Config.validate_ok hc).2.2
  have hfirst := Artifact.build_of_unnameable hc hnames o hn
  refine bind_error.mpr (.inl ?_)
  rw [generateAll_of_valid hc, artifactKinds, hos, List.map_cons, List.cons_append, List.map_cons,
    List.mapM_cons, hfirst]
  rfl

/-- Each declaration ends among the enums or among those skipped. -/
theorem resolved_or_skipped (ds : List Declaration) (i : Fin ds.length) :
    (∃ e ∈ resolvedOf (outcomes [] ds), Resolves ds i e) ∨
      ∃ s ∈ skippedOf (outcomes [] ds), LeavesOut ds i s := by
  cases h : outcomeAt ds i with
  | ok e =>
      have hi := outcomeAt_ok.mp h
      exact .inl ⟨e, mem_resolvedOf.mpr ⟨i, hi⟩, hi⟩
  | error s =>
      have hi := outcomeAt_error.mp h
      exact .inr ⟨s, mem_skippedOf.mpr ⟨i, hi⟩, hi⟩

/-- A run in a valid configuration gives a report exactly if every enum that resolves can be named.
Then the report has every enabled lookup artifact and the support file, and each declaration is
among its enums or among those skipped. Otherwise the whole run fails. -/
theorem ofDeclarations_dichotomy (hc : c.validate = .ok ()) (ds : List Declaration) :
    (AllNameable ds → ∃ r, ofDeclarations ds c = .ok r ∧
      r.artifacts.map Artifact.kind = artifactKinds c ∧
      ∀ i, (∃ e ∈ r.resolved, Resolves ds i e) ∨ ∃ s ∈ r.skipped, LeavesOut ds i s) ∧
    (¬ AllNameable ds → ofDeclarations ds c = .error .unreadableCode) := by
  refine ⟨fun h => ?_, ofDeclarations_of_unnameable hc⟩
  obtain ⟨r, hr, hkinds⟩ := ofDeclarations_of_nameable hc h
  obtain ⟨hres, hskip, _⟩ := ofDeclarations_ok hr
  refine ⟨r, hr, hkinds, ?_⟩
  rw [hres, hskip]
  exact resolved_or_skipped ds

/-- Names that are accepted, refused and repeated. -/
def levels : List Declaration := [
  { name := "app.Level", members := [⟨"Low", none⟩] }, { name := "type" }, { name := "app.Level" }]

/-- A name that is accepted for all its byte order mark. -/
def markedLevels : List Declaration := [
  { name := "Level", members := [⟨"Low", none⟩] }, { name := "\ufeffColor" }]

theorem allNameable_of_names (h : ∀ d ∈ ds, IsNameable d.name) : AllNameable ds := by
  intro i e hi
  rw [Declaration.resolve_name hi.2]
  exact h _ (List.getElem_mem i.2)

set_option maxRecDepth 4000 in
theorem allNameable_levels : AllNameable levels := allNameable_of_names (by decide)

set_option maxRecDepth 4000 in
theorem not_allNameable_markedLevels : ¬ AllNameable markedLevels := by
  intro h
  have hresolve : Resolves markedLevels ⟨1, by decide⟩ ⟨"\ufeffColor", .i32, []⟩ :=
    ⟨by decide, rfl⟩
  exact absurd (h _ _ hresolve) (by decide)

theorem dichotomy_of_levels :
    (∃ r, ofDeclarations levels {} = .ok r ∧ r.artifacts.map Artifact.kind = artifactKinds {}) ∧
      ofDeclarations markedLevels {} = .error .unreadableCode := by
  have hc : ({} : Config).validate = .ok () := rfl
  obtain ⟨r, hr, hkinds, _⟩ := (ofDeclarations_dichotomy hc levels).1 allNameable_levels
  exact ⟨⟨r, hr, hkinds⟩, (ofDeclarations_dichotomy hc markedLevels).2 not_allNameable_markedLevels⟩

/-- One enum that is accepted but cannot be named sinks a valid run. -/
theorem markedLevels_sink : ({} : Config).validate = .ok () ∧
    ∀ r, ofDeclarations markedLevels {} ≠ .ok r := by
  refine ⟨rfl, fun r h => ?_⟩
  rw [ofDeclarations_of_unnameable rfl not_allNameable_markedLevels] at h
  cases h

/-! ## Partition -/

/-- A run never fails because of a name that is listed twice. When it gives a report, the positions
of the declarations split in two ascending lists: those that resolve are the ones whose name is new
and that resolve on their own, and they stand in the report with their enums in order; the others
stand among those skipped, in order and each with its own fault. Nothing is lost or listed twice,
and what resolved has distinct names, so that neither a registry nor another generation refuses
it. -/
theorem ofDeclarations_partition (ds : List Declaration) (c : Config) :
    (∀ name, ofDeclarations ds c ≠ .error (.duplicateEnum name)) ∧
    ∀ r, ofDeclarations ds c = .ok r →
      (∃ kept left : List (Fin ds.length), Splits kept left ∧
        (∀ i, i ∈ kept ↔ ∃ e, Resolves ds i e) ∧
        List.Forall₂ (Resolves ds) kept r.resolved ∧
        List.Forall₂ (LeavesOut ds) left r.skipped) ∧
      r.resolved.length + r.skipped.length = ds.length ∧
      (r.resolved.map Resolved.name).Nodup ∧
      (∀ c' name, generate r.resolved c' ≠ .error (.duplicateEnum name)) ∧
      Registry.ofResolved r.resolved = .ok ⟨r.resolved⟩ := by
  refine ⟨ofDeclarations_ne_duplicateEnum ds c, fun r h => ?_⟩
  obtain ⟨hres, hskip, _⟩ := ofDeclarations_ok h
  have hnodup := nodup_names_resolvedOf ds
  rw [hres, hskip]
  refine ⟨⟨keptAt ds, leftAt ds, splits ds, fun i => mem_keptAt, forall₂_resolves ds,
    forall₂_leavesOut ds⟩, ?_, hnodup, generate_ne_duplicateEnum hnodup,
    Registry.ofResolved_of_nodup hnodup⟩
  rw [length_resolvedOf_add_length_skippedOf, length_outcomes]

theorem partition_of_levels : ∃ r, ∃ kept left : List (Fin levels.length),
    ofDeclarations levels {} = .ok r ∧ Splits kept left ∧
      List.Forall₂ (Resolves levels) kept r.resolved ∧
      List.Forall₂ (LeavesOut levels) left r.skipped ∧
      ⟨0, by decide⟩ ∈ kept ∧ ⟨1, by decide⟩ ∈ left ∧ ⟨2, by decide⟩ ∈ left := by
  obtain ⟨r, hr, _⟩ := ofDeclarations_of_nameable (c := {}) rfl allNameable_levels
  obtain ⟨_, h⟩ := ofDeclarations_partition levels {}
  obtain ⟨⟨kept, left, hsplits, hkept, hres, hskip⟩, _⟩ := h r hr
  refine ⟨r, kept, left, hr, hsplits, hres, hskip, ?_, ?_, ?_⟩
  · exact (hkept _).mpr ⟨_, by decide, rfl⟩
  · rw [hsplits.mem_left, hkept]
    rintro ⟨e, _, he⟩
    cases he
  · rw [hsplits.mem_left, hkept]
    rintro ⟨e, hfirst, _⟩
    exact absurd hfirst (by decide)

end Report

end EnumLookup
