import EnumLookup.Proofs.Batch
import EnumLookup.Proofs.Faults
import EnumLookup.Proofs.Resolution
import Mathlib.Data.List.FinRange

/-!
# A report splits its batch

The outcome for a declaration depends on the declaration and on whether its name stood before, and
on nothing else. So the positions of a batch split into those that resolve and those that are
skipped, each list of the report keeps the order of its positions, and what resolves has distinct
names.
-/

namespace EnumLookup

open Outcome

namespace Report

/-- No earlier declaration has the name of the one at the position. -/
def IsFirst (ds : List Declaration) (i : Fin ds.length) : Prop := ∀ j < i, ds[j].name ≠ ds[i].name

instance (ds : List Declaration) (i : Fin ds.length) : Decidable (IsFirst ds i) :=
  inferInstanceAs (Decidable (∀ j < i, _))

/-- The declaration at the position resolves to the enum. -/
def Resolves (ds : List Declaration) (i : Fin ds.length) (e : Resolved) : Prop :=
  IsFirst ds i ∧ ds[i].resolve = .ok e

/-- The declaration at the position is left out under its own name: for standing behind another of
that name, or else for the fault that keeps it from resolving. -/
def LeavesOut (ds : List Declaration) (i : Fin ds.length) (s : Skipped) : Prop :=
  s.name = ds[i].name ∧
    ((¬ IsFirst ds i ∧ s.fault = .duplicateEnum ds[i].name) ∨
      (IsFirst ds i ∧ ds[i].resolve = .error s.fault))

/-- The positions split in two lists, each in ascending order. -/
structure Splits {n : Nat} (kept left : List (Fin n)) : Prop where
  kept_ascends : kept.Pairwise (· < ·)
  left_ascends : left.Pairwise (· < ·)
  mem_left : ∀ i, i ∈ left ↔ i ∉ kept

/-! ## Outcomes by position -/

theorem outcomes_cons (seen : List String) (d : Declaration) (ds : List Declaration) :
    outcomes seen (d :: ds) =
      (if d.name ∈ seen then .error ⟨d.name, .duplicateEnum d.name⟩
        else d.resolve.mapError fun f => ⟨d.name, f⟩) :: outcomes (d.name :: seen) ds := by
  rw [outcomes]
  by_cases hseen : d.name ∈ seen
  · simp [hseen]
  · cases hd : d.resolve <;> simp [hseen, Except.mapError]

theorem length_outcomes (ds : List Declaration) : ∀ seen, (outcomes seen ds).length = ds.length := by
  induction ds with
  | nil => intro seen; rfl
  | cons d ds ih => intro seen; simp [outcomes_cons, ih]

/-- A declaration resolves if its name is neither among those seen before nor that of an earlier
declaration, and it is skipped otherwise. -/
theorem outcomes_getElem? {ds : List Declaration} : ∀ {seen : List String} {i : Nat}
    (h : i < ds.length),
    (outcomes seen ds)[i]? =
      some (if ds[i].name ∈ seen ∨ ∃ j, ∃ hj : j < i, ds[j].name = ds[i].name then
        .error ⟨ds[i].name, .duplicateEnum ds[i].name⟩
      else ds[i].resolve.mapError fun f => ⟨ds[i].name, f⟩) := by
  induction ds with
  | nil => nofun
  | cons d ds ih =>
      intro seen i h
      cases i with
      | zero =>
          simp only [outcomes_cons, List.getElem?_cons_zero, List.getElem_cons_zero,
            Nat.not_lt_zero, IsEmpty.exists_iff, exists_const, or_false]
      | succ i =>
          simp only [List.length_cons, Nat.add_lt_add_iff_right] at h
          simp only [outcomes_cons, List.getElem?_cons_succ, List.getElem_cons_succ, ih h]
          congr 2
          -- The first declaration's name is seen on one side and that of an earlier one on the other.
          apply propext
          constructor
          · rintro (hs | ⟨j, hj, he⟩)
            · rcases List.mem_cons.mp hs with he | hs
              · exact .inr ⟨0, by omega, he.symm⟩
              · exact .inl hs
            · exact .inr ⟨j + 1, by omega, he⟩
          · rintro (hs | ⟨j, hj, he⟩)
            · exact .inl (List.mem_cons_of_mem _ hs)
            · cases j with
              | zero => exact .inl (List.mem_cons.mpr (.inl he.symm))
              | succ j => exact .inr ⟨j, by omega, he⟩

/-- The outcome at a position of a batch. -/
def outcomeAt (ds : List Declaration) (i : Fin ds.length) : Except Skipped Resolved :=
  (outcomes [] ds).get ⟨i, (length_outcomes ds []).symm ▸ i.2⟩

theorem outcomes_eq_map (ds : List Declaration) :
    outcomes [] ds = (List.finRange ds.length).map (outcomeAt ds) := by
  apply List.ext_getElem
  · simp [length_outcomes]
  · intro i h _
    simp [outcomeAt]

theorem not_isFirst {ds : List Declaration} {i : Fin ds.length} :
    ¬ IsFirst ds i ↔ ∃ j, ∃ hj : j < i.val, ds[j].name = ds[i].name := by
  rw [IsFirst]
  push Not
  constructor
  · rintro ⟨j, hj, he⟩
    exact ⟨j, hj, he⟩
  · rintro ⟨j, hj, he⟩
    exact ⟨⟨j, by omega⟩, hj, he⟩

theorem outcomeAt_eq (ds : List Declaration) (i : Fin ds.length) :
    outcomeAt ds i =
      if IsFirst ds i then ds[i].resolve.mapError fun f => ⟨ds[i].name, f⟩
      else .error ⟨ds[i].name, .duplicateEnum ds[i].name⟩ := by
  have hget : (outcomes [] ds)[i.val]? = some _ := outcomes_getElem? i.2
  rw [List.getElem?_eq_getElem ((length_outcomes ds []).symm ▸ i.2)] at hget
  have hsome := Option.some.inj hget
  by_cases h : IsFirst ds i
  · have hnone : ¬ (ds[i.val].name ∈ [] ∨ ∃ j, ∃ hj : j < i.val, ds[j].name = ds[i.val].name) := by
      rintro (hm | hm)
      · exact absurd hm List.not_mem_nil
      · exact not_isFirst.mpr hm h
    rw [if_neg hnone] at hsome
    rw [if_pos h]
    exact hsome
  · rw [if_pos (.inr (not_isFirst.mp h))] at hsome
    rw [if_neg h]
    exact hsome

theorem outcomeAt_ok {ds : List Declaration} {i : Fin ds.length} {e : Resolved} :
    outcomeAt ds i = .ok e ↔ Resolves ds i e := by
  rw [outcomeAt_eq, Resolves]
  by_cases h : IsFirst ds i
  · rw [if_pos h]
    cases hr : ds[i].resolve with
    | ok e' => simp [h, Except.mapError]
    | error f => simp [h, Except.mapError]
  · rw [if_neg h]
    exact ⟨nofun, fun hr => absurd hr.1 h⟩

theorem outcomeAt_error {ds : List Declaration} {i : Fin ds.length} {s : Skipped} :
    outcomeAt ds i = .error s ↔ LeavesOut ds i s := by
  rw [outcomeAt_eq, LeavesOut]
  obtain ⟨name, fault⟩ := s
  by_cases h : IsFirst ds i
  · rw [if_pos h]
    cases hr : ds[i].resolve with
    | ok e' => simp [h, Except.mapError]
    | error f => simp [h, Except.mapError, eq_comm]
  · rw [if_neg h]
    simp [h, eq_comm]

/-! ## The two lists -/

/-- What a partial function keeps of a list goes with the elements that it keeps, in order. -/
theorem forall₂_filterMap {α β : Type} (g : α → Option β) (l : List α) :
    List.Forall₂ (fun x y => g x = some y) (l.filter fun x => (g x).isSome) (l.filterMap g) := by
  induction l with
  | nil => exact .nil
  | cons x l ih =>
      cases hx : g x with
      | none => simpa [hx] using ih
      | some y => simpa [hx] using ih

section Side

-- A side of the outcomes is told by what it makes of them, `side`, and by how they are made, `of`.
variable {ds : List Declaration} {β : Type} {side : Except Skipped Resolved → Option β}
  {of : β → Except Skipped Resolved} {Ends : Fin ds.length → β → Prop}

theorem forall₂_side (hside : Function.IsPartialInv of side) (keep : Except Skipped Resolved → Bool)
    (hkeep : ∀ o, keep o = (side o).isSome) (hends : ∀ {i b}, outcomeAt ds i = of b ↔ Ends i b) :
    List.Forall₂ Ends ((List.finRange ds.length).filter fun i => keep (outcomeAt ds i))
      ((outcomes [] ds).filterMap side) := by
  rw [funext hkeep, outcomes_eq_map, List.filterMap_map]
  refine (forall₂_filterMap (side ∘ outcomeAt ds) _).imp fun i b h => ?_
  exact hends.mp ((hside b _).mp h).symm

theorem mem_side (hside : Function.IsPartialInv of side)
    (hends : ∀ {i b}, outcomeAt ds i = of b ↔ Ends i b) {b : β} :
    b ∈ (outcomes [] ds).filterMap side ↔ ∃ i, Ends i b := by
  rw [outcomes_eq_map, List.filterMap_map, List.mem_filterMap]
  constructor
  · rintro ⟨i, _, h⟩
    exact ⟨i, hends.mp ((hside b _).mp h).symm⟩
  · rintro ⟨i, h⟩
    exact ⟨i, List.mem_finRange i, (hside b _).mpr (hends.mpr h).symm⟩

end Side

theorem isPartialInv_ok : Function.IsPartialInv (.ok : Resolved → Except Skipped Resolved)
    fun | .ok e => some e | .error _ => none := by
  intro e o
  cases o <;> simp [eq_comm]

theorem isPartialInv_error : Function.IsPartialInv (.error : Skipped → Except Skipped Resolved)
    fun | .ok _ => none | .error s => some s := by
  intro s o
  cases o <;> simp [eq_comm]

theorem resolvedOf_map_ok (es : List Resolved) : resolvedOf (es.map .ok) = es := by
  rw [resolvedOf, List.filterMap_map]
  exact List.filterMap_some

theorem length_resolvedOf_add_length_skippedOf (os : List (Except Skipped Resolved)) :
    (resolvedOf os).length + (skippedOf os).length = os.length := by
  induction os with
  | nil => rfl
  | cons o os ih => cases o <;> simp [resolvedOf, skippedOf] at ih ⊢ <;> omega

/-- The positions that resolve. -/
def keptAt (ds : List Declaration) : List (Fin ds.length) :=
  (List.finRange ds.length).filter fun i => (outcomeAt ds i).isOk

/-- The positions that are left out. -/
def leftAt (ds : List Declaration) : List (Fin ds.length) :=
  (List.finRange ds.length).filter fun i => !(outcomeAt ds i).isOk

theorem mem_keptAt {ds : List Declaration} {i : Fin ds.length} :
    i ∈ keptAt ds ↔ ∃ e, Resolves ds i e := by
  simp only [keptAt, List.mem_filter, List.mem_finRange, true_and, ← outcomeAt_ok]
  cases outcomeAt ds i <;> simp [Except.isOk, Except.toBool]

theorem splits (ds : List Declaration) : Splits (keptAt ds) (leftAt ds) where
  kept_ascends := (List.pairwise_lt_finRange _).filter _
  left_ascends := (List.pairwise_lt_finRange _).filter _
  mem_left := by intro i; simp [keptAt, leftAt]

theorem forall₂_resolves (ds : List Declaration) :
    List.Forall₂ (Resolves ds) (keptAt ds) (resolvedOf (outcomes [] ds)) :=
  forall₂_side isPartialInv_ok (·.isOk) (by rintro (_ | _) <;> rfl) outcomeAt_ok

theorem forall₂_leavesOut (ds : List Declaration) :
    List.Forall₂ (LeavesOut ds) (leftAt ds) (skippedOf (outcomes [] ds)) :=
  forall₂_side isPartialInv_error (!·.isOk) (by rintro (_ | _) <;> rfl) outcomeAt_error

/-- What resolves has distinct names: each stands at the first position of its name. -/
theorem nodup_names_resolvedOf (ds : List Declaration) :
    ((resolvedOf (outcomes [] ds)).map Resolved.name).Nodup := by
  have hnames : (keptAt ds).map (fun i => ds[i].name) =
      (resolvedOf (outcomes [] ds)).map Resolved.name := by
    rw [← List.forall₂_eq_eq_eq, List.forall₂_map_left_iff, List.forall₂_map_right_iff]
    exact (forall₂_resolves ds).imp fun i e h => (Declaration.resolve_name h.2).symm
  rw [← hnames, List.Nodup, List.pairwise_map]
  refine (splits ds).kept_ascends.imp_of_mem fun {i j} _ hj hlt => ?_
  obtain ⟨e, hfirst, _⟩ := mem_keptAt.mp hj
  exact hfirst i hlt

/-! ## The report -/

theorem mem_resolvedOf {ds : List Declaration} {e : Resolved} :
    e ∈ resolvedOf (outcomes [] ds) ↔ ∃ i, Resolves ds i e :=
  mem_side isPartialInv_ok outcomeAt_ok

theorem mem_skippedOf {ds : List Declaration} {s : Skipped} :
    s ∈ skippedOf (outcomes [] ds) ↔ ∃ i, LeavesOut ds i s :=
  mem_side isPartialInv_error outcomeAt_error

theorem ofDeclarations_ok {ds : List Declaration} {c : Config} {r : Report}
    (h : ofDeclarations ds c = .ok r) :
    r.resolved = resolvedOf (outcomes [] ds) ∧ r.skipped = skippedOf (outcomes [] ds) ∧
      generateAll (resolvedOf (outcomes [] ds)) c = .ok r.artifacts := by
  rw [ofDeclarations] at h
  obtain ⟨as, has, h⟩ := bind_ok.mp h
  cases h
  exact ⟨rfl, rfl, has⟩

/-- Enums with distinct names are never refused for their names, in any configuration. -/
theorem generate_ne_duplicateEnum {es : List Resolved} (h : (es.map Resolved.name).Nodup)
    (c : Config) (name : String) : generate es c ≠ .error (.duplicateEnum name) := by
  rw [generate_of_nodup h]
  cases hc : c.validate with
  | ok _ => nofun
  | error f =>
      obtain ⟨flaw, rfl⟩ := Config.validate_error hc
      nofun

/-- No step of a run fails because of a name that is listed twice. -/
theorem ofDeclarations_ne_duplicateEnum (ds : List Declaration) (c : Config) (name : String) :
    ofDeclarations ds c ≠ .error (.duplicateEnum name) := by
  intro h
  rw [ofDeclarations] at h
  rcases bind_error.mp h with h | ⟨_, _, h⟩
  · rcases generateAll_error h with ⟨_, hf⟩ | hdistinct | hf | ⟨_, _, hf⟩
    · cases hf
    · rw [checkDistinct_ok.mpr (nodup_names_resolvedOf ds)] at hdistinct
      cases hdistinct
    · cases hf
    · cases hf
  · cases h

end Report

end EnumLookup
