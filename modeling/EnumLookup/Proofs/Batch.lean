import EnumLookup.Artifact
import EnumLookup.Proofs.FirstFault
import EnumLookup.Registry

/-!
# Batches of enums with distinct names

A batch passes the check of its names exactly if they are distinct, and otherwise fails for the first
name that occurred before. No later step asks for that again.
-/

namespace EnumLookup

theorem checkDistinctFrom_ok {es : List Resolved} : ∀ {seen},
    checkDistinctFrom seen es = .ok () ↔
      (es.map Resolved.name).Nodup ∧ ∀ e ∈ es, e.name ∉ seen := by
  induction es with
  | nil => intro seen; simp [checkDistinctFrom]; rfl
  | cons e es ih =>
      intro seen
      rw [checkDistinctFrom]
      by_cases he : e.name ∈ seen
      · have hthrow : (throw (.duplicateEnum e.name) : Except Fault Unit) ≠ .ok () := nofun
        simp [he, hthrow]
      · simp only [List.contains_eq_mem, he, decide_false, Bool.false_eq_true, if_false, ih,
          List.map_cons, List.nodup_cons, List.mem_cons, not_or, forall_eq_or_imp,
          not_false_eq_true, true_and]
        constructor
        · rintro ⟨hn, hs⟩
          refine ⟨⟨?_, hn⟩, fun x hx => (hs x hx).2⟩
          intro hm
          obtain ⟨x, hx, hxe⟩ := List.mem_map.mp hm
          exact (hs x hx).1 hxe
        · rintro ⟨⟨hm, hn⟩, hs⟩
          exact ⟨hn, fun x hx => ⟨fun hxe => hm (List.mem_map.mpr ⟨x, hx, hxe⟩), hs x hx⟩⟩

theorem checkDistinct_ok {es : List Resolved} :
    checkDistinct es = .ok () ↔ (es.map Resolved.name).Nodup := by
  simp [checkDistinct, checkDistinctFrom_ok]

theorem checkDistinctFrom_append {before after : List Resolved} : ∀ {seen},
    checkDistinctFrom seen (before ++ after) = (checkDistinctFrom seen before >>= fun _ =>
      checkDistinctFrom ((before.map Resolved.name).reverse ++ seen) after) := by
  induction before with
  | nil => exact rfl
  | cons e before ih =>
      intro seen
      simp only [List.cons_append, checkDistinctFrom, List.map_cons, List.reverse_cons,
        List.append_assoc]
      split
      · rfl
      · exact ih

theorem checkDistinct_of_repeated {es : List Resolved} {name : String}
    (h : IsFirstRepeated (es.map Resolved.name) name) :
    checkDistinct es = .error (.duplicateEnum name) := by
  obtain ⟨before, after, hsplit, hbefore, hname⟩ := h
  obtain ⟨xs, ys, rfl, rfl, hys⟩ := List.map_eq_append_iff.mp hsplit
  obtain ⟨e, zs, rfl, rfl, _⟩ := List.map_eq_cons_iff.mp hys
  rw [checkDistinct, checkDistinctFrom_append,
    checkDistinctFrom_ok.mpr ⟨hbefore, by simp⟩, List.append_nil]
  show checkDistinctFrom _ (e :: zs) = _
  rw [checkDistinctFrom, if_pos (by simpa using hname)]
  rfl

theorem checkDistinct_eq_error {es : List Resolved} {f : Fault} : checkDistinct es = .error f ↔
    ∃ name, IsFirstRepeated (es.map Resolved.name) name ∧ f = .duplicateEnum name := by
  refine Outcome.error_iff_of_cases (P := fun f => ∃ name,
    IsFirstRepeated (es.map Resolved.name) name ∧ f = .duplicateEnum name) ?_ ?_ f
  · by_cases hnodup : (es.map Resolved.name).Nodup
    · exact .inl ⟨(), checkDistinct_ok.mpr hnodup⟩
    · obtain ⟨name, hname⟩ := exists_firstRepeated hnodup
      exact .inr ⟨_, name, hname, rfl⟩
  · rintro _ ⟨name, hname, rfl⟩
    exact checkDistinct_of_repeated hname

theorem Registry.ofResolved_of_nodup {es : List Resolved} (h : (es.map Resolved.name).Nodup) :
    Registry.ofResolved es = .ok ⟨es⟩ := by
  rw [Registry.ofResolved, checkDistinct_ok.mpr h]; rfl

theorem generate_of_nodup {es : List Resolved} (h : (es.map Resolved.name).Nodup) (c : Config) :
    generate es c = c.validate.map fun _ => (artifactKinds c).map (Artifact.build es c) := by
  rw [generate, checkDistinct_ok.mpr h]
  cases c.validate <;> rfl

end EnumLookup
