import EnumLookup.Proofs.Outcome
import Mathlib.Data.List.Induction
import Mathlib.Data.List.Nodup

/-!
# Where a list goes wrong first

A list that is checked from its front fails at the first member that spoils it: everything before is
sound, and nothing behind matters.
-/

namespace EnumLookup

/-- What holds of no member, and not of the whole list, is first spoiled by one member of it. -/
theorem exists_first_bad {α : Type} {ok : List α → Prop} {xs : List α} (hnil : ok [])
    (h : ¬ ok xs) : ∃ before x after, xs = before ++ x :: after ∧ ok before ∧ ¬ ok (before ++ [x]) := by
  induction xs using List.reverseRecOn with
  | nil => exact absurd hnil h
  | append_singleton xs x ih =>
      by_cases hxs : ok xs
      · exact ⟨xs, x, [], rfl, hxs, h⟩
      · obtain ⟨before, y, after, rfl, hbefore, hy⟩ := ih hxs
        exact ⟨before, y, after ++ [x], by simp, hbefore, hy⟩

/-- The name is the first that occurred before. -/
def IsFirstRepeated (names : List String) (name : String) : Prop :=
  ∃ before after, names = before ++ name :: after ∧ before.Nodup ∧ name ∈ before

theorem exists_firstRepeated {names : List String} (h : ¬ names.Nodup) :
    ∃ name, IsFirstRepeated names name := by
  obtain ⟨before, name, after, hsplit, hbefore, hname⟩ := exists_first_bad List.nodup_nil h
  refine ⟨name, before, after, hsplit, hbefore, ?_⟩
  rw [List.nodup_append_comm, List.singleton_append, List.nodup_cons, not_and_or, not_not] at hname
  exact hname.resolve_right (not_not.mpr hbefore)

namespace Outcome

variable {ε α β : Type}

/-- A step that succeeds, or else has a reason to fail, fails for exactly the reasons that are
enough. -/
theorem error_iff_of_cases {x : Except ε α} {P : ε → Prop} (hcases : (∃ a, x = .ok a) ∨ ∃ e, P e)
    (h : ∀ e, P e → x = .error e) (e : ε) : x = .error e ↔ P e := by
  refine ⟨fun he => ?_, h e⟩
  rcases hcases with ⟨a, ha⟩ | ⟨e', he'⟩
  · rw [ha] at he
    cases he
  · rw [h e' he'] at he
    cases he
    exact he'

/-- A step for each member of a list fails as it does for the first member that it fails for. -/
theorem mapM_error {f : α → Except ε β} {as : List α} {e : ε} : as.mapM f = .error e ↔
    ∃ before a after, as = before ++ a :: after ∧ (∀ x ∈ before, ∃ b, f x = .ok b) ∧
      f a = .error e := by
  induction as with
  | nil => simp [pure, Except.pure]
  | cons a as ih =>
      rw [List.mapM_cons, bind_error]
      constructor
      · rintro (h | ⟨b, hb, h⟩)
        · exact ⟨[], a, as, rfl, by simp, h⟩
        · rcases bind_error.mp h with h | ⟨_, _, h⟩
          · obtain ⟨before, x, after, rfl, hbefore, hx⟩ := ih.mp h
            exact ⟨a :: before, x, after, rfl, List.forall_mem_cons.mpr ⟨⟨b, hb⟩, hbefore⟩, hx⟩
          · cases h
      · rintro ⟨before, x, after, hsplit, hbefore, hx⟩
        cases before with
        | nil =>
            cases hsplit
            exact .inl hx
        | cons y before =>
            cases hsplit
            obtain ⟨⟨b, hb⟩, hbefore⟩ := List.forall_mem_cons.mp hbefore
            exact .inr ⟨b, hb, bind_error.mpr (.inl (ih.mpr ⟨before, x, after, rfl, hbefore, hx⟩))⟩

end Outcome

end EnumLookup
