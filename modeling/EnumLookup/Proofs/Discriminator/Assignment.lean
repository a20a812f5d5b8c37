import EnumLookup.Discriminator
import EnumLookup.Proofs.Outcome
import EnumLookup.Proofs.Text.Decimal
import Mathlib.Data.List.Forall2
import Mathlib.Data.List.Nodup

/-!
# Assigned discriminators are distinct

A base that is taken gives way to a numbered form. The numbered forms of a base differ, so one among
more of them than there are taken texts is free, and the bound of the search never ends it.
-/

namespace EnumLookup.Discriminator

open Outcome

theorem numbered_injective (base : String) {k l : Nat} (h : numbered base k = numbered base l) :
    k = l := by
  rw [numbered, numbered, String.append_right_inj] at h
  exact Text.natText_injective h

/-- A search that ends in a taken text has met taken texts only. -/
theorem firstFree_taken {taken : List String} {base : String} {fuel : Nat} : ∀ {k},
    firstFree taken base fuel k ∈ taken → ∀ j, k ≤ j → j ≤ k + fuel → numbered base j ∈ taken := by
  induction fuel with
  | zero =>
      intro k h j hk hj
      obtain rfl : j = k := by omega
      exact h
  | succ fuel ih =>
      intro k h j hk hj
      rw [firstFree] at h
      split at h
      · rename_i hmem
        rcases Nat.eq_or_lt_of_le hk with rfl | hlt
        · simpa using hmem
        · exact ih h j hlt (by omega)
      · rename_i hmem
        exact absurd (by simpa using h) hmem

theorem firstFree_fresh (taken : List String) (base : String) (k : Nat) :
    firstFree taken base taken.length k ∉ taken := by
  intro h
  have hmem := firstFree_taken h
  have hnodup : ((List.range' k (taken.length + 1)).map (numbered base)).Nodup :=
    List.Nodup.map (fun _ _ => numbered_injective base) List.nodup_range'
  have hsubset : (List.range' k (taken.length + 1)).map (numbered base) ⊆ taken := by
    intro s hs
    obtain ⟨j, hj, rfl⟩ := List.mem_map.mp hs
    rw [List.mem_range'_1] at hj
    exact hmem j hj.1 (by omega)
  have hle := hnodup.length_le_of_subset hsubset
  simp only [List.length_map, List.length_range'] at hle
  omega

theorem distinct_fresh (taken : List String) (base : String) : distinct taken base ∉ taken := by
  rw [distinct]
  split
  · exact firstFree_fresh taken base 2
  · rename_i h
    simpa using h

/-- The text is the base itself, or one of its numbered forms. -/
def IsForm (base d : String) : Prop := d = base ∨ ∃ k, d = numbered base k

theorem firstFree_isForm (taken : List String) (base : String) : ∀ fuel k,
    IsForm base (firstFree taken base fuel k)
  | 0, k => .inr ⟨k, rfl⟩
  | fuel + 1, k => by
      rw [firstFree]
      split
      · exact firstFree_isForm taken base fuel (k + 1)
      · exact .inr ⟨k, rfl⟩

theorem distinct_isForm (taken : List String) (base : String) :
    IsForm base (distinct taken base) := by
  rw [distinct]
  split
  · exact firstFree_isForm taken base _ 2
  · exact .inl rfl

/-- What is assigned is new, distinct, and name by name a form of the base. -/
theorem assignFrom_ok {names : List String} : ∀ {taken ds : List String},
    assignFrom taken names = .ok ds →
      ds.Nodup ∧ (∀ d ∈ ds, d ∉ taken) ∧
        List.Forall₂ (fun name d => ∃ base, discriminator name = .ok base ∧ IsForm base d) names ds := by
  induction names with
  | nil =>
      intro taken ds h
      cases h
      exact ⟨.nil, by simp, .nil⟩
  | cons name names ih =>
      intro taken ds h
      rw [assignFrom] at h
      obtain ⟨base, hbase, h⟩ := bind_ok.mp h
      obtain ⟨rest, hrest, h⟩ := bind_ok.mp h
      cases h
      obtain ⟨hnodup, hnew, hforms⟩ := ih hrest
      have hfresh := distinct_fresh taken base
      refine ⟨List.nodup_cons.mpr ⟨fun hmem => ?_, hnodup⟩, ?_,
        .cons ⟨base, hbase, distinct_isForm taken base⟩ hforms⟩
      · exact hnew _ hmem List.mem_cons_self
      · intro d hd
        rcases List.mem_cons.mp hd with rfl | hd
        · exact hfresh
        · exact fun hmem => hnew d hd (List.mem_cons_of_mem _ hmem)

theorem assign_nodup {names ds : List String} (h : assign names = .ok ds) : ds.Nodup :=
  (assignFrom_ok h).1

theorem assign_forms {names ds : List String} (h : assign names = .ok ds) :
    List.Forall₂ (fun name d => ∃ base, discriminator name = .ok base ∧ IsForm base d) names ds :=
  (assignFrom_ok h).2.2

/-- Names that yield discriminators can be assigned some. -/
theorem assignFrom_of_accepted {names : List String}
    (h : ∀ name ∈ names, ∃ base, discriminator name = .ok base) :
    ∀ taken, ∃ ds, assignFrom taken names = .ok ds := by
  induction names with
  | nil => exact fun taken => ⟨[], rfl⟩
  | cons name names ih =>
      intro taken
      obtain ⟨base, hbase⟩ := h name List.mem_cons_self
      obtain ⟨ds, hds⟩ := ih (fun n hn => h n (List.mem_cons_of_mem _ hn))
        (distinct taken base :: taken)
      refine ⟨distinct taken base :: ds, ?_⟩
      rw [assignFrom, hbase]
      show (assignFrom (distinct taken base :: taken) names >>= _) = _
      rw [hds]
      rfl

theorem assign_of_accepted {names : List String}
    (h : ∀ name ∈ names, ∃ base, discriminator name = .ok base) :
    ∃ ds, assign names = .ok ds := assignFrom_of_accepted h []

end EnumLookup.Discriminator
