import EnumLookup.Proofs.Outcome
import EnumLookup.Resolution

/-!
# What resolves

A declaration that resolves has members with distinct names that are not blank, and resolution
keeps the members' names and puts every value in the enum's width.
-/

namespace EnumLookup.Declaration

open Outcome

theorem checkMembers_ok {enum : String} {ms : List Member} : ∀ {seen},
    checkMembers enum seen ms = .ok () ↔
      (∀ m ∈ ms, Text.isBlank m.name = false ∧ m.name ∉ seen) ∧ (ms.map Member.name).Nodup := by
  induction ms with
  | nil => intro seen; simp [checkMembers]; rfl
  | cons m ms ih =>
      intro seen
      rw [checkMembers]
      by_cases hblank : Text.isBlank m.name = true
      · simp [hblank, throw_ne_ok]
      by_cases hseen : m.name ∈ seen
      · simp [hblank, hseen, throw_ne_ok]
      simp only [hblank, hseen, List.contains_eq_mem, decide_false, Bool.false_eq_true, if_false,
        ih, List.mem_cons, not_or, forall_eq_or_imp, List.map_cons, List.nodup_cons,
        List.mem_map, not_exists, not_and, not_false_eq_true, and_true, true_and]
      constructor
      · rintro ⟨hms, hnodup⟩
        exact ⟨fun x hx => ⟨(hms x hx).1, (hms x hx).2.2⟩, fun x hx => (hms x hx).2.1, hnodup⟩
      · rintro ⟨hms, hnew, hnodup⟩
        exact ⟨fun x hx => ⟨(hms x hx).1, hnew x hx, (hms x hx).2⟩, hnodup⟩

@[simp] theorem evaluate_names {w : Width} {ms : List Member} : ∀ {auto},
    (evaluate w auto ms).map Entry.name = ms.map Member.name := by
  induction ms with
  | nil => intro auto; rfl
  | cons m ms ih => intro auto; simp [evaluate, ih]

theorem evaluate_width {w : Width} {ms : List Member} : ∀ {auto : Constant}, auto.width = w →
    ∀ x ∈ evaluate w auto ms, x.value.width = w := by
  induction ms with
  | nil =>
      intro auto _ x hx
      cases hx
  | cons m ms ih =>
      intro auto hauto x hx
      have hc : ((m.value.map fun v => Constant.ofInt w v.toInt).getD auto).width = w := by
        cases m.value with
        | none => exact hauto
        | some v => rfl
      rcases List.mem_cons.mp hx with rfl | hx
      · exact hc
      · exact ih (by exact hc) x hx

/-- A declaration resolves if its type is known, its name yields a discriminator and its members'
names pass their check. -/
theorem resolve_ok {d : Declaration} {e : Resolved} : d.resolve = .ok e ↔
    ∃ w, d.width = .ok w ∧ d.validate = .ok () ∧
      e = ⟨d.name, w, evaluate w (.zero w) d.members⟩ := by
  rw [resolve, bind_ok]
  constructor
  · rintro ⟨w, hw, h⟩
    obtain ⟨_, hvalid, h⟩ := bind_ok.mp h
    cases h
    exact ⟨w, hw, hvalid, rfl⟩
  · rintro ⟨w, hw, hvalid, rfl⟩
    exact ⟨w, hw, bind_ok.mpr ⟨(), hvalid, rfl⟩⟩

theorem validate_ok {d : Declaration} : d.validate = .ok () ↔
    (∃ base, discriminator d.name = .ok base) ∧
      (∀ m ∈ d.members, Text.isBlank m.name = false) ∧ (d.members.map Member.name).Nodup := by
  rw [validate, bind_ok]
  simp [checkMembers_ok]

variable {d : Declaration} {e : Resolved} (h : d.resolve = .ok e)

include h

theorem resolve_name : e.name = d.name := by
  obtain ⟨_, _, _, rfl⟩ := resolve_ok.mp h
  rfl

theorem resolve_accepted : ∃ base, discriminator e.name = .ok base := by
  rw [resolve_name h]
  obtain ⟨_, _, hvalid, _⟩ := resolve_ok.mp h
  exact (validate_ok.mp hvalid).1

theorem names_of_resolve : e.entries.map Entry.name = d.members.map Member.name := by
  obtain ⟨w, _, _, rfl⟩ := resolve_ok.mp h
  exact evaluate_names

theorem nodup_of_resolve : (e.entries.map Entry.name).Nodup := by
  rw [names_of_resolve h]
  obtain ⟨_, _, hvalid, _⟩ := resolve_ok.mp h
  exact (validate_ok.mp hvalid).2.2

theorem not_blank_of_resolve : ∀ x ∈ e.entries, Text.isBlank x.name = false := by
  intro x hx
  have hname : x.name ∈ d.members.map Member.name := by
    rw [← names_of_resolve h]
    exact List.mem_map_of_mem hx
  obtain ⟨m, hm, hxm⟩ := List.mem_map.mp hname
  obtain ⟨_, _, hvalid, _⟩ := resolve_ok.mp h
  rw [← hxm]
  exact (validate_ok.mp hvalid).2.1 m hm

theorem widths_of_resolve : ∀ x ∈ e.entries, x.value.width = e.width := by
  obtain ⟨w, _, _, rfl⟩ := resolve_ok.mp h
  exact evaluate_width rfl

end EnumLookup.Declaration
