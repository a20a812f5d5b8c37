import EnumLookup.Proofs.Artifact.Answers
import EnumLookup.Proofs.Discriminator.Numbering

/-!
# What a run comes to

A run fails as a whole for its configuration or else for a name that is listed twice. Otherwise it
has an entry for each artifact in order. The lookup files share one fate where a name yields no
discriminator: each of them fails as the first such name does.
-/

namespace EnumLookup

open Source Generation Discriminator Outcome

namespace Artifact

/-- What becomes of the lookup file of an operation. -/
inductive LookupEntry (enums : List Resolved) (o : Operation) : Except Fault Artifact → Prop where
  | rejected {name flaw}
      (hname : IsFirstRejected (enums.map Resolved.name) (.invalidName name flaw)) :
      LookupEntry enums o (.error (.invalidName name flaw))
  | unreadable (haccepted : ∀ e ∈ enums, ∃ base, discriminator e.name = .ok base) :
      LookupEntry enums o (.error .unreadableCode)
  | built {a} (haccepted : ∀ e ∈ enums, ∃ base, discriminator e.name = .ok base)
      (hkind : a.kind = .operation o) (hfile : a.fileName = o.moduleName ++ ".rs") :
      LookupEntry enums o (.ok a)

/-- What becomes of the support file. -/
inductive SupportEntry : Except Fault Artifact → Prop where
  | unreadable : SupportEntry (.error .unreadableCode)
  | built {a} (hkind : a.kind = .support) (hfile : a.fileName = "mod.rs") : SupportEntry (.ok a)

theorem lookupEntry_of_build (enums : List Resolved) (c : Config) (o : Operation) :
    LookupEntry enums o (build enums c (.operation o)) := by
  cases hds : assign (enums.map Resolved.name) with
  | error f =>
      have hlisting : listing (.operation o) enums c = .error f := bind_error.mpr (.inl hds)
      obtain ⟨name, flaw, rfl⟩ := (assign_error.mp hds).invalidName
      rw [build_of_unlisted hlisting]
      exact .rejected (assign_error.mp hds)
  | ok ds =>
      have haccepted := accepted_of_assigned hds
      rcases build_of_listed (listing_operation (c := c) hds o) with ⟨a, ha⟩ | hunread
      · have hkind := kind_of_build ha
        rw [ha]
        exact .built haccepted hkind (by rw [fileName, hkind]; rfl)
      · rw [hunread]
        exact .unreadable haccepted

/-- Where a name yields no discriminator, an operation fails as the first such name does. -/
theorem LookupEntry.of_rejected {enums : List Resolved} {o : Operation} {x : Except Fault Artifact}
    {f : Fault} (h : LookupEntry enums o x) (hf : IsFirstRejected (enums.map Resolved.name) f) :
    x = .error f := by
  have hcontra : ¬ ∀ e ∈ enums, ∃ base, discriminator e.name = .ok base :=
    fun haccepted => hf.not_accepted (List.forall_mem_map.mpr haccepted)
  cases h with
  | rejected hname =>
      have hassign := (assign_error.mpr hname).symm.trans (assign_error.mpr hf)
      rw [Except.error.inj hassign]
  | unreadable haccepted => exact absurd haccepted hcontra
  | built haccepted => exact absurd haccepted hcontra

/-- Where every name yields a discriminator, no operation fails for a name. -/
theorem LookupEntry.of_accepted {enums : List Resolved} {o : Operation} {name : String}
    {flaw : NameFlaw} (ha : ∀ e ∈ enums, ∃ base, discriminator e.name = .ok base) :
    ¬ LookupEntry enums o (.error (.invalidName name flaw)) := by
  rintro ⟨hname⟩
  exact hname.not_accepted (List.forall_mem_map.mpr ha)

theorem supportEntry_of_build (enums : List Resolved) (c : Config) :
    SupportEntry (build enums c .support) := by
  have hlisting : listing .support enums c = .ok (support enums c) := rfl
  rcases build_of_listed hlisting with ⟨a, ha⟩ | hunread
  · have hkind := kind_of_build ha
    rw [ha]
    exact .built hkind (by rw [fileName, hkind]; rfl)
  · rw [hunread]
    exact .unreadable

end Artifact

open Artifact

/-- A run over a batch fails as the check of its configuration does, or if that passes, for the first
name that occurred before. Otherwise it has one entry for each enabled operation in order and one for
the support file. If a name yields no discriminator, the entries of the operations are all the fault
of the first such name; if there is none, no entry is the fault of a name. -/
theorem generate_settled (enums : List Resolved) (c : Config) :
    (∀ f, generate enums c = .error f ↔
      (c.validate = .error f ∧ ∃ flaw, f = .config flaw) ∨
      (c.validate = .ok () ∧
        ∃ name, IsFirstRepeated (enums.map Resolved.name) name ∧ f = .duplicateEnum name)) ∧
    ∀ os, generate enums c = .ok os → ∃ lookups last, os = lookups ++ [last] ∧
      List.Forall₂ (LookupEntry enums)
        ([.nameLookup, .valueTable, .tryParse].filter c.isEnabled) lookups ∧
      SupportEntry last ∧
      ((∃ e ∈ enums, ¬ ∃ base, discriminator e.name = .ok base) → ∃ name flaw,
        IsFirstRejected (enums.map Resolved.name) (.invalidName name flaw) ∧
        ∀ o ∈ lookups, o = .error (.invalidName name flaw)) ∧
      ((∀ e ∈ enums, ∃ base, discriminator e.name = .ok base) →
        ∀ name flaw, .error (.invalidName name flaw) ∉ os) := by
  refine ⟨fun f => ?_, fun os hos => ?_⟩
  · rw [generate_error, checkDistinct_eq_error]
    exact or_congr_left (iff_self_and.mpr Config.validate_error)
  obtain ⟨_, _, rfl⟩ := generate_ok hos
  have hentry := fun o => lookupEntry_of_build enums c o
  have hlast := supportEntry_of_build enums c
  refine ⟨c.operations.map fun o => build enums c (.operation o), build enums c .support,
    by simp [artifactKinds, Function.comp_def], ?_, hlast, ?_, ?_⟩
  · show List.Forall₂ _ c.operations _
    rw [List.forall₂_map_right_iff, List.forall₂_same]
    exact fun o _ => hentry o
  · rintro ⟨e, he, hrejected⟩
    obtain ⟨name, flaw, hf⟩ := exists_firstRejected fun ha =>
      hrejected (ha e.name (List.mem_map_of_mem he))
    refine ⟨name, flaw, hf, fun x hx => ?_⟩
    obtain ⟨o, _, rfl⟩ := List.mem_map.mp hx
    exact (hentry o).of_rejected hf
  · intro ha name flaw hmem
    obtain ⟨kind, _, hkind⟩ := List.mem_map.mp hmem
    cases kind with
    | operation o => exact LookupEntry.of_accepted ha (hkind ▸ hentry o)
    | support =>
        rw [hkind] at hlast
        cases hlast

end EnumLookup
