import EnumLookup.Proofs.Batch
import EnumLookup.Proofs.Outcome
import EnumLookup.Report

/-!
# Which faults a step can have

A configuration fails for a flaw of its own, a name for a flaw of its own, and an artifact only
because a name yields no discriminator or because its text does not read as source.
-/

namespace EnumLookup

open Outcome

theorem Config.validate_error {c : Config} {f : Fault} (h : c.validate = .error f) :
    ∃ flaw, f = .config flaw := by
  rw [Config.validate] at h
  repeat' split at h
  all_goals first
    | exact ⟨_, (throw_error.mp h).symm⟩
    | cases h

theorem discriminator_error {name : String} {f : Fault} (h : discriminator name = .error f) :
    ∃ flaw, f = .invalidName name flaw := by
  rw [discriminator] at h
  dsimp only at h
  repeat' split at h
  all_goals first
    | exact ⟨_, (throw_error.mp h).symm⟩
    | cases h

theorem Discriminator.assignFrom_error {names : List String} {f : Fault} : ∀ {taken},
    assignFrom taken names = .error f → ∃ name ∈ names, ∃ flaw, f = .invalidName name flaw := by
  induction names with
  | nil => nofun
  | cons name names ih =>
      intro taken h
      rw [assignFrom] at h
      rcases bind_error.mp h with h | ⟨d, _, h⟩
      · exact ⟨name, by simp, discriminator_error h⟩
      · rcases bind_error.mp h with h | ⟨_, _, h⟩
        · obtain ⟨n, hn, hf⟩ := ih h
          exact ⟨n, List.mem_cons_of_mem _ hn, hf⟩
        · cases h

theorem Artifact.build_error {enums : List Resolved} {c : Config} {kind : ArtifactKind} {f : Fault}
    (h : build enums c kind = .error f) :
    f = .unreadableCode ∨ ∃ name flaw, f = .invalidName name flaw := by
  rw [build] at h
  rcases bind_error.mp h with h | ⟨code, _, h⟩
  · rw [code] at h
    rcases bind_error.mp h with h | ⟨_, _, h⟩
    · cases kind with
      | support => cases h
      | operation o =>
          rw [listing, Generation.lookup] at h
          rcases bind_error.mp h with h | ⟨_, _, h⟩
          · obtain ⟨name, _, flaw, hf⟩ := Discriminator.assignFrom_error h
            exact .inr ⟨name, flaw, hf⟩
          · cases h
    · cases h
  · split at h
    · exact .inl (throw_error.mp h).symm
    · cases h

/-- A batch is not generated for a flaw of the configuration, for a name that is listed twice, or for
one of its artifacts. -/
theorem generateAll_error {enums : List Resolved} {c : Config} {f : Fault}
    (h : generateAll enums c = .error f) : (∃ flaw, f = .config flaw) ∨
      checkDistinct enums = .error f ∨ f = .unreadableCode ∨ ∃ name flaw, f = .invalidName name flaw := by
  rw [generateAll, generate] at h
  rcases bind_error.mp h with h | ⟨os, hos, h⟩
  · rcases bind_error.mp h with h | ⟨_, _, h⟩
    · exact .inl (Config.validate_error h)
    rcases bind_error.mp h with h | ⟨_, _, h⟩
    · exact .inr (.inl h)
    · cases h
  · obtain ⟨_, _, hos⟩ := bind_ok.mp hos
    obtain ⟨_, _, hos⟩ := bind_ok.mp hos
    cases hos
    obtain ⟨kind, _, hkind⟩ := List.mem_map.mp (mem_of_mapM_id_error h)
    exact .inr (.inr (Artifact.build_error hkind))

/-- No step before the first write fails as a write does. -/
theorem generateAll_ne_write (enums : List Resolved) (c : Config) (path : String) :
    generateAll enums c ≠ .error (.write path) := by
  intro h
  rcases generateAll_error h with ⟨_, hf⟩ | hdistinct | hf | ⟨_, _, hf⟩
  · cases hf
  · obtain ⟨_, _, hf⟩ := checkDistinct_eq_error.mp hdistinct
    cases hf
  · cases hf
  · cases hf

end EnumLookup
