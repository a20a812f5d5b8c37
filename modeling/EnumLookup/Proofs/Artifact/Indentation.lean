import EnumLookup.Proofs.Artifact.Answers
import EnumLookup.Proofs.Layout.Indentation

/-!
# Artifacts and their indentation

The indentation of a configuration is read when the text of an artifact is written and nowhere else.
It decides neither whether there is a text nor what stands in its lines.
-/

namespace EnumLookup

open Source Layout

namespace Artifact

variable {kind : ArtifactKind} {enums : List Resolved} {c : Config} {i j : String}

theorem listing_indent : listing kind enums { c with indent := i } = listing kind enums c := by
  cases kind <;> rfl

theorem code_indent : code kind enums { c with indent := i } =
    (listing kind enums c).map fun l => l.text i := by
  rw [← listing_indent]
  rfl

theorem text_sameButIndent (hi : IsIndent i) (hj : IsIndent j) (l : Listing) :
    SameButIndent (l.text i) (l.text j) := write_sameButIndent hi hj l.blocks

/-- In two configurations that differ only in their indentations, which are spaces and tabs, the text of
a lookup file fails for the same fault or is written in both, and the support file is written in both.
The two texts have as many lines, and they are the same without the spaces and tabs in front. -/
theorem code_sameButIndent (enums : List Resolved) (c : Config) (hi : IsIndent i) (hj : IsIndent j) :
    (∀ o, (∃ f, code (.operation o) enums { c with indent := i } = .error f ∧
        code (.operation o) enums { c with indent := j } = .error f) ∨
      ∃ s t, code (.operation o) enums { c with indent := i } = .ok s ∧
        code (.operation o) enums { c with indent := j } = .ok t ∧ SameButIndent s t) ∧
    ∃ s t, code .support enums { c with indent := i } = .ok s ∧
      code .support enums { c with indent := j } = .ok t ∧ SameButIndent s t := by
  refine ⟨fun o => ?_, ?_⟩
  · rw [code_indent, code_indent]
    cases listing (.operation o) enums c with
    | error f => exact .inl ⟨f, rfl, rfl⟩
    | ok l => exact .inr ⟨_, _, rfl, rfl, text_sameButIndent hi hj l⟩
  · exact ⟨_, _, rfl, rfl, text_sameButIndent hi hj (Generation.support enums c)⟩

theorem code_of_collidingLevels : ∃ s t,
    code (.operation .nameLookup) collidingLevels { indent := "\t" } = .ok s ∧
    code (.operation .nameLookup) collidingLevels { indent := "" } = .ok t ∧ SameButIndent s t := by
  have hbases : ∀ e ∈ collidingLevels, ∃ base, discriminator e.name = .ok base :=
    fun e he => ⟨_, (names_collidingLevels e he).1⟩
  obtain ⟨ds, hds⟩ := Generation.assign_of_enums hbases
  obtain ⟨hlookup, _⟩ := code_sameButIndent (i := "\t") (j := "") collidingLevels {}
    (by simp [IsIndent]) (by simp [IsIndent])
  rcases hlookup .nameLookup with ⟨f, hf, _⟩ | hsame
  · rw [code_indent, listing_operation hds] at hf
    cases hf
  · exact hsame

end Artifact

end EnumLookup
