import EnumLookup.Proofs.Artifact.Answers
import EnumLookup.Proofs.Generation.Trimmed

/-!
# What artifacts are read as

In either layout, the text of an artifact spells one file, which depends on the kind of the artifact
and on the enums with their discriminators.
-/

namespace EnumLookup

open Source Generation Discriminator Outcome

namespace Source

theorem Listing.ReadsAs.file {m : Marks} {l l' : Listing} (h : l.ReadsAs m l') :
    l.file.ReadsAs m l'.file := by
  cases h with
  | mk hdocs hparagraphs => exact .mk hdocs (List.rel_flatten hparagraphs)

end Source

namespace Artifact

variable {enums : List Resolved} {c : Config} {kind : ArtifactKind} {ds : List String}

/-- The file that an artifact is read as, for enums with their discriminators. -/
def codeFile (enums : List Resolved) (c : Config) (ds : List String) : ArtifactKind → File
  | .operation o => (lookupListing o ((enums.zip ds).map (asRead .dropped))).file
  | .support => (support enums c).file

theorem names_asRead (hds : assign (enums.map Resolved.name) = .ok ds) (m : Marks) :
    ((enums.zip ds).map (asRead m)).map Prod.fst = enums := by
  rw [map_fst_asRead, map_fst_assigned hds]

theorem line_of_assigned (hds : assign (enums.map Resolved.name) = .ok ds) :
    ∀ e ∈ enums, IsLine e.name :=
  fun e he => isLine_of_accepted (accepted_of_assigned hds e he)

/-- What is read of a discriminator can be written on, if the discriminator can. -/
theorem extensible_of_mem_read (hds : assign (enums.map Resolved.name) = .ok ds)
    (hn : ∀ e ∈ enums, IsNameable e.name) :
    ∀ p ∈ (enums.zip ds).map (asRead .dropped), IsExtensible p.2 := by
  intro p hp
  obtain ⟨q, hq, rfl⟩ := List.mem_map.mp hp
  obtain ⟨base, hbase, hform⟩ := form_of_mem_zip hds hq
  have hsound := hn _ (List.of_mem_zip hq).1 base hbase
  exact (IsExtensible.of_isSound hbase hsound hform).read_dropped

theorem line_of_mem_read (hds : assign (enums.map Resolved.name) = .ok ds) :
    ∀ p ∈ (enums.zip ds).map (asRead .dropped), IsLine p.1.name := by
  intro p hp
  obtain ⟨q, hq, rfl⟩ := List.mem_map.mp hp
  have hline : IsLine q.1.name := line_of_mem_zip hds hq
  exact hline

/-- What an artifact is read as is read as it is written. -/
theorem codeFile_reads (hc : c.validate = .ok ())
    (hds : assign (enums.map Resolved.name) = .ok ds)
    (hn : kind ≠ .support → ∀ e ∈ enums, IsNameable e.name) :
    (codeFile enums c ds kind).ReadsAs .dropped (codeFile enums c ds kind) := by
  cases kind with
  | support =>
      exact (support_reads (Config.validate_ok hc).2.1 (line_of_assigned hds)).file
  | operation o =>
      have hreads := lookupListing_reads (m := .dropped) (o := o)
        (extensible_of_mem_read hds (hn nofun)) (line_of_mem_read hds)
      rw [asRead_idempotent] at hreads
      exact hreads.file

theorem codeFile_isTrimmed : (codeFile enums c ds kind).IsTrimmed := by
  cases kind with
  | support => exact support_isTrimmed enums c
  | operation o => exact lookup_isTrimmed o _

/-- The plain text of an artifact that is built spells its file. -/
theorem plain_spelt (hc : c.validate = .ok ()) (hds : assign (enums.map Resolved.name) = .ok ds)
    (hn : kind ≠ .support → ∀ e ∈ enums, IsNameable e.name) {l : Listing}
    (hl : listing kind enums c = .ok l) :
    Spelt .dropped Anything File.Spells (l.text c.indent) (codeFile enums c ds kind) := by
  cases kind with
  | support =>
      cases hl
      exact (support_reads (Config.validate_ok hc).2.1 (line_of_assigned hds)).lexes
        (Config.validate_ok hc).1
  | operation o =>
      rw [listing_operation hds o] at hl
      cases hl
      exact lookup_spelt hc hds o (hn nofun)

/-- In either layout, the text of an artifact is the notice and a text that spells its file. -/
theorem text_spelt (hc : c.validate = .ok ()) (hds : assign (enums.map Resolved.name) = .ok ds)
    {a : Artifact} (h : build enums c kind = .ok a) :
    ∃ s, a.text = notice ++ s ∧
      Spelt .dropped PhraseEnd File.Spells s (codeFile enums c ds kind) := by
  have hn : kind ≠ .support → ∀ e ∈ enums, IsNameable e.name := by
    intro hkind
    cases kind with
    | support => exact absurd rfl hkind
    | operation o => exact nameable_of_build hc hds h
  obtain ⟨l, file, hl, hread, rfl⟩ := build_ok.mp h
  have hplain := plain_spelt hc hds hn hl
  have hfile : File.read? (l.text c.indent) = some (codeFile enums c ds kind) := hplain.readAs trivial
  rw [hread] at hfile
  cases hfile
  refine ⟨_, rfl, ?_⟩
  split
  · exact (codeFile_reads hc hds hn).pretty_spelt codeFile_isTrimmed
  · obtain ⟨ts, hts, hspells⟩ := hplain
    exact ⟨ts, hts.ofAnything, hspells⟩

/-- An artifact is read as its file. -/
theorem read_text (hc : c.validate = .ok ()) (hds : assign (enums.map Resolved.name) = .ok ds)
    {a : Artifact} (h : build enums c kind = .ok a) :
    File.read? a.text = some (codeFile enums c ds kind) := by
  obtain ⟨s, hs, hspelt⟩ := text_spelt hc hds h
  rw [hs]
  exact (noticed hspelt).readAs .nil

end Artifact

end EnumLookup
