import EnumLookup.Proofs.Batch
import EnumLookup.Proofs.Faults
import EnumLookup.Proofs.Generation.Names
import EnumLookup.Proofs.Generation.Refused

/-!
# Which artifacts are built

In a valid configuration the support file is always built. A lookup file is built exactly if every
enum has a discriminator that can be written on, and what is read of it is the file of the enums
with their discriminators.
-/

namespace EnumLookup

open Source Generation Discriminator Outcome

theorem Config.validate_ok {c : Config} (h : c.validate = .ok ()) :
    IsIndent c.indent ∧ IsLine c.marker ∧ c.operations ≠ [] := by
  rw [validate] at h
  split at h
  · cases h
  split at h
  · cases h
  split at h
  · cases h
  rename_i hmarker
  split at h
  · cases h
  rename_i hindent
  split at h
  · cases h
  rename_i hoperations
  refine ⟨fun x hx => ?_, isLine_of_noControl fun x hx => ?_, ?_⟩
  · simp only [Bool.not_eq_true', Bool.not_eq_false, List.all_eq_true] at hindent
    simpa using hindent x hx
  · rw [Bool.not_eq_true, List.any_eq_false] at hmarker
    simpa using hmarker x hx
  · simpa using hoperations

theorem isLine_of_accepted {e : Resolved} (h : ∃ base, discriminator e.name = .ok base) :
    IsLine e.name := by
  obtain ⟨base, hbase⟩ := h
  exact isLine_of_noControl (discriminator_ok hbase).1

namespace Artifact

variable {enums : List Resolved} {c : Config} {kind : ArtifactKind}

theorem build_ok {a : Artifact} : build enums c kind = .ok a ↔
    ∃ l file, listing kind enums c = .ok l ∧ File.read? (l.text c.indent) = some file ∧
      a = ⟨kind, notice ++ if c.pretty then file.pretty else l.text c.indent⟩ := by
  rw [build, bind_ok]
  constructor
  · rintro ⟨text, htext, h⟩
    obtain ⟨l, hl, ht⟩ := bind_ok.mp htext
    cases ht
    split at h
    · cases h
    · rename_i file hfile
      cases h
      exact ⟨l, file, hl, hfile, rfl⟩
  · rintro ⟨l, file, hl, hfile, rfl⟩
    refine ⟨l.text c.indent, bind_ok.mpr ⟨l, hl, rfl⟩, ?_⟩
    rw [hfile]
    rfl

theorem kind_of_build {a : Artifact} (h : build enums c kind = .ok a) : a.kind = kind := by
  obtain ⟨_, _, _, _, rfl⟩ := build_ok.mp h
  rfl

theorem build_of_unread {l : Listing} (hl : listing kind enums c = .ok l)
    (h : File.read? (l.text c.indent) = none) : build enums c kind = .error .unreadableCode := by
  rw [build, bind_error]
  refine .inr ⟨l.text c.indent, bind_ok.mpr ⟨l, hl, rfl⟩, ?_⟩
  rw [h]
  rfl

theorem build_of_unlisted {f : Fault} (h : listing kind enums c = .error f) :
    build enums c kind = .error f := by
  rw [build, bind_error]
  exact .inl (bind_error.mpr (.inl h))

/-- An artifact that has a listing is built, or its text is not read. -/
theorem build_of_listed {l : Listing} (h : listing kind enums c = .ok l) :
    (∃ a, build enums c kind = .ok a) ∨ build enums c kind = .error .unreadableCode := by
  cases hread : File.read? (l.text c.indent) with
  | none => exact .inr (build_of_unread h hread)
  | some file => exact .inl ⟨_, build_ok.mpr ⟨l, file, h, hread, rfl⟩⟩

section Valid

variable (hc : c.validate = .ok ()) (ha : ∀ e ∈ enums, ∃ base, discriminator e.name = .ok base)

include hc

/-- The support file is built for every batch. -/
theorem build_support (ha : ∀ e ∈ enums, ∃ base, discriminator e.name = .ok base) :
    ∃ a, build enums c .support = .ok a := by
  obtain ⟨hindent, hmarker, _⟩ := Config.validate_ok hc
  have hspelt := (support_reads (m := .dropped) hmarker fun e he =>
    isLine_of_accepted (ha e he)).lexes hindent
  exact ⟨_, build_ok.mpr ⟨_, _, rfl, hspelt.readAs trivial, rfl⟩⟩

variable {ds : List String} (hds : assign (enums.map Resolved.name) = .ok ds) (o : Operation)

include hds

omit hc in
theorem listing_operation : listing (.operation o) enums c = .ok (lookupListing o (enums.zip ds)) := by
  rw [listing, lookup, hds]
  rfl

omit hc in
theorem line_of_mem_zip {p : Resolved × String} (hp : p ∈ enums.zip ds) : IsLine p.1.name := by
  obtain ⟨base, hbase, _⟩ := form_of_mem_zip hds hp
  exact isLine_of_accepted ⟨base, hbase⟩

/-- The text of a lookup file spells the file with what is read of its discriminators. -/
theorem lookup_spelt {m : Marks} (hn : ∀ e ∈ enums, IsNameable e.name) :
    Spelt m Anything File.Spells ((lookupListing o (enums.zip ds)).text c.indent)
      (lookupListing o ((enums.zip ds).map (asRead m))).file := by
  refine (lookupListing_reads (fun p hp => ?_) fun p hp => line_of_mem_zip hds hp).lexes
    (Config.validate_ok hc).1
  obtain ⟨base, hbase, hform⟩ := form_of_mem_zip hds hp
  exact .of_isSound hbase (hn _ (List.of_mem_zip hp).1 base hbase) hform

/-- A lookup file is built if all enums can be named. -/
theorem build_of_nameable (hn : ∀ e ∈ enums, IsNameable e.name) :
    ∃ a, build enums c (.operation o) = .ok a := by
  have hread := (lookup_spelt (m := .dropped) hc hds o hn).readAs trivial
  exact ⟨_, build_ok.mpr ⟨_, _, listing_operation hds o, hread, rfl⟩⟩

/-- A lookup file is not built if one of the enums cannot be named. -/
theorem build_of_unnameable (hn : ¬ ∀ e ∈ enums, IsNameable e.name) :
    build enums c (.operation o) = .error .unreadableCode := by
  refine build_of_unread (listing_operation hds o) (lookup_unread o (Config.validate_ok hc).1
    (fun p hp => form_of_mem_zip hds hp) (fun p hp => line_of_mem_zip hds hp) ?_)
  simp only [IsNameable, not_forall] at hn
  obtain ⟨e, he, base, hbase, hsound⟩ := hn
  rw [← map_fst_assigned hds] at he
  obtain ⟨p, hp, rfl⟩ := List.mem_map.mp he
  exact ⟨p, hp, base, hbase, hsound⟩

end Valid

end Artifact

/-! ## Whole runs -/

section Run

variable {enums : List Resolved} {c : Config} {as : List Artifact}

theorem generate_ok {os : List (Except Fault Artifact)} (h : generate enums c = .ok os) :
    c.validate = .ok () ∧ (enums.map Resolved.name).Nodup ∧
      os = (artifactKinds c).map (Artifact.build enums c) := by
  rw [generate] at h
  obtain ⟨_, hvalid, h⟩ := bind_ok.mp h
  obtain ⟨_, hdistinct, h⟩ := bind_ok.mp h
  cases h
  exact ⟨hvalid, checkDistinct_ok.mp hdistinct, rfl⟩

theorem generate_error {f : Fault} : generate enums c = .error f ↔
    c.validate = .error f ∨ c.validate = .ok () ∧ checkDistinct enums = .error f := by
  rw [generate, bind_error]
  refine or_congr_right ⟨?_, ?_⟩
  · rintro ⟨_, hc, h⟩
    rcases bind_error.mp h with h | ⟨_, _, h⟩
    · exact ⟨hc, h⟩
    · cases h
  · rintro ⟨hc, h⟩
    exact ⟨(), hc, bind_error.mpr (.inl h)⟩

theorem generateAll_ok (h : generateAll enums c = .ok as) :
    c.validate = .ok () ∧ (artifactKinds c).map (Artifact.build enums c) = as.map .ok := by
  rw [generateAll] at h
  obtain ⟨os, hos, has⟩ := bind_ok.mp h
  obtain ⟨hvalid, _, rfl⟩ := generate_ok hos
  exact ⟨hvalid, mapM_id_ok.mp has⟩

theorem names_of_generateAll (h : generateAll enums c = .ok as) :
    (enums.map Resolved.name).Nodup := by
  rw [generateAll] at h
  obtain ⟨os, hos, _⟩ := bind_ok.mp h
  exact (generate_ok hos).2.1

/-- A run over enums that can be named gives every artifact. -/
theorem generateAll_of_nameable (hnames : (enums.map Resolved.name).Nodup)
    (hc : c.validate = .ok ()) (ha : ∀ e ∈ enums, ∃ base, discriminator e.name = .ok base)
    (hn : ∀ e ∈ enums, IsNameable e.name) : ∃ as, generateAll enums c = .ok as := by
  obtain ⟨ds, hds⟩ := assign_of_enums ha
  have hbuild : ∀ kind, ∃ a, Artifact.build enums c kind = .ok a := by
    intro kind
    cases kind with
    | operation o => exact Artifact.build_of_nameable hc hds o hn
    | support => exact Artifact.build_support hc ha
  obtain ⟨as, has⟩ := exists_map_ok.mpr fun kind (_ : kind ∈ artifactKinds c) => hbuild kind
  have hall : generateAll enums c = ((artifactKinds c).map (Artifact.build enums c)).mapM id := by
    rw [generateAll, generate_of_nodup hnames, hc]
    rfl
  exact ⟨as, hall.trans (mapM_id_ok.mpr has)⟩

theorem kinds_of_builds {kinds : List ArtifactKind}
    (h : kinds.map (Artifact.build enums c) = as.map .ok) : as.map Artifact.kind = kinds := by
  rw [map_of_map_ok (g := id) Artifact.kind_of_build h, List.map_id]

theorem kinds_of_generateAll (h : generateAll enums c = .ok as) :
    as.map Artifact.kind = artifactKinds c := kinds_of_builds (generateAll_ok h).2

theorem nodup_artifactKinds (c : Config) : (artifactKinds c).Nodup := by
  have hall : Operation.all.Nodup := by decide
  rw [artifactKinds, List.nodup_append]
  refine ⟨(hall.filter _).map fun o o' h => by simpa using h, by simp, ?_⟩
  intro kind hkind kind' hkind'
  obtain ⟨o, _, rfl⟩ := List.mem_map.mp hkind
  rw [List.mem_singleton.mp hkind']
  nofun

theorem nodup_kinds_of_generateAll (h : generateAll enums c = .ok as) :
    (as.map Artifact.kind).Nodup := by
  rw [kinds_of_generateAll h]
  exact nodup_artifactKinds c

end Run

end EnumLookup
