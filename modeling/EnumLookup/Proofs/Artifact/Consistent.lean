import EnumLookup.Proofs.Artifact.Collisions
import EnumLookup.Proofs.Generation.Tags

/-!
# Artifacts of one run fit together

The support file declares the files of the run and no others, gives on only what they define, and
lists the tags that their dispatchers know.
-/

namespace EnumLookup

open Source Generation Discriminator Artifact

namespace Source.File

/-- What a file declares for everyone. -/
def publicKinds (file : File) : List ItemKind := (file.items.filter Item.isPublic).map Item.kind

/-- The modules that a file declares for everyone. -/
def publicModules (file : File) : List String :=
  file.publicKinds.filterMap fun k => match k with
    | .module m => some m
    | _ => none

/-- The paths that a file gives on to everyone. -/
def publicUses (file : File) : List Source.Path :=
  file.publicKinds.filterMap fun k => match k with
    | .use p => some p
    | _ => none

/-- The values of the constants of that name that a file has for everyone. -/
def publicConstants (file : File) (name : String) : List Expr :=
  file.publicKinds.filterMap fun k => match k with
    | .constant n _ value => if n = name then some value else none
    | _ => none

/-- The file has a function of that name for everyone. -/
def DefinesPublic (file : File) (name : String) : Prop :=
  ∃ f, .function f ∈ file.publicKinds ∧ f.name = name

end Source.File

/-- A support file and the artifacts of its run fit together: it declares exactly the modules whose
files are there, gives on functions that those define, and has one list of tags, outside of which
every dispatcher refuses the tag and inside of which none does. -/
structure FitsTogether (support : File) (as : List Artifact) (tags : List String) : Prop where
  modules : support.publicModules.map (· ++ ".rs") =
    (as.filter (·.kind ≠ .support)).map Artifact.fileName
  uses : ∀ p ∈ support.publicUses, ∃ m f b file, p = [m, f] ∧ b ∈ as ∧ b.fileName = m ++ ".rs" ∧
    File.read? b.text = some file ∧ file.DefinesPublic f
  constants : support.publicConstants "SUPPORTED_ENUM_TAGS" = [.borrow (.array (tags.map .text))]
  dispatchers : ∀ b ∈ as, ∀ o, b.kind = .operation o →
    ∃ file, File.read? b.text = some file ∧ RefusesOthers file tags o

namespace Generation

/-- What the support file declares for everyone. -/
theorem publicKinds_support (enums : List Resolved) (c : Config) :
    (support enums c).file.publicKinds =
      c.operations.map (fun o => .module o.moduleName) ++
        (c.operations.map (fun o => .use [o.moduleName, o.dispatcher]) ++
          [(tagsItem enums).kind, errorItem.kind]) := by
  have hpublic : ∀ f : Operation → ItemKind,
      ((c.operations.map fun o => ({ isPublic := true, kind := f o } : Item)).filter
        Item.isPublic).map Item.kind = c.operations.map f := by
    intro f
    rw [List.filter_eq_self.mpr, List.map_map]
    · rfl
    · intro i hi
      obtain ⟨o, _, rfl⟩ := List.mem_map.mp hi
      rfl
  rw [File.publicKinds, Listing.file, support]
  simp only [List.flatten_cons, List.flatten_nil, List.filter_append, List.map_append, hpublic]
  rfl

variable {enums : List Resolved} {c : Config}

theorem publicModules_support :
    (support enums c).file.publicModules = c.operations.map Operation.moduleName := by
  rw [File.publicModules, publicKinds_support, ← List.filterMap_eq_map]
  simp [List.filterMap_map, tagsItem, errorItem]

theorem publicUses_support : (support enums c).file.publicUses =
    c.operations.map fun o => [o.moduleName, o.dispatcher] := by
  rw [File.publicUses, publicKinds_support, ← List.filterMap_eq_map]
  simp [List.filterMap_map, tagsItem, errorItem]

theorem publicConstants_support :
    (support enums c).file.publicConstants "SUPPORTED_ENUM_TAGS" =
      [.borrow (.array ((enums.map Resolved.name).map .text))] := by
  rw [File.publicConstants, publicKinds_support, List.map_map]
  simp [List.filterMap_map, Function.comp_def, tagsItem, errorItem]

theorem definesPublic_lookup (o : Operation) (ps : List (Resolved × String)) :
    (lookupListing o ps).file.DefinesPublic o.dispatcher := by
  refine ⟨dispatcher o ps, List.mem_map.mpr ⟨dispatcherItem o ps, ?_, rfl⟩, rfl⟩
  rw [List.mem_filter, items_lookup]
  exact ⟨by simp, rfl⟩

end Generation

section Run

variable {enums : List Resolved} {c : Config} {as : List Artifact}

/-- The artifact of each kind is there. -/
theorem artifact_of_generateAll (h : generateAll enums c = .ok as) {kind : ArtifactKind}
    (hkind : kind ∈ artifactKinds c) : ∃ a ∈ as, a.kind = kind := by
  rw [← kinds_of_generateAll h] at hkind
  exact List.mem_map.mp hkind

theorem build_of_generateAll (h : generateAll enums c = .ok as) {a : Artifact} (ha : a ∈ as) :
    Artifact.build enums c a.kind = .ok a := by
  refine build_of_mem ?_ rfl
  rw [(generateAll_ok h).2]
  exact List.mem_map_of_mem ha

theorem assign_of_generateAll (h : generateAll enums c = .ok as) :
    ∃ ds, assign (enums.map Resolved.name) = .ok ds := by
  obtain ⟨o, os, hos⟩ := List.exists_cons_of_ne_nil (Config.validate_ok (generateAll_ok h).1).2.2
  have hkind : .operation o ∈ artifactKinds c := by rw [artifactKinds, hos]; simp
  obtain ⟨a, ha, hk⟩ := artifact_of_generateAll h hkind
  have hbuild := build_of_generateAll h ha
  rw [hk] at hbuild
  exact assign_of_build hbuild

theorem fileNames_of_generateAll (h : generateAll enums c = .ok as) :
    (as.filter (·.kind ≠ .support)).map Artifact.fileName =
      c.operations.map fun o => o.moduleName ++ ".rs" := by
  have hnames : (as.filter (·.kind ≠ .support)).map Artifact.fileName =
      ((as.map Artifact.kind).filter (· ≠ .support)).map ArtifactKind.fileName := by
    rw [List.filter_map, List.map_map]
    rfl
  have hoperations : (c.operations.map ArtifactKind.operation).filter (· ≠ .support) =
      c.operations.map .operation := by
    rw [List.filter_eq_self]
    intro kind hkind
    obtain ⟨o, _, rfl⟩ := List.mem_map.mp hkind
    rfl
  rw [hnames, kinds_of_generateAll h, artifactKinds, List.filter_append, hoperations,
    List.map_append, List.map_map]
  exact List.append_nil _

/-- A lookup artifact of a run defines its dispatcher, which refuses exactly the tags of no enum. -/
theorem lookup_of_generateAll (h : generateAll enums c = .ok as) {b : Artifact} (hb : b ∈ as)
    {o : Operation} (hkind : b.kind = .operation o) :
    ∃ file, File.read? b.text = some file ∧ file.DefinesPublic o.dispatcher ∧
      RefusesOthers file (enums.map Resolved.name) o := by
  obtain ⟨hc, _⟩ := generateAll_ok h
  obtain ⟨ds, hds⟩ := assign_of_generateAll h
  have hbuild := build_of_generateAll h hb
  rw [hkind] at hbuild
  have hextensible := extensible_of_mem_read hds (nameable_of_build hc hds hbuild)
  have htags : ((enums.zip ds).map (asRead .dropped)).map (fun p => p.1.name) =
      enums.map Resolved.name := by
    rw [← map_fst_assigned hds, List.map_map, List.map_map, map_fst_assigned hds]
    rfl
  refine ⟨_, read_text hc hds hbuild, definesPublic_lookup o _, ?_⟩
  rw [← htags]
  exact refusesOthers_lookup fun p hp => (hextensible p hp).helperName_ne_dispatcher

/-- The artifacts of a run fit together, for every batch and configuration of which all of them are
built: there is one for each enabled operation, and the tags are those of the registry. -/
theorem artifacts_fit_together (h : generateAll enums c = .ok as) :
    as.map Artifact.kind = artifactKinds c ∧
    ∃ r a support, Registry.ofResolved enums = .ok r ∧ r.tags = enums.map Resolved.name ∧
      a ∈ as ∧ a.kind = .support ∧ File.read? a.text = some support ∧
      FitsTogether support as r.tags := by
  obtain ⟨ds, hds⟩ := assign_of_generateAll h
  have hsupport : .support ∈ artifactKinds c := List.mem_append_right _ (List.mem_singleton_self _)
  obtain ⟨a, ha, hkind⟩ := artifact_of_generateAll h hsupport
  have hbuild := build_of_generateAll h ha
  rw [hkind] at hbuild
  have hregistry := Registry.ofResolved_of_nodup (names_of_generateAll h)
  have hread := read_text (generateAll_ok h).1 hds hbuild
  refine ⟨kinds_of_generateAll h, ⟨enums⟩, a, _, hregistry, rfl, ha, hkind, hread, ?_⟩
  constructor
  case modules =>
    rw [fileNames_of_generateAll h, codeFile, publicModules_support, List.map_map]
    rfl
  case uses =>
    intro p hp
    rw [codeFile, publicUses_support] at hp
    obtain ⟨o, ho, rfl⟩ := List.mem_map.mp hp
    have hmem : .operation o ∈ artifactKinds c := List.mem_append_left _ (List.mem_map_of_mem ho)
    obtain ⟨b, hb, hk⟩ := artifact_of_generateAll h hmem
    obtain ⟨file, hread, hdefines, _⟩ := lookup_of_generateAll h hb hk
    exact ⟨_, _, b, file, rfl, hb, by rw [Artifact.fileName, hk]; rfl, hread, hdefines⟩
  case constants => exact publicConstants_support
  case dispatchers =>
    intro b hb o hk
    obtain ⟨file, hread, _, hrefuses⟩ := lookup_of_generateAll h hb hk
    exact ⟨file, hread, hrefuses⟩

theorem collidingLevels_fit_together : ∃ as, ∃ r : Registry, ∃ a support,
    generateAll collidingLevels {} = .ok as ∧ r.tags = ["app.Level", "app/Level"] ∧ a ∈ as ∧
      File.read? a.text = some support ∧ FitsTogether support as r.tags := by
  have hbases : ∀ e ∈ collidingLevels, ∃ base, discriminator e.name = .ok base :=
    fun e he => ⟨_, (names_collidingLevels e he).1⟩
  obtain ⟨as, has⟩ := generateAll_of_nameable (c := {}) (by decide) rfl hbases
    fun e he => (names_collidingLevels e he).2
  obtain ⟨_, r, a, support, _, htags, ha, _, hread, hfits⟩ := artifacts_fit_together has
  exact ⟨as, r, a, support, has, htags, ha, hread, hfits⟩

end Run

end EnumLookup
