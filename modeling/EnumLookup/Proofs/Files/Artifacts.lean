import EnumLookup.Proofs.Files.Writing
import EnumLookup.Proofs.Report.Runs

/-!
# Artifacts are written in order

Nothing is written before everything is generated. The files of a run have names of their own, also
beside their temporary files, so a run that fails while it writes leaves the first artifacts in place
and the files of the others as they were.
-/

namespace EnumLookup

open FileTree Outcome

/-! ## Names of files -/

namespace ArtifactKind

/-- The name of the temporary file beside the artifact's file. -/
def temporaryName (kind : ArtifactKind) : String :=
  String.ofList ((Path.divide kind.fileName.toList).1 ++ '.' :: "tmp".toList)

theorem fileName_isName (kind : ArtifactKind) : Path.IsName kind.fileName.toList := by
  cases kind with
  | support => decide
  | operation o => cases o <;> decide

theorem temporaryName_isName (kind : ArtifactKind) : Path.IsName kind.temporaryName.toList := by
  cases kind with
  | support => decide
  | operation o => cases o <;> decide

theorem fileName_injective {kind kind' : ArtifactKind} (h : kind.fileName = kind'.fileName) :
    kind = kind' := by
  cases kind with
  | support =>
      cases kind' with
      | support => rfl
      | operation o => revert h; cases o <;> decide
  | operation o =>
      cases kind' with
      | support => revert h; cases o <;> decide
      | operation o' => revert h; cases o <;> cases o' <;> decide

theorem fileName_ne_temporaryName (kind kind' : ArtifactKind) :
    kind.fileName ≠ kind'.temporaryName := by
  have hend : ∀ k : ArtifactKind, k.fileName.toList.getLast? = some 's' := by
    intro k
    cases k with
    | support => decide
    | operation o => cases o <;> decide
  have htemporary : kind'.temporaryName.toList.getLast? = some 'p' := by
    simp [temporaryName]
  intro h
  have hlast := hend kind
  rw [h, htemporary] at hlast
  cases hlast

end ArtifactKind

namespace FileSystem

theorem temporary_join (directory : Path) (kind : ArtifactKind) :
    temporary (directory.join ⟨kind.fileName⟩) = directory.join ⟨kind.temporaryName⟩ :=
  Path.withExtension_join kind.fileName_isName (by decide)

variable {directory : Path}

theorem apart_of_ne {kind kind' : ArtifactKind} (h : kind ≠ kind') :
    Apart (directory.join ⟨kind.fileName⟩) (directory.join ⟨kind'.fileName⟩) :=
  apart_of_names kind.fileName_isName kind'.fileName_isName
    fun he => h (ArtifactKind.fileName_injective he)

theorem apart_temporary (kind kind' : ArtifactKind) :
    Apart (directory.join ⟨kind.fileName⟩) (temporary (directory.join ⟨kind'.fileName⟩)) := by
  rw [temporary_join]
  exact apart_of_names kind.fileName_isName kind'.temporaryName_isName
    (kind.fileName_ne_temporaryName kind')

/-! ## Runs -/

/-- The first `k` artifacts stand in the directory as files with their texts, and the files of the
others are as they were. -/
structure StandUpTo (directory : Path) (as : List Artifact) (k : Nat) (t u : FileTree) : Prop where
  holds : ∀ a ∈ as.take k, u.Holds (directory.join ⟨a.fileName⟩) a.text
  untouched : ∀ a ∈ as.drop k, Untouched t u (directory.join ⟨a.fileName⟩)

/-- The names and texts of artifacts. -/
def filesOf (as : List Artifact) : List (String × String) := as.map fun a => (a.fileName, a.text)

section Artifacts

variable {as : List Artifact} (hkinds : (as.map Artifact.kind).Nodup)

include hkinds

theorem pairwise_areApart : (filesOf as).Pairwise (AreApart directory) := by
  rw [filesOf, List.pairwise_map]
  rw [List.Nodup, List.pairwise_map] at hkinds
  exact hkinds.imp fun hne => ⟨apart_of_ne hne, apart_temporary _ _⟩

theorem WrittenUpTo.standUpTo {k : Nat} {t u : FileTree}
    (h : WrittenUpTo directory (filesOf as) k t u) : StandUpTo directory as k t u := by
  have htake : ∀ n, (filesOf as).take n = filesOf (as.take n) := fun n => by simp [filesOf]
  refine ⟨fun a ha => ?_, fun a ha => h.changes.untouched fun q hq => ?_⟩
  · apply h.holds (a.fileName, a.text)
    rw [htake]
    exact List.mem_map_of_mem ha
  · rw [reached, htake, htake] at hq
    rcases List.mem_append.mp hq with hq | hq
    · obtain ⟨_, hf, rfl⟩ := List.mem_map.mp hq
      obtain ⟨b, hb, rfl⟩ := List.mem_map.mp hf
      apply apart_of_ne
      intro he
      rw [← List.take_append_drop k as, List.map_append, List.nodup_append] at hkinds
      exact hkinds.2.2 _ (List.mem_map_of_mem hb) _ (List.mem_map_of_mem ha) he.symm
    · obtain ⟨_, hf, rfl⟩ := List.mem_map.mp hq
      obtain ⟨b, hb, rfl⟩ := List.mem_map.mp hf
      exact apart_temporary _ _

end Artifacts

variable {σ : Type} {fs : FileSystem (StateM σ)} {tree : σ → FileTree} {s s' : σ}

/-- In a dry run nothing changes. Otherwise the artifacts are written in order, all of them or up to
the one that cannot be written. -/
theorem writeArtifacts_run (hfs : fs.Models tree) {as : List Artifact}
    (hkinds : (as.map Artifact.kind).Nodup) {isDry : Bool} {r : Except Fault (List Path)}
    (h : (fs.writeArtifacts directory as isDry).run.run s = (r, s')) :
    (isDry = true ∧ s' = s ∧ ∃ paths, r = .ok paths) ∨
      (isDry = false ∧ ∃ k, (((∃ paths, r = .ok paths) ∧ k = as.length) ∨
          (∃ q, r = .error (.write q)) ∧ k < as.length) ∧
        WrittenUpTo directory (filesOf as) k (tree s) (tree s')) := by
  rw [writeArtifacts] at h
  split at h
  · rename_i hdry
    cases h
    exact .inl ⟨hdry, rfl, _, rfl⟩
  · rename_i hdry
    obtain ⟨k, hk, hwritten⟩ := writeAll_run hfs (pairwise_areApart hkinds) h
    refine .inr ⟨by simpa using hdry, k, ?_, hwritten⟩
    rcases hk with ⟨rfl, hlength⟩ | ⟨hq, hlt⟩
    · exact .inl ⟨⟨_, rfl⟩, by simpa [filesOf] using hlength⟩
    · exact .inr ⟨hq, by simpa [filesOf] using hlt⟩

/-- A run generates all artifacts or fails before it writes. -/
theorem generateAndWrite_run {enums : List Resolved} {c : Config} {isDry : Bool}
    {r : Except Fault (List Artifact)}
    (h : (fs.generateAndWrite enums c directory isDry).run.run s = (r, s')) :
    (∃ f, generateAll enums c = .error f ∧ r = .error f ∧ s' = s) ∨
      ∃ as w, generateAll enums c = .ok as ∧
        (fs.writeArtifacts (directory.join ⟨c.moduleName⟩) as isDry).run.run s = (w, s') ∧
        r = w.map fun _ => as := by
  rw [generateAndWrite] at h
  rcases run_bind h with ⟨f, hall, rfl⟩ | ⟨as, u, hall, h⟩
  · obtain ⟨hf, rfl⟩ := Prod.mk.inj ((run_lift _ _).symm.trans hall)
    exact .inl ⟨f, hf, rfl, rfl⟩
  obtain ⟨has, rfl⟩ := Prod.mk.inj ((run_lift _ _).symm.trans hall)
  refine .inr ⟨as, ?_⟩
  rcases run_bind h with ⟨f, hwrite, rfl⟩ | ⟨_, v, hwrite, h⟩
  · exact ⟨_, has, hwrite, rfl⟩
  · cases h
    exact ⟨_, has, hwrite, rfl⟩

/-- The files of a configuration's artifacts in a directory, and the temporary files beside them. -/
def touched (c : Config) (directory : Path) : List Path :=
  (artifactKinds c).map (fun kind => directory.join ⟨kind.fileName⟩) ++
    (artifactKinds c).map fun kind => temporary (directory.join ⟨kind.fileName⟩)

theorem reached_subset {as : List Artifact} {c : Config}
    (hkinds : as.map Artifact.kind = artifactKinds c) (k : Nat) :
    reached directory (filesOf as) k ⊆ touched c directory := by
  have hmem : ∀ n, ∀ f ∈ (filesOf as).take n, ∃ kind ∈ artifactKinds c, f.1 = kind.fileName := by
    intro n f hf
    obtain ⟨a, ha, rfl⟩ := List.mem_map.mp (List.mem_of_mem_take hf)
    rw [← hkinds]
    exact ⟨a.kind, List.mem_map_of_mem ha, rfl⟩
  intro p hp
  rcases List.mem_append.mp hp with hp | hp
  · obtain ⟨f, hf, rfl⟩ := List.mem_map.mp hp
    obtain ⟨kind, hkind, hname⟩ := hmem _ f hf
    rw [hname]
    exact List.mem_append_left _ (List.mem_map_of_mem hkind)
  · obtain ⟨f, hf, rfl⟩ := List.mem_map.mp hp
    obtain ⟨kind, hkind, hname⟩ := hmem _ f hf
    rw [hname]
    exact List.mem_append_right _ (List.mem_map_of_mem hkind)

/-- Whatever becomes of a run, nothing changes but the files of its artifacts and their temporary
files. -/
theorem writeArtifacts_changes (hfs : fs.Models tree) {as : List Artifact} {c : Config}
    (hkinds : as.map Artifact.kind = artifactKinds c) {isDry : Bool} {r : Except Fault (List Path)}
    (h : (fs.writeArtifacts directory as isDry).run.run s = (r, s')) :
    ChangesOnly (touched c directory) (tree s) (tree s') := by
  have hnodup : (as.map Artifact.kind).Nodup := hkinds ▸ nodup_artifactKinds c
  rcases writeArtifacts_run hfs hnodup h with ⟨_, rfl, _⟩ | ⟨_, k, _, hwritten⟩
  · exact .refl _
  · exact hwritten.changes.mono (reached_subset hkinds k)

theorem generateAndWrite_changes (hfs : fs.Models tree) {enums : List Resolved} {c : Config}
    {isDry : Bool} {r : Except Fault (List Artifact)}
    (h : (fs.generateAndWrite enums c directory isDry).run.run s = (r, s')) :
    ChangesOnly (touched c (directory.join ⟨c.moduleName⟩)) (tree s) (tree s') := by
  rcases generateAndWrite_run h with ⟨_, _, _, rfl⟩ | ⟨as, w, hall, hwrite, _⟩
  · exact .refl _
  · exact writeArtifacts_changes hfs (kinds_of_generateAll hall) hwrite

/-- A dry run, and a run that fails otherwise than by a write, leaves the file tree as it was. A run
that fails by a write leaves the first artifacts, less than all of them, in their files and every later
file as it was. A run that succeeds and is not dry leaves every artifact in its file. -/
theorem generateAndWrite_consistent (hfs : fs.Models tree) (enums : List Resolved) (c : Config)
    (directory : Path) (isDry : Bool) (s : σ) :
    ∃ r s', (fs.generateAndWrite enums c directory isDry).run.run s = (r, s') ∧
      ((isDry = true ∨ ∃ f, r = .error f ∧ ∀ q, f ≠ .write q) → tree s' = tree s) ∧
      (∀ q, r = .error (.write q) → ∃ as, generateAll enums c = .ok as ∧ ∃ k < as.length,
        StandUpTo (directory.join ⟨c.moduleName⟩) as k (tree s) (tree s')) ∧
      ∀ as, r = .ok as → generateAll enums c = .ok as ∧ (isDry = false →
        ∀ a ∈ as, (tree s').Holds ((directory.join ⟨c.moduleName⟩).join ⟨a.fileName⟩) a.text) := by
  obtain ⟨r, s', hrun⟩ : ∃ r s',
    (fs.generateAndWrite enums c directory isDry).run.run s = (r, s') := ⟨_, _, rfl⟩
  refine ⟨r, s', hrun, ?_⟩
  rcases generateAndWrite_run hrun with ⟨f, hall, rfl, rfl⟩ | ⟨as, w, hall, hwrite, rfl⟩
  · refine ⟨fun _ => rfl, ?_, nofun⟩
    intro q hq
    rw [Except.error.inj hq] at hall
    exact absurd hall (generateAll_ne_write enums c q)
  have hkinds := nodup_kinds_of_generateAll hall
  rcases writeArtifacts_run hfs hkinds hwrite with
    ⟨rfl, rfl, paths, rfl⟩ | ⟨hdry, k, ⟨⟨paths, rfl⟩, rfl⟩ | ⟨⟨q, rfl⟩, hlt⟩, hwritten⟩
  · refine ⟨fun _ => rfl, nofun, ?_⟩
    rintro _ ⟨⟩
    exact ⟨hall, nofun⟩
  · refine ⟨?_, nofun, ?_⟩
    · rintro (h | ⟨_, ⟨⟩, _⟩)
      rw [hdry] at h
      cases h
    · rintro _ ⟨⟩
      refine ⟨hall, fun _ a ha => (hwritten.standUpTo hkinds).holds a ?_⟩
      rwa [List.take_length]
  · refine ⟨?_, fun _ _ => ⟨as, hall, k, hlt, hwritten.standUpTo hkinds⟩, nofun⟩
    rintro (h | ⟨_, ⟨⟩, h⟩)
    · rw [hdry] at h
      cases h
    · exact absurd rfl (h q)

/-- Every valid configuration generates its artifacts for no enums at all. -/
theorem generateAll_nil {c : Config} (hc : c.validate = .ok ()) : ∃ as, generateAll [] c = .ok as := by
  have hnameable : Report.AllNameable [] := fun i => i.elim0
  obtain ⟨r, hr, _⟩ := Report.ofDeclarations_of_nameable hc hnameable
  exact ⟨_, (Report.ofDeclarations_ok hr).2.2⟩

/-- A directory stands where the support file belongs. -/
def blockedTree : FileTree where
  entries := [(["out"], .directory), (["out", "enum_reflector"], .directory),
    (["out", "enum_reflector", "mod.rs"], .directory)]

theorem locate_blockedTree : blockedTree.locate ⟨"out/enum_reflector/mod.rs"⟩ =
    .ok ["out", "enum_reflector", "mod.rs"] := rfl

theorem consistent_of_blockedTree :
    (∃ q u, (system.generateAndWrite [] {} ⟨"out"⟩ false).run.run blockedTree =
        (.error (.write q), u) ∧ Untouched blockedTree u ⟨"out/enum_reflector/mod.rs"⟩) ∧
      ∃ r, (system.generateAndWrite [] {} ⟨"out"⟩ true).run.run blockedTree = (r, blockedTree) := by
  obtain ⟨as, hall⟩ := generateAll_nil (c := {}) rfl
  have hlast : as.getLast?.map Artifact.kind = some .support := by
    rw [← List.getLast?_map, kinds_of_generateAll hall]
    rfl
  obtain ⟨a, ha, hkind⟩ := Option.map_eq_some_iff.mp hlast
  obtain ⟨front, rfl⟩ := List.getLast?_eq_some_iff.mp ha
  have hpath : (Path.join (Path.join ⟨"out"⟩ ⟨"enum_reflector"⟩) ⟨a.fileName⟩) =
      ⟨"out/enum_reflector/mod.rs"⟩ := by
    rw [Artifact.fileName, hkind]
    rfl
  constructor
  · obtain ⟨r, u, hrun, _, hfailed, hdone⟩ :=
      generateAndWrite_consistent system_models [] {} ⟨"out"⟩ false blockedTree
    have hchanges := generateAndWrite_changes system_models hrun
    have hblocked : u.get? ["out", "enum_reflector", "mod.rs"] = some .directory :=
      hchanges.directory rfl
    cases r with
    | ok bs =>
        obtain ⟨hbs, hholds⟩ := hdone bs rfl
        cases hall.symm.trans hbs
        have hfile := hholds rfl a (by simp)
        rw [hpath] at hfile
        obtain ⟨l, hl, hfile⟩ := at?_eq_some.mp hfile
        cases hl.symm.trans (hchanges.locate locate_blockedTree)
        cases hblocked.symm.trans hfile
    | error f =>
        rcases generateAndWrite_run hrun with ⟨_, hnone, _⟩ | ⟨_, w, hbs, hwrite, hw⟩
        · cases hall.symm.trans hnone
        cases hall.symm.trans hbs
        have hnodup := nodup_kinds_of_generateAll hall
        rcases writeArtifacts_run system_models hnodup hwrite with
          ⟨⟨⟩, _⟩ | ⟨_, _, ⟨⟨_, rfl⟩, _⟩ | ⟨⟨q, rfl⟩, _⟩, _⟩
        · cases hw
        cases hw
        obtain ⟨cs, hcs, k, hk, hstand⟩ := hfailed q rfl
        cases hall.symm.trans hcs
        refine ⟨q, u, hrun, hpath ▸ hstand.untouched a ?_⟩
        rw [List.length_append, List.length_singleton, Nat.lt_succ_iff] at hk
        rw [List.drop_append_of_le_length hk]
        simp
  · obtain ⟨r, u, hrun, hsame, _⟩ :=
      generateAndWrite_consistent system_models [] {} ⟨"out"⟩ true blockedTree
    exact ⟨r, hrun.trans (by rw [show u = blockedTree from hsame (.inl rfl)])⟩

end FileSystem

end EnumLookup
