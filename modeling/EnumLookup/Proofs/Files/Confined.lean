import EnumLookup.Proofs.CommandLine.Generate
import EnumLookup.Proofs.Files.Success

/-!
# Where the files of a run land

The name of the module is checked as an identifier, which may stand among comments, but it is used as
a path. A name without slashes is a single name below the output directory, and so is a path with
slashes if it counts as one. Any other accepted name leads elsewhere from some output directory.
-/

namespace EnumLookup

namespace Path

/-- The path is that of a file in a directory which has an ordinary name in another one. -/
structure IsBelow (directory : Path) (file : String) (p : Path) : Prop where
  absolute : p.isAbsolute = directory.isAbsolute
  parts : ∃ name, IsName name ∧ p.parts = directory.parts ++ [name, file.toList]

/-- The path counts as a single name. -/
structure IsEntry (p : Path) (name : List Char) : Prop where
  relative : p.isAbsolute = false
  isName : IsName name
  parts : p.parts = [name]

theorem isEntry_of_isName {name : String} (h : IsName name.toList) :
    IsEntry ⟨name⟩ name.toList :=
  ⟨isAbsolute_of_slashless h.slashless, h, parts_of_isName h⟩

/-- The files in a path are below every directory exactly if the path counts as a single name. -/
theorem isBelow_join_iff {p : Path} {file : String} (hfile : IsName file.toList) :
    (∀ directory : Path, IsBelow directory file ((directory.join p).join ⟨file⟩)) ↔
      ∃ name, IsEntry p name := by
  have hrelative := isAbsolute_of_slashless hfile.slashless
  constructor
  · intro h
    -- The empty directory is enough: it is relative and has no parts of its own.
    obtain ⟨habsolute, name, hname, hparts⟩ := h ⟨""⟩
    rw [isAbsolute_join hrelative] at habsolute
    have hp : p.isAbsolute = false := by
      cases hp : p.isAbsolute with
      | false => rfl
      | true =>
          rw [join, if_pos hp, hp] at habsolute
          cases habsolute
    rw [parts_join hrelative, parts_join hp, parts_of_isName hfile] at hparts
    have hsplit : p.parts ++ [file.toList] = [name] ++ [file.toList] := hparts
    exact ⟨name, hp, hname, List.append_cancel_right hsplit⟩
  · rintro ⟨name, h⟩ directory
    refine ⟨?_, name, h.isName, ?_⟩
    · rw [isAbsolute_join hrelative, isAbsolute_join h.relative]
    · rw [parts_join hrelative, parts_join h.relative, h.parts, parts_of_isName hfile]
      simp

end Path

namespace FileTree

/-- Segments that do not count lead nowhere else. -/
theorem descend_filter {t : FileTree} {segs : List (List Char)} : ∀ {l k : Location},
    t.descend l segs = .ok k → t.descend l (segs.filter (!Path.isIdle ·)) = .ok k := by
  induction segs with
  | nil => exact id
  | cons s rest ih =>
      intro l k h
      have hdirectory := directory_of_descend h (by simp)
      rw [descend, hdirectory] at h
      dsimp only at h
      cases hidle : Path.isIdle s with
      | true =>
          -- An idle segment stays where it is, and the filter drops it.
          rw [if_pos hidle] at h
          simpa [hidle] using ih h
      | false =>
          rw [if_neg (by simp [hidle])] at h
          rw [List.filter_cons_of_pos (by simp [hidle]), descend, hdirectory]
          dsimp only
          rw [if_neg (by simp [hidle])]
          split
          · rename_i hup
            rw [if_pos hup] at h
            exact ih h
          rename_i hup
          rw [if_neg hup] at h
          split
          · rename_i hlong
            rw [if_pos hlong] at h
            cases h
          · rename_i hlong
            rw [if_neg hlong] at h
            exact ih h

theorem LeadsTo.of_join_entry {t : FileTree} {p q : Path} {name : List Char} {l : Location}
    (hq : q.IsEntry name) (h : t.LeadsTo (p.join q) l) :
    ∃ d, t.LeadsTo p d ∧ l = d ++ [String.ofList name] := by
  obtain ⟨d, hd, hl⟩ := h.of_join hq.relative
  have hparts := descend_filter hl
  rw [← Path.parts, hq.parts] at hparts
  exact ⟨d, hd, descend_name hq.isName hparts⟩

end FileTree

namespace Config

variable {c : Config} (hc : c.validate = .ok ())

include hc

theorem moduleName_ne {m : String} (hm : Source.identifier? m = none) : c.moduleName ≠ m := by
  rintro rfl
  rw [validate, if_pos (by simp [hm])] at hc
  cases hc

/-- An accepted name without slashes is that of an entry. -/
theorem isName_moduleName (h : '/' ∉ c.moduleName.toList) : Path.IsName c.moduleName.toList := by
  have hne : ∀ m : String, Source.identifier? m = none → c.moduleName.toList ≠ m.toList :=
    fun m hm he => moduleName_ne hc hm (String.toList_inj.mp he)
  have hempty : c.moduleName.toList ≠ [] := hne "" (by decide)
  have hdot : c.moduleName.toList ≠ ['.'] := hne "." (by decide)
  exact ⟨h, by simp [Path.isIdle, hempty, hdot], hne ".." (by decide)⟩

end Config

namespace FileSystem

open FileTree CommandLine

/-- The location is that of an artifact's file or its temporary file in the directory. -/
def LandsIn (c : Config) (t : FileTree) (directory : Path) (l : Location) : Prop :=
  ∃ d file, t.LeadsTo directory d ∧ l = d ++ [file] ∧
    ∃ kind ∈ artifactKinds c, file = kind.fileName ∨ file = kind.temporaryName

theorem landsIn_of_touched {c : Config} {t : FileTree} {directory p : Path} {l : Location}
    (hp : p ∈ touched c directory) (hl : t.locate p = .ok l) : LandsIn c t directory l := by
  have hlands := leadsTo_of_locate hl
  rcases List.mem_append.mp hp with hp | hp
  · obtain ⟨kind, hkind, rfl⟩ := List.mem_map.mp hp
    obtain ⟨d, hd, rfl⟩ := hlands.of_join_name kind.fileName_isName
    exact ⟨d, _, hd, rfl, kind, hkind, .inl rfl⟩
  · obtain ⟨kind, hkind, rfl⟩ := List.mem_map.mp hp
    rw [temporary_join] at hlands
    obtain ⟨d, hd, rfl⟩ := hlands.of_join_name kind.temporaryName_isName
    exact ⟨d, _, hd, rfl, kind, hkind, .inr rfl⟩

theorem landsIn_of_changes {c : Config} {t u : FileTree} {directory : Path}
    (h : ChangesOnly (touched c directory) t u) {l : Location} (hl : u.content? l ≠ t.content? l) :
    LandsIn c u directory l := by
  by_contra hnot
  exact hl (h.content? fun p hp hpl => hnot (landsIn_of_touched hp hpl))

/-- Whatever a run changes, by itself or from the command line, are files in the directory that the
module's name leads to from the output directory. If the name has no slashes, it names that directory;
in general the files stand in one directory right below every output directory exactly if the name
counts as a single one. -/
theorem artifacts_confined {σ : Type} {fs : FileSystem (StateM σ)} {tree : σ → FileTree}
    (hfs : fs.Models tree) {c : Config} (hc : c.validate = .ok ()) :
    ('/' ∉ c.moduleName.toList → Path.IsEntry ⟨c.moduleName⟩ c.moduleName.toList) ∧
      (∀ kind : ArtifactKind, (∀ directory : Path, Path.IsBelow directory kind.fileName
          ((directory.join ⟨c.moduleName⟩).join ⟨kind.fileName⟩)) ↔
        ∃ name, Path.IsEntry ⟨c.moduleName⟩ name) ∧
      (∀ name, Path.IsEntry ⟨c.moduleName⟩ name → ∀ (t : FileTree) (directory : Path) (l : Location),
        LandsIn c t (directory.join ⟨c.moduleName⟩) l →
        ∃ d file, t.LeadsTo directory d ∧ l = d ++ [String.ofList name, file]) ∧
      (∀ (enums : List Resolved) (directory : Path) (isDry : Bool) (s s' : σ) r,
        (fs.generateAndWrite enums c directory isDry).run.run s = (r, s') →
        ∀ l, (tree s').content? l ≠ (tree s).content? l →
          LandsIn c (tree s') (directory.join ⟨c.moduleName⟩) l) ∧
      ∀ (args : List String) (o : Generate) (s s' : σ) (out : CommandLine.Outcome),
        Command.ofArguments? args = some (.generate o) → o.config = c →
        (run fs args).run s = (out, s') →
        ∀ l, (tree s').content? l ≠ (tree s).content? l →
          LandsIn c (tree s') (o.output.join ⟨c.moduleName⟩) l := by
  refine ⟨fun h => ?_, fun kind => ?_, ?_, ?_, ?_⟩
  · exact Path.isEntry_of_isName (Config.isName_moduleName hc h)
  · exact Path.isBelow_join_iff kind.fileName_isName
  · rintro name hname t directory l ⟨d, file, hd, rfl, _⟩
    obtain ⟨d', hd', rfl⟩ := hd.of_join_entry hname
    exact ⟨d', file, hd', by simp⟩
  · intro enums directory isDry s s' r h l hl
    exact landsIn_of_changes (generateAndWrite_changes hfs h) hl
  · rintro args o s s' out hargs rfl h l hl
    rw [run_of_generate hargs] at h
    exact landsIn_of_changes (generate_changes hfs h) hl

/-- An empty comment behind a name counts for nothing in a path. -/
theorem confined_of_trailingComment :
    ({ moduleName := "lookups//" } : Config).validate = .ok () ∧
      (∀ (kind : ArtifactKind) (directory : Path), Path.IsBelow directory kind.fileName
        ((directory.join ⟨"lookups//"⟩).join ⟨kind.fileName⟩)) ∧
      ∃ r u, (system.generateAndWrite [] { moduleName := "lookups//" } ⟨"out"⟩ false).run.run {} =
          (r, u) ∧ ∀ l, u.content? l ≠ none →
            ∃ d file, u.LeadsTo ⟨"out"⟩ d ∧ l = d ++ ["lookups", file] := by
  have hc : ({ moduleName := "lookups//" } : Config).validate = .ok () := by
    decide +kernel
  have hentry : Path.IsEntry ⟨"lookups//"⟩ "lookups".toList :=
    ⟨by decide, by decide, by decide +kernel⟩
  obtain ⟨_, hbelow, hlands, hrun, _⟩ := artifacts_confined system_models hc
  have hnone : ∀ l, ({} : FileTree).content? l = none := by
    intro l
    cases l <;> rfl
  refine ⟨hc, fun kind => (hbelow kind).mpr ⟨_, hentry⟩, ?_⟩
  cases h : (system.generateAndWrite [] { moduleName := "lookups//" } ⟨"out"⟩ false).run.run {} with
  | mk r u =>
      refine ⟨r, u, rfl, fun l hl => ?_⟩
      have hplace := hrun [] ⟨"out"⟩ false {} u r h l (by rwa [id, id, hnone])
      obtain ⟨d, file, hd, he⟩ := hlands _ hentry _ _ l hplace
      exact ⟨d, file, hd, by simpa using he⟩

/-- A name that leads out of the output directory behind a comment. -/
def escaping : Config :=
  { moduleName := "m//../../escaped", nameLookup := false, valueTable := false }

/-- The directories that the name passes stand already. -/
def openTree : FileTree where
  entries := [(["escaped"], .directory), (["out"], .directory), (["out", "m"], .directory)]

theorem isReady_openTree : ∀ kind ∈ artifactKinds escaping,
    openTree.IsReady (Path.join ⟨"out/m//../../escaped"⟩ ⟨kind.fileName⟩) := by
  have hkinds : artifactKinds escaping = [.operation .tryParse, .support] := rfl
  rw [hkinds, List.forall_mem_cons, List.forall_mem_singleton]
  constructor
  · refine ⟨⟨⟨"out/m//../../escaped"⟩, by decide, rfl⟩, ⟨["escaped", "try_parse.rs"], rfl, nofun⟩, ?_⟩
    rw [temporary_join]
    exact ⟨["escaped", "try_parse.tmp"], rfl, nofun⟩
  · refine ⟨⟨⟨"out/m//../../escaped"⟩, by decide, rfl⟩, ⟨["escaped", "mod.rs"], rfl, nofun⟩, ?_⟩
    rw [temporary_join]
    exact ⟨["escaped", "mod.tmp"], rfl, nofun⟩

theorem locate_openTree : ∀ kind ∈ artifactKinds escaping,
    openTree.locate (Path.join ⟨"out/m//../../escaped"⟩ ⟨kind.fileName⟩) =
      .ok ["escaped", kind.fileName] := by
  have hkinds : artifactKinds escaping = [.operation .tryParse, .support] := rfl
  rw [hkinds, List.forall_mem_cons, List.forall_mem_singleton]
  exact ⟨rfl, rfl⟩

/-- The files of an accepted configuration land outside of the output directory. -/
theorem escaping_escapes : escaping.validate = .ok () ∧
    ∃ as u, (system.generateAndWrite [] escaping ⟨"out"⟩ false).run.run openTree = (.ok as, u) ∧
      as.map Artifact.kind = [.operation .tryParse, .support] ∧
      ∀ a ∈ as, u.get? ["escaped", a.fileName] = some (.file a.text.toUTF8) ∧
        ¬ Path.IsBelow ⟨"out"⟩ a.fileName
          ((Path.join ⟨"out"⟩ ⟨escaping.moduleName⟩).join ⟨a.fileName⟩) := by
  have hc : escaping.validate = .ok () := by decide +kernel
  have hdirectory : Path.join ⟨"out"⟩ ⟨escaping.moduleName⟩ = ⟨"out/m//../../escaped"⟩ := rfl
  obtain ⟨as, hall⟩ := generateAll_nil hc
  have hkinds := kinds_of_generateAll hall
  have hkind : ∀ a ∈ as, a.kind ∈ artifactKinds escaping := by
    intro a ha
    rw [← hkinds]
    exact List.mem_map_of_mem ha
  have hready : ∀ f ∈ filesOf as, openTree.IsReady (Path.join ⟨"out/m//../../escaped"⟩ ⟨f.1⟩) := by
    intro f hf
    obtain ⟨a, ha, rfl⟩ := List.mem_map.mp hf
    exact isReady_openTree a.kind (hkind a ha)
  obtain ⟨paths, u, hwrite⟩ := writeAll_of_isReady hready
  have hrun : (system.writeArtifacts ⟨"out/m//../../escaped"⟩ as false).run.run openTree =
      (.ok paths, u) := hwrite
  refine ⟨hc, as, u, ?_, hkinds, fun a ha => ⟨?_, ?_⟩⟩
  · rw [generateAndWrite, hall, run_bind_of_ok (run_lift _ _), hdirectory, run_bind_of_ok hrun]
    rfl
  · have hnodup := nodup_kinds_of_generateAll hall
    rcases writeArtifacts_run system_models hnodup hrun with
      ⟨⟨⟩, _⟩ | ⟨_, k, ⟨_, rfl⟩ | ⟨⟨_, ⟨⟩⟩, _⟩, hwritten⟩
    obtain ⟨l, hl, hfile⟩ := at?_eq_some.mp
      ((hwritten.standUpTo hnodup).holds a (by rwa [List.take_length]))
    cases hl.symm.trans (hwritten.changes.locate (locate_openTree a.kind (hkind a ha)))
    exact hfile
  · rintro ⟨_, name, _, hparts⟩
    have hfile : Path.IsName a.fileName.toList := a.kind.fileName_isName
    rw [hdirectory, Path.parts_join (Path.isAbsolute_of_slashless hfile.slashless)] at hparts
    have hlength := congrArg List.length hparts
    rw [List.length_append, Path.parts_of_isName hfile] at hlength
    cases hlength

end FileSystem

end EnumLookup
