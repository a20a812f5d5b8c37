import EnumLookup.CommandLine.Run
import EnumLookup.Proofs.Files.Artifacts
import EnumLookup.Proofs.Files.Success

/-!
# Runs of `generate`

A run reads and generates first, then looks for skipped declarations if it is strict, and writes at
last. So whatever goes wrong before the first write leaves the files as they were.
-/

namespace EnumLookup

open FileTree FileSystem

theorem Manifest.load_run {σ : Type} {fs : FileSystem (StateM σ)} {tree : σ → FileTree}
    (hfs : fs.Models tree) {p : Path} {s s' : σ} {r : Except Fault Manifest}
    (h : (Manifest.load fs p).run.run s = (r, s')) : tree s' = tree s := by
  rw [Manifest.load] at h
  split at h
  · cases h
    rfl
  · have hread := hfs.read p s
    rcases run_bind h with ⟨f, hf, _⟩ | ⟨content, u, hu, h⟩
    · cases (run_step _ _).symm.trans hf
    · cases (run_step _ _).symm.trans hu
      split at h
      · cases h
        exact hread
      · cases h
        exact hread

theorem Manifest.load_of_read {σ : Type} {fs : FileSystem (StateM σ)} {p : Path} {s u : σ}
    {f : Manifest.Format} {content : String} (hformat : Manifest.Format.ofPath? p = some f)
    (hread : (fs.read p).run s = (some content, u)) :
    (Manifest.load fs p).run.run s = (Manifest.parse f content p.text, u) := by
  rw [load, hformat]
  dsimp only
  rw [run_bind_of_ok (run_step _ _), hread]
  rfl

namespace CommandLine

variable {σ : Type} {fs : FileSystem (StateM σ)} {tree : σ → FileTree} {s s' : σ} {o : Generate}

/-- The directory that a run writes to. -/
def Generate.directory (o : Generate) : Path := o.output.join ⟨o.config.moduleName⟩

theorem run_of_generate {args : List String} (h : Command.ofArguments? args = some (.generate o)) :
    run fs args = generate fs o := by
  rw [run, h]

/-- A report is made of the manifest's declarations, and making it changes nothing. -/
theorem report_run (hfs : fs.Models tree) {r : Except Fault Report}
    (h : (report fs o).run.run s = (r, s')) : tree s' = tree s ∧ ∀ rep, r = .ok rep →
      ∃ manifest, (Manifest.load fs o.manifest).run.run s = (.ok manifest, s') ∧
        Report.ofDeclarations manifest.enums o.config = .ok rep := by
  rw [report] at h
  rcases run_bind h with ⟨f, hload, rfl⟩ | ⟨manifest, u, hload, h⟩
  · exact ⟨Manifest.load_run hfs hload, nofun⟩
  · obtain ⟨rfl, rfl⟩ := Prod.mk.inj ((run_lift _ _).symm.trans h)
    exact ⟨Manifest.load_run hfs hload, fun rep hrep => ⟨manifest, hload, hrep⟩⟩

/-- A run ends without a report, with a report that is refused for what it skips, or with the end of
its writes. -/
theorem generate_run {out : Outcome} (h : (generate fs o).run s = (out, s')) :
    (∃ f, (report fs o).run.run s = (.error f, s') ∧ out.exit = 1) ∨
      ∃ rep u, (report fs o).run.run s = (.ok rep, u) ∧
        ((o.isStrict = true ∧ rep.skipped ≠ [] ∧ s' = u ∧ out.exit = 1) ∨
          ((o.isStrict = true → rep.skipped = []) ∧
            ∃ w, (fs.writeArtifacts o.directory rep.artifacts o.isDry).run.run u = (w, s') ∧
              ((∃ f, w = .error f ∧ out.exit = 1 ∧
                  out.causes = ["Failed to write " ++ o.directory.text, f.message]) ∨
                ∃ paths, w = .ok paths ∧ out.exit = 0))) := by
  rw [generate] at h
  obtain ⟨rep, u, hrep, h⟩ := run_state_bind h
  cases rep with
  | error f =>
      cases h
      exact .inl ⟨f, hrep, rfl⟩
  | ok rep =>
      refine .inr ⟨rep, u, hrep, ?_⟩
      dsimp only at h
      by_cases hstrict : o.isStrict = true ∧ rep.skipped ≠ []
      · rw [if_pos (by simpa using hstrict)] at h
        cases h
        exact .inl ⟨hstrict.1, hstrict.2, rfl, rfl⟩
      · rw [if_neg (by simpa using hstrict)] at h
        obtain ⟨w, v, hwrite, h⟩ := run_state_bind h
        refine .inr ⟨fun hs => by simpa [hs] using hstrict, w, ?_⟩
        cases w with
        | error f =>
            cases h
            exact ⟨hwrite, .inl ⟨f, rfl, rfl, rfl⟩⟩
        | ok paths =>
            cases h
            exact ⟨hwrite, .inr ⟨paths, rfl, rfl⟩⟩

/-- A run that does not get to its writes leaves the files as they were. -/
theorem generate_refused (hfs : fs.Models tree) {out : Outcome}
    (h : (generate fs o).run s = (out, s'))
    (hrefused : (∃ f u, (report fs o).run.run s = (.error f, u)) ∨ ∃ rep u,
      (report fs o).run.run s = (.ok rep, u) ∧ o.isStrict = true ∧ rep.skipped ≠ []) :
    out.exit = 1 ∧ tree s' = tree s := by
  rcases generate_run h with ⟨f, hrep, hexit⟩ | ⟨rep, u, hrep, hend⟩
  · exact ⟨hexit, (report_run hfs hrep).1⟩
  rcases hend with ⟨_, _, rfl, hexit⟩ | ⟨hstrict, _⟩
  · exact ⟨hexit, (report_run hfs hrep).1⟩
  · rcases hrefused with ⟨f, v, herr⟩ | ⟨rep', v, hok, hs, hne⟩
    · cases hrep.symm.trans herr
    · cases hrep.symm.trans hok
      exact absurd (hstrict hs) hne

/-- The end of the writes of a run: nothing is written in a dry run, and otherwise either every
artifact stands in its file or the run tells what it could not write. -/
theorem generate_writes (hfs : fs.Models tree) {rep : Report} {manifest : Manifest} {u : σ}
    (hmade : Report.ofDeclarations manifest.enums o.config = .ok rep) {out : Outcome}
    {w : Except Fault (List Path)}
    (hwrite : (fs.writeArtifacts o.directory rep.artifacts o.isDry).run.run u = (w, s'))
    (hend : (∃ f, w = .error f ∧ out.exit = 1 ∧
        out.causes = ["Failed to write " ++ o.directory.text, f.message]) ∨
      ∃ paths, w = .ok paths ∧ out.exit = 0) :
    (o.isDry = true ∧ out.exit = 0 ∧ s' = u) ∨
      (o.isDry = false ∧ out.exit = 0 ∧
        ∀ a ∈ rep.artifacts, (tree s').Holds (o.directory.join ⟨a.fileName⟩) a.text) ∨
      (o.isDry = false ∧ out.exit = 1 ∧
        ∃ q, out.causes = ["Failed to write " ++ o.directory.text, (Fault.write q).message]) := by
  have hkinds := nodup_kinds_of_generateAll (Report.ofDeclarations_ok hmade).2.2
  rcases writeArtifacts_run hfs hkinds hwrite with
    ⟨hdry, hstate, paths, rfl⟩ | ⟨hdry, k, ⟨⟨paths, rfl⟩, rfl⟩ | ⟨⟨q, rfl⟩, _⟩, hwritten⟩
  · rcases hend with ⟨_, ⟨⟩, _⟩ | ⟨_, _, hexit⟩
    exact .inl ⟨hdry, hexit, hstate⟩
  · rcases hend with ⟨_, ⟨⟩, _⟩ | ⟨_, _, hexit⟩
    refine .inr (.inl ⟨hdry, hexit, fun a ha => ?_⟩)
    exact (hwritten.standUpTo hkinds).holds a (by rwa [List.take_length])
  · rcases hend with ⟨_, ⟨⟩, hexit, hcauses⟩ | ⟨_, ⟨⟩, _⟩
    exact .inr (.inr ⟨hdry, hexit, q, hcauses⟩)

/-- Whatever becomes of a run, nothing changes but the files of its artifacts and their temporary
files. -/
theorem generate_changes (hfs : fs.Models tree) {out : Outcome}
    (h : (generate fs o).run s = (out, s')) :
    ChangesOnly (touched o.config o.directory) (tree s) (tree s') := by
  have hsame : tree s' = tree s → ChangesOnly (touched o.config o.directory) (tree s) (tree s') := by
    intro he
    rw [he]
    exact .refl _
  rcases generate_run h with ⟨_, hrep, _⟩ | ⟨rep, u, hrep, hend⟩
  · exact hsame (report_run hfs hrep).1
  obtain ⟨hread, hreport⟩ := report_run hfs hrep
  rcases hend with ⟨_, _, rfl, _⟩ | ⟨_, w, hwrite, _⟩
  · exact hsame hread
  · obtain ⟨manifest, _, hmade⟩ := hreport rep rfl
    rw [← hread]
    exact writeArtifacts_changes hfs (kinds_of_generateAll (Report.ofDeclarations_ok hmade).2.2) hwrite

/-- If nothing is skipped, every declaration resolves under a name that no earlier one has. -/
theorem resolves_of_skipped_nil {ds : List Declaration} {c : Config} {rep : Report}
    (hmade : Report.ofDeclarations ds c = .ok rep) (hnone : rep.skipped = []) (i : Fin ds.length) :
    ∃ e ∈ rep.resolved, Report.Resolves ds i e := by
  obtain ⟨hresolved, hskipped, _⟩ := Report.ofDeclarations_ok hmade
  rcases Report.resolved_or_skipped ds i with hi | ⟨x, hx, _⟩
  · rwa [hresolved]
  · rw [← hskipped, hnone] at hx
    cases hx

/-- A run that has a report it need not refuse, and whose files are written, ends well. -/
theorem generate_of_written {rep : Report} {u : σ} {paths : List Path}
    (hrep : (report fs o).run.run s = (.ok rep, u)) (hlisted : o.isStrict = true → rep.skipped = [])
    (hwrite : (fs.writeArtifacts o.directory rep.artifacts o.isDry).run.run u = (.ok paths, s')) :
    ∃ out, (generate fs o).run s = (out, s') ∧ out.exit = 0 := by
  obtain ⟨out, v, h⟩ : ∃ out v, (generate fs o).run s = (out, v) := ⟨_, _, rfl⟩
  rcases generate_run h with ⟨_, hfault, _⟩ | ⟨rep', u', hrep', hend⟩
  · cases hrep.symm.trans hfault
  cases hrep.symm.trans hrep'
  rcases hend with ⟨hstrict, hne, _⟩ | ⟨_, w, hw, hend⟩
  · exact absurd (hlisted hstrict) hne
  cases hwrite.symm.trans hw
  rcases hend with ⟨_, ⟨⟩, _⟩ | ⟨_, _, hexit⟩
  exact ⟨out, h, hexit⟩

/-! ## Trees with a manifest -/

/-- A tree with nothing but a manifest of this text. -/
def manifestTree (content : String) : FileTree where
  entries := [(["enums.json"], .file content.toUTF8)]

/-- The same tree with the directory of the module. -/
def moduleTree (content : String) : FileTree where
  entries := [(["src", "enum_reflector"], .directory), (["src"], .directory),
    (["enums.json"], .file content.toUTF8)]

/-- A manifest that lists an enum twice. -/
def listedTwice : String :=
  "\x7b\"enums\":[\x7b\"name\":\"Level\"\x7d,\x7b\"name\":\"Level\"\x7d]\x7d"

/-- A manifest that lists each of its enums once. -/
def listedOnce : String :=
  "\x7b\"enums\":[\x7b\"name\":\"Level\"\x7d,\x7b\"name\":\"app.Level\"\x7d]\x7d"

def strictArgs : List String := ["generate", "--strict", "-m", "enums.json", "-o", "src"]

/-- What these arguments ask for. -/
def strictRun : Generate := { manifest := ⟨"enums.json"⟩, output := ⟨"src"⟩, isStrict := true }

theorem manifest_listedTwice : Manifest.Format.json.manifest? listedTwice.toList =
    some ⟨[{ name := "Level" }, { name := "Level" }]⟩ := by
  decide +kernel

theorem manifest_listedOnce : Manifest.Format.json.manifest? listedOnce.toList =
    some ⟨[{ name := "Level" }, { name := "app.Level" }]⟩ := by
  decide +kernel

theorem load_manifestTree {content : String} {manifest : Manifest}
    (h : Manifest.Format.json.manifest? content.toList = some manifest) :
    (Manifest.load FileTree.system ⟨"enums.json"⟩).run.run (manifestTree content) =
      (.ok manifest, manifestTree content) := by
  have hholds : (manifestTree content).Holds ⟨"enums.json"⟩ content := rfl
  have hread : (FileTree.system.read ⟨"enums.json"⟩).run (manifestTree content) =
      (some content, manifestTree content) := by
    rw [← read_of_holds hholds]
    rfl
  rw [Manifest.load_of_read rfl hread, Manifest.parse, h]
  rfl

theorem report_manifestTree {content : String} {manifest : Manifest}
    (h : Manifest.Format.json.manifest? content.toList = some manifest) :
    (report FileTree.system strictRun).run.run (manifestTree content) =
      (Report.ofDeclarations manifest.enums {}, manifestTree content) := by
  rw [report, strictRun, run_bind_of_ok (load_manifestTree h)]
  rfl

theorem isReady_moduleTree (content : String) (kind : ArtifactKind) :
    (moduleTree content).IsReady (strictRun.directory.join ⟨kind.fileName⟩) := by
  have hparent : (strictRun.directory.join ⟨kind.fileName⟩).parent? = some strictRun.directory := by
    rcases kind with (_ | _ | _) | _ <;> decide
  refine ⟨⟨_, hparent, rfl⟩, ⟨["src", "enum_reflector", kind.fileName], ?_, ?_⟩, ?_⟩
  · rcases kind with (_ | _ | _) | _ <;> rfl
  · rcases kind with (_ | _ | _) | _ <;> nofun
  · rw [temporary_join]
    refine ⟨["src", "enum_reflector", kind.temporaryName], ?_, ?_⟩
    · rcases kind with (_ | _ | _) | _ <;> rfl
    · rcases kind with (_ | _ | _) | _ <;> nofun

/-- The directory of the module is made for the first artifact. -/
theorem createParent_manifestTree (content : String) :
    (FileTree.system.createParent (strictRun.directory.join ⟨"name_lookup.rs"⟩)).run.run
      (manifestTree content) = (.ok (), moduleTree content) := by
  rfl

/-- Nothing is in the way of the artifacts of a report: their directory is made with the first. -/
theorem write_manifestTree {ds : List Declaration} {rep : Report} (content : String)
    (h : Report.ofDeclarations ds {} = .ok rep) :
    ∃ paths u, (FileTree.system.writeArtifacts strictRun.directory rep.artifacts false).run.run
      (manifestTree content) = (.ok paths, u) := by
  have hkinds : rep.artifacts.map Artifact.kind = artifactKinds {} :=
    kinds_of_generateAll (Report.ofDeclarations_ok h).2.2
  cases has : rep.artifacts with
  | nil =>
      rw [has] at hkinds
      cases hkinds
  | cons a as =>
      rw [has, List.map_cons] at hkinds
      have hfirst : a.kind = .operation .nameLookup := (List.cons.inj hkinds).1
      have hmade : (FileTree.system.createParent (strictRun.directory.join ⟨a.fileName⟩)).run.run
          (manifestTree content) = (.ok (), moduleTree content) := by
        rw [Artifact.fileName, hfirst]
        exact createParent_manifestTree content
      refine writeAll_of_made (f := (a.fileName, a.text)) hmade fun f hf => ?_
      rw [← List.map_cons (f := fun b : Artifact => (b.fileName, b.text))] at hf
      obtain ⟨b, _, rfl⟩ := List.mem_map.mp hf
      exact isReady_moduleTree content b.kind

/-! ## All or nothing -/

/-- A dry run, and a run that fails before it writes, leaves the file tree as it was: for want of a
manifest, for a fault of generation, or because a strict run would skip a declaration. A run that ends
well skips nothing if it is strict, and unless it is dry every artifact stands in its file. -/
theorem generate_all_or_nothing (hfs : fs.Models tree) {args : List String}
    (hargs : Command.ofArguments? args = some (.generate o)) (s : σ) :
    ∃ out s', (run fs args).run s = (out, s') ∧
      (o.isDry = true → tree s' = tree s) ∧
      (out.exit ≠ 0 → tree s' = tree s ∨
        ∃ q, out.causes = ["Failed to write " ++ o.directory.text, (Fault.write q).message]) ∧
      ((∃ f u, (report fs o).run.run s = (.error f, u)) ∨ (∃ rep u,
          (report fs o).run.run s = (.ok rep, u) ∧ o.isStrict = true ∧ rep.skipped ≠ []) →
        out.exit = 1 ∧ tree s' = tree s) ∧
      (out.exit = 0 → ∃ manifest rep u, (Manifest.load fs o.manifest).run.run s = (.ok manifest, u) ∧
        Report.ofDeclarations manifest.enums o.config = .ok rep ∧
        (o.isStrict = true → ∀ i, ∃ e ∈ rep.resolved, Report.Resolves manifest.enums i e) ∧
        (o.isDry = false →
          ∀ a ∈ rep.artifacts, (tree s').Holds (o.directory.join ⟨a.fileName⟩) a.text)) := by
  obtain ⟨out, s', h⟩ : ∃ out s', (generate fs o).run s = (out, s') := ⟨_, _, rfl⟩
  refine ⟨out, s', run_of_generate hargs ▸ h, ?_⟩
  have hrefused := generate_refused hfs h
  rcases generate_run h with ⟨f, hrep, hexit⟩ | ⟨rep, u, hrep, hend⟩
  · have hsame := (report_run hfs hrep).1
    refine ⟨fun _ => hsame, fun _ => .inl hsame, hrefused, fun h0 => ?_⟩
    cases hexit.symm.trans h0
  obtain ⟨hread, hreport⟩ := report_run hfs hrep
  obtain ⟨manifest, hload, hmade⟩ := hreport rep rfl
  rcases hend with ⟨_, _, rfl, hexit⟩ | ⟨hstrict, w, hwrite, hend⟩
  · refine ⟨fun _ => hread, fun _ => .inl hread, hrefused, fun h0 => ?_⟩
    cases hexit.symm.trans h0
  have hlisted : o.isStrict = true → ∀ i, ∃ e ∈ rep.resolved, Report.Resolves manifest.enums i e :=
    fun hs => resolves_of_skipped_nil hmade (hstrict hs)
  rcases generate_writes hfs hmade hwrite hend with
    ⟨hdry, _, rfl⟩ | ⟨hdry, hexit, hholds⟩ | ⟨hdry, hexit, hcauses⟩
  · refine ⟨fun _ => hread, fun _ => .inl hread, hrefused, fun _ => ?_⟩
    refine ⟨manifest, rep, s', hload, hmade, hlisted, fun hd => ?_⟩
    cases hdry.symm.trans hd
  · refine ⟨fun hd => ?_, fun h0 => absurd hexit h0, hrefused, fun _ => ?_⟩
    · cases hdry.symm.trans hd
    · exact ⟨manifest, rep, u, hload, hmade, hlisted, fun _ => hholds⟩
  · refine ⟨fun hd => ?_, fun _ => .inr hcauses, hrefused, fun h0 => ?_⟩
    · cases hdry.symm.trans hd
    · cases hexit.symm.trans h0

theorem strict_runs_of_manifestTree : Command.ofArguments? strictArgs = some (.generate strictRun) ∧
    (∃ out, (run FileTree.system strictArgs).run (manifestTree listedTwice) =
      (out, manifestTree listedTwice) ∧ out.exit = 1) ∧
    ∃ out u rep, (run FileTree.system strictArgs).run (manifestTree listedOnce) = (out, u) ∧
      out.exit = 0 ∧
      Report.ofDeclarations [{ name := "Level" }, { name := "app.Level" }] {} = .ok rep ∧
      rep.resolved.map Resolved.name = ["Level", "app.Level"] ∧
      rep.artifacts.map Artifact.kind = artifactKinds {} ∧
      ∀ a ∈ rep.artifacts, u.Holds (Path.join ⟨"src/enum_reflector"⟩ ⟨a.fileName⟩) a.text := by
  have hargs : Command.ofArguments? strictArgs = some (.generate strictRun) := by decide +kernel
  refine ⟨hargs, ?_, ?_⟩
  · have hnameable : Report.AllNameable [{ name := "Level" }, { name := "Level" }] :=
      Report.allNameable_of_names (by decide)
    obtain ⟨rep, hrep, _⟩ := Report.ofDeclarations_of_nameable (c := {}) rfl hnameable
    have hskipped : rep.skipped = [⟨"Level", .duplicateEnum "Level"⟩] :=
      (Report.ofDeclarations_ok hrep).2.1
    obtain ⟨out, u, hrun, _, _, hrefused, _⟩ :=
      generate_all_or_nothing FileTree.system_models hargs (manifestTree listedTwice)
    obtain ⟨hexit, hsame⟩ := hrefused <| .inr ⟨rep, manifestTree listedTwice,
      (report_manifestTree manifest_listedTwice).trans (by rw [hrep]), rfl, by simp [hskipped]⟩
    exact ⟨out, hrun.trans (by rw [show u = manifestTree listedTwice from hsame]), hexit⟩
  · have hnameable : Report.AllNameable [{ name := "Level" }, { name := "app.Level" }] :=
      Report.allNameable_of_names (by decide)
    obtain ⟨rep, hrep, hkinds⟩ := Report.ofDeclarations_of_nameable (c := {}) rfl hnameable
    obtain ⟨hresolved, hskipped, _⟩ := Report.ofDeclarations_ok hrep
    obtain ⟨paths, v, hwrite⟩ := write_manifestTree listedOnce hrep
    obtain ⟨out, hend, hexit⟩ := generate_of_written
      ((report_manifestTree manifest_listedOnce).trans (by rw [hrep])) (fun _ => hskipped) hwrite
    obtain ⟨_, _, hrun, _, _, _, hfiles⟩ :=
      generate_all_or_nothing FileTree.system_models hargs (manifestTree listedOnce)
    rw [run_of_generate hargs] at hrun ⊢
    cases hend.symm.trans hrun
    obtain ⟨_, _, _, hload, hmade, _, hholds⟩ := hfiles hexit
    cases (load_manifestTree manifest_listedOnce).symm.trans hload
    cases hrep.symm.trans hmade
    refine ⟨out, v, rep, hrun, hexit, hrep, ?_, hkinds, fun a ha => hholds rfl a ha⟩
    rw [hresolved]
    rfl

end CommandLine

end EnumLookup
