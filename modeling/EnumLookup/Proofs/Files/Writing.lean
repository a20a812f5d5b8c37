import EnumLookup.Output
import EnumLookup.Proofs.Files.Trees

/-!
# Writing files one by one

A file system behaves like a file tree if each of its steps does to the tree what it should or tells
that it did not and leaves the tree alone. On such a file system a run of writes that fails has
written the files in front of the one that failed and left the others as they were.
-/

namespace EnumLookup

open FileTree Outcome

/-! ## Runs of steps -/

section Runs

variable {ε σ α β : Type} {s s' : σ}

theorem run_state_bind {x : StateM σ α} {f : α → StateM σ β} {b : β}
    (h : (x >>= f).run s = (b, s')) : ∃ a u, x.run s = (a, u) ∧ (f a).run u = (b, s') := by
  rw [StateT.run_bind] at h
  exact ⟨_, _, rfl, h⟩

theorem run_bind {x : ExceptT ε (StateM σ) α} {f : α → ExceptT ε (StateM σ) β} {r : Except ε β}
    (h : (x >>= f).run.run s = (r, s')) :
    (∃ e, x.run.run s = (.error e, s') ∧ r = .error e) ∨
      ∃ a u, x.run.run s = (.ok a, u) ∧ (f a).run.run u = (r, s') := by
  rw [ExceptT.run_bind] at h
  obtain ⟨o, u, hx, h⟩ := run_state_bind h
  cases o with
  | error e =>
      cases h
      exact .inl ⟨e, hx, rfl⟩
  | ok a => exact .inr ⟨a, u, hx, h⟩

theorem run_bind_of_ok {x : ExceptT ε (StateM σ) α} {f : α → ExceptT ε (StateM σ) β} {a : α}
    (h : x.run.run s = (.ok a, s')) : (x >>= f).run.run s = (f a).run.run s' := by
  rw [ExceptT.run_bind, StateT.run_bind, h]
  rfl

theorem run_lift (x : Except ε α) (s : σ) :
    (liftM x : ExceptT ε (StateM σ) α).run.run s = (x, s) := rfl

theorem run_step (x : StateM σ α) (s : σ) :
    (liftM x : ExceptT ε (StateM σ) α).run.run s = (.ok (x.run s).1, (x.run s).2) := rfl

end Runs

namespace FileSystem

/-- The file system behaves like the file tree seen in its state. Reading changes nothing. A write or
a rename does what it does to a tree, or fails and changes nothing. Making directories makes some
where nothing stood. When a step fails is left open. -/
structure Models {σ : Type} (fs : FileSystem (StateM σ)) (tree : σ → FileTree) : Prop where
  read : ∀ p s, tree ((fs.read p).run s).2 = tree s
  createDirectories : ∀ p s, ChangesOnly [] (tree s) (tree ((fs.createDirectories p).run s).2)
  write : ∀ p text s s' isDone, (fs.write p text).run s = (isDone, s') →
    if isDone then (tree s).write p text = some (tree s') else tree s' = tree s
  rename : ∀ p q s s' isDone, (fs.rename p q).run s = (isDone, s') →
    if isDone then (tree s).rename p q = some (tree s') else tree s' = tree s

end FileSystem

theorem FileTree.attempt_of_some {change : FileTree → Option FileTree} {t u : FileTree}
    (h : change t = some u) : (attempt change).run t = (true, u) := by
  simp only [attempt, StateT.run, h]

theorem FileTree.attempt_run {change : FileTree → Option FileTree} {t u : FileTree} {isDone : Bool}
    (h : (attempt change).run t = (isDone, u)) : if isDone then change t = some u else u = t := by
  cases hchange : change t with
  | none =>
      have hrun : (attempt change).run t = (false, t) := by simp [attempt, StateT.run, hchange]
      cases hrun.symm.trans h
      rfl
  | some after =>
      cases (attempt_of_some hchange).symm.trans h
      rfl

/-- A file tree behaves like itself. -/
theorem FileTree.system_models : system.Models id where
  read _ _ := rfl
  createDirectories p t := createDirectories_changes t (p.segments.length + 1) p
  write _ _ _ _ _ h := attempt_run h
  rename _ _ _ _ _ h := attempt_run h

namespace FileSystem

variable {σ : Type} {fs : FileSystem (StateM σ)} {tree : σ → FileTree} {s s' : σ}

/-! ## One file -/

theorem require_run {p : Path} {step : StateM σ Bool} {r : Except Fault Unit}
    (h : (require p step).run.run s = (r, s')) :
    (step.run s = (true, s') ∧ r = .ok ()) ∨
      (step.run s = (false, s') ∧ r = .error (.write p.text)) := by
  rcases run_bind h with ⟨e, he, _⟩ | ⟨isDone, u, hu, h⟩
  · cases (run_step step s).symm.trans he
  obtain ⟨hdone, hstate⟩ := Prod.mk.inj ((run_step step s).symm.trans hu)
  have hstep : step.run s = (isDone, u) := Prod.ext (Except.ok.inj hdone) hstate
  cases isDone with
  | true =>
      cases h
      exact .inl ⟨hstep, rfl⟩
  | false =>
      cases h
      exact .inr ⟨hstep, rfl⟩

/-- The paths that are touched when the files up to the `k`-th have been written and the next one has
been begun. -/
def reached (directory : Path) (files : List (String × String)) (k : Nat) : List Path :=
  (files.take k).map (fun f => directory.join ⟨f.1⟩) ++
    (files.take (k + 1)).map fun f => temporary (directory.join ⟨f.1⟩)

/-- The first `k` files have their texts, and nothing else changed but what had been begun. -/
structure WrittenUpTo (directory : Path) (files : List (String × String)) (k : Nat)
    (t u : FileTree) : Prop where
  changes : ChangesOnly (reached directory files k) t u
  holds : ∀ f ∈ files.take k, u.Holds (directory.join ⟨f.1⟩) f.2

/-- No file is in the way of another, nor is the temporary file of another one. -/
def AreApart (directory : Path) (f g : String × String) : Prop :=
  Apart (directory.join ⟨f.1⟩) (directory.join ⟨g.1⟩) ∧
    Apart (directory.join ⟨f.1⟩) (temporary (directory.join ⟨g.1⟩))

section Models

variable (hfs : fs.Models tree)

include hfs

theorem createParent_run {p : Path} {r : Except Fault Unit}
    (h : (fs.createParent p).run.run s = (r, s')) :
    (r = .ok () ∨ ∃ q, r = .error (.write q)) ∧ ChangesOnly [] (tree s) (tree s') := by
  rw [createParent] at h
  split at h
  · cases h
    exact ⟨.inl rfl, .refl _⟩
  split at h
  · cases h
    exact ⟨.inl rfl, .refl _⟩
  rename_i parent _ _
  have hmade := hfs.createDirectories parent s
  rcases require_run h with ⟨hstep, rfl⟩ | ⟨hstep, rfl⟩
  · rw [hstep] at hmade
    exact ⟨.inl rfl, hmade⟩
  · rw [hstep] at hmade
    exact ⟨.inr ⟨_, rfl⟩, hmade⟩

/-- A file that is written has its text, and only its temporary file changes beside it. A write that
fails leaves the file alone. -/
theorem writeAtomic_run {p : Path} {text : String} {r : Except Fault Unit}
    (h : (fs.writeAtomic p text).run.run s = (r, s')) :
    (r = .ok () ∧ ChangesOnly [temporary p, p] (tree s) (tree s') ∧ (tree s').Holds p text) ∨
      ∃ q, r = .error (.write q) ∧ ChangesOnly [temporary p] (tree s) (tree s') := by
  rw [writeAtomic] at h
  rcases run_bind h with ⟨e, hmake, rfl⟩ | ⟨_, u, hmake, h⟩
  · obtain ⟨hr | ⟨q, hq⟩, hmade⟩ := createParent_run hfs hmake
    · cases hr
    · exact .inr ⟨q, hq, hmade.mono (by simp)⟩
  have hmade := (createParent_run hfs hmake).2
  rcases run_bind h with ⟨e, hwrite, rfl⟩ | ⟨_, v, hwrite, h⟩
  · rcases require_run hwrite with ⟨_, hr⟩ | ⟨hstep, hr⟩
    · cases hr
    · have hsame := hfs.write _ _ _ _ _ hstep
      refine .inr ⟨_, hr, ?_⟩
      rw [show tree s' = tree u from hsame]
      exact hmade.mono (by simp)
  rcases require_run hwrite with ⟨hstep, _⟩ | ⟨_, hr⟩
  · obtain ⟨hwritten, hholds⟩ := write_changes (hfs.write _ _ _ _ _ hstep)
    have hbefore := hmade.trans hwritten
    rcases require_run h with ⟨hmove, rfl⟩ | ⟨hmove, rfl⟩
    · obtain ⟨hmoved, content, hfrom, hto⟩ := rename_changes (hfs.rename _ _ _ _ _ hmove)
      have hcontent : FileTree.Entry.file content = .file text.toUTF8 :=
        Option.some.inj (hfrom.symm.trans hholds)
      refine .inl ⟨rfl, (hbefore.trans hmoved).mono (by simp), ?_⟩
      rw [FileTree.Holds, hto, hcontent]
    · refine .inr ⟨_, rfl, ?_⟩
      rw [show tree s' = tree v from hfs.rename _ _ _ _ _ hmove]
      exact hbefore
  · cases hr

/-! ## Many files -/

omit hfs in
/-- When the first file has its text and the others are then written, the first one keeps it, for no
path of a later one leads to it. -/
theorem WrittenUpTo.cons {directory : Path} {f : String × String} {files : List (String × String)}
    {k : Nat} {t u v : FileTree} (hapart : ∀ g ∈ files, AreApart directory f g)
    (hchanges : ChangesOnly [temporary (directory.join ⟨f.1⟩), directory.join ⟨f.1⟩] t u)
    (hholds : u.Holds (directory.join ⟨f.1⟩) f.2) (h : WrittenUpTo directory files k u v) :
    WrittenUpTo directory (f :: files) (k + 1) t v := by
  constructor
  · refine (hchanges.trans h.changes).mono ?_
    intro p hp
    simp only [reached, List.cons_append, List.nil_append, List.mem_cons, List.mem_append,
      List.take_succ_cons, List.map_cons] at hp ⊢
    rcases hp with rfl | rfl | hp | hp
    · exact .inr (.inr (.inl rfl))
    · exact .inl rfl
    · exact .inr (.inl hp)
    · exact .inr (.inr (.inr hp))
  · rw [List.take_succ_cons, List.forall_mem_cons]
    refine ⟨h.changes.holds hholds fun q hq => ?_, h.holds⟩
    rcases List.mem_append.mp hq with hq | hq
    · obtain ⟨g, hg, rfl⟩ := List.mem_map.mp hq
      exact (hapart g (List.mem_of_mem_take hg)).1
    · obtain ⟨g, hg, rfl⟩ := List.mem_map.mp hq
      exact (hapart g (List.mem_of_mem_take hg)).2

/-- A run fails at its first file or goes on with the others. -/
theorem writeAll_cons_run {directory : Path} {f : String × String} {files : List (String × String)}
    {r : Except Fault (List Path)}
    (h : (fs.writeAll directory (f :: files)).run.run s = (r, s')) :
    (∃ q, r = .error (.write q) ∧
        ChangesOnly [temporary (directory.join ⟨f.1⟩)] (tree s) (tree s')) ∨
      ∃ r' u, r = r'.map (directory.join ⟨f.1⟩ :: ·) ∧
        ChangesOnly [temporary (directory.join ⟨f.1⟩), directory.join ⟨f.1⟩] (tree s) (tree u) ∧
        (tree u).Holds (directory.join ⟨f.1⟩) f.2 ∧
        (fs.writeAll directory files).run.run u = (r', s') := by
  rw [writeAll] at h
  rcases run_bind h with ⟨e, hone, rfl⟩ | ⟨_, u, hone, h⟩
  · rcases writeAtomic_run hfs hone with ⟨hr, _⟩ | ⟨q, hr, hchanges⟩
    · cases hr
    · exact .inl ⟨q, by rw [Except.error.inj hr], hchanges⟩
  rcases writeAtomic_run hfs hone with ⟨_, hchanges, hholds⟩ | ⟨_, hr, _⟩
  · right
    rcases run_bind h with ⟨e, hrest, rfl⟩ | ⟨paths, v, hrest, h⟩
    · exact ⟨_, u, rfl, hchanges, hholds, hrest⟩
    · cases h
      exact ⟨_, u, rfl, hchanges, hholds, hrest⟩
  · cases hr

theorem writeAll_run {directory : Path} {files : List (String × String)}
    (hapart : files.Pairwise (AreApart directory)) : ∀ {s : σ} {r : Except Fault (List Path)},
    (fs.writeAll directory files).run.run s = (r, s') →
    ∃ k, ((r = .ok (files.map fun f => directory.join ⟨f.1⟩) ∧ k = files.length) ∨
        (∃ q, r = .error (.write q)) ∧ k < files.length) ∧
      WrittenUpTo directory files k (tree s) (tree s') := by
  induction files with
  | nil =>
      intro s r h
      cases h
      exact ⟨0, .inl ⟨rfl, rfl⟩, .refl _, by simp⟩
  | cons f files ih =>
      intro s r h
      rw [List.pairwise_cons] at hapart
      -- The state is general: the other files are written where the first one left it.
      rcases writeAll_cons_run hfs h with ⟨q, rfl, hchanges⟩ | ⟨r', u, rfl, hchanges, hholds, hrest⟩
      · refine ⟨0, .inr ⟨⟨q, rfl⟩, by simp⟩, ?_, by simp⟩
        simpa [reached] using hchanges
      obtain ⟨k, hk, hwritten⟩ := ih hapart.2 hrest
      refine ⟨k + 1, ?_, hwritten.cons hapart.1 hchanges hholds⟩
      rcases hk with ⟨rfl, rfl⟩ | ⟨⟨q, rfl⟩, hlt⟩
      · exact .inl ⟨rfl, rfl⟩
      · exact .inr ⟨⟨q, rfl⟩, by simpa using hlt⟩

end Models

end FileSystem

end EnumLookup
