import EnumLookup.Proofs.Files.Writing

/-!
# What a write leaves behind

A write that succeeds puts its content where the path leads to and empties the place of the temporary
file. Nothing else becomes a file or stops being one, and directories are made only above the path.
A file that stood in the temporary file's place is lost, for nothing looks whether one does.
-/

namespace EnumLookup

open FileTree FileSystem

/-- The other path is what is left when segments are taken off the end of the path. -/
inductive Path.HasAncestor (p : Path) : Path → Prop
  | parent {q : Path} (h : p.parent? = some q) : HasAncestor p q
  | above {q r : Path} (hq : HasAncestor p q) (h : q.parent? = some r) : HasAncestor p r

namespace FileTree

variable {t u v : FileTree} {p q : Path} {content : String}

/-! ## Directories above a path -/

/-- From one tree to another something came to be only where a path of the set leads to. -/
def MakesAt (S : Path → Prop) (t u : FileTree) : Prop :=
  ∀ l, t.get? l = none → u.get? l ≠ none → ∃ q, S q ∧ u.locate q = .ok l

variable {S : Path → Prop}

theorem MakesAt.refl (t : FileTree) : MakesAt S t t := fun _ hnone hsome => absurd hnone hsome

theorem MakesAt.trans (h : MakesAt S t u) (h' : MakesAt S u v) (hchanges : ChangesOnly [] u v) :
    MakesAt S t v := by
  intro l hnone hsome
  cases hu : u.get? l with
  | none => exact h' l hu hsome
  | some e =>
      obtain ⟨q, hq, hl⟩ := h l hnone (by simp [hu])
      exact ⟨q, hq, hchanges.locate hl⟩

theorem MakesAt.entry (h : MakesAt S t u) (hchanges : ChangesOnly [] t u) (l : Location) :
    u.get? l = t.get? l ∨
      (t.get? l = none ∧ u.get? l = some .directory ∧ ∃ q, S q ∧ u.locate q = .ok l) := by
  rcases hchanges.entry l with he | ⟨hnone, hmade⟩ | ⟨_, q, hq, _⟩
  · exact .inl he
  · exact .inr ⟨hnone, hmade, h l hnone (by simp [hmade])⟩
  · cases hq

theorem createDirectory_makesAt (hp : S p) (h : t.createDirectory p = .ok u) : MakesAt S t u := by
  intro l hnone hsome
  refine ⟨p, hp, (createDirectory_changes h).locate ?_⟩
  obtain ⟨k, hk, hkn, rfl⟩ := createDirectory_eq_ok.mp h
  have hne : t.get? k ≠ some .directory := by simp [hkn]
  rw [get?_set (ne_nil_of_get? hne)] at hsome
  split at hsome
  · rename_i hlk
    rw [hlk, hk]
  · exact absurd hnone hsome

theorem createDirectories_makesAt (habove : ∀ q r, S q → q.parent? = some r → S r) (t : FileTree)
    (fuel : Nat) (p : Path) (hp : S p) : MakesAt S t (t.createDirectories p fuel).1 :=
  createDirectories_keeps habove .refl (fun hq h hone =>
    h.trans (createDirectory_makesAt hq hone) (createDirectory_changes hone)) t fuel p hp

/-! ## A file that is moved into place -/

/-- A file that is written and then moved over another path stands there alone: where it was written
nothing is left. -/
theorem get?_of_moved (hwrite : t.write q content = some u) (hmove : u.rename q p = some v) :
    ∃ l k, v.locate q = .ok l ∧ v.locate p = .ok k ∧ ∀ m, v.get? m =
      if m = k then some (.file content.toUTF8) else if m = l then none else t.get? m := by
  have hchanges := (write_changes hwrite).1
  have hchanges' := (rename_changes hmove).1
  obtain ⟨l, hl, hlne, hu⟩ := write_eq_some.mp hwrite
  obtain ⟨l', k, bytes, hl', hk, hfile, hkne, hv⟩ := rename_eq_some.mp hmove
  cases (hchanges.locate hl).symm.trans hl'
  have hget : ∀ m, u.get? m = if m = l then some (.file content.toUTF8) else t.get? m := by
    intro m
    rw [hu, get?_set (ne_nil_of_get? hlne)]
  have hbytes : Entry.file bytes = .file content.toUTF8 := by
    rw [hget, if_pos rfl] at hfile
    exact (Option.some.inj hfile).symm
  have hune : u.get? l ≠ some .directory := by simp [hfile]
  refine ⟨l, k, hchanges'.locate hl', hchanges'.locate hk, fun m => ?_⟩
  rw [hv, get?_set (ne_nil_of_get? hkne), get?_erase (ne_nil_of_get? hune), hget, hbytes]
  by_cases hml : m = l
  · simp [hml]
  · simp [hml]

/-- The path has the content, and nothing else changed but that directories were made above it and
that nothing is left of a file in the place of the temporary one. -/
structure Replaces (p : Path) (content : String) (t u : FileTree) : Prop where
  start : u.start = t.start
  read : u.read p = some content
  kept : ∀ l bytes, t.get? l = some (.file bytes) → u.locate p ≠ .ok l →
    u.locate (temporary p) ≠ .ok l → u.get? l = some (.file bytes)
  known : ∀ l bytes, u.get? l = some (.file bytes) → u.locate p ≠ .ok l →
    t.get? l = some (.file bytes)
  emptied : ∀ l, u.locate (temporary p) = .ok l → u.locate p ≠ .ok l → u.get? l = none
  directories : ∀ l, t.get? l = some .directory → u.get? l = some .directory
  made : ∀ l, u.get? l = some .directory → t.get? l = some .directory ∨
    (t.get? l = none ∧ ∃ q, p.HasAncestor q ∧ u.locate q = .ok l)

end FileTree

namespace FileSystem

variable {t u : FileTree} {p : Path} {content : String}

theorem createParent_makesAt {r : Except Fault Unit}
    (h : (system.createParent p).run.run t = (r, u)) : MakesAt p.HasAncestor t u := by
  rw [createParent] at h
  split at h
  · cases h
    exact .refl t
  split at h
  · cases h
    exact .refl t
  rename_i parent hparent _
  have habove : ∀ q r, p.HasAncestor q → q.parent? = some r → p.HasAncestor r := fun _ _ => .above
  have hmade : MakesAt p.HasAncestor t ((system.createDirectories parent).run t).2 :=
    createDirectories_makesAt habove t (parent.segments.length + 1) parent (.parent hparent)
  rcases require_run h with ⟨hstep, _⟩ | ⟨hstep, _⟩
  · rwa [hstep] at hmade
  · rwa [hstep] at hmade

/-- A write that succeeds takes its three steps. -/
theorem writeAtomic_ok (h : (system.writeAtomic p content).run.run t = (.ok (), u)) :
    ∃ v w, (system.createParent p).run.run t = (.ok (), v) ∧
      v.write (temporary p) content = some w ∧ w.rename (temporary p) p = some u := by
  rw [writeAtomic] at h
  rcases run_bind h with ⟨_, _, hr⟩ | ⟨_, v, hmake, h⟩
  · cases hr
  rcases run_bind h with ⟨_, _, hr⟩ | ⟨_, w, hwrite, h⟩
  · cases hr
  rcases require_run hwrite with ⟨hstep, _⟩ | ⟨_, hr⟩
  · rcases require_run h with ⟨hmove, _⟩ | ⟨_, hr⟩
    · exact ⟨v, w, hmake, attempt_run hstep, attempt_run hmove⟩
    · cases hr
  · cases hr

/-- A write that succeeds changes the file it is for, the place of its temporary file and the
directories above it. -/
theorem writeAtomic_replaces (h : (system.writeAtomic p content).run.run t = (.ok (), u)) :
    Replaces p content t u := by
  obtain ⟨v, w, hmake, hwrite, hmove⟩ := writeAtomic_ok h
  have hmade := (createParent_run system_models hmake).2
  have hmoved := (write_changes hwrite).1.trans (rename_changes hmove).1
  have habove := (createParent_makesAt hmake).entry hmade
  obtain ⟨l, k, hl, hk, hget⟩ := get?_of_moved hwrite hmove
  have hother : ∀ m, u.locate p ≠ .ok m → u.get? m = if m = l then none else v.get? m := by
    intro m hm
    have hmk : m ≠ k := fun he => hm (he ▸ hk)
    rw [hget, if_neg hmk]
  constructor
  case start => exact (hmade.trans hmoved).start
  case read =>
    apply read_of_holds
    exact at?_eq_some.mpr ⟨k, hk, by rw [hget, if_pos rfl]⟩
  case kept =>
    intro m bytes hfile hm hm'
    have hml : m ≠ l := fun he => hm' (he ▸ hl)
    rw [hother m hm, if_neg hml]
    rcases habove m with he | ⟨hnone, _⟩
    · rw [he, hfile]
    · rw [hfile] at hnone
      cases hnone
  case known =>
    intro m bytes hfile hm
    rw [hother m hm] at hfile
    split at hfile
    · cases hfile
    rcases habove m with he | ⟨_, hstands, _⟩
    · rw [← he, hfile]
    · rw [hfile] at hstands
      cases hstands
  case emptied =>
    intro m hm hm'
    cases hl.symm.trans hm
    rw [hother l hm', if_pos rfl]
  case directories => exact fun m hm => (hmade.trans hmoved).directory hm
  case made =>
    intro m hm
    have hstands : v.get? m = some .directory := by
      rw [hget] at hm
      split at hm
      · cases hm
      split at hm
      · cases hm
      · exact hm
    rcases habove m with he | ⟨hnone, _, q, hq, hql⟩
    · rw [← he]
      exact .inl hstands
    · exact .inr ⟨hnone, q, hq, hmoved.locate hql⟩

/-- A file stands where the temporary file of `mod.rs` goes, and another one in a directory. -/
def staleTree : FileTree where
  entries := [(["mod.tmp"], .file "stale".toUTF8), (["src"], .directory),
    (["src", "lib.rs"], .file "kept".toUTF8)]

theorem replaces_in_staleTree : ∃ u,
    (system.writeAtomic ⟨"src/new/mod.rs"⟩ "fresh").run.run staleTree = (.ok (), u) ∧
      Replaces ⟨"src/new/mod.rs"⟩ "fresh" staleTree u :=
  ⟨_, rfl, writeAtomic_replaces rfl⟩

theorem stale_file_lost : ∃ u,
    (system.writeAtomic ⟨"mod.rs"⟩ "fresh").run.run staleTree = (.ok (), u) ∧
      staleTree.read ⟨"mod.tmp"⟩ = some "stale" ∧ u.locate ⟨"mod.rs"⟩ ≠ u.locate ⟨"mod.tmp"⟩ ∧
      u.read ⟨"mod.tmp"⟩ = none :=
  ⟨_, rfl, read_of_holds rfl, nofun, rfl⟩

end FileSystem

end EnumLookup
