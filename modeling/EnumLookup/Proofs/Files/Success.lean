import EnumLookup.Proofs.Files.Writing

/-!
# Writes that succeed

In a file tree a file can be written if the directory above it stands and no directory is in its
place or in the place of its temporary file. A write makes and loses no directory, so what can be
written before it can be written after it.
-/

namespace EnumLookup

namespace FileTree

/-- The two trees have their directories at the same locations. -/
structure SameDirectories (t u : FileTree) : Prop where
  start : u.start = t.start
  directory : ∀ l, u.get? l = some .directory ↔ t.get? l = some .directory

/-- The path leads to a location, and no directory is there. -/
def IsFree (t : FileTree) (p : Path) : Prop := ∃ l, t.locate p = .ok l ∧ t.get? l ≠ some .directory

/-- The directory above the path stands, and nothing is in the way of a write. -/
structure IsReady (t : FileTree) (p : Path) : Prop where
  parent : ∃ parent, p.parent? = some parent ∧ t.isDirectory parent = true
  target : t.IsFree p
  temporary : t.IsFree (FileSystem.temporary p)

variable {t u v : FileTree} {p q : Path}

theorem isDirectory_iff : t.isDirectory p = true ↔ t.at? p = some .directory := by
  rw [isDirectory]
  split
  · rename_i h
    simp [h]
  · rename_i h
    simp only [Bool.false_eq_true, false_iff]
    exact h

namespace SameDirectories

theorem trans (h : SameDirectories t u) (h' : SameDirectories u v) : SameDirectories t v :=
  ⟨h'.start.trans h.start, fun l => (h'.directory l).trans (h.directory l)⟩

theorem locate (h : SameDirectories t u) {l : Location} (hl : t.locate p = .ok l) :
    u.locate p = .ok l :=
  locate_of_directories h.start (fun l => (h.directory l).mpr) hl

theorem isFree (h : SameDirectories t u) (hp : t.IsFree p) : u.IsFree p := by
  obtain ⟨l, hl, hne⟩ := hp
  exact ⟨l, h.locate hl, fun hu => hne ((h.directory l).mp hu)⟩

theorem isReady (h : SameDirectories t u) (hp : t.IsReady p) : u.IsReady p := by
  obtain ⟨parent, hparent, hdirectory⟩ := hp.parent
  obtain ⟨l, hl, hstands⟩ := at?_eq_some.mp (isDirectory_iff.mp hdirectory)
  refine ⟨⟨parent, hparent, ?_⟩, h.isFree hp.target, h.isFree hp.temporary⟩
  exact isDirectory_iff.mpr (at?_eq_some.mpr ⟨l, h.locate hl, (h.directory l).mpr hstands⟩)

/-- What changes at one place, and is no directory before or after, leaves the directories as they
are. -/
theorem of_change {l : Location} {e : Option Entry} (hstart : u.start = t.start)
    (hget : ∀ k, u.get? k = if k = l then e else t.get? k) (hne : t.get? l ≠ some .directory)
    (he : e ≠ some .directory) : SameDirectories t u := by
  refine ⟨hstart, fun k => ?_⟩
  rw [hget]
  by_cases hk : k = l
  · rw [if_pos hk, hk]
    exact ⟨fun h => absurd h he, fun h => absurd h hne⟩
  · rw [if_neg hk]

theorem set {l : Location} {content : ByteArray} (hne : t.get? l ≠ some .directory) :
    SameDirectories t (t.set l (.file content)) :=
  .of_change rfl (get?_set (ne_nil_of_get? hne)) hne nofun

theorem erase {l : Location} (hne : t.get? l ≠ some .directory) : SameDirectories t (t.erase l) :=
  .of_change rfl (get?_erase (ne_nil_of_get? hne)) hne nofun

end SameDirectories

/-! ## Steps -/

theorem write_of_isFree (h : t.IsFree p) (text : String) :
    ∃ u, t.write p text = some u ∧ SameDirectories t u := by
  obtain ⟨l, hl, hne⟩ := h
  exact ⟨_, write_eq_some.mpr ⟨l, hl, hne, rfl⟩, .set hne⟩

theorem rename_of_isFree {content : ByteArray} (hp : t.at? p = some (.file content))
    (hq : t.IsFree q) : ∃ u, t.rename p q = some u ∧ SameDirectories t u := by
  obtain ⟨l, hl, hfile⟩ := at?_eq_some.mp hp
  obtain ⟨k, hk, hne⟩ := hq
  have herase : SameDirectories t (t.erase l) := .erase (by simp [hfile])
  refine ⟨_, rename_eq_some.mpr ⟨l, k, content, hl, hk, hfile, hne, rfl⟩, herase.trans (.set ?_)⟩
  exact fun h => hne ((herase.directory k).mp h)

/-- A directory that stands need not be made. -/
theorem createDirectories_of_isDirectory (h : t.isDirectory p = true) (fuel : Nat) :
    t.createDirectories p (fuel + 1) = (t, true) := by
  obtain ⟨l, hl, hstands⟩ := at?_eq_some.mp (isDirectory_iff.mp h)
  have hmade : t.createDirectory p = .error .blocked := by
    rw [createDirectory]
    refine Outcome.bind_error.mpr (.inr ⟨l, hl, ?_⟩)
    rw [hstands]
    rfl
  rw [createDirectories, hmade, h]
  split <;> rfl

end FileTree

namespace FileSystem

open FileTree

variable {t u : FileTree} {p : Path}

theorem require_of_run {σ : Type} {step : StateM σ Bool} {s s' : σ} (h : step.run s = (true, s')) :
    (require p step).run.run s = (.ok (), s') := by
  rw [require, run_bind_of_ok (run_step step s), h]
  rfl

theorem createParent_of_isReady (h : t.IsReady p) :
    (system.createParent p).run.run t = (.ok (), t) := by
  obtain ⟨parent, hparent, hdirectory⟩ := h.parent
  rw [createParent, hparent]
  dsimp only
  split
  · rfl
  · refine require_of_run ?_
    have hmade := createDirectories_of_isDirectory hdirectory parent.segments.length
    simp only [system, StateT.run, hmade]

/-- A file that nothing is in the way of is written, once the directory above it is made. -/
theorem writeAtomic_of_made (hmade : (system.createParent p).run.run t = (.ok (), u))
    (h : u.IsReady p) (text : String) :
    ∃ v, (system.writeAtomic p text).run.run t = (.ok (), v) ∧ SameDirectories u v := by
  obtain ⟨v, hwrite, hsame⟩ := write_of_isFree h.temporary text
  obtain ⟨w, hmove, hsame'⟩ := rename_of_isFree (write_changes hwrite).2 (hsame.isFree h.target)
  have hput : (system.write (temporary p) text).run u = (true, v) := attempt_of_some hwrite
  have hmoved : (system.rename (temporary p) p).run v = (true, w) := attempt_of_some hmove
  refine ⟨w, ?_, hsame.trans hsame'⟩
  rw [writeAtomic, run_bind_of_ok hmade, run_bind_of_ok (require_of_run hput)]
  exact require_of_run hmoved

section Files

variable {directory : Path} {f : String × String} {files : List (String × String)}

theorem writeAll_cons_of_made
    (hmade : (system.createParent (directory.join ⟨f.1⟩)).run.run t = (.ok (), u))
    (h : u.IsReady (directory.join ⟨f.1⟩))
    (hrest : ∀ v, SameDirectories u v →
      ∃ paths w, (system.writeAll directory files).run.run v = (.ok paths, w)) :
    ∃ paths w, (system.writeAll directory (f :: files)).run.run t = (.ok paths, w) := by
  obtain ⟨v, hone, hsame⟩ := writeAtomic_of_made hmade h f.2
  obtain ⟨paths, w, hall⟩ := hrest v hsame
  refine ⟨directory.join ⟨f.1⟩ :: paths, w, ?_⟩
  rw [writeAll, run_bind_of_ok hone, run_bind_of_ok hall]
  rfl

/-- Files that nothing is in the way of are written, all of them. -/
theorem writeAll_of_isReady : ∀ {t : FileTree}, (∀ f ∈ files, t.IsReady (directory.join ⟨f.1⟩)) →
    ∃ paths u, (system.writeAll directory files).run.run t = (.ok paths, u) := by
  induction files with
  | nil => exact fun _ => ⟨[], _, rfl⟩
  | cons f files ih =>
      intro t h
      rw [List.forall_mem_cons] at h
      -- The write keeps the directories, so the rest is as ready as before.
      exact writeAll_cons_of_made (createParent_of_isReady h.1) h.1 fun v hsame =>
        ih fun g hg => hsame.isReady (h.2 g hg)

/-- The same where the directory is made for the first of the files. -/
theorem writeAll_of_made
    (hmade : (system.createParent (directory.join ⟨f.1⟩)).run.run t = (.ok (), u))
    (h : ∀ g ∈ f :: files, u.IsReady (directory.join ⟨g.1⟩)) :
    ∃ paths v, (system.writeAll directory (f :: files)).run.run t = (.ok paths, v) := by
  rw [List.forall_mem_cons] at h
  exact writeAll_cons_of_made hmade h.1 fun v hsame =>
    writeAll_of_isReady fun g hg => hsame.isReady (h.2 g hg)

end Files

end FileSystem

end EnumLookup
