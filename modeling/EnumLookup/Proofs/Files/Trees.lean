import EnumLookup.FileTree
import EnumLookup.Proofs.Files.Paths
import EnumLookup.Proofs.Outcome

/-!
# What changes in a file tree

Directories are only ever made where nothing stood, and files change only where an operation's paths
lead to. So a path that leads somewhere leads there after every operation, and a file keeps its
content as long as no path of an operation leads to it.
-/

namespace EnumLookup.FileTree

/-! ## Entries -/

theorem get?_erase {t : FileTree} {l : Location} (h : l ≠ []) (k : Location) :
    (t.erase l).get? k = if k = l then none else t.get? k := by
  by_cases hk : k = []
  · subst hk
    simp [get?, Ne.symm h]
  by_cases hkl : k = l
  · subst hkl
    simp [get?, erase, hk]
  · have hfind : (fun x : Location × Entry => decide ((x.1 != l) = true ∧ (x.1 == k) = true)) =
        fun x => x.1 == k := by
      funext x
      by_cases hx : x.1 = k
      · simp [hx, hkl]
      · simp [hx]
    rw [if_neg hkl, get?, get?, erase, List.find?_filter, hfind]

theorem get?_set {t : FileTree} {l : Location} {e : Entry} (h : l ≠ []) (k : Location) :
    (t.set l e).get? k = if k = l then some e else t.get? k := by
  by_cases hkl : k = l
  · subst hkl
    simp [get?, set, h]
  · have herase : (t.set l e).get? k = (t.erase l).get? k := by
      simp [get?, set, erase, Ne.symm hkl]
    rw [herase, get?_erase h, if_neg hkl, if_neg hkl]

theorem ne_nil_of_get? {t : FileTree} {l : Location} (h : t.get? l ≠ some .directory) : l ≠ [] := by
  rintro rfl
  exact h rfl

/-! ## Locations -/

theorem descend_append (t : FileTree) (xs ys : List (List Char)) : ∀ l,
    t.descend l (xs ++ ys) = t.descend l xs >>= fun k => t.descend k ys := by
  induction xs with
  | nil => intro l; rfl
  | cons s xs ih =>
      intro l
      rw [List.cons_append, descend, descend]
      split
      · rfl
      · rfl
      · dsimp only
        split
        · exact ih l
        split
        · exact ih l.dropLast
        split
        · rfl
        · exact ih _

theorem directory_of_descend {t : FileTree} {l k : Location} {segs : List (List Char)}
    (h : t.descend l segs = .ok k) (hne : segs ≠ []) : t.get? l = some .directory := by
  obtain ⟨s, rest, rfl⟩ := List.exists_cons_of_ne_nil hne
  rw [descend] at h
  split at h
  · cases h
  · cases h
  · assumption

theorem descend_name {t : FileTree} {l k : Location} {seg : List Char} (hname : Path.IsName seg)
    (h : t.descend l [seg] = .ok k) : k = l ++ [String.ofList seg] := by
  have hdirectory := directory_of_descend h (by simp)
  rw [descend, hdirectory] at h
  simp only [hname.counts, hname.stays, Bool.false_eq_true, if_false] at h
  split at h
  · cases h
  · cases h
    rfl

/-- A path leads to a location, no matter how long the path is. The empty path leads to where paths
start. -/
def LeadsTo (t : FileTree) (p : Path) (l : Location) : Prop :=
  t.descend (if p.isAbsolute then [] else t.start) p.segments = .ok l

theorem leadsTo_of_locate {t : FileTree} {p : Path} {l : Location} (h : t.locate p = .ok l) :
    t.LeadsTo p l := by
  rw [locate] at h
  split at h
  · cases h
  split at h
  · cases h
  exact h

/-- A path below a directory leads on from where the directory is. -/
theorem LeadsTo.of_join {t : FileTree} {p q : Path} {l : Location} (hq : q.isAbsolute = false)
    (h : t.LeadsTo (p.join q) l) : ∃ d, t.LeadsTo p d ∧ t.descend d q.segments = .ok l := by
  rw [LeadsTo, Path.isAbsolute_join hq, Path.segments_join hq, descend_append] at h
  obtain ⟨d, hd, hl⟩ := Outcome.bind_ok.mp h
  refine ⟨d, ?_, hl⟩
  rw [LeadsTo]
  rcases p.segments_eq_leading with hp | hp
  · rw [hp, hd]
  · have hdirectory := directory_of_descend hl (Path.split_ne_nil _)
    rw [hp, descend_append, hd]
    show t.descend d [[]] = .ok d
    rw [descend, hdirectory]
    rfl

theorem LeadsTo.of_join_name {t : FileTree} {p : Path} {name : String} {l : Location}
    (hname : Path.IsName name.toList) (h : t.LeadsTo (p.join ⟨name⟩) l) :
    ∃ d, t.LeadsTo p d ∧ l = d ++ [name] := by
  obtain ⟨d, hd, hl⟩ := h.of_join (Path.isAbsolute_of_slashless hname.slashless)
  rw [Path.segments_of_slashless hname.slashless] at hl
  refine ⟨d, hd, ?_⟩
  rw [descend_name hname hl, String.ofList_toList]

/-- Two paths lead to one place in no tree. -/
def Apart (p q : Path) : Prop := ∀ (t : FileTree) l, t.locate p = .ok l → t.locate q ≠ .ok l

theorem apart_of_names {p : Path} {m n : String} (hm : Path.IsName m.toList)
    (hn : Path.IsName n.toList) (hne : m ≠ n) : Apart (p.join ⟨m⟩) (p.join ⟨n⟩) := by
  intro t l hl hl'
  obtain ⟨d, _, rfl⟩ := (leadsTo_of_locate hl).of_join_name hm
  obtain ⟨d', _, hd'⟩ := (leadsTo_of_locate hl').of_join_name hn
  exact hne (by simpa using (List.append_inj' hd' rfl).2)

/-! ## Changes -/

/-- From one tree to another, directories are made where nothing stood, and beyond that something
changes only where one of the paths leads to and where no directory stands. -/
structure ChangesOnly (ps : List Path) (t u : FileTree) : Prop where
  start : u.start = t.start
  entry : ∀ l, u.get? l = t.get? l ∨ (t.get? l = none ∧ u.get? l = some .directory) ∨
    (t.get? l ≠ some .directory ∧ ∃ p ∈ ps, u.locate p = .ok l)

theorem descend_of_directories {t u : FileTree}
    (h : ∀ l, t.get? l = some .directory → u.get? l = some .directory) {segs : List (List Char)} :
    ∀ {l k}, t.descend l segs = .ok k → u.descend l segs = .ok k := by
  induction segs with
  | nil => exact id
  | cons s rest ih =>
      intro l k hk
      have hdirectory := directory_of_descend hk (by simp)
      rw [descend, hdirectory] at hk
      rw [descend, h l hdirectory]
      dsimp only at hk ⊢
      split
      · rename_i hidle
        rw [if_pos hidle] at hk
        exact ih hk
      rename_i hidle
      rw [if_neg hidle] at hk
      split
      · rename_i hup
        rw [if_pos hup] at hk
        exact ih hk
      rename_i hup
      rw [if_neg hup] at hk
      split
      · rename_i hlong
        rw [if_pos hlong] at hk
        cases hk
      · rename_i hlong
        rw [if_neg hlong] at hk
        exact ih hk

/-- A path that leads somewhere leads there as long as no directory is lost. -/
theorem locate_of_directories {t u : FileTree} (hstart : u.start = t.start)
    (h : ∀ l, t.get? l = some .directory → u.get? l = some .directory) {p : Path} {l : Location}
    (hl : t.locate p = .ok l) : u.locate p = .ok l := by
  rw [locate] at hl ⊢
  split at hl
  · cases hl
  rename_i hempty
  split at hl
  · cases hl
  rename_i hbad
  rw [if_neg hempty, if_neg hbad, hstart]
  exact descend_of_directories h hl

namespace ChangesOnly

variable {ps qs : List Path} {t u v : FileTree}

theorem directory (h : ChangesOnly ps t u) {l : Location} (hl : t.get? l = some .directory) :
    u.get? l = some .directory := by
  rcases h.entry l with he | ⟨hnone, _⟩ | ⟨hne, _⟩
  · rw [he, hl]
  · rw [hl] at hnone
    cases hnone
  · exact absurd hl hne

theorem locate (h : ChangesOnly ps t u) {p : Path} {l : Location} (hl : t.locate p = .ok l) :
    u.locate p = .ok l :=
  locate_of_directories h.start (fun _ => h.directory) hl

theorem refl (t : FileTree) : ChangesOnly ps t t := ⟨rfl, fun _ => .inl rfl⟩

theorem mono (h : ChangesOnly ps t u) (hsub : ps ⊆ qs) : ChangesOnly qs t u := by
  refine ⟨h.start, fun l => ?_⟩
  rcases h.entry l with he | he | ⟨hne, p, hp, hl⟩
  · exact .inl he
  · exact .inr (.inl he)
  · exact .inr (.inr ⟨hne, p, hsub hp, hl⟩)

theorem trans (h : ChangesOnly ps t u) (h' : ChangesOnly qs u v) : ChangesOnly (ps ++ qs) t v := by
  refine ⟨h'.start.trans h.start, fun l => ?_⟩
  rcases h.entry l with he | ⟨hnone, hmade⟩ | ⟨hne, p, hp, hl⟩
  · rcases h'.entry l with he' | ⟨hnone, hmade⟩ | ⟨hne, p, hp, hl⟩
    · exact .inl (he'.trans he)
    · exact .inr (.inl ⟨he ▸ hnone, hmade⟩)
    · exact .inr (.inr ⟨he ▸ hne, p, List.mem_append_right _ hp, hl⟩)
  · exact .inr (.inl ⟨hnone, h'.directory hmade⟩)
  -- A path of the first change leads to the same place after the second.
  · exact .inr (.inr ⟨hne, p, List.mem_append_left _ hp, h'.locate hl⟩)

/-- It is enough to know where the paths lead to before the change. -/
theorem of_located (hstart : u.start = t.start) (h : ∀ l, u.get? l = t.get? l ∨
    (t.get? l ≠ some .directory ∧ ∃ p ∈ ps, t.locate p = .ok l)) : ChangesOnly ps t u := by
  have hdirectory : ∀ l, t.get? l = some .directory → u.get? l = some .directory := by
    intro l hl
    rcases h l with he | ⟨hne, _⟩
    · rw [he, hl]
    · exact absurd hl hne
  refine ⟨hstart, fun l => ?_⟩
  rcases h l with he | ⟨hne, p, hp, hl⟩
  · exact .inl he
  · exact .inr (.inr ⟨hne, p, hp, locate_of_directories hstart hdirectory hl⟩)

end ChangesOnly

/-! ## Files -/

/-- The path leads to a file with exactly this text. -/
def Holds (t : FileTree) (p : Path) (text : String) : Prop := t.at? p = some (.file text.toUTF8)

/-- The content of the file at a location, if a file is there. -/
def content? (t : FileTree) (l : Location) : Option ByteArray :=
  match t.get? l with
  | some (.file content) => some content
  | _ => none

/-- Where the path leads to there is the same file as before, or again none. A path that led
somewhere before leads to the same place. -/
def Untouched (t u : FileTree) (p : Path) : Prop :=
  (∀ l, t.locate p = .ok l → u.locate p = .ok l) ∧
    ∀ l, u.locate p = .ok l → u.content? l = t.content? l

theorem at?_eq_some {t : FileTree} {p : Path} {e : Entry} :
    t.at? p = some e ↔ ∃ l, t.locate p = .ok l ∧ t.get? l = some e := by
  rw [at?]
  cases t.locate p with
  | ok l => simp
  | error _ => simp

/-- A file that is a text reads back as the text. -/
theorem read_of_holds {t : FileTree} {p : Path} {text : String} (h : t.Holds p text) :
    t.read p = some text := by
  rw [read, h]
  simp only [String.fromUTF8?, String.toUTF8_eq_toByteArray, dif_pos text.isValidUTF8]
  rfl

theorem ChangesOnly.holds {qs : List Path} {t u : FileTree} {p : Path} {text : String}
    (h : ChangesOnly qs t u) (hp : t.Holds p text) (hapart : ∀ q ∈ qs, Apart p q) :
    u.Holds p text := by
  obtain ⟨l, hl, hfile⟩ := at?_eq_some.mp hp
  refine at?_eq_some.mpr ⟨l, h.locate hl, ?_⟩
  rcases h.entry l with he | ⟨hnone, _⟩ | ⟨_, q, hq, hql⟩
  · rw [he, hfile]
  · rw [hfile] at hnone
    cases hnone
  · exact absurd hql (hapart q hq u l (h.locate hl))

theorem ChangesOnly.content? {ps : List Path} {t u : FileTree} (h : ChangesOnly ps t u)
    {l : Location} (hl : ∀ p ∈ ps, u.locate p ≠ .ok l) : u.content? l = t.content? l := by
  rw [FileTree.content?, FileTree.content?]
  rcases h.entry l with he | ⟨hnone, hmade⟩ | ⟨_, p, hp, hpl⟩
  · rw [he]
  · rw [hnone, hmade]
  · exact absurd hpl (hl p hp)

theorem ChangesOnly.untouched {qs : List Path} {t u : FileTree} {p : Path}
    (h : ChangesOnly qs t u) (hapart : ∀ q ∈ qs, Apart p q) : Untouched t u p :=
  ⟨fun _ => h.locate, fun l hl => h.content? fun q hq => hapart q hq u l hl⟩

/-! ## Operations -/

variable {t u : FileTree} {p q : Path}

theorem write_eq_some {text : String} : t.write p text = some u ↔ ∃ l, t.locate p = .ok l ∧
    t.get? l ≠ some .directory ∧ u = t.set l (.file text.toUTF8) := by
  rw [write]
  cases t.locate p with
  | error _ => simp
  | ok l =>
      cases hl : t.get? l with
      | none => simp [hl, eq_comm]
      | some e => cases e <;> simp [hl, eq_comm]

theorem rename_eq_some : t.rename p q = some u ↔ ∃ l k content, t.locate p = .ok l ∧
    t.locate q = .ok k ∧ t.get? l = some (.file content) ∧ t.get? k ≠ some .directory ∧
    u = (t.erase l).set k (.file content) := by
  rw [rename]
  cases t.locate p with
  | error _ => simp
  | ok l =>
      cases t.locate q with
      | error _ => simp
      | ok k =>
          cases hl : t.get? l with
          | none => simp [hl]
          | some e =>
              cases e with
              | directory => simp [hl]
              | file content =>
                  cases hk : t.get? k with
                  | none => simp [hl, hk, eq_comm]
                  | some e' => cases e' <;> simp [hl, hk, eq_comm]

theorem write_changes {text : String} (h : t.write p text = some u) :
    ChangesOnly [p] t u ∧ u.Holds p text := by
  obtain ⟨l, hl, hne, rfl⟩ := write_eq_some.mp h
  have hget := get?_set (t := t) (e := .file text.toUTF8) (ne_nil_of_get? hne)
  have hchanges : ChangesOnly [p] t (t.set l (.file text.toUTF8)) := by
    refine .of_located rfl fun k => ?_
    by_cases hk : k = l
    · exact .inr ⟨hk ▸ hne, p, List.mem_singleton.mpr rfl, hk ▸ hl⟩
    · exact .inl (by rw [hget, if_neg hk])
  exact ⟨hchanges, at?_eq_some.mpr ⟨l, hchanges.locate hl, by rw [hget, if_pos rfl]⟩⟩

theorem rename_changes (h : t.rename p q = some u) : ChangesOnly [p, q] t u ∧
    ∃ content, t.at? p = some (.file content) ∧ u.at? q = some (.file content) := by
  obtain ⟨l, k, content, hl, hk, hfile, hne, rfl⟩ := rename_eq_some.mp h
  have hlne : t.get? l ≠ some .directory := by simp [hfile]
  have hget : ∀ m, ((t.erase l).set k (.file content)).get? m =
      if m = k then some (.file content) else if m = l then none else t.get? m := by
    intro m
    rw [get?_set (ne_nil_of_get? hne), get?_erase (ne_nil_of_get? hlne)]
  have hchanges : ChangesOnly [p, q] t ((t.erase l).set k (.file content)) := by
    refine .of_located rfl fun m => ?_
    by_cases hmk : m = k
    · exact .inr ⟨hmk ▸ hne, q, by simp, hmk ▸ hk⟩
    by_cases hml : m = l
    · exact .inr ⟨hml ▸ hlne, p, by simp, hml ▸ hl⟩
    · exact .inl (by rw [hget, if_neg hmk, if_neg hml])
  refine ⟨hchanges, content, at?_eq_some.mpr ⟨l, hl, hfile⟩, at?_eq_some.mpr ⟨k, ?_, ?_⟩⟩
  · exact hchanges.locate hk
  · rw [hget, if_pos rfl]

theorem createDirectory_eq_ok : t.createDirectory p = .ok u ↔
    ∃ l, t.locate p = .ok l ∧ t.get? l = none ∧ u = t.set l .directory := by
  rw [createDirectory, Outcome.bind_ok]
  constructor
  · rintro ⟨l, hl, h⟩
    cases hnone : t.get? l with
    | some e => simp [hnone] at h
    | none =>
        rw [hnone] at h
        cases h
        exact ⟨l, hl, hnone, rfl⟩
  · rintro ⟨l, hl, hnone, rfl⟩
    exact ⟨l, hl, by rw [hnone]; rfl⟩

theorem createDirectory_changes (h : t.createDirectory p = .ok u) : ChangesOnly [] t u := by
  obtain ⟨l, _, hnone, rfl⟩ := createDirectory_eq_ok.mp h
  have hne : t.get? l ≠ some .directory := by simp [hnone]
  have hget := get?_set (t := t) (e := .directory) (ne_nil_of_get? hne)
  refine ⟨rfl, fun k => ?_⟩
  by_cases hk : k = l
  · exact .inr (.inl ⟨hk ▸ hnone, by rw [hget, if_pos hk]⟩)
  · exact .inl (by rw [hget, if_neg hk])

/-- What the making of one directory keeps, the making of several keeps, even if it comes to an end
half-way. The set holds the paths of the directories. -/
theorem createDirectories_keeps {R : FileTree → FileTree → Prop} {S : Path → Prop}
    (habove : ∀ q r, S q → q.parent? = some r → S r) (hrefl : ∀ t, R t t)
    (hmade : ∀ {t u v q}, S q → R t u → u.createDirectory q = .ok v → R t v) (t : FileTree) :
    ∀ (fuel : Nat) (p : Path), S p → R t (t.createDirectories p fuel).1 := by
  intro fuel
  induction fuel with
  | zero => exact fun _ _ => hrefl t
  | succ fuel ih =>
      intro p hp
      rw [createDirectories]
      split
      · exact hrefl t
      split
      · exact hmade hp (hrefl t) ‹_›
      · exact hrefl t
      · split
        · exact hrefl t
        · rename_i parent hparent
          have hrest := ih parent (habove p parent hp hparent)
          split
          · rename_i above heq
            rwa [heq] at hrest
          · rename_i above heq
            rw [heq] at hrest
            split
            · exact hmade hp hrest ‹_›
            · exact hrest

/-- Making directories changes nothing else. -/
theorem createDirectories_changes (t : FileTree) (fuel : Nat) (p : Path) :
    ChangesOnly [] t (t.createDirectories p fuel).1 :=
  createDirectories_keeps (R := ChangesOnly []) (S := fun _ => True) (fun _ _ _ _ => trivial) .refl
    (fun _ h hone => h.trans (createDirectory_changes hone)) t fuel p trivial

end EnumLookup.FileTree
