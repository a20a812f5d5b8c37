import EnumLookup.Generation.Answers
import EnumLookup.Proofs.Artifact.Built

/-!
# Artifacts answer as the registry does

The text of a lookup artifact, notice included, is read as a file whose functions answer every call
as the registry of the same enums does.
-/

namespace EnumLookup

open Source Generation Discriminator Outcome

namespace Artifact

/-- What stands between the slashes of a remark and the empty line behind it. -/
def remarkText (cs : List Char) : List Char := (cs.drop 3).dropLast.dropLast

theorem remark_lexes {m : Marks} {cs : List Char} (h : OneLine (remarkText cs) ∧
    cs = '/' :: '/' :: ' ' :: (remarkText cs ++ ['\n', '\n'])) :
    Phrase m Anything (String.ofList cs) [] := by
  have hlexes : Lexes m Anything ('/' :: '/' :: ' ' :: remarkText cs ++ ['\n'] ++ ['\n']) [] :=
    (Lexes.remark h.1).join (Lexes.newline .nil)
  rw [Phrase, String.toList_ofList, h.2]
  simpa using hlexes

/-- The notice adds nothing to the tokens of a text. -/
theorem notice_lexes {m : Marks} : Phrase m Anything notice [] := remark_lexes (by decide)

theorem noticed {m : Marks} {F : List Char → Prop} {s : String} {file : File}
    (h : Spelt m F File.Spells s file) : Spelt m F File.Spells (notice ++ s) file := by
  obtain ⟨ts, hts, hspells⟩ := h
  exact ⟨ts, notice_lexes.join hts, hspells⟩

variable {enums : List Resolved} {c : Config} {o : Operation}

theorem nameable_of_build {ds : List String} (hc : c.validate = .ok ())
    (hds : assign (enums.map Resolved.name) = .ok ds) {a : Artifact}
    (h : build enums c (.operation o) = .ok a) : ∀ e ∈ enums, IsNameable e.name := by
  by_contra hn
  rw [build_of_unnameable hc hds o hn] at h
  cases h

/-- The text of a lookup artifact in the plain layout. -/
theorem read_of_build {ds : List String} (hc : c.validate = .ok ()) (hplain : c.pretty = false)
    (hds : assign (enums.map Resolved.name) = .ok ds) {a : Artifact}
    (h : build enums c (.operation o) = .ok a) (m : Marks) :
    File.readAs? m a.text = some (lookupListing o ((enums.zip ds).map (asRead m))).file := by
  have hn := nameable_of_build hc hds h
  obtain ⟨l, file, hl, _, rfl⟩ := build_ok.mp h
  rw [listing_operation hds o] at hl
  cases hl
  have hspelt := noticed (lookup_spelt (m := m) hc hds o hn)
  rw [hplain]
  exact hspelt.readAs trivial

/-- A file answers as the registry if its functions have distinct names. -/
theorem answers_of_build {ds : List String} (hc : c.validate = .ok ()) (hplain : c.pretty = false)
    (hds : assign (enums.map Resolved.name) = .ok ds)
    (hw : ∀ e ∈ enums, ∀ m ∈ e.entries, m.value.width = e.width) {a : Artifact}
    (h : build enums c (.operation o) = .ok a) (m : Marks) :
    ∃ file, File.readAs? m a.text = some file ∧
      ((file.functions.map Function.name).Nodup → Answers file ⟨enums⟩ o) := by
  refine ⟨_, read_of_build hc hplain hds h m, fun hnodup => ?_⟩
  rw [names_lookup] at hnodup
  have hanswers := answers_lookup hnodup fun p hp => ?_
  · rwa [map_fst_asRead, map_fst_assigned hds] at hanswers
  · obtain ⟨q, hq, rfl⟩ := List.mem_map.mp hp
    exact hw q.1 (List.of_mem_zip hq).1

theorem generate_of_valid (hnames : (enums.map Resolved.name).Nodup) (hc : c.validate = .ok ()) :
    generate enums c = .ok ((artifactKinds c).map (build enums c)) := by
  rw [generate_of_nodup hnames, hc]
  rfl

theorem build_of_mem {a : Artifact} {kind : ArtifactKind}
    (h : .ok a ∈ (artifactKinds c).map (build enums c)) (hkind : a.kind = kind) :
    build enums c kind = .ok a := by
  obtain ⟨k, _, hk⟩ := List.mem_map.mp h
  rwa [← hkind, kind_of_build hk]

/-- The code of a lookup artifact means what the registry answers. For enums with distinct names that
all yield discriminators and hold values of their own widths, in a valid configuration with the plain
layout, every lookup artifact that is built is read, direction marks of names included, as a file that
answers each call of its operation as the registry does. Read without those marks it does so too,
as long as the names of its functions stay distinct. -/
theorem answers_as_registry (hnames : (enums.map Resolved.name).Nodup)
    (haccepted : ∀ e ∈ enums, ∃ base, discriminator e.name = .ok base)
    (hwidths : ∀ e ∈ enums, ∀ m ∈ e.entries, m.value.width = e.width)
    (hc : c.validate = .ok ()) (hplain : c.pretty = false) :
    ∃ r as, Registry.ofResolved enums = .ok r ∧ generate enums c = .ok as ∧
      ∀ a o, .ok a ∈ as → a.kind = .operation o →
        (∃ file, File.readAs? .kept a.text = some file ∧ Answers file r o) ∧
        ∃ file, File.read? a.text = some file ∧
          ((file.functions.map Function.name).Nodup → Answers file r o) := by
  refine ⟨⟨enums⟩, _, Registry.ofResolved_of_nodup hnames, generate_of_valid hnames hc, ?_⟩
  intro a o hmem hkind
  have hbuild := build_of_mem hmem hkind
  obtain ⟨ds, hds⟩ := assign_of_enums haccepted
  refine ⟨?_, answers_of_build hc hplain hds hwidths hbuild .dropped⟩
  obtain ⟨file, hread, hanswers⟩ := answers_of_build hc hplain hds hwidths hbuild .kept
  refine ⟨file, hread, hanswers ?_⟩
  have hkept : (enums.zip ds).map (asRead .kept) = enums.zip ds := List.map_id _
  rw [read_of_build hc hplain hds hbuild .kept, hkept] at hread
  cases hread
  rw [names_lookup]
  exact nodup_functionNames hds o

/-- Two enums whose discriminators collide, one of them with an alias and a blank name. -/
def collidingLevels : List Resolved := [
  ⟨"app.Level", .i8, [⟨"Low", .ofInt .i8 (-1)⟩, ⟨" ", .ofInt .i8 2⟩, ⟨"Low", .ofInt .i8 2⟩]⟩,
  ⟨"app/Level", .u64, []⟩]

set_option maxRecDepth 4000 in
theorem names_collidingLevels : ∀ e ∈ collidingLevels,
    discriminator e.name = .ok "app_Level" ∧ IsNameable e.name := by decide

theorem answers_of_collidingLevels : ∃ a file,
    build collidingLevels {} (.operation .nameLookup) = .ok a ∧
    File.readAs? .kept a.text = some file ∧
    file.run? "enum_name" [.text "app.Level", .integer none 2] = some (.ok (.some (.text " "))) ∧
    file.run? "enum_name" [.text "app/Level", .integer none (-1)] = some (.ok .none) ∧
    file.run? "enum_name" [.text "Level", .integer none 2] =
      some (.err (.variant errorType "UnsupportedEnumType" [.text "Level"])) := by
  have hnames : (collidingLevels.map Resolved.name).Nodup := by decide
  have hwidths : ∀ e ∈ collidingLevels, ∀ m ∈ e.entries, m.value.width = e.width := by decide
  have hc : ({} : Config).validate = .ok () := rfl
  have hbases : ∀ e ∈ collidingLevels, ∃ base, discriminator e.name = .ok base :=
    fun e he => ⟨_, (names_collidingLevels e he).1⟩
  obtain ⟨ds, hds⟩ := assign_of_enums hbases
  obtain ⟨a, ha⟩ := build_of_nameable hc hds .nameLookup fun e he => (names_collidingLevels e he).2
  obtain ⟨r, as, hr, has, h⟩ :=
    answers_as_registry hnames hbases hwidths hc rfl
  cases hr
  rw [generate_of_valid hnames hc] at has
  cases has
  obtain ⟨⟨file, hread, hanswers⟩, _⟩ :=
    h a .nameLookup (List.mem_map.mpr ⟨_, by decide, ha⟩) (kind_of_build ha)
  refine ⟨a, file, ha, hread, ?_, ?_, ?_⟩
  · obtain ⟨v, hrun, hv⟩ := hanswers "app.Level" 2 (by decide)
    exact hrun.trans (hv.symm.trans rfl)
  · obtain ⟨v, hrun, hv⟩ := hanswers "app/Level" (-1) (by decide)
    exact hrun.trans (hv.symm.trans rfl)
  · obtain ⟨v, hrun, hv⟩ := hanswers "Level" 2 (by decide)
    exact hrun.trans (hv.symm.trans rfl)

end Artifact

end EnumLookup
