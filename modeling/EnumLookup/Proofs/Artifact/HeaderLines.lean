import EnumLookup.Proofs.Artifact.Consistent

/-!
# The documentation at the head of an artifact

In the plain layout the documentation of a file stands between the notice and the first empty line.
The names of the enums are written into it as they are. A lookup file is only built for names without
line feeds, but the support file is built for any names that leave it readable, and then a name with
a line feed can go on with items of its own.
-/

namespace EnumLookup

open Source Generation Discriminator Artifact

/-! ## Lines -/

theorem not_mem_of_mem_splitOn {α : Type} [DecidableEq α] {x : α} {xs : List α} :
    ∀ ys ∈ xs.splitOn x, x ∉ ys := by
  induction xs with
  | nil => simp
  | cons y xs ih =>
      rw [List.splitOn_cons_eq_if_modifyHead]
      split
      · rw [List.forall_mem_cons]
        exact ⟨by simp, ih⟩
      · rename_i hy
        obtain ⟨ys, rest, hsplit⟩ := List.exists_cons_of_ne_nil (List.splitOn_ne_nil x xs)
        rw [hsplit, List.forall_mem_cons] at ih
        rw [hsplit, List.modifyHead_cons, List.forall_mem_cons]
        refine ⟨?_, ih.2⟩
        rw [List.mem_cons, not_or]
        exact ⟨fun he => hy (by simp [he]), ih.1⟩

/-- The lines in front of the first empty one are what was written there, if no line is broken. -/
theorem takeWhile_splitOn {ls : List (List Char)} (h : ∀ l ∈ ls, '\n' ∉ l ∧ l ≠ [])
    (rest : List Char) :
    ((ls.flatMap (· ++ ['\n']) ++ '\n' :: rest).splitOn '\n').takeWhile (!·.isEmpty) = ls := by
  induction ls with
  | nil =>
      rw [List.flatMap_nil, List.nil_append, List.splitOn_cons_eq_if_modifyHead]
      rfl
  | cons l ls ih =>
      rw [List.forall_mem_cons] at h
      have hl : l.isEmpty = false := List.isEmpty_eq_false_iff.mpr h.1.2
      rw [List.flatMap_cons, List.append_assoc, List.append_assoc, List.singleton_append,
        List.splitOn_append_cons_self_of_not_mem h.1.1, List.takeWhile_cons, hl, ih h.2]
      rfl

namespace Source

open Layout (Block)

theorem render_docs (indent : String) (ds : List String) :
    (Block.renderAll indent 0 (Listing.docBlocks ds)).toList =
      (ds.map fun d => ("//!" ++ d).toList).flatMap (· ++ ['\n']) := by
  induction ds with
  | nil => rfl
  | cons d ds ih =>
      have hne : ("//!" ++ d).isEmpty = false := by simp
      rw [Listing.docBlocks, List.map_cons, Block.renderAll, Block.render, Layout.renderLine, hne,
        String.toList_append, List.map_cons, List.flatMap_cons, ← ih]
      simp [Layout.indentation, Listing.docBlocks]

/-- The text of a listing is its documentation, an empty line, and what follows. -/
theorem Listing.text_docs (indent : String) {l : Listing} (h : l.paragraphs ≠ []) :
    ∃ rest, (l.text indent).toList =
      (l.docs.map fun d => ("//!" ++ d).toList).flatMap (· ++ ['\n']) ++ '\n' :: rest := by
  obtain ⟨items, paragraphs, hp⟩ := List.exists_cons_of_ne_nil h
  have hblank : (Block.render indent 0 .blank).toList = ['\n'] := by
    simp [Block.blank, Block.render, Layout.renderLine]
  rw [text, Layout.write_eq, blocks, Block.renderAll_append, String.toList_append, render_docs, hp,
    List.flatMap_cons, List.cons_append, Block.renderAll, String.toList_append, hblank]
  exact ⟨_, rfl⟩

end Source

namespace Artifact

/-! ## Artifacts -/

/-- The lines of an artifact between the notice and the first empty line behind it. -/
def headerLines (text : String) : List String :=
  (((text.toList.drop notice.length).splitOn '\n').takeWhile (!·.isEmpty)).map String.ofList

variable {enums : List Resolved} {c : Config} {kind : ArtifactKind}

theorem drop_notice (s : String) : (notice ++ s).toList.drop notice.length = s.toList := by
  rw [String.toList_append]
  exact List.drop_left' String.length_toList

theorem headerLines_of_lines {s : String} {ls : List (List Char)} {rest : List Char}
    (h : ∀ l ∈ ls, '\n' ∉ l ∧ l ≠ []) (hs : s.toList = ls.flatMap (· ++ ['\n']) ++ '\n' :: rest) :
    headerLines (notice ++ s) = ls.map String.ofList := by
  rw [headerLines, drop_notice, hs, takeWhile_splitOn h]

theorem not_mem_of_headerLines {text line : String} (h : line ∈ headerLines text) :
    '\n' ∉ line.toList := by
  obtain ⟨cs, hcs, rfl⟩ := List.mem_map.mp h
  rw [String.toList_ofList]
  exact not_mem_of_mem_splitOn cs ((List.takeWhile_prefix _).subset hcs)

/-- The head of a text is the documentation, line by line, exactly if that has no line feeds. -/
theorem headerLines_text (indent : String) {l : Listing} (h : l.paragraphs ≠ []) :
    headerLines (notice ++ l.text indent) = l.docs.map ("//!" ++ ·) ↔
      ∀ d ∈ l.docs, '\n' ∉ d.toList := by
  constructor
  · intro he d hd hmem
    have hline : "//!" ++ d ∈ headerLines (notice ++ l.text indent) := by
      rw [he]
      exact List.mem_map_of_mem hd
    exact not_mem_of_headerLines hline (by simp [hmem])
  · intro hdocs
    obtain ⟨rest, hrest⟩ := l.text_docs indent h
    rw [headerLines_of_lines (fun cs hcs => ?_) hrest, List.map_map]
    · exact List.map_congr_left fun d _ => String.ofList_toList
    · obtain ⟨d, hd, rfl⟩ := List.mem_map.mp hcs
      simp [hdocs d hd]

theorem paragraphs_of_listing {l : Listing} (h : listing kind enums c = .ok l) :
    l.paragraphs ≠ [] := by
  cases kind with
  | support =>
      cases h
      simp [support]
  | operation o =>
      obtain ⟨ds, _, h⟩ := Outcome.bind_ok.mp h
      cases h
      simp [lookupListing]

/-- Which names break the documentation of an artifact: none in a lookup file, for it has no
discriminator for such a name. -/
theorem docs_unbroken_iff (hc : c.validate = .ok ()) {l : Listing}
    (h : listing kind enums c = .ok l) :
    (∀ d ∈ l.docs, '\n' ∉ d.toList) ↔ (kind = .support → ∀ e ∈ enums, '\n' ∉ e.name.toList) := by
  cases kind with
  | support =>
      cases h
      rw [support, header_unbroken_iff (isLine_supportTitle (Config.validate_ok hc).2.1)]
      simp
  | operation o =>
      obtain ⟨ds, hds, h⟩ := Outcome.bind_ok.mp h
      cases h
      have hnames : ∀ e ∈ (enums.zip ds).map Prod.fst, '\n' ∉ e.name.toList := by
        rw [map_fst_assigned hds]
        exact fun e he => (line_of_assigned hds e he).1
      rw [lookupListing, header_unbroken_iff (isLine_title o)]
      constructor
      · intro _ hkind
        cases hkind
      · exact fun _ => hnames

end Artifact

/-- In the plain layout the lines between the notice of an artifact and the first empty line are its
documentation, one line for each, exactly if the artifact is a lookup file or no enum has a name with
a line feed. Then each of them is a documentation comment. -/
theorem header_of_generate {enums : List Resolved} {c : Config} {os : List (Except Fault Artifact)}
    (h : generate enums c = .ok os) (hplain : c.pretty = false) {a : Artifact} (ha : .ok a ∈ os) :
    ∃ l, listing a.kind enums c = .ok l ∧
      (headerLines a.text = l.docs.map ("//!" ++ ·) ↔
        (a.kind = .support → ∀ e ∈ enums, '\n' ∉ e.name.toList)) ∧
      ((a.kind = .support → ∀ e ∈ enums, '\n' ∉ e.name.toList) →
        ∀ line ∈ headerLines a.text, ∃ d, line = "//!" ++ d) := by
  obtain ⟨hc, _, rfl⟩ := generate_ok h
  obtain ⟨l, file, hl, _, htext⟩ := build_ok.mp (build_of_mem ha rfl)
  have hlines : a.text = notice ++ l.text c.indent := by
    rw [htext, hplain]
    rfl
  have hiff := headerLines_text c.indent (paragraphs_of_listing hl)
  rw [docs_unbroken_iff hc hl, ← hlines] at hiff
  refine ⟨l, hl, hiff, fun hnames line hline => ?_⟩
  rw [hiff.mpr hnames] at hline
  obtain ⟨d, _, rfl⟩ := List.mem_map.mp hline
  exact ⟨d, rfl⟩

set_option maxRecDepth 4000 in
theorem header_of_collidingLevels : ∃ os a, generate collidingLevels {} = .ok os ∧ .ok a ∈ os ∧
    a.kind = .support ∧ ∀ line ∈ headerLines a.text, ∃ d, line = "//!" ++ d := by
  have hnames : (collidingLevels.map Resolved.name).Nodup := by decide
  have hos := generate_of_valid (c := {}) hnames rfl
  obtain ⟨a, ha⟩ := build_support (c := {}) rfl fun e he => ⟨_, (names_collidingLevels e he).1⟩
  have hmem : .ok a ∈ (artifactKinds {}).map (build collidingLevels {}) :=
    List.mem_map.mpr ⟨.support, by decide, ha⟩
  obtain ⟨_, _, _, hlines⟩ := header_of_generate hos rfl hmem
  exact ⟨_, a, hos, hmem, kind_of_build ha, hlines fun _ => by decide⟩

/-! ## Names that go on with an item -/

namespace Generation

open Layout (Block)

/-- An enum whose name ends its line of documentation and goes on with an item. -/
def injecting (indent : String) (i : Item) : Resolved :=
  ⟨"A\n" ++ Block.renderAll indent 0 i.blocks ++ "// ", .u8, []⟩

/-- The documentation of the support file in front of the lines of the enums. -/
def leadingDocs (c : Config) : List String :=
  [" Lookup helpers for enums marked with \x60#[" ++ c.marker ++ "]\x60.", "",
    " Covered enums, in dispatch order:", ""]

theorem oneLine_leadingDocs {c : Config} (hmarker : IsLine c.marker) :
    ∀ d ∈ leadingDocs c, OneLine d.toList := by
  intro d hd
  simp only [leadingDocs, List.mem_cons, List.not_mem_nil, or_false] at hd
  rcases hd with rfl | rfl | rfl | rfl
  · exact (hmarker.before (by decide)).then (by decide)
  · decide
  · exact isLine_literal (by decide)
  · decide

variable {m : Marks} {indent : String} {c : Config} {i i' : Item}

theorem injected_lexes (h : IsIndent indent) (hi : i.ReadsAs m i') :
    ∃ ts, LineLexes m ("//!" ++ docLine (coverageLine (injecting indent i)))
      (.doc true " - \x60A" :: ts) ∧ i'.Spells ts := by
  obtain ⟨ts, hts, hspells⟩ := item_blocks h hi
  obtain ⟨tail, htail, heq⟩ := docLine_coverageLine (injecting indent i)
  refine ⟨ts, ?_, hspells⟩
  have hdoc : Phrase m Anything "//! - \x60A\n" [.doc true " - \x60A"] :=
    Lexes.innerDoc (d := " - \x60A") (by decide)
  have hremark : Phrase m Anything ("// " ++ tail ++ "\n") [] := by
    have hline := Lexes.remark (m := m) htail
    simpa [Phrase, String.toList_append] using hline
  have htext : "//!" ++ docLine (coverageLine (injecting indent i)) ++ "\n" =
      "//! - \x60A\n" ++ (Block.renderAll indent 0 i.blocks ++ ("// " ++ tail ++ "\n")) := by
    rw [heq, injecting, ← String.toList_inj]
    simp [String.toList_append]
  rw [LineLexes, htext]
  simpa using hdoc.join ((hts 0).join hremark)

/-- The text of the support file spells the item in front of those that belong there. -/
theorem support_spelt_of_injecting (h : IsIndent indent) (hmarker : IsLine c.marker)
    (hi : i.ReadsAs m i') : Spelt m Anything File.Spells ((support [injecting indent i] c).text indent)
      ⟨leadingDocs c ++ [" - \x60A"], i' :: (support [injecting indent i] c).file.items⟩ := by
  have hdocs : (support [injecting indent i] c).docs =
      leadingDocs c ++ [docLine (coverageLine (injecting indent i))] := rfl
  obtain ⟨ts, hts, hspells⟩ := injected_lexes h hi
  obtain ⟨us, hus, hrest⟩ := paragraphs_blocks h (supportItems_read (m := m) [injecting indent i] c)
  have hhead := (docs_blocks h (m := m) (oneLine_leadingDocs hmarker)).append (BlocksLex.line h hts)
  refine ⟨_, ?_, .mk (.cons hspells hrest)⟩
  rw [Listing.text, Layout.write_eq, Listing.blocks, hdocs]
  simpa [Listing.docBlocks] using (hhead.append hus) 0

end Generation

namespace Artifact

variable {c : Config} {i i' : Item}

/-- Whatever item can be written can be put into the support file by the name of an enum. -/
theorem build_of_injecting (hc : c.validate = .ok ()) (hplain : c.pretty = false)
    (hi : i.ReadsAs .dropped i') : ∃ a, build [injecting c.indent i] c .support = .ok a ∧
      a.text = notice ++ (support [injecting c.indent i] c).text c.indent ∧
      File.read? a.text =
        some ⟨leadingDocs c ++ [" - \x60A"], i' :: (support [injecting c.indent i] c).file.items⟩ := by
  obtain ⟨hindent, hmarker, _⟩ := Config.validate_ok hc
  have hspelt := support_spelt_of_injecting hindent hmarker hi
  refine ⟨_, build_ok.mpr ⟨_, _, rfl, hspelt.readAs trivial, rfl⟩, ?_, ?_⟩
  · rw [hplain]
    rfl
  · rw [hplain]
    exact (noticed hspelt).readAs trivial

/-- A module that no operation has. -/
def foreignModule : Item := { isPublic := true, kind := .module "injected" }

/-- An enum whose name declares a module. -/
def breakingName : Resolved := ⟨"A\npub mod injected;\n// ", .u8, []⟩

theorem breakingName_eq :
    injecting (({} : Config).only [.nameLookup]).indent foreignModule = breakingName := rfl

set_option maxRecDepth 4000 in
theorem headerLines_breakingName (c : Config) (hmarker : c.marker = ({} : Config).marker) :
    "pub mod injected;" ∈
      headerLines (notice ++ (support [breakingName] c).text c.indent) := by
  obtain ⟨rest, hrest⟩ := (support [breakingName] c).text_docs c.indent (by simp [support])
  have hlines : ((support [breakingName] c).docs.map fun d => ("//!" ++ d).toList).flatMap
      (· ++ ['\n']) = (((leadingDocs {}).map fun d => ("//!" ++ d).toList) ++
        ["//! - \x60A".toList, "pub mod injected;".toList,
          "// \x60 (\x60u8\x60, 0 members)".toList]).flatMap (· ++ ['\n']) := by
    rw [support, hmarker]
    rfl
  rw [hlines] at hrest
  rw [headerLines_of_lines (by decide) hrest]
  decide

/-- A name may put a line of its own between those of the documentation, and a module of its own into
the file. -/
theorem module_injected : ∃ os a file,
    generate [breakingName] (({} : Config).only [.nameLookup]) = .ok os ∧ .ok a ∈ os ∧
      a.kind = .support ∧ (∃ line ∈ headerLines a.text, ∀ d, line ≠ "//!" ++ d) ∧
      File.read? a.text = some file ∧ "injected" ∈ file.publicModules := by
  have hvalid : (({} : Config).only [.nameLookup]).validate = .ok () := rfl
  have hnames : ([breakingName].map Resolved.name).Nodup := by decide
  have hos := generate_of_valid hnames hvalid
  have hitem : foreignModule.ReadsAs .dropped foreignModule :=
    .mk (by simp) (.module (by decide))
  obtain ⟨a, ha, htext, hread⟩ := build_of_injecting hvalid rfl hitem
  rw [breakingName_eq] at ha htext hread
  refine ⟨_, a, _, hos, List.mem_map.mpr ⟨.support, by decide, ha⟩, kind_of_build ha, ?_,
    hread, ?_⟩
  · refine ⟨"pub mod injected;", ?_, fun d hd => ?_⟩
    · rw [htext]
      exact headerLines_breakingName _ rfl
    · rw [← String.toList_inj, String.toList_append] at hd
      cases hd
  · simp [File.publicModules, File.publicKinds, foreignModule]

end Artifact

end EnumLookup
