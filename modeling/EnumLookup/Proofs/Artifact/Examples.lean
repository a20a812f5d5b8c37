import EnumLookup.Proofs.Artifact.HeaderLines
import EnumLookup.Proofs.Registry
import EnumLookup.Proofs.Source.Assertion

/-!
# Examples hold

The header of a lookup file has one example if an enum has a member, and none otherwise. What the
example asserts of the first member, read back from its text, is what the registry of the enums
answers.
-/

namespace EnumLookup

open Source Generation Discriminator Artifact Outcome

/-! ## First members -/

namespace Resolved

variable {e : Resolved} {m : Entry}

theorem nameOf?_head (h : e.entries.head? = some m) : e.nameOf? m.value.value = some m.name := by
  obtain ⟨rest, hrest⟩ := List.head?_eq_some_iff.mp h
  simp [nameOf?, hrest]

theorem valueOf?_head (h : e.entries.head? = some m) : e.valueOf? m.name = some m.value := by
  obtain ⟨rest, hrest⟩ := List.head?_eq_some_iff.mp h
  simp [valueOf?, hrest]

end Resolved

namespace Generation

open Term

variable {enums : List Resolved} {e : Resolved} {m : Entry}

theorem sample?_eq_none : sample? enums = none ↔ ∀ e ∈ enums, e.entries = [] := by
  simp [sample?]

theorem sample?_eq_some (h : sample? enums = some (e, m)) :
    e ∈ enums ∧ e.entries.head? = some m := by
  obtain ⟨e', he', hm⟩ := List.exists_of_findSome?_eq_some h
  obtain ⟨m', hm', heq⟩ := Option.map_eq_some_iff.mp hm
  cases heq
  exact ⟨he', hm'⟩

/-! ## What an example asserts -/

/-- The assertion of an operation's example about a member. -/
def exampleOf (o : Operation) (e : Resolved) (m : Entry) : Assertion :=
  match o with
  | .nameLookup => ⟨call o.dispatcher [.text e.name, .number m.value.value none], none,
      call "Some" [.text ((e.nameOf? m.value.value).getD m.name)]⟩
  | .valueTable => ⟨call o.dispatcher [.text e.name], some 0, pair m (.number m.value.value none)⟩
  | .tryParse => ⟨call o.dispatcher [.text e.name, .text m.name], none,
      call "Some" [.number ((e.valueOf? m.name).getD m.value).value none]⟩

theorem spell_call (f : String) (args : List Expr) :
    (call f args).spell = f ++ "(" ++ ", ".intercalate (Expr.spellEach args) ++ ")" := by
  rw [call, Expr.spell, var, Expr.spell, spellPath, String.intercalate_singleton]

theorem spell_pair (m : Entry) (value : Expr) :
    (pair m value).spell = "(" ++ Text.quote m.name ++ ", " ++ value.spell ++ ")" := by
  simp [pair, Expr.spell, Expr.spellEach, String.append_assoc]

theorem spellNumber_value (c : Constant) : spellNumber c.value none = c.text := by
  simp [spellNumber, Constant.text]

theorem spell_exampleOf (o : Operation) (e : Resolved) (m : Entry) :
    (exampleOf o e m).spell = assertion o e m := by
  delta exampleOf assertion
  cases o
  all_goals
    simp only [Assertion.spell, Assertion.spellIndex, spell_call, spell_pair, spellNumber_value,
      Expr.spell, Expr.spellEach, Operation.dispatcher, String.intercalate_cons_cons,
      String.intercalate_singleton, Option.map_none, Option.map_some, Option.getD_none,
      Option.getD_some]
    rw [← String.toList_inj]
    simp only [String.toList_append, List.append_assoc]
    rfl

theorem read?_exampleOf (o : Operation) (e : Resolved) (m : Entry) :
    Assertion.read? (exampleOf o e m).spell = some (exampleOf o e m) := by
  have hnumber : ∀ v, Expr.ReadsAs .dropped .full (.number v none) (.number v none) :=
    fun v => .ofOperand .number
  cases o with
  | nameLookup =>
      refine Assertion.read?_spell (by decide) ?_ (ofChain (call_reads (by decide) (ofChain .text)))
      simp [Expr.IsLiteral.text, Expr.IsLiteral.number]
  | valueTable =>
      refine Assertion.read?_spell (by decide) ?_ (pair_reads _ (hnumber _))
      simp [Expr.IsLiteral.text]
  | tryParse =>
      refine Assertion.read?_spell (by decide) ?_ (ofChain (call_reads (by decide) (hnumber _)))
      simp [Expr.IsLiteral.text]

/-! ## What its expressions mean -/

theorem constant?_text (s : String) : (Expr.text s).constant? = some (.text s) := by
  rw [Expr.constant?, Expr.eval?]

theorem constant?_value (c : Constant) :
    (Expr.number c.value none).constant? = some (.integer none c.value) := by
  have hfits : Value.Fits none c.value := isWide_of_holds c.fits
  rw [Expr.constant?, Expr.eval?, if_pos hfits]

theorem constant?_some {x : Expr} {v : Value} (h : x.constant? = some v) :
    (call "Some" [x]).constant? = some (.some v) := by
  rw [Expr.constant?] at h
  simp only [Expr.constant?, call, var, Expr.eval?, Expr.evalEach?, h]
  rfl

theorem constant?_pair {x : Expr} {v : Value} (h : x.constant? = some v) :
    (pair m x).constant? = some (.tuple [.text m.name, v]) := by
  rw [Expr.constant?] at h
  simp only [Expr.constant?, pair, Expr.eval?, Expr.evalEach?, h]
  rfl

/-- The example about the first member of a registered enum holds, unless the member's name is
blank. -/
theorem exampleOf_holds {r : Registry} (hfind : r.find e.name = .ok e)
    (hm : e.entries.head? = some m) (hblank : Text.isBlank m.name = false) (o : Operation) :
    (exampleOf o e m).Holds o.dispatcher (registryAnswer? r o) := by
  cases o with
  | nameLookup =>
      have hargs : [Expr.text e.name, .number m.value.value none].mapM Expr.constant? =
          some [.text e.name, .integer none m.value.value] := by
        simp [constant?_text, constant?_value]
      have hanswer : registryAnswer? r .nameLookup [.text e.name, .integer none m.value.value] =
          some (.ok (.some (.text m.name))) := by
        rw [registryAnswer?, Registry.nameOf_of_find hfind, Resolved.nameOf?_head hm]
        rfl
      have hshown : (e.nameOf? m.value.value).getD m.name = m.name := by
        rw [Resolved.nameOf?_head hm]
        rfl
      rw [exampleOf, hshown]
      exact .mk hargs hanswer rfl (constant?_some (constant?_text _))
  | valueTable =>
      obtain ⟨rest, hrest⟩ := List.head?_eq_some_iff.mp hm
      have hargs : [Expr.text e.name].mapM Expr.constant? = some [.text e.name] := by
        simp [constant?_text]
      have hanswer : registryAnswer? r .valueTable [.text e.name] =
          some (.ok (tableValue none e.table)) := by
        rw [registryAnswer?, Registry.valuesOf_of_find hfind]
        rfl
      have hitem : (tableValue none e.table).item? (some 0) =
          some (.tuple [.text m.name, .integer none m.value.value]) := by
        simp [Value.item?, tableValue, Resolved.table, hrest]
      exact .mk hargs hanswer hitem (constant?_pair (constant?_value _))
  | tryParse =>
      have hargs : [Expr.text e.name, .text m.name].mapM Expr.constant? =
          some [.text e.name, .text m.name] := by
        simp [constant?_text]
      have hanswer : registryAnswer? r .tryParse [.text e.name, .text m.name] =
          some (.ok (.some (.integer none m.value.value))) := by
        rw [registryAnswer?, Registry.tryParse_of_find hfind hblank, Resolved.valueOf?_head hm]
        rfl
      have hshown : (e.valueOf? m.name).getD m.value = m.value := by
        rw [Resolved.valueOf?_head hm]
        rfl
      rw [exampleOf, hshown]
      exact .mk hargs hanswer rfl (constant?_some (constant?_value _))

/-! ## Where an example stands -/

theorem docLine_assertion (o : Operation) (e : Resolved) (m : Entry) :
    docLine (assertion o e m) = " " ++ (exampleOf o e m).spell := by
  have hne : (exampleOf o e m).spell.isEmpty = false := by simp [Assertion.spell]
  rw [← spell_exampleOf, docLine, hne]
  rfl

theorem isStart_title (o : Operation) : Assertion.isStart (" " ++ title o) = false := by
  cases o <;> decide

theorem isStart_coverage {line : String} (h : line ∈ coverage enums) :
    Assertion.isStart (docLine line) = false := by
  unfold coverage at h
  split at h
  · rw [List.mem_singleton.mp h]
    decide
  · simp only [List.mem_append, List.mem_cons, List.not_mem_nil, or_false, List.mem_map] at h
    rcases h with (rfl | rfl) | ⟨e, _, rfl⟩
    · decide
    · decide
    · obtain ⟨tail, _, heq⟩ := docLine_coverageLine e
      rw [heq, Assertion.isStart]
      simp only [String.toList_append, List.append_assoc]
      rfl

/-- The example is the only line of a header that starts like an assertion. -/
theorem filter_header (o : Operation) (enums : List Resolved) :
    (header (title o) enums (some o)).filter Assertion.isStart =
      ((sample? enums).map fun p => " " ++ (exampleOf o p.1 p.2).spell).toList := by
  have hcoverage : ((coverage enums).map docLine).filter Assertion.isStart = [] := by
    rw [List.filter_eq_nil_iff]
    intro d hd
    obtain ⟨line, hline, rfl⟩ := List.mem_map.mp hd
    simp [isStart_coverage hline]
  have hempty : Assertion.isStart "" = false := by decide
  have hhead : Assertion.isStart (docLine "## Example") = false := by decide
  have hopen : Assertion.isStart (docLine "\x60\x60\x60ignore") = false := by decide
  have hclose : Assertion.isStart (docLine "\x60\x60\x60") = false := by decide
  have hblank : docLine "" = "" := rfl
  rw [header, List.filter_append, List.map_append, List.filter_append, hcoverage]
  cases hsample : sample? enums with
  | none => simp [exampleLines, hsample, isStart_title, hempty]
  | some p =>
      simp [exampleLines, hsample, isStart_title, hempty, hhead, hopen, hclose, hblank,
        Assertion.isStart_spell, docLine_assertion]

/-- The header of a lookup file stands on its lines. -/
theorem headerLines_lookup {o : Operation} {l : Listing} (hl : lookup o enums = .ok l)
    (ha : ∀ e ∈ enums, ∃ base, discriminator e.name = .ok base) (indent : String) :
    headerLines (notice ++ l.text indent) = l.docs.map ("//!" ++ ·) := by
  obtain ⟨ds, hds, h⟩ := bind_ok.mp hl
  cases h
  refine (headerLines_text indent (by simp [lookupListing])).mpr fun d hd => ?_
  rw [lookupListing, map_fst_assigned hds] at hd
  exact (isLine_header (isLine_title o) (fun e he => isLine_of_accepted (ha e he)) d hd).1

end Generation

namespace Artifact

/-- A lookup file that is built has the header of its listing. -/
theorem docs_of_build {enums : List Resolved} {c : Config} {o : Operation} {l : Listing}
    (hc : c.validate = .ok ()) (hl : Generation.lookup o enums = .ok l) {a : Artifact}
    (h : build enums c (.operation o) = .ok a) :
    ∃ file, File.read? a.text = some file ∧ file.docs = l.docs := by
  obtain ⟨ds, hds, hlisting⟩ := bind_ok.mp hl
  cases hlisting
  refine ⟨_, read_text hc hds h, ?_⟩
  show header _ (((enums.zip ds).map (asRead .dropped)).map Prod.fst) _ = header _ _ _
  rw [names_asRead hds, map_fst_assigned hds]

end Artifact

/-- The examples of lookup files are true. For enums with distinct names that yield discriminators
and with members that have names, the lookup file of every operation has a header, the same in each
artifact that is built. If an enum has a member, exactly one line of it starts like an assertion. It
is read as one that holds of the registry of the enums: the call of the operation answers what is
shown. If no enum has a member, there is no such line. -/
theorem examples_hold {enums : List Resolved} (hnames : (enums.map Resolved.name).Nodup)
    (haccepted : ∀ e ∈ enums, ∃ base, discriminator e.name = .ok base)
    (hmembers : ∀ e ∈ enums, ∀ m ∈ e.entries, Text.isBlank m.name = false) (o : Operation) :
    ∃ r l, Registry.ofResolved enums = .ok r ∧ Generation.lookup o enums = .ok l ∧
      (∀ indent, headerLines (notice ++ l.text indent) = l.docs.map ("//!" ++ ·)) ∧
      (∀ c os a, generate enums c = .ok os → .ok a ∈ os → a.kind = .operation o →
        ∃ file, File.read? a.text = some file ∧ file.docs = l.docs) ∧
      ((∃ e ∈ enums, e.entries ≠ []) → ∃ line assertion,
        l.docs.filter Assertion.isStart = [line] ∧ Assertion.read? line = some assertion ∧
          assertion.Holds o.dispatcher (registryAnswer? r o)) ∧
      ((∀ e ∈ enums, e.entries = []) → l.docs.filter Assertion.isStart = []) := by
  obtain ⟨ds, hds⟩ := assign_of_enums haccepted
  have hl : Generation.lookup o enums = .ok (lookupListing o (enums.zip ds)) :=
    listing_operation (c := {}) hds o
  have hdocs : (lookupListing o (enums.zip ds)).docs.filter Assertion.isStart =
      ((sample? enums).map fun p => " " ++ (exampleOf o p.1 p.2).spell).toList := by
    rw [lookupListing, map_fst_assigned hds, filter_header]
  refine ⟨⟨enums⟩, _, Registry.ofResolved_of_nodup hnames, hl, headerLines_lookup hl haccepted,
    ?_, ?_, ?_⟩
  · intro c os a hos ha hkind
    obtain ⟨hc, _, rfl⟩ := generate_ok hos
    exact docs_of_build hc hl (build_of_mem ha hkind)
  · rintro ⟨e, he, hentries⟩
    cases hsample : sample? enums with
    | none => exact absurd (sample?_eq_none.mp hsample e he) hentries
    | some p =>
        obtain ⟨he, hm⟩ := sample?_eq_some hsample
        have hfind := Registry.find_of_mem (r := ⟨enums⟩) hnames he
        have hblank := hmembers _ he _ (List.mem_of_head? hm)
        refine ⟨_, exampleOf o p.1 p.2, by rw [hdocs, hsample]; rfl, ?_,
          exampleOf_holds hfind hm hblank o⟩
        rw [Assertion.read?_space, read?_exampleOf]
  · intro hempty
    rw [hdocs, sample?_eq_none.mpr hempty]
    rfl

/-- An enum without members, and one whose first member has a quotation mark in its name, an alias
and a namesake. -/
def quotedLevels : List Resolved := [
  ⟨"app.Empty", .u8, []⟩,
  ⟨"app.Level", .i8, [⟨"Lo\"w", .ofInt .i8 (-1)⟩, ⟨"Last", .ofInt .i8 (-1)⟩,
    ⟨"Lo\"w", .ofInt .i8 2⟩]⟩]

/-- What is written for the example of these enums. -/
def quotedExample : String :=
  " assert_eq!(try_parse_enum(\"app.Level\", \"Lo\\\"w\")?, Some(-1));"

set_option maxRecDepth 4000 in
theorem example_of_quotedLevels : ∃ l assertion, Generation.lookup .tryParse quotedLevels = .ok l ∧
    l.docs.filter Assertion.isStart = [quotedExample] ∧
    Assertion.read? quotedExample = some assertion ∧
    assertion.Holds "try_parse_enum" (registryAnswer? ⟨quotedLevels⟩ .tryParse) := by
  have hnames : (quotedLevels.map Resolved.name).Nodup := by decide
  have hbases : ∀ e ∈ quotedLevels, ∃ base, discriminator e.name = .ok base := by
    simp only [quotedLevels, List.forall_mem_cons]
    exact ⟨⟨_, rfl⟩, ⟨_, rfl⟩, nofun⟩
  obtain ⟨r, l, hr, hl, _, _, hexample, _⟩ :=
    examples_hold hnames hbases (by decide) .tryParse
  obtain ⟨line, assertion, hfilter, hread, hholds⟩ := hexample ⟨_, .tail _ (.head _), nofun⟩
  cases hr
  have hlisting : Generation.lookup .tryParse quotedLevels =
      .ok (lookupListing .tryParse (quotedLevels.zip ["app_Empty", "app_Level"])) := rfl
  have hwritten : (lookupListing .tryParse (quotedLevels.zip ["app_Empty", "app_Level"])).docs.filter
      Assertion.isStart = [quotedExample] := rfl
  cases hl.symm.trans hlisting
  obtain rfl : line = quotedExample := List.singleton_injective (hfilter.symm.trans hwritten)
  exact ⟨_, assertion, hl, hfilter, hread, hholds⟩

end EnumLookup
