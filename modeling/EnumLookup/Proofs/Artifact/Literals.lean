import EnumLookup.Proofs.Artifact.Consistent
import EnumLookup.Proofs.Generation.Literals

/-!
# Emitted string literals

Every string literal of an artifact is written by `quote`. What `quote` writes is one literal on one
line that denotes the quoted text and no other, so what is read back from an artifact, in either
layout, has the names of the enums and members that the artifact was made for.
-/

namespace EnumLookup

open Source Generation Discriminator Outcome Text.Quoted

namespace Artifact

/-- The texts of the string literals in an artifact. -/
def literals (kind : ArtifactKind) (enums : List Resolved) (c : Config) : List String :=
  match kind with
  | .operation o => lookupTexts o enums
  | .support => supportTexts enums c

variable {kind : ArtifactKind} {enums : List Resolved} {c : Config}

theorem listing_texts {l : Listing} (h : listing kind enums c = .ok l) :
    l.file.texts = literals kind enums c := by
  cases kind with
  | operation o =>
      obtain ⟨ds, hds, hl⟩ := bind_ok.mp h
      cases hl
      rw [lookup_texts, map_fst_assigned hds]
      rfl
  | support =>
      cases h
      exact support_texts enums c

theorem codeFile_texts {ds : List String} (hds : assign (enums.map Resolved.name) = .ok ds) :
    (codeFile enums c ds kind).texts = literals kind enums c := by
  cases kind with
  | operation o =>
      rw [codeFile, lookup_texts, names_asRead hds]
      rfl
  | support => exact support_texts enums c

/-- The string literals of an artifact of a run are read back as the texts that they were written
for. -/
theorem texts_of_generateAll {as : List Artifact} (h : generateAll enums c = .ok as) {a : Artifact}
    (ha : a ∈ as) :
    ∃ file, File.read? a.text = some file ∧ file.texts = literals a.kind enums c := by
  obtain ⟨ds, hds⟩ := assign_of_generateAll h
  have hread := read_text (generateAll_ok h).1 hds (build_of_generateAll h ha)
  exact ⟨_, hread, codeFile_texts hds⟩

end Artifact

theorem tokens?_quote (s : String) : tokens? (Text.quote s).toList = some [.text s] := by
  have htokens := Lexes.text (m := .dropped) s [] nofun
  rwa [List.append_nil, tokensAs?_nil, Option.map_some, List.append_nil] at htokens

/-- Whichever characters stand for themselves, a quoted text is one literal that denotes the text;
`quote` writes by their code points the characters that do not print and have no shorter escape.
What `quote` writes has no character at which a line ends, is read as one token, and differs for
different texts. The string literals of an artifact are the tags, the members' names, the hint and a
few fixed texts: the plain layout holds the quotation of each, and what is read back from either
layout has them all. -/
theorem literals_decode :
    (∀ prints cs, IsLiteralOf (quotedWith prints cs) cs) ∧
    (∀ c, Text.escape c = codePointEscape c ↔
      shortEscape? c = none ∧ Text.isPrintable c = false) ∧
    (∀ s : String, IsLiteralOf (Text.quote s).toList s.toList ∧
      (∀ c ∈ (Text.quote s).toList, c ∉ lineBreaks) ∧
      tokens? (Text.quote s).toList = some [.text s]) ∧
    Function.Injective Text.quote ∧
    (∀ kind enums c l, Artifact.listing kind enums c = .ok l →
      l.file.texts = Artifact.literals kind enums c ∧
      ∀ indent, Quotes (l.text indent) l.file.texts) ∧
    ∀ enums c as, generateAll enums c = .ok as → ∀ a ∈ as,
      ∃ file, File.read? a.text = some file ∧ file.texts = Artifact.literals a.kind enums c := by
  refine ⟨isLiteralOf_quotedWith, ?_, ?_, quote_injective, ?_, ?_⟩
  · intro c
    rw [escape_eq]
    exact escapeWith_eq_codePoint_iff
  · intro s
    exact ⟨isLiteralOf_quote s, fun _ hc => not_mem_lineBreaks_of_quote hc, tokens?_quote s⟩
  · intro kind enums c l hl
    exact ⟨Artifact.listing_texts hl, l.quotes_text⟩
  · intro enums c as h a ha
    exact Artifact.texts_of_generateAll h ha

/-- An enum whose members' names need escapes, one of them because it looks like an escape. -/
def escapedNames : List Resolved := [
  ⟨"quotes.Odd", .i32, [⟨"say \"hi\"", .ofInt .i32 1⟩,
    ⟨"\\u\x7b41\x7d\t\x07\u00e9\u0301😀", .ofInt .i32 2⟩]⟩]

set_option maxRecDepth 4000 in
theorem names_escapedNames : ∀ e ∈ escapedNames,
    discriminator e.name = .ok "quotes_Odd" ∧ IsNameable e.name := by decide

theorem literals_of_escapedNames : ∃ as a file,
    generateAll escapedNames {} = .ok as ∧ a ∈ as ∧ a.kind = .operation .tryParse ∧
    File.read? a.text = some file ∧
    file.texts = ["name", "say \"hi\"", "\\u\x7b41\x7d\t\x07\u00e9\u0301😀", "name",
      "quotes.Odd"] ∧
    Text.quote "\\u\x7b41\x7d\t\x07\u00e9\u0301😀" =
      "\"\\\\u\x7b41\x7d\\t\\u\x7b7\x7d\u00e9\\u\x7b301\x7d😀\"" := by
  have hbases : ∀ e ∈ escapedNames, ∃ base, discriminator e.name = .ok base :=
    fun e he => ⟨_, (names_escapedNames e he).1⟩
  obtain ⟨as, has⟩ := generateAll_of_nameable (c := {}) (by decide) rfl hbases
    fun e he => (names_escapedNames e he).2
  have hkind : .operation .tryParse ∈ artifactKinds {} := by decide
  obtain ⟨a, ha, hk⟩ := artifact_of_generateAll has hkind
  obtain ⟨_, _, _, _, _, hread⟩ := literals_decode
  obtain ⟨file, hfile, htexts⟩ := hread _ _ as has a ha
  rw [hk] at htexts
  exact ⟨as, a, file, has, ha, hk, hfile, htexts, by decide +kernel⟩

end EnumLookup
