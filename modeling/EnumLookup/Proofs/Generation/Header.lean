import EnumLookup.Generation.Header
import EnumLookup.Proofs.Source.Phrase

/-!
# Headers stay on their lines

No line of a header holds a line break, as long as the names of the enums hold no control character:
numerals have none, and quoted texts write them as escapes.
-/

namespace EnumLookup

namespace Source

instance (cs : List Char) : Decidable (OneLine cs) := inferInstanceAs (Decidable (_ ∧ _))

theorem OneLine.append {cs ds : List Char} (hc : OneLine cs) (hd : OneLine ds) :
    OneLine (cs ++ ds) :=
  ⟨by simp [hc.1, hd.1], by simp [hc.2, hd.2]⟩

/-- Characters of one class stay on their line if the ends of lines are not of that class. -/
theorem OneLine.of_class {p : Char → Bool} {b : Bool} (hfeed : p '\n' ≠ b) (hreturn : p '\r' ≠ b)
    {cs : List Char} (h : ∀ c ∈ cs, p c = b) : OneLine cs :=
  ⟨fun hn => hfeed (h _ hn), fun hr => hreturn (h _ hr)⟩

theorem OneLine.of_digits {cs : List Char} (h : ∀ c ∈ cs, c.isDigit = true) : OneLine cs :=
  .of_class (by decide) (by decide) h

end Source

namespace Generation

open Source

/-- The text stays on its line. -/
def IsLine (s : String) : Prop := OneLine s.toList

instance (s : String) : Decidable (IsLine s) := inferInstanceAs (Decidable (OneLine _))

theorem IsLine.append {s t : String} (hs : IsLine s) (ht : IsLine t) : IsLine (s ++ t) := by
  rw [IsLine, String.toList_append]
  exact OneLine.append hs ht

/-- A literal stays on its line if its characters do. -/
theorem isLine_literal {cs : List Char} (h : OneLine cs) : IsLine (String.ofList cs) := by
  rwa [IsLine, String.toList_ofList]

theorem IsLine.before {cs : List Char} {s : String} (hs : IsLine s) (h : OneLine cs) :
    IsLine (String.ofList cs ++ s) := (isLine_literal h).append hs

theorem IsLine.then {cs : List Char} {s : String} (hs : IsLine s) (h : OneLine cs) :
    IsLine (s ++ String.ofList cs) := hs.append (isLine_literal h)

theorem isLine_of_noControl {s : String} (h : ∀ c ∈ s.toList, Text.isControl c = false) :
    IsLine s := .of_class (by decide) (by decide) h

theorem isLine_natText (n : Nat) : IsLine (Text.natText n) := by
  rw [IsLine, Text.natText, String.toList_ofList]
  exact .of_digits fun c hc => Text.isDigit_of_mem_natDigits hc

theorem isLine_constant (c : Constant) : IsLine c.text := by
  rw [IsLine, Constant.text, Text.intText, String.toList_ofList]
  cases c.value with
  | ofNat n => exact .of_digits fun c hc => Text.isDigit_of_mem_natDigits hc
  | negSucc n =>
      exact .append (show OneLine ['-'] by decide)
        (.of_digits fun c hc => Text.isDigit_of_mem_natDigits hc)

theorem isLine_quote (s : String) : IsLine (Text.quote s) :=
  (Text.Quoted.isLiteralOf_quote s).unbroken

theorem isLine_width (w : Width) : IsLine w.text := by cases w <;> decide

variable {enums : List Resolved}

/-- The line of an enum stays on its line but for the name in it. -/
theorem docLine_coverageLine (e : Resolved) :
    ∃ tail, IsLine tail ∧ docLine (coverageLine e) = " - \x60" ++ e.name ++ tail := by
  have hplural : IsLine (if e.entries.length = 1 then "" else "s") := by split <;> decide
  have hwidth : IsLine (e.width.text ++ "\x60, ") := (isLine_width _).then (by decide)
  have hcount : IsLine (Text.natText e.entries.length ++ " member") :=
    (isLine_natText _).then (by decide)
  refine ⟨"\x60 (\x60" ++ ((e.width.text ++ "\x60, ") ++ ((Text.natText e.entries.length ++
    " member") ++ ((if e.entries.length = 1 then "" else "s") ++ ")"))), ?_, ?_⟩
  · exact (hwidth.append (hcount.append (hplural.then (by decide)))).before (by decide)
  · have hne : (coverageLine e).isEmpty = false := by simp [coverageLine]
    rw [docLine, hne, if_neg Bool.false_ne_true, ← String.toList_inj]
    simp [coverageLine]

theorem isLine_assertion (o : Operation) (e : Resolved) (m : Entry) : IsLine (assertion o e m) := by
  have htag := isLine_quote e.name
  have hname := isLine_quote m.name
  cases o with
  | nameLookup =>
      exact (((((htag.before (by decide)).then (by decide)).append (isLine_constant _)).then
        (by decide)).append (isLine_quote _)).then (by decide)
  | valueTable =>
      exact (((((htag.before (by decide)).then (by decide)).append hname).then (by decide)).append
        (isLine_constant _)).then (by decide)
  | tryParse =>
      exact (((((htag.before (by decide)).then (by decide)).append hname).then (by decide)).append
        (isLine_constant _)).then (by decide)

theorem isLine_docLine {line : String} (h : IsLine line) : IsLine (docLine line) := by
  unfold docLine
  split
  · decide
  · exact h.before (by decide)

section Header

variable {title d : String} {o : Option Operation}

theorem mem_header_of_enum {e : Resolved} (he : e ∈ enums) :
    docLine (coverageLine e) ∈ header title enums o := by
  have hne : enums.isEmpty = false := List.isEmpty_eq_false_iff.mpr (List.ne_nil_of_mem he)
  rw [header, coverage, hne]
  simp only [Bool.false_eq_true, if_false, List.map_append, List.mem_append, List.mem_map]
  exact .inr (.inl (.inr ⟨_, ⟨e, he, rfl⟩, rfl⟩))

/-- Only the title and the names of the enums can leave their lines of a header. -/
theorem mem_header (hd : d ∈ header title enums o) :
    d = " " ++ title ∨ IsLine d ∨ ∃ e ∈ enums, d = docLine (coverageLine e) := by
  simp only [header, List.mem_append, List.mem_cons, List.not_mem_nil, or_false, List.mem_map] at hd
  rcases hd with (rfl | rfl) | ⟨line, hline, rfl⟩
  · exact .inl rfl
  · exact .inr (.inl (by decide))
  rcases hline with hline | hline
  · unfold coverage at hline
    split at hline
    · rw [List.mem_singleton.mp hline]
      exact .inr (.inl (isLine_docLine (isLine_literal (by decide))))
    · simp only [List.mem_append, List.mem_cons, List.not_mem_nil, or_false, List.mem_map] at hline
      rcases hline with (rfl | rfl) | ⟨e, he, rfl⟩
      · exact .inr (.inl (isLine_docLine (isLine_literal (by decide))))
      · exact .inr (.inl (isLine_docLine (isLine_literal (by decide))))
      · exact .inr (.inr ⟨e, he, rfl⟩)
  · refine .inr (.inl (isLine_docLine ?_))
    cases o with
    | none => cases hline
    | some o =>
        rw [Option.map_some, Option.getD_some, exampleLines] at hline
        split at hline
        · simp only [List.mem_cons, List.not_mem_nil, or_false] at hline
          rcases hline with rfl | rfl | rfl | rfl | rfl | rfl
          · exact isLine_literal (by decide)
          · exact isLine_literal (by decide)
          · exact isLine_literal (by decide)
          · exact isLine_literal (by decide)
          · exact isLine_assertion ..
          · exact isLine_literal (by decide)
        · cases hline

/-- Every line of a header stays on its line. -/
theorem isLine_header (htitle : IsLine title) (h : ∀ e ∈ enums, IsLine e.name) :
    ∀ d ∈ header title enums o, IsLine d := by
  intro d hd
  rcases mem_header hd with rfl | hline | ⟨e, he, rfl⟩
  · exact htitle.before (by decide)
  · exact hline
  · obtain ⟨tail, htail, heq⟩ := docLine_coverageLine e
    rw [heq]
    exact ((h e he).before (by decide)).append htail

/-- A header is free of line feeds exactly if the names of the enums are. -/
theorem header_unbroken_iff (htitle : IsLine title) :
    (∀ d ∈ header title enums o, '\n' ∉ d.toList) ↔ ∀ e ∈ enums, '\n' ∉ e.name.toList := by
  constructor
  · intro h e he hmem
    obtain ⟨tail, _, heq⟩ := docLine_coverageLine e
    refine h _ (mem_header_of_enum he) ?_
    rw [heq]
    simp [hmem]
  · intro h d hd
    rcases mem_header hd with rfl | hline | ⟨e, he, rfl⟩
    · have hline : IsLine (" " ++ title) := htitle.before (by decide)
      exact hline.1
    · exact hline.1
    · obtain ⟨tail, htail, heq⟩ := docLine_coverageLine e
      rw [heq]
      simp [h e he, htail.1]

end Header

end Generation

end EnumLookup
