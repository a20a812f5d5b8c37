import EnumLookup.Path

/-!
# Paths below other paths

The segments of a path below a directory are those of the directory followed by its own, but for an
empty one where the directory's text is empty or ends with a slash.
-/

namespace EnumLookup.Path

/-! ## Splitting -/

theorem split_ne_nil (cs : List Char) : split cs ≠ [] := by
  cases cs with
  | nil => simp [split]
  | cons c cs =>
      rw [split]
      split
      · simp
      · split <;> simp

theorem split_of_not_mem {cs : List Char} (h : '/' ∉ cs) : split cs = [cs] := by
  induction cs with
  | nil => rfl
  | cons c cs ih =>
      simp only [List.mem_cons, not_or] at h
      rw [split, if_neg (Ne.symm h.1), ih h.2]

theorem split_append (cs ds : List Char) : split (cs ++ '/' :: ds) = split cs ++ split ds := by
  induction cs with
  | nil => simp [split]
  | cons c cs ih =>
      rw [List.cons_append, split, split, ih]
      by_cases hc : c = '/'
      · simp [hc]
      · simp only [hc, if_false]
        obtain ⟨s, ss, hs⟩ := List.exists_cons_of_ne_nil (split_ne_nil cs)
        rw [hs]
        rfl

theorem intercalate_split (cs : List Char) : ['/'].intercalate (split cs) = cs := by
  induction cs with
  | nil => rfl
  | cons c cs ih =>
      rw [split]
      obtain ⟨s, ss, hs⟩ := List.exists_cons_of_ne_nil (split_ne_nil cs)
      rw [hs] at ih ⊢
      by_cases hc : c = '/'
      · rw [if_pos hc, List.intercalate_cons_cons, ih, hc]
        rfl
      · rw [if_neg hc]
        cases ss with
        | nil =>
            rw [List.intercalate_singleton] at ih ⊢
            rw [ih]
        | cons t ss =>
            rw [List.intercalate_cons_cons] at ih ⊢
            rw [List.cons_append, List.cons_append, ih]

theorem ofSegments_segments (p : Path) : ofSegments p.segments = p := by
  rw [ofSegments, segments, intercalate_split, String.ofList_toList]

/-! ## Segments of a path below another -/

/-- The segments of a directory as they stand in a path below it. -/
def leading (p : Path) : List (List Char) :=
  if p.text.isEmpty || p.text.toList.getLast? == some '/' then p.segments.dropLast else p.segments

/-- A directory has one more segment than what leads to a path below it, or as many. -/
theorem segments_eq_leading (p : Path) : p.segments = p.leading ∨ p.segments = p.leading ++ [[]] := by
  rw [leading]
  by_cases hempty : p.text = ""
  · right
    simp [hempty, segments, split]
  by_cases hslash : p.text.toList.getLast? = some '/'
  · right
    obtain ⟨cs, hcs⟩ := List.getLast?_eq_some_iff.mp hslash
    rw [if_pos (by simp [hslash]), segments, hcs, split_append]
    simp [split]
  · left
    simp [hempty, hslash]

theorem segments_join {p q : Path} (h : q.isAbsolute = false) :
    (p.join q).segments = p.leading ++ q.segments := by
  rw [join, if_neg (by simp [h]), leading]
  by_cases hempty : p.text = ""
  · simp [hempty, segments, split]
  by_cases hslash : p.text.toList.getLast? = some '/'
  · obtain ⟨cs, hcs⟩ := List.getLast?_eq_some_iff.mp hslash
    rw [if_pos (by simp [hslash]), if_pos (by simp [hslash])]
    simp only [segments, String.toList_append, hcs, List.append_assoc, List.singleton_append]
    rw [split_append, split_append]
    simp [split]
  · rw [if_neg (by simp [hempty, hslash]), if_neg (by simp [hempty, hslash])]
    simp only [segments, String.toList_append, List.append_assoc]
    exact split_append _ _

theorem isAbsolute_join {p q : Path} (h : q.isAbsolute = false) :
    (p.join q).isAbsolute = p.isAbsolute := by
  rw [join, if_neg (by simp [h])]
  cases hp : p.text.toList with
  | nil =>
      have hempty : p.text = "" := String.toList_eq_nil_iff.mp hp
      have hq : q.text.toList.head? ≠ some '/' := by simpa [isAbsolute] using h
      simp [isAbsolute, hempty, hq]
  | cons c cs => split <;> simp [isAbsolute, hp]

/-! ## Names -/

/-- A segment that names an entry of a directory. -/
structure IsName (seg : List Char) : Prop where
  slashless : '/' ∉ seg
  counts : isIdle seg = false
  stays : seg ≠ ['.', '.']

theorem isName_iff {seg : List Char} :
    IsName seg ↔ '/' ∉ seg ∧ isIdle seg = false ∧ seg ≠ ['.', '.'] :=
  ⟨fun h => ⟨h.slashless, h.counts, h.stays⟩, fun h => ⟨h.1, h.2.1, h.2.2⟩⟩

instance (seg : List Char) : Decidable (IsName seg) := decidable_of_iff _ isName_iff.symm

theorem segments_of_slashless {name : String} (h : '/' ∉ name.toList) :
    (⟨name⟩ : Path).segments = [name.toList] := split_of_not_mem h

theorem isAbsolute_of_slashless {name : String} (h : '/' ∉ name.toList) :
    (⟨name⟩ : Path).isAbsolute = false := by
  rw [isAbsolute]
  cases hname : name.toList with
  | nil => rfl
  | cons c cs =>
      rw [hname, List.mem_cons, not_or] at h
      simpa using Ne.symm h.1

theorem slashless_divide {name : List Char} (h : '/' ∉ name) : '/' ∉ (divide name).1 := by
  rw [divide]
  split
  · exact h
  · exact fun hmem => h (List.mem_of_mem_take hmem)

theorem trimEnd_append {segs : List (List Char)} {s : List Char} (h : isIdle s = false) :
    trimEnd (segs ++ [s]) = segs ++ [s] := by
  cases segs with
  | nil => rfl
  | cons t ts => simp [trimEnd, h]

/-- A file below a directory gets another extension by getting another name there. -/
theorem withExtension_join {p : Path} {name ext : String} (h : IsName name.toList)
    (hext : '/' ∉ ext.toList) : (p.join ⟨name⟩).withExtension ext =
      p.join ⟨String.ofList ((divide name.toList).1 ++ '.' :: ext.toList)⟩ := by
  have hslash : '/' ∉ (String.ofList ((divide name.toList).1 ++ '.' :: ext.toList)).toList := by
    simp [slashless_divide h.slashless, hext]
  have htrimmed : (p.join ⟨name⟩).trimmed = p.leading ++ [name.toList] := by
    rw [trimmed, segments_join (isAbsolute_of_slashless h.slashless),
      segments_of_slashless h.slashless, trimEnd_append h.counts]
  have hname : (p.join ⟨name⟩).fileName? = some name.toList := by
    rw [fileName?, htrimmed]
    simp [h.counts, h.stays]
  rw [← ofSegments_segments (p.join ⟨String.ofList _⟩),
    segments_join (isAbsolute_of_slashless hslash), segments_of_slashless hslash, withExtension,
    hname, htrimmed]
  simp

/-! ## Parts -/

/-- The segments that count. -/
def parts (p : Path) : List (List Char) := p.segments.filter (!isIdle ·)

theorem parts_join {p q : Path} (h : q.isAbsolute = false) :
    (p.join q).parts = p.parts ++ q.parts := by
  rw [parts, segments_join h, List.filter_append]
  congr 1
  rcases segments_eq_leading p with hp | hp
  · rw [parts, hp]
  · rw [parts, hp, List.filter_append]
    simp [isIdle]

theorem parts_of_isName {name : String} (h : IsName name.toList) :
    (⟨name⟩ : Path).parts = [name.toList] := by
  rw [parts, segments_of_slashless h.slashless]
  simp [h.counts]

end EnumLookup.Path
