import EnumLookup.Proofs.Discriminator.Shape
import Mathlib.Logic.ExistsUnique

/-!
# Discriminators are a normal form

What a name is made of are its segments; which separators stand around them, and how many, makes no
difference to its discriminator. A discriminator is one segment, so it is its own discriminator.
-/

namespace EnumLookup

namespace Discriminator

/-! ## Segments between separators -/

/-- A run of characters that holds no separator. -/
def IsSegment (seg : List Char) : Prop := seg ≠ [] ∧ ∀ c ∈ seg, isSeparator c = false

/-- The text consists of the segments in order and of separators: at least one between two segments,
any number in front of the first and behind the last. -/
inductive IsSpaced : List (List Char) → List Char → Prop where
  | nil : IsSpaced [] []
  | separator {c r segs} : isSeparator c = true → IsSpaced segs r → IsSpaced segs (c :: r)
  | last {seg} : IsSegment seg → IsSpaced [seg] seg
  | segment {seg c r segs} : IsSegment seg → isSeparator c = true → IsSpaced segs r →
      IsSpaced (seg :: segs) (seg ++ c :: r)

theorem segmentsFrom_append {seg : List Char} (h : ∀ c ∈ seg, isSeparator c = false)
    (r : List Char) : ∀ run, segmentsFrom run (seg ++ r) = segmentsFrom (run ++ seg) r := by
  induction seg with
  | nil => intro run; rw [List.nil_append, List.append_nil]
  | cons c seg ih =>
      intro run
      rw [List.forall_mem_cons] at h
      rw [List.cons_append, segmentsFrom, if_neg (by simp [h.1]), ih h.2, List.append_assoc,
        List.singleton_append]

/-- A run that has begun goes on up to the next separator. -/
theorem isSpaced_segmentsFrom (cs : List Char) : ∀ {run : List Char},
    (∀ c ∈ run, isSeparator c = false) → IsSpaced (segmentsFrom run cs) (run ++ cs) := by
  induction cs with
  | nil =>
      intro run h
      rw [segmentsFrom, List.append_nil]
      split
      · rename_i he
        rw [List.isEmpty_iff.mp he]
        exact .nil
      · rename_i he
        exact .last ⟨by simpa using he, h⟩
  | cons c r ih =>
      intro run h
      have hrest : IsSpaced (segmentsFrom [] r) r := ih (by simp)
      rw [segmentsFrom]
      split
      · rename_i hc
        split
        · rename_i he
          rw [List.isEmpty_iff.mp he]
          exact .separator hc hrest
        · rename_i he
          exact .segment ⟨by simpa using he, h⟩ hc hrest
      · rename_i hc
        -- The run grows with each character, so it has to be general in the induction.
        have hrun : ∀ d ∈ run ++ [c], isSeparator d = false := by
          rw [List.forall_mem_append, List.forall_mem_singleton]
          exact ⟨h, by simpa using hc⟩
        have hspaced := ih hrun
        rwa [List.append_assoc, List.singleton_append] at hspaced

/-- A text is made of exactly one list of segments. -/
theorem segments_eq_iff {name : String} {segs : List (List Char)} :
    segments name = segs ↔ IsSpaced segs name.toList := by
  constructor
  · rintro rfl
    have hnone : ∀ c ∈ ([] : List Char), isSeparator c = false := nofun
    exact isSpaced_segmentsFrom name.toList hnone
  · intro h
    rw [segments]
    generalize name.toList = cs at h
    induction h with
    | nil => rfl
    | separator hc _ ih => rw [segmentsFrom, if_pos hc, List.isEmpty_nil, if_pos rfl, ih]
    | @last seg hseg =>
        have happend := segmentsFrom_append hseg.2 [] []
        rw [List.append_nil, List.nil_append, segmentsFrom, if_neg (by simp [hseg.1])] at happend
        exact happend
    | @segment seg c r segs hseg hc _ ih =>
        rw [segmentsFrom_append hseg.2, List.nil_append, segmentsFrom, if_pos hc,
          if_neg (by simp [hseg.1]), ih]

/-! ## What is made of the segments -/

/-- The discriminator that segments make, or what is wrong with them. -/
def ofSegments (segs : List (List Char)) : Except NameFlaw String :=
  if segs.isEmpty then throw .noSegment
  else if (Source.identifier? (join segs)).isSome then pure (join segs)
  else throw (.notIdentifier (join segs))

/-- Without control characters, a name counts by its segments alone. -/
theorem discriminator_of_noControl {name : String}
    (h : ∀ c ∈ name.toList, Text.isControl c = false) :
    discriminator name = (ofSegments (segments name)).mapError (.invalidName name) := by
  have hcontrol : name.toList.any Text.isControl = false := by
    rw [List.any_eq_false]
    exact fun c hc => by simp [h c hc]
  rw [discriminator, if_neg (by simp [hcontrol]), ofSegments]
  dsimp only
  split
  · rfl
  split <;> rfl

theorem isSeparator_underscore : isSeparator '_' = false := by decide

theorem isControl_underscore : Text.isControl '_' = false := by decide

/-- No separator gets into a discriminator, and no control character. -/
theorem mem_discriminator {name d : String} (h : discriminator name = .ok d) :
    ∀ c ∈ d.toList, isSeparator c = false ∧ Text.isControl c = false := by
  obtain ⟨hcontrol, hjoin, _⟩ := discriminator_ok h
  intro c hc
  rw [hjoin, join, String.toList_ofList] at hc
  rcases mem_intercalate hc with rfl | ⟨seg, hseg, hc⟩
  · exact ⟨isSeparator_underscore, isControl_underscore⟩
  · rcases segmentsFrom_mem hseg hc with hrun | ⟨hname, hsep⟩
    · cases hrun
    · exact ⟨hsep, hcontrol c hname⟩

theorem discriminator_ne_empty {name d : String} (h : discriminator name = .ok d) : d ≠ "" := by
  rintro rfl
  obtain ⟨_, _, hid⟩ := discriminator_ok h
  cases hid

/-- A discriminator is one segment, its own. -/
theorem discriminator_idempotent {name d : String} (h : discriminator name = .ok d) :
    discriminator d = .ok d := by
  have hmem := mem_discriminator h
  have hne : d.toList ≠ [] := by simpa using discriminator_ne_empty h
  have hsegments : segments d = [d.toList] :=
    segments_eq_iff.mpr (.last ⟨hne, fun c hc => (hmem c hc).1⟩)
  have hjoin : join [d.toList] = d := by
    rw [join, List.intercalate_singleton, String.ofList_toList]
  obtain ⟨_, _, hid⟩ := discriminator_ok h
  rw [discriminator_of_noControl fun c hc => (hmem c hc).2, hsegments, ofSegments, hjoin,
    if_neg (by simp), if_pos hid]
  rfl

end Discriminator

open Discriminator

/-- Discriminators are a normal form of names. Every name is made of one list of segments with
separators around them. A discriminator is not empty, holds no separator, white space or control
character, and is its own discriminator; and two names without control characters that are made of
the same segments have the same discriminator, or are refused as names for the same flaw. -/
theorem discriminator_normal_form (name : String) :
    (∃! segs, IsSpaced segs name.toList) ∧
    (∀ d, discriminator name = .ok d → d ≠ "" ∧
      (∀ c ∈ d.toList, c ∉ separators ∧ Text.isSpace c = false ∧ Text.isControl c = false) ∧
      discriminator d = .ok d) ∧
    ∀ other segs, (∀ c ∈ name.toList, Text.isControl c = false) →
      (∀ c ∈ other.toList, Text.isControl c = false) →
      IsSpaced segs name.toList → IsSpaced segs other.toList →
      (∃ d, discriminator name = .ok d ∧ discriminator other = .ok d) ∨
      ∃ flaw, discriminator name = .error (.invalidName name flaw) ∧
        discriminator other = .error (.invalidName other flaw) := by
  refine ⟨⟨segments name, segments_eq_iff.mp rfl, fun segs h => (segments_eq_iff.mpr h).symm⟩,
    fun d h => ⟨discriminator_ne_empty h, fun c hc => ?_, discriminator_idempotent h⟩, ?_⟩
  · obtain ⟨hsep, hcontrol⟩ := mem_discriminator h c hc
    simp only [isSeparator, Bool.or_eq_false_iff] at hsep
    exact ⟨by simpa using hsep.1, hsep.2, hcontrol⟩
  · intro other segs hname hother hsegs hsegs'
    rw [discriminator_of_noControl hname, discriminator_of_noControl hother,
      segments_eq_iff.mpr hsegs, segments_eq_iff.mpr hsegs']
    cases ofSegments segs with
    | ok d => exact .inl ⟨d, rfl, rfl⟩
    | error flaw => exact .inr ⟨flaw, rfl, rfl⟩

theorem normal_form_of_shapesKind : ∃ segs d,
    (∀ c ∈ "\u3000crate::shapes::Kind".toList, Text.isControl c = false) ∧
    (∀ c ∈ "crate.shapes / Kind[]".toList, Text.isControl c = false) ∧
    IsSpaced segs "\u3000crate::shapes::Kind".toList ∧
    IsSpaced segs "crate.shapes / Kind[]".toList ∧
    discriminator "\u3000crate::shapes::Kind" = .ok d ∧
    discriminator "crate.shapes / Kind[]" = .ok d ∧ d ≠ "" ∧ discriminator d = .ok d := by
  have hcontrol : ∀ c ∈ "\u3000crate::shapes::Kind".toList, Text.isControl c = false :=
    fun c hc => Bool.eq_false_iff.mpr (List.any_eq_false.mp rfl c hc)
  have hcontrol' : ∀ c ∈ "crate.shapes / Kind[]".toList, Text.isControl c = false :=
    fun c hc => Bool.eq_false_iff.mpr (List.any_eq_false.mp rfl c hc)
  have hsegs : IsSpaced ["crate".toList, "shapes".toList, "Kind".toList]
      "\u3000crate::shapes::Kind".toList := segments_eq_iff.mp (by decide)
  have hsegs' : IsSpaced ["crate".toList, "shapes".toList, "Kind".toList]
      "crate.shapes / Kind[]".toList := segments_eq_iff.mp (by decide)
  have hname : discriminator "\u3000crate::shapes::Kind" = .ok "crate_shapes_Kind" := rfl
  obtain ⟨_, hnormal, hsame⟩ := discriminator_normal_form "\u3000crate::shapes::Kind"
  obtain ⟨hne, _, hself⟩ := hnormal _ hname
  refine ⟨_, _, hcontrol, hcontrol', hsegs, hsegs', hname, ?_, hne, hself⟩
  rcases hsame _ _ hcontrol hcontrol' hsegs hsegs' with ⟨d, hd, hother⟩ | ⟨flaw, hd, _⟩
  · rw [hname] at hd
    cases hd
    exact hother
  · rw [hname] at hd
    cases hd

end EnumLookup
