import EnumLookup.Proofs.Generation.Meaning
import EnumLookup.Proofs.Generation.Written
import EnumLookup.Proofs.Source.PrettyFiles

/-!
# Generated files in the layout for reading

No line of generated documentation ends in a space, so the layout for reading leaves it as it is.
What a generated file is read as is itself read as it is written.
-/

namespace EnumLookup

namespace Source

/-- The text ends in something that is no space. -/
def endsTrim (s : String) : Bool := s.toList.getLast?.any (· != ' ')

theorem endsTrim_append (s : String) {t : String} (h : endsTrim t = true) :
    endsTrim (s ++ t) = true := by
  unfold endsTrim at h ⊢
  rw [String.toList_append, List.getLast?_append]
  cases ht : t.toList.getLast? with
  | none => simp [ht] at h
  | some c => simpa [ht] using h

theorem endsTrim_literal {cs : List Char} (h : cs.getLast?.any (· != ' ') = true) :
    endsTrim (String.ofList cs) = true := by
  rwa [endsTrim, String.toList_ofList]

theorem endsTrim_then (s : String) {cs : List Char} (h : cs.getLast?.any (· != ' ') = true) :
    endsTrim (s ++ String.ofList cs) = true := endsTrim_append s (endsTrim_literal h)

theorem dropEndSpaces_of_endsTrim {s : String} (h : endsTrim s = true) :
    Pretty.dropEndSpaces s = s := by
  unfold endsTrim at h
  rw [← List.head?_reverse] at h
  unfold Pretty.dropEndSpaces
  cases hs : s.toList.reverse with
  | nil => simp [hs] at h
  | cons c r =>
      have hc : (c == ' ') = false := by simpa [hs] using h
      rw [List.dropWhile_cons_of_neg (by simp [hc]), ← hs, List.reverse_reverse, String.ofList_toList]

end Source

namespace Generation

open Source Discriminator

theorem trimmed_docLine {line : String} (h : line = "" ∨ endsTrim line = true) :
    Pretty.dropEndSpaces (docLine line) = docLine line := by
  unfold docLine
  split
  · rfl
  · rename_i hne
    rcases h with rfl | h
    · exact absurd rfl hne
    · exact dropEndSpaces_of_endsTrim (endsTrim_append " " h)

theorem endsTrim_assertion (o : Operation) (e : Resolved) (m : Entry) :
    endsTrim (assertion o e m) = true := by
  cases o with
  | nameLookup => exact endsTrim_then _ (by decide)
  | valueTable => exact endsTrim_then _ (by decide)
  | tryParse => exact endsTrim_then _ (by decide)

theorem endsTrim_coverage {enums : List Resolved} :
    ∀ line ∈ coverage enums, line = "" ∨ endsTrim line = true := by
  intro line hline
  unfold coverage at hline
  split at hline
  · rw [List.mem_singleton.mp hline]
    exact .inr (endsTrim_literal (by decide))
  · simp only [List.mem_append, List.mem_cons, List.not_mem_nil, or_false, List.mem_map] at hline
    rcases hline with (rfl | rfl) | ⟨e, _, rfl⟩
    · exact .inr (endsTrim_literal (by decide))
    · exact .inl rfl
    · exact .inr (endsTrim_then _ (by decide))

theorem endsTrim_example {o : Operation} {enums : List Resolved} :
    ∀ line ∈ exampleLines o enums, line = "" ∨ endsTrim line = true := by
  intro line hline
  unfold exampleLines at hline
  split at hline
  · simp only [List.mem_cons, List.not_mem_nil, or_false] at hline
    rcases hline with rfl | rfl | rfl | rfl | rfl | rfl
    · exact .inl rfl
    · exact .inr (endsTrim_literal (by decide))
    · exact .inl rfl
    · exact .inr (endsTrim_literal (by decide))
    · exact .inr (endsTrim_assertion ..)
    · exact .inr (endsTrim_literal (by decide))
  · cases hline

/-- No line of a header ends in a space. -/
theorem trimmed_header {title : String} {enums : List Resolved} {o : Option Operation}
    (htitle : endsTrim title = true) :
    ∀ d ∈ header title enums o, Pretty.dropEndSpaces d = d := by
  intro d hd
  simp only [header, List.mem_append, List.mem_cons, List.not_mem_nil, or_false, List.mem_map] at hd
  rcases hd with (rfl | rfl) | ⟨line, hline, rfl⟩
  · exact dropEndSpaces_of_endsTrim (endsTrim_append _ htitle)
  · rfl
  refine trimmed_docLine ?_
  rcases hline with hline | hline
  · exact endsTrim_coverage line hline
  · cases o with
    | none => cases hline
    | some o => exact endsTrim_example line hline

theorem trimmed_doc {t : String} (h : endsTrim t = true) : (Attr.doc t).IsTrimmed :=
  dropEndSpaces_of_endsTrim h

theorem trimmed_literal {cs : List Char} (h : cs.getLast? ≠ some ' ') :
    (Attr.doc (String.ofList cs)).IsTrimmed := by
  cases hlast : cs.getLast? with
  | none =>
      rw [List.getLast?_eq_none_iff.mp hlast]
      rfl
  | some c =>
      rw [hlast] at h
      exact trimmed_doc (endsTrim_literal (by simpa [hlast] using h))

theorem trimmed_helperDocs {o : Operation} {e : Resolved} :
    ∀ t ∈ helperDocs o e, (Attr.doc t).IsTrimmed := by
  intro t ht
  cases o with
  | nameLookup =>
      rw [List.mem_singleton.mp ht]
      exact trimmed_doc (endsTrim_then _ (by decide))
  | valueTable =>
      rw [List.mem_singleton.mp ht]
      exact trimmed_doc (endsTrim_then _ (by decide))
  | tryParse =>
      simp only [helperDocs, List.mem_cons, List.not_mem_nil, or_false] at ht
      rcases ht with rfl | rfl | rfl
      · exact trimmed_doc (endsTrim_then _ (by decide))
      · rfl
      · exact trimmed_literal (by decide)

theorem trimmed_dispatcherDocs (o : Operation) :
    ∀ t ∈ dispatcherDocs o, (Attr.doc t).IsTrimmed :=
  forall_dispatcherDocs (fun _ h => trimmed_literal h.2.2) o

theorem endsTrim_title (o : Operation) : endsTrim (title o) = true := by
  cases o <;> exact endsTrim_literal (by decide)

theorem allAttrs_helperItem (o : Operation) (e : Resolved) (d : String) :
    (helperItem o e d).allAttrs = (helperDocs o e).map .doc ++ [.list "allow" ["non_snake_case"]] :=
  List.append_nil _

theorem allAttrs_dispatcherItem (o : Operation) (ps : List (Resolved × String)) :
    (dispatcherItem o ps).allAttrs = (dispatcherDocs o).map .doc := List.append_nil _

/-- The file of an operation has no spaces at the ends of its documentation. -/
theorem lookup_isTrimmed (o : Operation) (ps : List (Resolved × String)) :
    (lookupListing o ps).file.IsTrimmed := by
  refine ⟨trimmed_header (endsTrim_title o), fun i hi a ha => ?_⟩
  rw [items_lookup] at hi
  simp only [List.mem_cons, List.mem_append, List.mem_map, List.not_mem_nil, or_false] at hi
  rcases hi with rfl | ⟨p, _, rfl⟩ | rfl
  · cases ha
  · rw [allAttrs_helperItem] at ha
    rcases List.mem_append.mp ha with ha | ha
    · obtain ⟨t, ht, rfl⟩ := List.mem_map.mp ha
      exact trimmed_helperDocs t ht
    · rw [List.mem_singleton.mp ha]
      trivial
  · rw [allAttrs_dispatcherItem] at ha
    obtain ⟨t, ht, rfl⟩ := List.mem_map.mp ha
    exact trimmed_dispatcherDocs o t ht

theorem trimmed_errorItem : ∀ a ∈ errorItem.allAttrs, a.IsTrimmed := by
  intro a ha
  simp only [errorItem, Item.allAttrs, List.flatMap_cons, List.flatMap_nil, List.append_nil,
    List.cons_append, List.nil_append, List.mem_cons, List.not_mem_nil, or_false] at ha
  rcases ha with rfl | rfl | rfl | rfl | rfl | rfl | rfl
  · exact trimmed_literal (by decide)
  · rfl
  · exact trimmed_literal (by decide)
  · exact trimmed_literal (by decide)
  · trivial
  · exact trimmed_literal (by decide)
  · exact trimmed_literal (by decide)

/-- The support file has no spaces at the ends of its documentation. -/
theorem support_isTrimmed (enums : List Resolved) (c : Config) :
    (support enums c).file.IsTrimmed := by
  refine ⟨trimmed_header (endsTrim_then _ (by decide)), fun i hi a ha => ?_⟩
  simp only [Listing.file, support, List.flatten_cons, List.flatten_nil, List.append_nil,
    List.mem_append, List.mem_map, List.mem_singleton] at hi
  rcases hi with ⟨o, _, rfl⟩ | ⟨o, _, rfl⟩ | rfl | rfl | rfl | rfl | rfl
  · cases ha
  · cases ha
  · rw [List.mem_singleton.mp ha]
    exact trimmed_literal (by decide)
  · cases ha
  · exact trimmed_errorItem a ha
  · cases ha
  · cases ha

/-! ## Reading twice -/

theorem read_dropped_idempotent (s : String) :
    Marks.dropped.read (Marks.dropped.read s) = Marks.dropped.read s := by
  rw [Marks.read, Marks.read, String.toList_ofList, List.dropWhile_idempotent]

theorem asRead_idempotent (ps : List (Resolved × String)) :
    (ps.map (asRead .dropped)).map (asRead .dropped) = ps.map (asRead .dropped) := by
  rw [List.map_map]
  refine List.map_congr_left fun p _ => ?_
  rw [Function.comp, asRead, asRead, read_dropped_idempotent]

/-- What is read of a discriminator can be written on as well. -/
theorem IsExtensible.read_dropped {d : String} (h : IsExtensible d) :
    IsExtensible (Marks.dropped.read d) := by
  obtain ⟨base, before, w, hd, hbase⟩ := h
  have hself : IsWrapped w [] [] w [] := {
    text := by simp
    front := .inl rfl
    before := by simp [AreMarks]
    after := by simp [AreMarks]
    word := hbase.word
    isIdentifier := hbase.isIdentifier }
  have hread : ∀ t : String, Marks.dropped.read (base ++ t) = w ++ t := by
    intro t
    obtain ⟨c, r, hc, hstart⟩ := hbase.word.toList_eq_cons
    have hmark := isDirectionMark_of_not_isSkipped (isSkipped_of_isIdentifierStart hstart)
    have htext : base.toList = before ++ w.toList := by simpa using hbase.text
    rw [Marks.read, String.toList_append, htext, List.append_assoc,
      List.dropWhile_append_of_pos hbase.before, hc, List.cons_append,
      List.dropWhile_cons_of_neg (by simp [hmark]), ← List.cons_append, ← hc,
      ← String.toList_append, String.ofList_toList]
  refine ⟨w, [], w, ?_, hself⟩
  rcases hd with rfl | ⟨k, rfl⟩
  · have h := hread ""
    rw [String.append_empty, String.append_empty] at h
    exact .inl h
  · refine .inr ⟨k, ?_⟩
    rw [numbered, numbered, String.append_assoc, hread, String.append_assoc]

end Generation

end EnumLookup
