import EnumLookup.Generation.Support
import EnumLookup.Proofs.Discriminator.Assignment
import EnumLookup.Proofs.Discriminator.Shape
import EnumLookup.Proofs.Generation.Header
import EnumLookup.Proofs.Source.Written

/-!
# What generated files are read as

A generated file is read as it was written, except that the names of helpers may lose their
direction marks, in their definitions and in calls alike.
-/

namespace EnumLookup

namespace Source

variable {m : Marks}

/-- A word as it is read. -/
def Marks.read (m : Marks) (s : String) : String :=
  match m with
  | .dropped => String.ofList (s.toList.dropWhile isDirectionMark)
  | .kept => s

theorem Marks.read_eq {s w : String} {marks : List Char} (hs : s.toList = marks ++ w.toList)
    (hm : AreMarks marks) (hw : IsWord w) : m.read s = m.spelling marks w := by
  obtain ⟨c, r, hc, hstart⟩ := hw.toList_eq_cons
  have hmark := isDirectionMark_of_not_isSkipped (isSkipped_of_isIdentifierStart hstart)
  cases m with
  | dropped =>
      rw [Marks.read, hs, List.dropWhile_append_of_pos hm, hc,
        List.dropWhile_cons_of_neg (by simp [hmark]), ← hc, String.ofList_toList]
      rfl
  | kept =>
      rw [Marks.read, Marks.spelling, ← String.toList_inj, hs, String.toList_append,
        String.toList_ofList]

theorem Marks.spelling_append (marks : List Char) (w t : String) :
    m.spelling marks w ++ t = m.spelling marks (w ++ t) := by
  cases m with
  | dropped => rfl
  | kept => rw [Marks.spelling, Marks.spelling, String.append_assoc]

end Source

namespace Generation

open Source Discriminator

variable {m : Marks}

/-! ## Names of helpers -/

theorem isTail_suffix (o : Operation) : IsTail ("_" ++ o.suffix) := by
  cases o
  · exact ⟨'n', _, rfl, List.all_eq_true.mp (by decide)⟩
  · exact ⟨'v', _, rfl, List.all_eq_true.mp (by decide)⟩
  · exact ⟨'t', _, rfl, List.all_eq_true.mp (by decide)⟩

theorem isTail_number (o : Operation) (k : Nat) :
    IsTail ("_" ++ Text.natText k ++ ("_" ++ o.suffix)) := by
  obtain ⟨x, r, hx, hpart⟩ := isTail_suffix o
  obtain ⟨c, ds, hds⟩ := List.exists_cons_of_ne_nil (Text.natDigits_ne_nil k)
  refine ⟨c, ds ++ ("_" ++ o.suffix).toList, ?_, ?_⟩
  · simp [Text.natText, hds]
  · intro y hy
    rw [← List.cons_append, ← hds] at hy
    rcases List.mem_append.mp hy with hy | hy
    · exact isIdentifierPart_of_isDigit (Text.isDigit_of_mem_natDigits hy)
    · rw [hx] at hy
      rcases List.mem_cons.mp hy with rfl | hy
      · decide
      · exact hpart y hy

/-- A helper's name is its enum's base with a tail. -/
theorem helperName_of_form {base d : String} (h : IsForm base d) (o : Operation) :
    ∃ tail, IsTail tail ∧ helperName o d = base ++ tail := by
  rcases h with rfl | ⟨k, rfl⟩
  · exact ⟨_, isTail_suffix o, by rw [helperName, String.append_assoc]⟩
  · exact ⟨_, isTail_number o k, by rw [helperName, numbered]; simp only [String.append_assoc]⟩

/-- The discriminator is a form of a base that can be written on. -/
def IsExtensible (d : String) : Prop :=
  ∃ base before w, IsForm base d ∧ IsWrapped base [] before w []

theorem IsExtensible.of_isSound {name base d : String} (h : discriminator name = .ok base)
    (hsound : IsSound base) (hd : IsForm base d) : IsExtensible d := by
  obtain ⟨front, before, w, after, hbase⟩ := isWrapped_of_ok h
  obtain ⟨rfl, rfl⟩ := hbase.isSound_iff.mp hsound
  exact ⟨base, before, w, hd, hbase⟩

/-- The name of a helper is read as one word, and that word is the helper's name for what is read of
the discriminator. -/
theorem IsExtensible.helperName_reads {d : String} (h : IsExtensible d) (o : Operation) :
    WordReads m (helperName o d) (helperName o (m.read d)) := by
  obtain ⟨base, before, w, hd, hbase⟩ := h
  have htext : base.toList = before ++ w.toList := by simpa using hbase.text
  obtain ⟨t, ht, hdt⟩ : ∃ t, (t = "" ∨ IsTail t) ∧ d = base ++ t := by
    rcases hd with rfl | ⟨k, rfl⟩
    · exact ⟨"", .inl rfl, String.append_empty.symm⟩
    · obtain ⟨c, ds, hds⟩ := List.exists_cons_of_ne_nil (Text.natDigits_ne_nil k)
      refine ⟨"_" ++ Text.natText k, .inr ⟨c, ds, by simp [Text.natText, hds], ?_⟩, ?_⟩
      · intro x hx
        rw [← hds] at hx
        exact isIdentifierPart_of_isDigit (Text.isDigit_of_mem_natDigits hx)
      · rw [numbered, String.append_assoc]
  have hword : IsWord (w ++ t) := by
    rcases ht with rfl | ht
    · rw [String.append_empty]; exact hbase.word
    · exact ht.isWord hbase.word
  have htail := isTail_suffix o
  have hread : m.read d = m.spelling before (w ++ t) := by
    refine Marks.read_eq ?_ hbase.before hword
    rw [hdt, String.toList_append, htext, String.toList_append, List.append_assoc]
  have hlex := Lexes.markedWord (m := m) hbase.before (htail.isWord hword)
  have hname : (helperName o d).toList = before ++ (w ++ t ++ ("_" ++ o.suffix)).toList := by
    rw [helperName, hdt]
    simp [htext]
  have hspelling : helperName o (m.read d) = m.spelling before (w ++ t ++ ("_" ++ o.suffix)) := by
    rw [helperName, hread, String.append_assoc, Marks.spelling_append]
  rw [WordReads, hname, hspelling]
  exact hlex

theorem isIdentifier_helperName (o : Operation) (d : String) :
    isIdentifier (helperName o d) = true := by
  rw [helperName, String.append_assoc]
  exact (isTail_suffix o).isIdentifier d

/-! ## Types -/

namespace LookupType

theorem plain_written {n : String} (h : IsPlainPath [n]) : (plain n).IsWritten := .plain h

theorem width_written (w : Width) : (width w).IsWritten := by
  cases w <;> exact plain_written (by decide)

theorem borrowedText_written : borrowedText.IsWritten :=
  .reference (by simp) (plain_written (by decide))

theorem name_written : name.IsWritten :=
  .reference (by intro x hx; cases hx; decide) (plain_written (by decide))

theorem optional_written {t : Ty} (h : t.IsWritten) : (optional t).IsWritten :=
  .generic (by decide) (.cons h .nil)

theorem answer_written {t : Ty} (h : t.IsWritten) : (answer t).IsWritten :=
  .generic (by decide) (.cons h (.cons (plain_written (by decide)) .nil))

theorem table_written {t : Ty} (h : t.IsWritten) : (table t).IsWritten :=
  .reference (by intro x hx; cases hx; decide) (.slice (.tuple (.cons name_written (.cons h .nil))))

end LookupType

/-! ## Terms -/

namespace Term

theorem ofChain {e e' : Expr} (h : Expr.ReadsAs m .chain e e') : Expr.ReadsAs m .full e e' :=
  .ofOperand (.ofChain h)

theorem path_reads {p : Source.Path} (h : IsPlainPath p) : Expr.ReadsAs m .chain (.path p) (.path p) :=
  .path (List.forall₂_same.mpr fun w hw => .of_isName (h.2 w hw)) h.1

theorem var_reads {n : String} (h : IsPlainPath [n]) : Expr.ReadsAs m .chain (var n) (var n) :=
  path_reads h

theorem call_reads {f : String} (h : IsPlainPath [f]) {e e' : Expr}
    (he : Expr.ReadsAs m .full e e') : Expr.ReadsAs m .chain (call f [e]) (call f [e']) :=
  .call (var_reads h) (.cons he .nil)

theorem constant_reads (c : Constant) : Expr.ReadsAs m .operand (constant c) (constant c) := .number

theorem pair_reads (e : Entry) {v : Expr} (h : Expr.ReadsAs m .full v v) :
    Expr.ReadsAs m .full (pair e v) (pair e v) :=
  ofChain (.tuple (.cons (ofChain .text) (.cons h .nil)))

theorem blankArgument_reads : Expr.ReadsAs m .full blankArgument blankArgument :=
  ofChain (call_reads (by decide) (ofChain (.call (path_reads (by decide))
    (.cons (ofChain .text) .nil))))

theorem unknownTag_reads : Expr.ReadsAs m .full unknownTag unknownTag :=
  ofChain (call_reads (by decide) (ofChain (.call (path_reads (by decide))
    (.cons (ofChain (.method (var_reads (by decide)) (by decide) .nil)) .nil))))

theorem blankGuard_reads : Stmt.ReadsAs m blankGuard blankGuard :=
  .returnIf (ofChain (.method (.method (var_reads (by decide)) (by decide) .nil) (by decide) .nil))
    blankArgument_reads

end Term

open LookupType Term

/-- A list of things is read as it is written if each of them is. -/
theorem each_reads {α : Type} {f : α → Expr} (h : ∀ x, Expr.ReadsAs m .full (f x) (f x)) :
    ∀ xs : List α, Expr.ReadEachAs m (xs.map f) (xs.map f)
  | [] => .nil
  | x :: xs => .cons (h x) (each_reads h xs)

theorem stmts_read {α : Type} {f g : α → Stmt} {xs : List α}
    (h : ∀ x ∈ xs, Stmt.ReadsAs m (f x) (g x)) :
    List.Forall₂ (Stmt.ReadsAs m) (xs.map f) (xs.map g) := by
  rw [List.forall₂_map_left_iff, List.forall₂_map_right_iff]
  exact List.forall₂_same.mpr h

/-! ## Lookup files -/

section Lookup

variable {o : Operation} {e : Resolved} {d : String}

theorem helper_reads (hd : IsExtensible d) :
    (helper o e d).ReadsAs m (helper o e (m.read d)) := by
  have hname := hd.helperName_reads (m := m) o
  have hid := isIdentifier_helperName o (m.read d)
  cases o with
  | nameLookup =>
      refine .mk hname hid ?_ (optional_written name_written) (stmts_read fun x _ => ?_) ?_
      · intro p hp
        rw [List.mem_singleton.mp hp]
        refine .typed ?_ (width_written _)
        split <;> decide
      · exact .returnIf (.equal (.ofChain (var_reads (by decide))) (constant_reads _))
          (ofChain (call_reads (by decide) (ofChain .text)))
      · exact ofChain (var_reads (by decide))
  | valueTable =>
      refine .mk hname hid (by simp) (table_written (width_written _)) .nil ?_
      exact .ofOperand (.borrow (.ofChain (.array (each_reads (fun x =>
        pair_reads x (.ofOperand (constant_reads _))) _))))
  | tryParse =>
      refine .mk hname hid ?_ (answer_written (optional_written (width_written _)))
        (.cons blankGuard_reads (stmts_read fun x _ => ?_)) ?_
      · intro p hp
        rw [List.mem_singleton.mp hp]
        exact .typed (by decide) borrowedText_written
      · exact .returnIf (.equal (.ofChain (var_reads (by decide))) (.ofChain .text))
          (ofChain (call_reads (by decide) (ofChain (call_reads (by decide)
            (.ofOperand (constant_reads _))))))
      · exact ofChain (call_reads (by decide) (ofChain (var_reads (by decide))))

theorem delegate_reads (hd : IsExtensible d) :
    Expr.ReadsAs m .full (delegate o e d) (delegate o e (m.read d)) := by
  have hhelper : Expr.ReadsAs m .chain (var (helperName o d)) (var (helperName o (m.read d))) := by
    refine .path (.cons (hd.helperName_reads o) .nil) ⟨by simp, ?_⟩
    intro w hw
    rw [List.mem_singleton.mp hw, isSegment, isIdentifier_helperName, Bool.true_or]
  cases o with
  | nameLookup =>
      have htry : IsPlainPath [e.width.text, "try_from"] := by cases e.width <;> decide
      exact ofChain (call_reads (by decide) (ofChain (.method (.method (.call (path_reads htry)
        (.cons (ofChain (var_reads (by decide))) .nil)) (by decide) .nil) (by decide)
        (.cons (ofChain hhelper) .nil))))
  | valueTable =>
      exact ofChain (call_reads (by decide) (.ofOperand (.borrow (.ofChain (.array
        (each_reads (fun x => pair_reads x (.ofOperand .number)) _))))))
  | tryParse =>
      exact ofChain (.method (.call hhelper (.cons (ofChain (var_reads (by decide))) .nil))
        (by decide) (.cons (.closure (by decide) (ofChain (.method (var_reads (by decide))
          (by decide) (.cons (ofChain (path_reads (by decide))) .nil)))) .nil))

theorem doc_literal {cs : List Char} (h : OneLine cs ∧ cs.head? ≠ some '/') :
    (Attr.doc (String.ofList cs)).IsWritten :=
  .doc (isLine_literal h.1) (by rw [String.toList_ofList]; exact h.2)

theorem doc_around {c : Char} {cs ds : List Char} {s : String} (hs : IsLine s)
    (h : OneLine (c :: cs) ∧ c ≠ '/') (hd : OneLine ds) :
    (Attr.doc (String.ofList (c :: cs) ++ s ++ String.ofList ds)).IsWritten := by
  refine .doc ((hs.before h.1).then hd) ?_
  rw [String.toList_append, String.toList_append, String.toList_ofList]
  simpa using h.2

theorem helperAttrs_written (he : IsLine e.name) : ∀ a ∈ (helperItem o e d).attrs, a.IsWritten := by
  intro a ha
  rcases List.mem_append.mp ha with ha | ha
  · obtain ⟨t, ht, rfl⟩ := List.mem_map.mp ha
    cases o with
    | nameLookup =>
        rw [List.mem_singleton.mp ht]
        exact doc_around he (by decide) (by decide)
    | valueTable =>
        rw [List.mem_singleton.mp ht]
        exact doc_around he (by decide) (by decide)
    | tryParse =>
        simp only [helperDocs, List.mem_cons, List.not_mem_nil, or_false] at ht
        rcases ht with rfl | rfl | rfl
        · exact doc_around he (by decide) (by decide)
        · exact doc_literal (by decide)
        · exact doc_literal (by decide)
  · rw [List.mem_singleton.mp ha]
    exact .list (by decide) (by decide)

theorem helperItem_reads (hd : IsExtensible d) (he : IsLine e.name) :
    (helperItem o e d).ReadsAs m (helperItem o e (m.read d)) :=
  .mk (helperAttrs_written (d := d) he) (.function (helper_reads hd))

/-- The pair of an enum with what is read of its discriminator. -/
def asRead (m : Marks) (p : Resolved × String) : Resolved × String := (p.1, m.read p.2)

theorem preamble_reads (o : Operation) (enums : List Resolved) :
    List.Forall₂ (Stmt.ReadsAs m) (preamble o enums) (preamble o enums) := by
  cases o with
  | nameLookup =>
      unfold preamble
      dsimp only
      split
      · exact .cons (.discard (ofChain (var_reads (by decide)))) .nil
      · exact .nil
  | valueTable => exact .nil
  | tryParse => exact .cons blankGuard_reads .nil

theorem arguments_written (o : Operation) : ∀ p ∈ arguments o, Param.IsWritten p := by
  intro p hp
  cases o with
  | nameLookup =>
      rw [List.mem_singleton.mp hp]
      exact .typed (by decide) (plain_written (by decide))
  | valueTable => cases hp
  | tryParse =>
      rw [List.mem_singleton.mp hp]
      exact .typed (by decide) borrowedText_written

theorem answerType_written (o : Operation) : (answerType o).IsWritten := by
  cases o with
  | nameLookup => exact answer_written (optional_written name_written)
  | valueTable => exact answer_written (table_written (plain_written (by decide)))
  | tryParse => exact answer_written (optional_written (plain_written (by decide)))

theorem isPlain_dispatcher (o : Operation) : IsPlain o.dispatcher := by cases o <;> decide

theorem map_fst_asRead (ps : List (Resolved × String)) :
    (ps.map (asRead m)).map Prod.fst = ps.map Prod.fst := by
  rw [List.map_map]; rfl

theorem dispatcher_reads {ps : List (Resolved × String)} (h : ∀ p ∈ ps, IsExtensible p.2) :
    (dispatcher o ps).ReadsAs m (dispatcher o (ps.map (asRead m))) := by
  refine .mk (.of_isName (isPlain_dispatcher o).1) (isPlain_dispatcher o).2 ?_
    (answerType_written o) ?_ unknownTag_reads
  · intro p hp
    rcases List.mem_cons.mp hp with rfl | hp
    · exact .typed (by decide) borrowedText_written
    · exact arguments_written o p hp
  · rw [map_fst_asRead, List.map_map]
    refine List.rel_append (preamble_reads o _) (stmts_read fun p hp => ?_)
    exact .returnIf (.equal (.ofChain (var_reads (by decide))) (.ofChain .text))
      (delegate_reads (h p hp))

/-- What holds of every text on one line that neither starts with a slash nor ends in a space holds of
the documentation of a dispatcher. -/
theorem forall_dispatcherDocs {P : String → Prop} (h : ∀ cs, OneLine cs ∧ cs.head? ≠ some '/' ∧
      cs.getLast? ≠ some ' ' → P (String.ofList cs)) (o : Operation) :
    ∀ t ∈ dispatcherDocs o, P t := by
  intro t ht
  cases o with
  | nameLookup =>
      simp only [dispatcherDocs, List.mem_cons, List.not_mem_nil, or_false] at ht
      rcases ht with rfl | rfl | rfl | rfl
      · exact h _ (by decide)
      · exact h _ (by decide)
      · exact h _ (by decide)
      · exact h _ (by decide)
  | valueTable =>
      simp only [dispatcherDocs, List.mem_cons, List.not_mem_nil, or_false] at ht
      rcases ht with rfl | rfl
      · exact h _ (by decide)
      · exact h _ (by decide)
  | tryParse =>
      simp only [dispatcherDocs, List.mem_cons, List.not_mem_nil, or_false] at ht
      rcases ht with rfl | rfl | rfl | rfl
      · exact h _ (by decide)
      · exact h _ (by decide)
      · exact h _ (by decide)
      · exact h _ (by decide)

theorem dispatcherDocs_written (o : Operation) :
    ∀ t ∈ dispatcherDocs o, (Attr.doc t).IsWritten :=
  forall_dispatcherDocs (fun _ h => doc_literal ⟨h.1, h.2.1⟩) o

theorem dispatcherItem_reads {ps : List (Resolved × String)} (h : ∀ p ∈ ps, IsExtensible p.2) :
    (dispatcherItem o ps).ReadsAs m (dispatcherItem o (ps.map (asRead m))) := by
  refine .mk ?_ (.function (dispatcher_reads h))
  intro a ha
  obtain ⟨t, ht, rfl⟩ := List.mem_map.mp ha
  exact dispatcherDocs_written o t ht

theorem isLine_title (o : Operation) : IsLine (title o) := by
  cases o <;> exact isLine_literal (by decide)

/-- The file of an operation is read as the file for what is read of its discriminators. -/
theorem lookupListing_reads {ps : List (Resolved × String)} (h : ∀ p ∈ ps, IsExtensible p.2)
    (hline : ∀ p ∈ ps, IsLine p.1.name) :
    (lookupListing o ps).ReadsAs m (lookupListing o (ps.map (asRead m))) := by
  rw [lookupListing, lookupListing, map_fst_asRead, List.map_map]
  refine .mk (isLine_header (isLine_title o) ?_) (.cons (.cons ?_ .nil) (List.rel_append ?_ ?_))
  · intro e he
    obtain ⟨p, hp, rfl⟩ := List.mem_map.mp he
    exact hline p hp
  · exact .mk (by simp) (.use (by decide))
  · rw [List.forall₂_map_left_iff, List.forall₂_map_right_iff]
    exact List.forall₂_same.mpr fun p hp => .cons (helperItem_reads (h p hp) (hline p hp)) .nil
  · exact .cons (.cons (dispatcherItem_reads h) .nil) .nil

end Lookup

/-! ## The support file -/

theorem module_reads (o : Operation) :
    Item.ReadsAs m { isPublic := true, kind := .module o.moduleName }
      { isPublic := true, kind := .module o.moduleName } :=
  .mk (by simp) (.module (by cases o <;> decide))

theorem use_reads (o : Operation) :
    Item.ReadsAs m { isPublic := true, kind := .use [o.moduleName, o.dispatcher] }
      { isPublic := true, kind := .use [o.moduleName, o.dispatcher] } :=
  .mk (by simp) (.use (by cases o <;> decide))

theorem tagsItem_reads (enums : List Resolved) : (tagsItem enums).ReadsAs m (tagsItem enums) := by
  refine .mk ?_ (.constant (by decide) (.reference (by simp) (.slice borrowedText_written))
    (.ofOperand (.borrow (.ofChain (.array (each_reads (fun _ => ofChain .text) _))))))
  intro a ha
  rw [List.mem_singleton.mp ha]
  exact doc_literal (by decide)

theorem hintItem_reads (text : String) :
    Item.ReadsAs m { kind := .constant "UNSUPPORTED_HINT" borrowedText (.text text) }
      { kind := .constant "UNSUPPORTED_HINT" borrowedText (.text text) } :=
  .mk (by simp) (.constant (by decide) borrowedText_written (ofChain .text))

theorem errorItem_reads : errorItem.ReadsAs m errorItem := by
  refine .mk ?_ (.enumeration (by decide) ?_)
  · intro a ha
    simp only [List.mem_cons, List.not_mem_nil, or_false] at ha
    rcases ha with rfl | rfl | rfl | rfl | rfl
    · exact doc_literal (by decide)
    · exact doc_literal (by decide)
    · exact doc_literal (by decide)
    · exact doc_literal (by decide)
    · exact .list (by decide) (by decide)
  · intro v hv
    simp only [List.mem_cons, List.not_mem_nil, or_false] at hv
    rcases hv with rfl | rfl
    · refine ⟨fun a ha => ?_, by decide, .cons (plain_written (by decide)) .nil⟩
      rw [List.mem_singleton.mp ha]
      exact doc_literal (by decide)
    · refine ⟨fun a ha => ?_, by decide, .cons name_written .nil⟩
      rw [List.mem_singleton.mp ha]
      exact doc_literal (by decide)

theorem messageArm_reads {v b : String} (hv : IsPlainPath ["Self", v]) (hb : IsPlainPath [b])
    (text : String) {as : List (Expr × Expr)} (h : Expr.ReadArmsAs m as as) :
    Expr.ReadArmsAs m (messageArm v b text :: as) (messageArm v b text :: as) :=
  .cons (.ofChain (.call (path_reads hv) (.cons (ofChain (var_reads hb)) .nil)))
    (ofChain (.invoke (by decide) (.cons (ofChain (var_reads (by decide)))
      (.cons (ofChain .text) .nil)))) h

theorem displayItem_reads : displayItem.ReadsAs m displayItem := by
  refine .mk (by simp) (.implementation (.plain (by decide)) (plain_written (by decide))
    (.cons (.mk (.of_isName (by decide)) (by decide) ?_ (.plain (by decide)) .nil ?_) .nil))
  · intro p hp
    simp only [List.mem_cons, List.not_mem_nil, or_false] at hp
    rcases hp with rfl | rfl
    · exact .receiver
    · exact .typed (by decide) (.reference (by simp) (.bound (by decide) (by decide)))
  · exact .ofOperand (.choose (ofChain (path_reads (by decide)))
      (messageArm_reads (by decide) (by decide) _ (messageArm_reads (by decide) (by decide) _ .nil)))

theorem errorImpl_reads :
    Item.ReadsAs m
      { kind := .implementation (.named ["std", "error", "Error"] [] []) (plain errorType) [] }
      { kind := .implementation (.named ["std", "error", "Error"] [] []) (plain errorType) [] } :=
  .mk (by simp) (.implementation (.plain (by decide)) (plain_written (by decide)) .nil)

/-- The items of the support file are read as they are written, whatever the names of the enums. -/
theorem supportItems_read (enums : List Resolved) (c : Config) :
    List.Forall₂ (List.Forall₂ (Item.ReadsAs m)) (support enums c).paragraphs
      (support enums c).paragraphs := by
  have hitems : ∀ {f : Operation → Item}, (∀ o, (f o).ReadsAs m (f o)) →
      List.Forall₂ (Item.ReadsAs m) (c.operations.map f) (c.operations.map f) := by
    intro f hf
    rw [List.forall₂_map_left_iff, List.forall₂_map_right_iff]
    exact List.forall₂_same.mpr fun o _ => hf o
  exact .cons (hitems module_reads) (.cons (hitems use_reads)
    (.cons (.cons (tagsItem_reads _) .nil) (.cons (.cons (hintItem_reads _) .nil)
      (.cons (.cons errorItem_reads .nil) (.cons (.cons displayItem_reads .nil)
        (.cons (.cons errorImpl_reads .nil) .nil))))))

theorem isLine_supportTitle {c : Config} (hmarker : IsLine c.marker) :
    IsLine ("Lookup helpers for enums marked with \x60#[" ++ c.marker ++ "]\x60.") :=
  (hmarker.before (by decide)).then (by decide)

/-- The support file is read as it is written. -/
theorem support_reads {enums : List Resolved} {c : Config} (hmarker : IsLine c.marker)
    (hline : ∀ e ∈ enums, IsLine e.name) :
    (support enums c).ReadsAs m (support enums c) :=
  .mk (isLine_header (isLine_supportTitle hmarker) hline) (supportItems_read enums c)

end Generation

end EnumLookup
