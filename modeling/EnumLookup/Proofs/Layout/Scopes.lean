import EnumLookup.Proofs.Layout.Writer

/-!
# Scopes open and close in pairs

A run of a writer is a list of events: lines, and scopes that open and close. A scope that is open can
be closed at any time, after those inside it. Such a run, broken off anywhere and with its open scopes
closed, is the run through a forest, so all that holds of forests holds of it: its text is that of the
forest, and the depth is back where it was.
-/

namespace EnumLookup.Layout

/-- What happens to a writer at one time. -/
inductive Event where
  | line (text : String)
  | opening (header : String) (delimiter : Delimiter) (terminator : String)
  | closing
  deriving DecidableEq, Repr

mutual
def Block.events : Block → List Event
  | .line text => [.line text]
  | .scope header d terminator body =>
    .opening header d terminator :: (Block.eventsAll body ++ [.closing])

def Block.eventsAll : List Block → List Event
  | [] => []
  | b :: bs => b.events ++ Block.eventsAll bs
end

namespace Writer

def step (w : Writer) : Event → Writer
  | .line text => w.line text
  | .opening header d terminator => w.openScope header d terminator
  | .closing => w.close

def run (w : Writer) (es : List Event) : Writer := es.foldl step w

theorem run_append (w : Writer) (es fs : List Event) : w.run (es ++ fs) = (w.run es).run fs :=
  List.foldl_append

theorem run_cons (w : Writer) (e : Event) (es : List Event) : w.run (e :: es) = (w.step e).run es :=
  rfl

mutual
/-- Driving a writer through a block is its run over the block's events. -/
theorem run_events : (b : Block) → (w : Writer) → w.run b.events = w.block b
  | .line text, w => by rw [Block.events, block]; rfl
  | .scope header d terminator body, w => by
      rw [Block.events, run_cons, run_append, step, run_eventsAll body, block]
      rfl

theorem run_eventsAll : (bs : List Block) → (w : Writer) → w.run (Block.eventsAll bs) = w.blocks bs
  | [], w => by rw [Block.eventsAll, blocks]; rfl
  | b :: bs, w => by rw [Block.eventsAll, run_append, run_events b, run_eventsAll bs, blocks]
end

/-- A run over the events of a forest adds the text of the forest and changes nothing else. -/
theorem run_forest (w : Writer) (bs : List Block) : w.run (Block.eventsAll bs) =
    { w with text := w.text ++ Block.renderAll w.indent w.depth bs } := by
  rw [run_eventsAll, blocks_eq]

theorem indent_step (w : Writer) (e : Event) : (w.step e).indent = w.indent := by
  cases e with
  | line text => rw [step, line_eq]
  | opening header d terminator => rw [step, openScope_eq]
  | closing =>
      rw [step]
      cases hc : w.closers with
      | nil => rw [close, hc]
      | cons c outer => rw [close_eq hc]

theorem indent_run (es : List Event) : ∀ w : Writer, (w.run es).indent = w.indent := by
  induction es with
  | nil => exact fun _ => rfl
  | cons e es ih => exact fun w => (ih _).trans (indent_step w e)

/-! ## The depth -/

/-- Each open scope was opened at the depth of the scopes around it, and the depth is one more than
that of the innermost. -/
inductive Nested : List Closer → Nat → Prop
  | nil : Nested [] 0
  | cons {c outer} (h : Nested outer c.depth) : Nested (c :: outer) (c.depth + 1)

theorem Nested.depth_eq {cs : List Closer} {n : Nat} (h : Nested cs n) : n = cs.length := by
  induction h with
  | nil => rfl
  | cons _ ih => rw [List.length_cons, ← ih]

theorem Nested.outer {c : Closer} {outer : List Closer} {n : Nat} (h : Nested (c :: outer) n) :
    Nested outer c.depth := by
  cases h with
  | cons h => exact h

/-- An event keeps the scopes nested. -/
theorem Nested.step {w : Writer} (h : Nested w.closers w.depth) (e : Event) :
    Nested (w.step e).closers (w.step e).depth := by
  cases e with
  | line text =>
      rw [Writer.step, line_eq]
      exact h
  | opening header d terminator =>
      rw [Writer.step, openScope_eq]
      exact .cons (c := ⟨w.depth, d, terminator⟩) h
  | closing =>
      rw [Writer.step]
      cases hc : w.closers with
      | nil =>
          rw [close, hc]
          exact h
      | cons c outer =>
          rw [close_eq hc]
          rw [hc] at h
          exact h.outer

theorem Nested.run {w : Writer} (h : Nested w.closers w.depth) (es : List Event) :
    Nested (w.run es).closers (w.run es).depth := by
  induction es generalizing w with
  | nil => exact h
  | cons e es ih => exact ih (h.step e)

end Writer

/-! ## Open scopes -/

/-- The number of open scopes after a list of events, if there are `n` before it and no more of them
are closed than are open. -/
def openAfter : Nat → List Event → Option Nat
  | n, [] => some n
  | n, .line _ :: es => openAfter n es
  | n, .opening _ _ _ :: es => openAfter (n + 1) es
  | 0, .closing :: _ => none
  | n + 1, .closing :: es => openAfter n es

theorem openAfter_append {es fs : List Event} : ∀ {n},
    openAfter n (es ++ fs) = (openAfter n es).bind fun k => openAfter k fs := by
  induction es with
  | nil => intro n; rfl
  | cons e es ih =>
      intro n
      cases e with
      | line text => exact ih
      | opening header d terminator => exact ih
      | closing =>
          cases n with
          | zero => rfl
          | succ n => exact ih

mutual
theorem openAfter_events : (b : Block) → (n : Nat) → openAfter n b.events = some n
  | .line text, n => by rw [Block.events]; rfl
  | .scope header d terminator body, n => by
      rw [Block.events, openAfter, openAfter_append, openAfter_eventsAll body]
      rfl

theorem openAfter_eventsAll : (bs : List Block) → (n : Nat) →
    openAfter n (Block.eventsAll bs) = some n
  | [], n => by rw [Block.eventsAll]; rfl
  | b :: bs, n => by
      rw [Block.eventsAll, openAfter_append, openAfter_events b]
      exact openAfter_eventsAll bs n
end

/-- At every place of a forest its scopes have closed only after they opened. -/
theorem openAfter_of_prefix {done : List Event} {bs : List Block}
    (h : done <+: Block.eventsAll bs) : ∃ n, openAfter 0 done = some n := by
  obtain ⟨rest, hrest⟩ := h
  have hall := openAfter_eventsAll bs 0
  rw [← hrest, openAfter_append] at hall
  obtain ⟨n, hn, _⟩ := Option.bind_eq_some_iff.mp hall
  exact ⟨n, hn⟩

namespace Event

def isOpening : Event → Bool
  | opening _ _ _ => true
  | _ => false

def isClosing : Event → Bool
  | closing => true
  | _ => false

end Event

theorem count_of_openAfter {es : List Event} : ∀ {n k}, openAfter n es = some k →
    k + es.countP Event.isClosing = n + es.countP Event.isOpening := by
  induction es with
  | nil =>
      intro n k h
      cases h
      rfl
  | cons e es ih =>
      intro n k h
      cases e with
      | line text => simpa [Event.isClosing, Event.isOpening] using ih h
      | opening header d terminator =>
          rw [List.countP_cons_of_neg Bool.false_ne_true, List.countP_cons_of_pos rfl, ih h]
          omega
      | closing =>
          cases n with
          | zero => cases h
          | succ n =>
              rw [List.countP_cons_of_pos rfl, List.countP_cons_of_neg Bool.false_ne_true,
                ← Nat.add_assoc, ih h]
              omega

theorem Writer.length_closers {es : List Event} : ∀ {w : Writer} {k},
    openAfter w.closers.length es = some k → (w.run es).closers.length = k := by
  induction es with
  | nil =>
      intro w k h
      cases h
      rfl
  | cons e es ih =>
      intro w k h
      refine ih ?_
      cases e with
      | line text =>
          rw [step, line_eq]
          exact h
      | opening header d terminator =>
          rw [step, openScope_eq]
          exact h
      | closing =>
          rw [step]
          cases hc : w.closers with
          | nil =>
              rw [hc] at h
              cases h
          | cons c outer =>
              rw [close_eq hc]
              rw [hc] at h
              exact h

/-! ## Runs that break off -/

/-- Where `n` scopes were open, the events that follow, with all scopes closed at the end, are those
of a forest in the innermost scope and of one forest behind each scope that is left. -/
theorem exists_forests {es : List Event} : ∀ {n k}, openAfter n es = some k →
    ∃ (body : List Block) (outer : List (List Block)), outer.length = n ∧
      es ++ List.replicate k .closing =
        Block.eventsAll body ++ outer.flatMap fun bs => .closing :: Block.eventsAll bs := by
  induction es with
  | nil =>
      intro n k h
      cases h
      refine ⟨[], List.replicate n [], List.length_replicate, ?_⟩
      simp [Block.eventsAll, List.flatMap_replicate]
  | cons e es ih =>
      intro n k h
      cases e with
      | line text =>
          obtain ⟨body, outer, hlength, heq⟩ := ih h
          refine ⟨.line text :: body, outer, hlength, ?_⟩
          rw [List.cons_append, heq, Block.eventsAll, Block.events]
          rfl
      | opening header d terminator =>
          obtain ⟨body, outer, hlength, heq⟩ := ih h
          -- What the rest has in its innermost scope is the body of the scope that opens here, and the
          -- first forest that it leaves over stands behind that scope.
          obtain ⟨next, outer, rfl⟩ := List.exists_cons_of_length_eq_add_one hlength
          refine ⟨.scope header d terminator body :: next, outer, by simpa using hlength, ?_⟩
          rw [List.cons_append, heq, Block.eventsAll, Block.events]
          simp
      | closing =>
          cases n with
          | zero => cases h
          | succ n =>
              obtain ⟨body, outer, hlength, heq⟩ := ih h
              -- The innermost scope ends at once, so what was found stands in the scope around it.
              refine ⟨[], body :: outer, by rw [List.length_cons, hlength], ?_⟩
              rw [List.cons_append, heq, Block.eventsAll]
              simp

/-- A run that breaks off is, with its open scopes closed, the run through a forest. -/
theorem exists_forest {es : List Event} {k : Nat} (h : openAfter 0 es = some k) :
    ∃ bs, Block.eventsAll bs = es ++ List.replicate k .closing := by
  obtain ⟨bs, outer, hlength, heq⟩ := exists_forests h
  rw [List.length_eq_zero_iff.mp hlength, List.flatMap_nil, List.append_nil] at heq
  exact ⟨bs, heq.symm⟩

namespace Writer

/-- A scope that is closed early, after those inside it, is a scope with what was written so far as its
body. -/
theorem run_scope (w : Writer) (header : String) (d : Delimiter) (terminator : String)
    {inside : List Event} {k : Nat} (h : openAfter 0 inside = some k) :
    ∃ body, Block.eventsAll body = inside ++ List.replicate k .closing ∧
      w.run (.opening header d terminator :: inside ++ List.replicate (k + 1) .closing) =
        { w with text := w.text ++
          (Block.scope header d terminator body).render w.indent w.depth } := by
  obtain ⟨body, hbody⟩ := exists_forest h
  refine ⟨body, hbody, ?_⟩
  have hevents : .opening header d terminator :: inside ++ List.replicate (k + 1) .closing =
      (Block.scope header d terminator body).events := by
    rw [Block.events, hbody, List.replicate_succ']
    simp
  rw [hevents, run_events, block_eq]

/-- Throughout a run, the depth of the writer is the number of its open scopes. -/
theorem depth_of_openAfter {w : Writer} (hw : w.closers = []) (hdepth : w.depth = 0)
    {es : List Event} {n : Nat} (h : openAfter 0 es = some n) :
    (w.run es).depth = n ∧ (w.run es).closers.length = n := by
  have hlength : (w.run es).closers.length = n := by
    refine length_closers ?_
    rwa [hw]
  have hnested : Nested w.closers w.depth := by
    rw [hw, hdepth]
    exact .nil
  exact ⟨(hnested.run es).depth_eq.trans hlength, hlength⟩

end Writer

/-- A new writer that is driven through a forest ends with the text of the forest, at the left edge and
with no scope open, and it has closed as many scopes as it opened. After each event its depth is the
number of scopes that are open, which are those opened and not yet closed; and if the run breaks off
there and the open scopes are closed, it was the run through a forest. A scope that is closed at any
place of its body leaves the writer as it was before the scope opened, but for the text of the scope
with the body so far. -/
theorem Writer.renders_forest (indent : String) (bs : List Block) :
    let w : Writer := { indent := indent }
    let es := Block.eventsAll bs
    w.run es = { w with text := Block.renderAll indent 0 bs } ∧
    es.countP Event.isClosing = es.countP Event.isOpening ∧
    (∀ done, done <+: es → ∃ n, (w.run done).depth = n ∧ (w.run done).closers.length = n ∧
      n + done.countP Event.isClosing = done.countP Event.isOpening ∧
      ∃ cut, Block.eventsAll cut = done ++ List.replicate n .closing ∧
        w.run (done ++ List.replicate n .closing) =
          { w with text := Block.renderAll indent 0 cut }) ∧
    ∀ done header d terminator inside n, openAfter 0 inside = some n →
      ∃ body, Block.eventsAll body = inside ++ List.replicate n .closing ∧
        w.run (done ++ .opening header d terminator :: inside ++
          List.replicate (n + 1) .closing) =
        { w.run done with text := (w.run done).text ++
          (Block.scope header d terminator body).render indent (w.run done).depth } := by
  intro w es
  have hforest : ∀ cs, w.run (Block.eventsAll cs) = { w with text := Block.renderAll indent 0 cs } := by
    intro cs
    rw [run_forest]
    exact congrArg (fun text => { w with text := text }) String.empty_append
  refine ⟨hforest bs, ?_, fun done hdone => ?_, fun done header d terminator inside n hn => ?_⟩
  · simpa using count_of_openAfter (openAfter_eventsAll bs 0)
  · obtain ⟨n, hn⟩ := openAfter_of_prefix hdone
    obtain ⟨hdepth, hlength⟩ := depth_of_openAfter (w := w) rfl rfl hn
    obtain ⟨cut, hcut⟩ := exists_forest hn
    refine ⟨n, hdepth, hlength, ?_, cut, hcut, ?_⟩
    · simpa using count_of_openAfter hn
    · rw [← hcut, hforest]
  · obtain ⟨body, hbody, hrun⟩ := run_scope (w.run done) header d terminator hn
    refine ⟨body, hbody, ?_⟩
    rw [List.append_assoc, run_append, hrun]
    dsimp only
    rw [indent_run]

/-- A scope that is given up after its first line is closed all the same. -/
example : (({ indent := "  " } : Writer).run [.opening "fn partial()" .brace "", .line "first();",
    .closing]).text = "fn partial() \x7b\n  first();\n\x7d\n" := by decide

end EnumLookup.Layout
