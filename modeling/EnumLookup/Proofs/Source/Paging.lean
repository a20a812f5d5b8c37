import EnumLookup.Proofs.Layout.Page
import EnumLookup.Proofs.Source.PlainLayout
import EnumLookup.Source.Pretty

/-!
# Tokens on a page

A page shows the tokens of its text whether its line goes on or ends, so it does not matter where
the lines of a document end. What a gap writes when its line ends, or when it goes on, is all that
one layout can spell and another cannot.
-/

namespace EnumLookup.Source

open Layout (Doc Gap Mode Page)
open Phrase

variable {m : Marks} {mode : Mode} {F G H : List Char → Prop}

theorem blanks_add (k n : Nat) : Page.blanks (k + n) = Page.blanks k ++ Page.blanks n := by
  rw [← String.toList_inj, Page.blanks, Page.blanks, Page.blanks, String.toList_append,
    String.toList_ofList, String.toList_ofList, String.toList_ofList, List.replicate_add]

theorem pending_lexes : ∀ n, Phrase m Anything (Page.blanks n) []
  | 0 => nil
  | n + 1 => by
      have hspace : Phrase m Anything (Page.blanks 1) [] := Lexes.space .nil
      rw [blanks_add]
      exact (pending_lexes n).join hspace

theorem startsOff_blanks {n : Nat} (h : n ≠ 0) : startsOff (Page.blanks n) = true := by
  obtain ⟨k, rfl⟩ := Nat.exists_eq_succ_of_ne_zero h
  rw [startsOff, Page.blanks, String.toList_ofList, List.replicate_succ, List.head?_cons]
  decide

/-- The page shows the tokens, if its line ends and if it goes on as it may. -/
structure Shows (m : Marks) (F : List Char → Prop) (p : Page) (ts : List Token) : Prop where
  ends : Phrase m PhraseEnd p.text ts
  continues : Phrase m F (p.text ++ Page.blanks p.pending) ts

namespace Shows

variable {p : Page} {ts us : List Token}

theorem weaken (h : Shows m F p ts) (hf : ∀ rest, G rest → F rest) : Shows m G p ts :=
  ⟨h.ends, h.continues.weaken hf⟩

theorem put {s : String} (h : Shows m F p ts) (hs : Phrase m G s us)
    (hf : ∀ rest, G rest → F (s.toList ++ rest)) (hg : ∀ rest, PhraseEnd rest → G rest) :
    Shows m G (p.put s) (ts ++ us) := by
  have hput : Phrase m G (p.text ++ Page.blanks p.pending ++ s) (ts ++ us) :=
    h.continues.append hs hf
  refine ⟨hput.weaken hg, ?_⟩
  have hnone : Page.blanks 0 = "" := rfl
  show Phrase m G (p.text ++ Page.blanks p.pending ++ s ++ Page.blanks 0) _
  rw [hnone, String.append_empty]
  exact hput

/-- A page shows the same tokens where its next line starts. -/
theorem newLine {text : String} (h : Phrase m Anything (text ++ "\n") ts) {q : Page}
    (hq : q.text = text ++ "\n") : Shows m Anything q ts := by
  refine ⟨?_, ?_⟩
  · rw [hq]
    exact h.ofAnything
  · rw [hq, ← List.append_nil ts]
    exact h.join (pending_lexes _)

theorem turn {g : Gap} (h : Shows m F p ts) (hbefore : g.before = "") (hafter : g.after = "") :
    Shows m Anything (p.turn g) ts := by
  have hline := h.ends.before lineEnd_lexes (by decide)
  rw [List.append_nil] at hline
  refine newLine hline ?_
  unfold Page.turn
  rw [hbefore, hafter]
  rfl

/-- A line that ends with a mark. -/
theorem turnBefore {g : Gap} {x : Mark} (h : Shows m PhraseEnd p ts)
    (hx : g.before.toList = x.chars) (hclosed : x.isClosed = true)
    (hoff : startsOff g.before = true) (hafter : g.after = "") :
    Shows m Anything (p.turn g) (ts ++ [.mark x]) := by
  have hmark : Phrase m Anything g.before [.mark x] := .ofMark x hx hclosed
  have hline := (h.continues.before hmark hoff).join lineEnd_lexes
  rw [List.append_nil] at hline
  refine newLine hline ?_
  have hne : g.before.isEmpty = false := by
    cases hempty : g.before.isEmpty with
    | false => rfl
    | true =>
        rw [String.isEmpty_iff.mp hempty] at hoff
        exact absurd hoff (by decide)
  unfold Page.turn
  rw [hafter, hne]
  rfl

/-- A line that the next one starts with a mark. -/
theorem turnAfter {g : Gap} {x : Mark} (h : Shows m F p ts) (hbefore : g.before = "")
    (hx : g.after.toList = x.chars) (hclosed : x.isClosed = true)
    (hne : g.after.isEmpty = false) : Shows m Anything (p.turn g) (ts ++ [.mark x]) := by
  have hline : Shows m Anything (p.turn { g with after := "" }) ts := h.turn hbefore rfl
  have hput := hline.put (Phrase.ofMark x hx hclosed) (fun _ _ => trivial) fun _ _ => trivial
  have hturn : p.turn g = (p.turn { g with after := "" }).put g.after := by
    unfold Page.turn
    simp [hne]
  rwa [hturn]

theorem stay {g : Gap} (h : Shows m F p ts) (hflat : g.flat = "") :
    Shows m F (p.stay g) ts := by
  have hsame : (p.stay g).text = p.text := by rw [Page.stay, hflat, String.append_empty]
  refine ⟨hsame ▸ h.ends, ?_⟩
  by_cases hblanks : g.blanks = 0
  · have hpending : (p.stay g).pending = p.pending := by rw [Page.stay, hblanks]; rfl
    rw [hsame, hpending]
    exact h.continues
  · have hsome : startsOff (Page.blanks (p.pending + g.blanks)) = true :=
      startsOff_blanks (by omega)
    have hcontinues := h.ends.before (pending_lexes _) hsome
    rw [List.append_nil] at hcontinues
    rw [hsame]
    exact hcontinues.ofAnything

/-- A line that goes on behind a space. -/
theorem staySpaced {g : Gap} (h : Shows m F p ts) (hflat : g.flat = "") (hblanks : g.blanks ≠ 0) :
    Shows m Anything (p.stay g) ts := by
  have hsame : (p.stay g).text = p.text := by rw [Page.stay, hflat, String.append_empty]
  have hsome : startsOff (Page.blanks (p.pending + g.blanks)) = true :=
    startsOff_blanks (by omega)
  have hcontinues := h.ends.before (pending_lexes _) hsome
  rw [List.append_nil] at hcontinues
  refine ⟨hsame ▸ h.ends, ?_⟩
  rw [hsame]
  exact hcontinues

/-- A line that goes on behind a mark. -/
theorem stayBehind {g : Gap} {x : Mark} (h : Shows m F p ts) (hx : g.flat.toList = x.chars)
    (hclosed : x.isClosed = true) (hoff : startsOff g.flat = true) :
    Shows m Anything (p.stay g) (ts ++ [.mark x]) := by
  have hflat := h.ends.before (.ofMark x hx hclosed : Phrase m Anything _ _) hoff
  refine ⟨hflat.ofAnything, ?_⟩
  have hcontinues := hflat.join (pending_lexes (p.pending + g.blanks))
  rw [List.append_nil] at hcontinues
  exact hcontinues

end Shows

/-! ## Documents -/

/-- Behind a text that an `F` may follow, the documents are laid out as tokens of a kind that a `G`
may follow. -/
def Lays (m : Marks) (mode : Mode) (F G : List Char → Prop) (ds : List Doc)
    (A : List Token → Prop) : Prop :=
  ∀ (reach : Nat) (p : Page) (ts : List Token), Shows m F p ts →
    ∃ us, A us ∧ Shows m G (p.docs mode reach ds) (ts ++ us)

/-- Tokens of one kind before tokens of another. -/
def Joined (A B : List Token → Prop) (ts : List Token) : Prop :=
  ∃ us vs, A us ∧ B vs ∧ ts = us ++ vs

section Sequences

variable {ds es : List Doc} {A B : List Token → Prop}

/-- Documents behind others are laid out on the page that the others leave. -/
theorem Shows.docs_append {p : Page} {reach : Nat} {ts : List Token}
    (hds : ∃ us, A us ∧ Shows m G (p.docs mode (Doc.reach reach es) ds) (ts ++ us))
    (hes : ∀ us, Shows m G (p.docs mode (Doc.reach reach es) ds) us →
      ∃ vs, B vs ∧ Shows m H ((p.docs mode (Doc.reach reach es) ds).docs mode reach es) (us ++ vs)) :
    ∃ us, Joined A B us ∧ Shows m H (p.docs mode reach (ds ++ es)) (ts ++ us) := by
  obtain ⟨us, hus, hshows⟩ := hds
  obtain ⟨vs, hvs, hall⟩ := hes _ hshows
  refine ⟨us ++ vs, ⟨us, vs, hus, hvs, rfl⟩, ?_⟩
  rw [Page.docs_append, ← List.append_assoc]
  exact hall

end Sequences

namespace Lays

variable {ds es : List Doc} {A B C : List Token → Prop}

theorem nil (h : A []) : Lays m mode F F [] A := by
  intro reach p ts hp
  refine ⟨[], h, ?_⟩
  rw [Page.docs, List.append_nil]
  exact hp

theorem mono (h : Lays m mode F G ds A) (hab : ∀ us, A us → B us) : Lays m mode F G ds B := by
  intro reach p ts hp
  obtain ⟨us, hus, hshows⟩ := h reach p ts hp
  exact ⟨us, hab us hus, hshows⟩

theorem weaken (h : Lays m mode F G ds A) (hg : ∀ rest, H rest → G rest) :
    Lays m mode F H ds A := by
  intro reach p ts hp
  obtain ⟨us, hus, hshows⟩ := h reach p ts hp
  exact ⟨us, hus, hshows.weaken hg⟩

theorem ofWord (h : Lays m mode F WordEnd ds A) : Lays m mode F PhraseEnd ds A :=
  h.weaken fun _ => PhraseEnd.wordEnd

theorem ofAnything (h : Lays m mode F Anything ds A) : Lays m mode F G ds A :=
  h.weaken fun _ _ => trivial

/-- Where any text may come, so may the documents. -/
theorem anywhere (h : Lays m mode F G ds A) : Lays m mode Anything G ds A :=
  fun reach p ts hp => h reach p ts (hp.weaken fun _ _ => trivial)

theorem join (h : Lays m mode F G ds A) (h' : Lays m mode G H es B) :
    Lays m mode F H (ds ++ es) (Joined A B) :=
  fun reach p ts hp => Shows.docs_append (h _ p ts hp) fun us => h' reach _ us

/-- A document before the others. -/
theorem cons {d : Doc} (h : Lays m mode F G [d] A) (h' : Lays m mode G H es B) :
    Lays m mode F H (d :: es) (Joined A B) := h.join h'

theorem text {s : String} {us : List Token} (hs : Phrase m G s us)
    (hf : ∀ rest, G rest → F (s.toList ++ rest)) (hg : ∀ rest, PhraseEnd rest → G rest) :
    Lays m mode F G [.text s] (· = us) := by
  intro reach p ts hp
  exact ⟨us, rfl, hp.put hs hf hg⟩

/-- A text that nothing can extend, where any text may come. -/
theorem whole {s : String} {us : List Token} (hs : Phrase m Anything s us) :
    Lays m mode Anything Anything [.text s] (· = us) :=
  text hs (fun _ _ => trivial) fun _ _ => trivial

/-- A text that nothing can extend and that ends what is before it. -/
theorem closing {s : String} {us : List Token} (hs : Phrase m Anything s us)
    (hoff : startsOff s = true) : Lays m mode PhraseEnd Anything [.text s] (· = us) :=
  text hs (fun rest _ => .of_startsOff hoff rest) fun _ _ => trivial

theorem word {s : String} {us : List Token} (hs : Phrase m WordEnd s us) :
    Lays m mode Anything WordEnd [.text s] (· = us) :=
  text hs (fun _ _ => trivial) fun _ => PhraseEnd.wordEnd

theorem literal {s : String} {us : List Token} (hs : Phrase m PhraseEnd s us) :
    Lays m mode Anything PhraseEnd [.text s] (· = us) :=
  text hs (fun _ _ => trivial) fun _ h => h

theorem mark (x : Mark) {s : String} (hs : s.toList = x.chars) (hx : x.isClosed = true)
    (hoff : startsOff s = true) : Lays m mode PhraseEnd Anything [.text s] (· = [.mark x]) :=
  closing (.ofMark x hs hx) hoff

theorem gap {g : Gap} (h : ∀ reach p ts, Shows m F p ts →
      ∃ us, A us ∧ Shows m G (p.gap mode reach g) (ts ++ us)) : Lays m mode F G [.gap g] A :=
  fun reach p ts hp => h (Doc.reach reach []) p ts hp

/-- A gap at which a line goes on or ends. -/
theorem gap_of_ends {g : Gap} (hstay : ∀ p ts, Shows m F p ts →
      ∃ us, A us ∧ Shows m G (p.stay g) (ts ++ us))
    (hturn : ∀ p ts, Shows m F p ts → ∃ us, A us ∧ Shows m G (p.turn g) (ts ++ us)) :
    Lays m mode F G [.gap g] A := by
  refine gap fun reach p ts hp => ?_
  unfold Page.gap
  split
  · exact hstay p ts hp
  cases mode with
  | fits => exact hstay p ts hp
  | consistent => exact hturn p ts hp
  | inconsistent =>
      dsimp only
      split
      · exact hstay p ts hp
      · exact hturn p ts hp

/-- A gap that has no tokens. -/
theorem blank {g : Gap} (hstay : ∀ p ts, Shows m F p ts → Shows m G (p.stay g) ts)
    (hturn : ∀ p ts, Shows m F p ts → Shows m G (p.turn g) ts) :
    Lays m mode F G [.gap g] (· = []) := by
  refine gap_of_ends (fun p ts hp => ⟨[], rfl, ?_⟩) fun p ts hp => ⟨[], rfl, ?_⟩
  · rw [List.append_nil]
    exact hstay p ts hp
  · rw [List.append_nil]
    exact hturn p ts hp

/-- A gap that writes nothing. -/
theorem zero {g : Gap} (hbefore : g.before = "") (hafter : g.after = "") (hflat : g.flat = "") :
    Lays m mode F F [.gap g] (· = []) :=
  blank (fun _ _ hp => hp.stay hflat) fun _ _ hp =>
    (hp.turn hbefore hafter).weaken fun _ _ => trivial

/-- A gap that writes white space. -/
theorem space {g : Gap} (hbefore : g.before = "") (hafter : g.after = "") (hflat : g.flat = "")
    (hblanks : g.blanks ≠ 0) : Lays m mode PhraseEnd Anything [.gap g] (· = []) :=
  blank (fun _ _ hp => hp.staySpaced hflat hblanks) fun _ _ hp => hp.turn hbefore hafter

/-- The gap behind the last item of a list. -/
theorem lastGap {offset : Int} : Lays m mode PhraseEnd PhraseEnd
    [.gap { before := ",", offset := offset }] OptionalComma := by
  refine gap_of_ends (fun p ts hp => ⟨[], .absent, ?_⟩) fun p ts hp => ⟨_, .present, ?_⟩
  · rw [List.append_nil]
    exact hp.stay rfl
  · have hoff : startsOff "," = true := by decide
    have hcomma : ",".toList = Mark.comma.chars := rfl
    exact (hp.turnBefore hcomma rfl hoff rfl).weaken fun _ _ => trivial

/-- A gap in a box on one line. -/
theorem fitting {g : Gap} (hstay : ∀ p ts, Shows m F p ts →
      ∃ us, A us ∧ Shows m G (p.stay g) (ts ++ us)) : Lays m .fits F G [.gap g] A := by
  refine gap fun reach p ts hp => ?_
  unfold Page.gap
  split
  · exact hstay p ts hp
  · exact hstay p ts hp

/-- A gap in a box that is broken everywhere. -/
theorem breaking {g : Gap} (hrigid : g.isRigid = false) (hturn : ∀ p ts, Shows m F p ts →
      ∃ us, A us ∧ Shows m G (p.turn g) (ts ++ us)) : Lays m .consistent F G [.gap g] A := by
  refine gap fun reach p ts hp => ?_
  rw [Page.gap, if_neg (by simp [hrigid])]
  exact hturn p ts hp

theorem box {isConsistent : Bool} {offset : Int} (hfits : Lays m .fits F G ds A)
    (hbroken : Lays m (if isConsistent then .consistent else .inconsistent) F G ds A) :
    Lays m mode F G [.box isConsistent offset ds] A := by
  intro reach p ts hp
  rw [Page.docs, Page.docs, Page.doc]
  split
  · exact hfits _ p ts hp
  · have hinner : Shows m F ({ p with indent := p.indent + offset } : Page) ts :=
      ⟨hp.ends, hp.continues⟩
    obtain ⟨us, hus, hshows⟩ := hbroken (Doc.reach reach []) _ ts hinner
    exact ⟨us, hus, hshows.ends, hshows.continues⟩

theorem anyBox {isConsistent : Bool} {offset : Int} (h : ∀ mode, Lays m mode F G ds A) :
    Lays m mode F G [.box isConsistent offset ds] A := box (h _) (h _)

end Lays

/-- The documents are laid out as the thing, however they are broken. -/
def LaidOut (m : Marks) (G : List Char → Prop) {α : Type} (spells : α → List Token → Prop)
    (ds : List Doc) (x : α) : Prop := ∀ mode, Lays m mode Anything G ds (spells x)

section Lists

variable {α : Type} {spells : α → List Token → Prop}

open Pretty

theorem separated_laid {dss : List (List Doc)} {xs : List α}
    (h : List.Forall₂ (LaidOut m PhraseEnd spells) dss xs) :
    LaidOut m PhraseEnd (Items spells) (separated dss) xs := by
  intro mode
  induction h with
  | nil => exact (Lays.nil .nil).ofAnything
  | @cons ds x dss xs hx hxs ih =>
      cases hxs with
      | nil =>
          refine ((hx mode).join Lays.lastGap).mono ?_
          rintro _ ⟨us, _, hus, _ | _, rfl⟩
          · rw [List.append_nil]
            exact .last hus
          · exact .lastComma hus
      | @cons ds' y dss xs hy hys =>
          have hcomma : Lays m mode PhraseEnd Anything [.text ","] (· = [.mark .comma]) :=
            .mark .comma rfl rfl (by decide)
          have hspace : Lays m mode Anything Anything [Pretty.space] (· = []) :=
            .zero rfl rfl rfl
          refine (((hx mode).join (hcomma.cons hspace)).join ih).mono ?_
          rintro _ ⟨_, us, ⟨ts, _, hts, ⟨_, _, rfl, rfl, rfl⟩, rfl⟩, hus, rfl⟩
          rw [List.append_assoc]
          exact .cons hts hus

theorem listed_laid {dss : List (List Doc)} {xs : List α}
    (h : List.Forall₂ (LaidOut m PhraseEnd spells) dss xs) (offset : Int) :
    LaidOut m PhraseEnd (Items spells) (listed offset dss) xs := by
  intro mode
  cases h with
  | nil => exact (Lays.nil .nil).ofAnything
  | cons hx hxs =>
      have hzero : ∀ mode, Lays m mode Anything Anything [Pretty.zero] (· = []) :=
        fun _ => .zero rfl rfl rfl
      refine Lays.anyBox fun mode => ((hzero mode).cons (separated_laid (.cons hx hxs) mode)).mono ?_
      rintro _ ⟨_, us, rfl, hus, rfl⟩
      exact hus

end Lists

end EnumLookup.Source
