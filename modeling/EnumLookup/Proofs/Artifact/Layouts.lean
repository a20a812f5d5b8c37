import EnumLookup.Proofs.Artifact.Readable
import EnumLookup.Proofs.Source.Alike

/-!
# Both layouts say the same

Whether the text of an artifact is laid out for reading changes neither which artifacts there are nor
what they say: the two texts of an artifact have the same tokens and documentation, apart from commas
and braces that may be left out.
-/

namespace EnumLookup

open Source Generation Discriminator Outcome

/-- Two outcomes are the same fault, or artifacts of one kind that say the same: both texts are the
notice and tokens of one file, and the tokens are alike. -/
inductive SameCode : Except Fault Artifact → Except Fault Artifact → Prop where
  | fault (f : Fault) : SameCode (.error f) (.error f)
  | code {a b : Artifact} {s t : String} {ts us : List Token} {file : File} : a.kind = b.kind →
      a.fileName = b.fileName → a.text = Artifact.notice ++ s → b.text = Artifact.notice ++ t →
      tokens? a.text.toList = some ts → tokens? b.text.toList = some us → file.Spells ts →
      file.Spells us → Alike ts us → SameCode (.ok a) (.ok b)

namespace Artifact

variable {enums : List Resolved} {c : Config} {kind : ArtifactKind} {ds : List String}

theorem listing_layout (p : Bool) :
    listing kind enums { c with pretty := p } = listing kind enums c := by
  cases kind <;> rfl

theorem codeFile_layout (p : Bool) :
    codeFile enums { c with pretty := p } ds kind = codeFile enums c ds kind := by
  cases kind <;> rfl

/-- Whether an artifact is built does not depend on the layout. -/
theorem build_layout (enums : List Resolved) (c : Config) (kind : ArtifactKind) (p q : Bool) :
    (∃ f, build enums { c with pretty := p } kind = .error f ∧
      build enums { c with pretty := q } kind = .error f) ∨
    ∃ a b, build enums { c with pretty := p } kind = .ok a ∧
      build enums { c with pretty := q } kind = .ok b ∧ a.kind = kind ∧ b.kind = kind := by
  cases hl : listing kind enums c with
  | error f =>
      have herror : ∀ r, build enums { c with pretty := r } kind = .error f :=
        fun r => build_of_unlisted ((listing_layout r).trans hl)
      exact .inl ⟨f, herror p, herror q⟩
  | ok l =>
      cases hread : File.read? (l.text c.indent) with
      | none =>
          exact .inl ⟨.unreadableCode, build_of_unread ((listing_layout p).trans hl) hread,
            build_of_unread ((listing_layout q).trans hl) hread⟩
      | some file =>
          exact .inr ⟨_, _, build_ok.mpr ⟨l, file, (listing_layout p).trans hl, hread, rfl⟩,
            build_ok.mpr ⟨l, file, (listing_layout q).trans hl, hread, rfl⟩, rfl, rfl⟩

theorem tokens_text {s : String} {ts : List Token} (h : Phrase .dropped PhraseEnd s ts) :
    tokens? (notice ++ s).toList = some ts := by
  have htokens := (notice_lexes.join h) [] .nil
  rwa [List.append_nil, tokensAs?_nil, Option.map_some, List.append_nil] at htokens

theorem sameCode_layouts (hc : c.validate = .ok ())
    (hds : assign (enums.map Resolved.name) = .ok ds) (kind : ArtifactKind) :
    SameCode (build enums { c with pretty := false } kind)
      (build enums { c with pretty := true } kind) := by
  rcases build_layout enums c kind false true with
    ⟨f, hplain, hpretty⟩ | ⟨a, b, hplain, hpretty, ha, hb⟩
  · rw [hplain, hpretty]
    exact .fault f
  · obtain ⟨s, hs, ts, hts, hspells⟩ := text_spelt (c := { c with pretty := false }) hc hds hplain
    obtain ⟨t, ht, us, hus, hspells'⟩ := text_spelt (c := { c with pretty := true }) hc hds hpretty
    rw [codeFile_layout] at hspells hspells'
    have hkind : a.kind = b.kind := ha.trans hb.symm
    rw [hplain, hpretty]
    exact .code hkind (congrArg ArtifactKind.fileName hkind) hs ht (hs ▸ tokens_text hts)
      (ht ▸ tokens_text hus) hspells hspells' (hspells.alike hspells')

/-- The layout for reading says the same as the plain one. For enums with distinct names that all
yield discriminators, in a valid configuration, the two runs have the same outcomes one by one: the
same faults, and artifacts of the same kinds and file names whose texts start with the notice and
have alike tokens. -/
theorem layouts_say_the_same (hnames : (enums.map Resolved.name).Nodup)
    (haccepted : ∀ e ∈ enums, ∃ base, discriminator e.name = .ok base)
    (hc : c.validate = .ok ()) :
    ∃ as bs, generate enums { c with pretty := false } = .ok as ∧
      generate enums { c with pretty := true } = .ok bs ∧ List.Forall₂ SameCode as bs := by
  obtain ⟨ds, hds⟩ := assign_of_enums haccepted
  refine ⟨_, _, generate_of_valid hnames hc, generate_of_valid hnames hc, ?_⟩
  rw [List.forall₂_map_left_iff, List.forall₂_map_right_iff]
  exact List.forall₂_same.mpr fun kind _ => sameCode_layouts hc hds kind

theorem alike_of_collidingLevels : ∃ a b ts us,
    build collidingLevels {} (.operation .tryParse) = .ok a ∧
      build collidingLevels { pretty := true } (.operation .tryParse) = .ok b ∧
      tokens? a.text.toList = some ts ∧ tokens? b.text.toList = some us ∧ Alike ts us := by
  have hbases : ∀ e ∈ collidingLevels, ∃ base, discriminator e.name = .ok base :=
    fun e he => ⟨_, (names_collidingLevels e he).1⟩
  have hnames : (collidingLevels.map Resolved.name).Nodup := by decide
  obtain ⟨ds, hds⟩ := assign_of_enums hbases
  obtain ⟨a, ha⟩ := build_of_nameable (c := {}) rfl hds .tryParse
    fun e he => (names_collidingLevels e he).2
  obtain ⟨as, bs, has, hbs, hsame⟩ := layouts_say_the_same (c := {}) hnames hbases rfl
  rw [generate_of_valid hnames rfl] at has hbs
  cases has
  cases hbs
  rw [List.forall₂_map_left_iff, List.forall₂_map_right_iff] at hsame
  have hcode := List.forall₂_same.mp hsame (.operation .tryParse) (by decide)
  rw [ha] at hcode
  generalize hb : build collidingLevels { pretty := true } (.operation .tryParse) = r at hcode
  cases hcode with
  | @code _ b _ _ ts us _ _ _ _ _ hts hus _ _ halike => exact ⟨a, b, ts, us, ha, rfl, hts, hus, halike⟩

end Artifact

end EnumLookup
