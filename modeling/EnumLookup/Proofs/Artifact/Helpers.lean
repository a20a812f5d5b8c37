import EnumLookup.Proofs.Artifact.Collisions
import EnumLookup.Proofs.Registry

/-!
# Helpers agree with their dispatcher

A dispatcher asks the helper of the enum whose tag it is given, so both answer the same, as long as
the name of that helper means it and no other function.
-/

namespace EnumLookup

open Source Generation Discriminator Outcome

/-! ## Integers of 128 bits -/

namespace Source

theorem widenEach_map {α : Type} (f : α → Value) (xs : List α) :
    Value.widenEach (xs.map f) = xs.map fun x => (f x).widen := by
  induction xs with
  | nil => rfl
  | cons x xs ih => rw [List.map_cons, List.map_cons, Value.widenEach, ih]

end Source

namespace Generation

theorem widen_table (w : Option Width) (rows : List (String × Int)) :
    (tableValue w rows).widen = tableValue none rows := by
  rw [tableValue, Value.widen, widenEach_map]
  rfl

theorem tableValue_injective (w : Option Width) {rows rows' : List (String × Int)}
    (h : tableValue w rows = tableValue w rows') : rows = rows' := by
  injection h with h
  refine List.map_injective_iff.mpr (fun row row' hrow => ?_) h
  injection hrow with hrow
  injection hrow with hname hrow
  injection hrow with hvalue _
  injection hname with hname
  injection hvalue with _ hvalue
  exact Prod.ext hname hvalue

/-! ## Lookup files -/

section Lookup

variable {o : Operation} {ps : List (Resolved × String)}

theorem answer?_lookup (f : Function) (args : List Value) :
    (lookupListing o ps).file.answer? f args =
      f.run? (lookupListing o ps).file ((lookupListing o ps).file.callWithin ps.length) args := by
  rw [File.answer?, length_functions]
  rfl

/-- Whatever function of the file has the identifier of an enum's helper agrees with the dispatcher
for that enum, and there is one. Two names are one identifier if they have one key. -/
def HelpersAgree (key : String → String) (file : File) (ps : List (Resolved × String))
    (o : Operation) : Prop :=
  ∀ p ∈ ps, (∃ f ∈ file.functions, f.name = helperName o p.2) ∧
    ∀ f ∈ file.functions, key f.name = key (helperName o p.2) → Agrees file f p.1 o

section Batch

variable (hw : ∀ p ∈ ps, ∀ m ∈ p.1.entries, m.value.width = p.1.width)
  (hnames : ((ps.map Prod.fst).map Resolved.name).Nodup)

include hw hnames

/-- In a lookup file whose functions have distinct names, the helper of each enum agrees with the
dispatcher. -/
theorem agrees_lookup (h : (functionNames o ps).Nodup) {p : Resolved × String} (hp : p ∈ ps) :
    Agrees (lookupListing o ps).file (helper o p.1 p.2) p.1 o := by
  have hclosed := isClosed_lookup o ps
  have hanswers := answers_lookup h hw
  have hfind := Registry.find_of_mem (r := ⟨ps.map Prod.fst⟩) hnames (List.mem_map_of_mem hp)
  cases o with
  | nameLookup =>
      intro n hn
      obtain ⟨v, hrun, hv⟩ := hanswers p.1.name n (isWide_of_holds hn)
      rw [Registry.nameOf_of_find hfind] at hv
      cases hv
      refine ⟨_, ?_, hrun⟩
      rw [answer?_lookup]
      exact hclosed.run_nameHelper (hw p hp) hn
  | valueTable =>
      obtain ⟨v, hrun, hv⟩ := hanswers p.1.name
      rw [Registry.valuesOf_of_find hfind] at hv
      cases hv
      refine ⟨tableValue (some p.1.width) p.1.table, ?_, ?_⟩
      · rw [answer?_lookup]
        exact run_tableHelper (hw p hp)
      · rw [widen_table]
        exact hrun
  | tryParse =>
      intro s
      obtain ⟨v, hrun, hv⟩ := hanswers p.1.name s
      refine ⟨_, (answer?_lookup _ _).trans (hclosed.run_parseHelper (hw p hp) s), ?_⟩
      rw [hrun, ← hv]
      cases hs : Text.isBlank s with
      | true =>
          rw [Registry.tryParse, hs]
          rfl
      | false =>
          rw [Registry.tryParse_of_find hfind hs, if_neg Bool.false_ne_true]
          cases p.1.valueOf? s <;> rfl

/-- The helper of one enum agrees with the dispatcher for another only if their tables are the
same. -/
theorem table_of_agrees (h : (functionNames .valueTable ps).Nodup) {p q : Resolved × String}
    (hp : p ∈ ps) (hq : q ∈ ps)
    (hagrees : Agrees (lookupListing .valueTable ps).file (helper .valueTable p.1 p.2) q.1
      .valueTable) : p.1.table = q.1.table := by
  have htable : ∀ r ∈ ps, (lookupListing .valueTable ps).file.answer?
      (helper .valueTable r.1 r.2) [] = some (tableValue (some r.1.width) r.1.table) := by
    intro r hr
    rw [answer?_lookup]
    exact run_tableHelper (hw r hr)
  obtain ⟨v, hv, hrun⟩ := hagrees
  obtain ⟨v', hv', hrun'⟩ := agrees_lookup hw hnames h hq
  rw [htable p hp] at hv
  rw [htable q hq] at hv'
  cases hv
  cases hv'
  rw [widen_table] at hrun hrun'
  have hsame := hrun.symm.trans hrun'
  injection hsame with hsame
  injection hsame with hsame
  exact tableValue_injective none hsame

theorem helpersAgree_lookup {key : String → String}
    (h : ((lookupListing o ps).file.functions.map fun f => key f.name).Nodup) :
    HelpersAgree key (lookupListing o ps).file ps o := by
  have hdistinct : (functionNames o ps).Nodup := by
    rw [← names_lookup]
    refine List.Nodup.of_map key ?_
    rwa [List.map_map]
  intro p hp
  refine ⟨⟨_, helper_mem hp, helper_name o p.1 p.2⟩, fun f hf hkey => ?_⟩
  rw [← helper_name o p.1 p.2] at hkey
  rw [List.inj_on_of_nodup_map h hf (helper_mem hp) hkey]
  exact agrees_lookup hw hnames hdistinct hp

end Batch

end Lookup

end Generation

namespace Artifact

variable {enums : List Resolved} {c : Config} {o : Operation} {ds : List String}

/-- Typed helpers and their dispatcher agree in every lookup artifact of enums with distinct names
and values of their own widths, as long as the functions of the file are different identifiers,
whatever it is that makes two names one identifier. With `r#` and direction marks apart, they are if
each discriminator is its own identifier. Read with its direction marks, and with names compared as
texts, an artifact in the plain layout has agreeing helpers in any case. -/
theorem helpers_agree (hnames : (enums.map Resolved.name).Nodup)
    (hwidths : ∀ e ∈ enums, ∀ m ∈ e.entries, m.value.width = e.width)
    (hc : c.validate = .ok ()) {a : Artifact} (h : build enums c (.operation o) = .ok a) :
    ∃ ds file, assign (enums.map Resolved.name) = .ok ds ∧ File.read? a.text = some file ∧
      (∀ key : String → String, (file.functions.map fun f => key f.name).Nodup →
        HelpersAgree key file ((enums.zip ds).map (asRead .dropped)) o) ∧
      ((∀ d ∈ ds, core d = d) →
        HelpersAgree identifierOf file ((enums.zip ds).map (asRead .dropped)) o) ∧
      (c.pretty = false → ∃ marked, File.readAs? .kept a.text = some marked ∧
        HelpersAgree id marked (enums.zip ds) o) := by
  obtain ⟨ds, hds⟩ := assign_of_build h
  have hw : ∀ m, ∀ p ∈ (enums.zip ds).map (asRead m), ∀ x ∈ p.1.entries,
      x.value.width = p.1.width := by
    intro m p hp
    refine hwidths p.1 ?_
    rw [← names_asRead hds m]
    exact List.mem_map_of_mem hp
  have hdistinct : ∀ m, ((((enums.zip ds).map (asRead m)).map Prod.fst).map Resolved.name).Nodup := by
    intro m
    rwa [names_asRead hds m]
  refine ⟨ds, _, hds, read_text hc hds h, fun key hkey => ?_, fun hcore => ?_, fun hplain => ?_⟩
  · exact helpersAgree_lookup (hw .dropped) (hdistinct .dropped) hkey
  · exact helpersAgree_lookup (hw .dropped) (hdistinct .dropped)
      (nodup_functionIdentifiers_of_core hds o hcore)
  · have hkept : (enums.zip ds).map (asRead .kept) = enums.zip ds := List.map_id _
    have hread := read_of_build hc hplain hds h .kept
    have hw := hw .kept
    have hdistinct := hdistinct .kept
    have htexts := nodup_functionNames hds o
    rw [← names_lookup] at htexts
    rw [hkept] at hread hw hdistinct
    exact ⟨_, hread, helpersAgree_lookup hw hdistinct htexts⟩

set_option maxRecDepth 4000 in
theorem helpers_agree_of_collidingLevels : ∃ a file,
    build collidingLevels {} (.operation .tryParse) = .ok a ∧ File.read? a.text = some file ∧
      HelpersAgree identifierOf file
        ((collidingLevels.zip ["app_Level", "app_Level_2"]).map (asRead .dropped)) .tryParse := by
  have hassign : assign (collidingLevels.map Resolved.name) = .ok ["app_Level", "app_Level_2"] := by
    decide
  obtain ⟨a, ha⟩ := build_of_nameable (c := {}) rfl hassign .tryParse
    fun e he => (names_collidingLevels e he).2
  obtain ⟨ds, file, hds, hfile, _, hagree, _⟩ := helpers_agree (by decide) (by decide) rfl ha
  rw [hassign] at hds
  cases hds
  exact ⟨a, file, ha, hfile, hagree (by decide)⟩

/-- An enum of one member. -/
def red : Resolved := ⟨"Color", .u8, [⟨"Red", .ofInt .u8 1⟩]⟩

/-- An enum of another member, whose name differs in an `r#` only. -/
def blue : Resolved := ⟨"r#Color", .u8, [⟨"Blue", .ofInt .u8 2⟩]⟩

set_option maxRecDepth 4000 in
/-- The identifier of one enum's helper may be that of another's, which does not agree. -/
theorem raw_helpers_disagree : ([red, blue].map Resolved.name).Nodup ∧
    (∀ e ∈ [red, blue], ∃ base, discriminator e.name = .ok base) ∧
    (∀ e ∈ [red, blue], ∀ m ∈ e.entries, m.value.width = e.width) ∧
    (({} : Config).only [.valueTable]).validate = .ok () ∧
    ∃ ds a file, assign ([red, blue].map Resolved.name) = .ok ds ∧
      build [red, blue] (({} : Config).only [.valueTable]) (.operation .valueTable) = .ok a ∧
      File.read? a.text = some file ∧
      ¬ HelpersAgree identifierOf file (([red, blue].zip ds).map (asRead .dropped)) .valueTable := by
  have hnames : ([red, blue].map Resolved.name).Nodup := by decide
  have hwidths : ∀ e ∈ [red, blue], ∀ m ∈ e.entries, m.value.width = e.width := by decide
  have hnameable : ∀ e ∈ [red, blue], IsNameable e.name := by decide
  have hassign : assign ([red, blue].map Resolved.name) = .ok ["Color", "r#Color"] := by decide
  have hvalid : (({} : Config).only [.valueTable]).validate = .ok () := rfl
  obtain ⟨a, ha⟩ := build_of_nameable hvalid hassign .valueTable hnameable
  refine ⟨hnames, accepted_of_assigned hassign, hwidths, hvalid, _, a, _, hassign, ha,
    read_text hvalid hassign ha, fun hagree => ?_⟩
  have hread : ([red, blue].zip ["Color", "r#Color"]).map (asRead .dropped) =
      [(red, "Color"), (blue, "r#Color")] := by decide
  rw [codeFile, hread] at hagree
  have hmem : helper .valueTable red "Color" ∈
      (lookupListing .valueTable [(red, "Color"), (blue, "r#Color")]).file.functions :=
    helper_mem (p := (red, "Color")) List.mem_cons_self
  obtain ⟨_, hblue⟩ := hagree (blue, "r#Color") (by simp)
  -- The helper of the first enum has the identifier of the second one's, but not its table.
  have htable := table_of_agrees (p := (red, "Color")) (by decide) (by decide) (by decide)
    (by simp) (by simp) (hblue _ hmem (by decide))
  exact absurd htable (by decide)

end Artifact

end EnumLookup
