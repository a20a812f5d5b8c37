import EnumLookup.Proofs.Artifact.Readable

/-!
# When function names collide

Discriminators are kept apart as texts. Two texts may be one identifier, since `r#` in front and
direction marks are no part of it, and then a file defines a function twice.
-/

namespace EnumLookup

open Source Generation Discriminator Outcome

namespace Source

/-- The identifier that a word spells. An `r#` in front is no part of it. -/
def identifierOf (w : String) : String :=
  match w.toList with
  | 'r' :: '#' :: cs => String.ofList cs
  | _ => w

def File.functionIdentifiers (file : File) : List String :=
  file.functions.map fun f => identifierOf f.name

theorem identifierOf_append (s : String) {tail : String} (h : IsTail tail) :
    identifierOf (s ++ tail) = identifierOf s ++ tail := by
  obtain ⟨c, r, htail, _⟩ := h
  unfold identifierOf
  rw [String.toList_append, htail]
  split
  · rename_i cs heq
    split
    · rename_i cs' heq'
      rw [heq'] at heq
      simp only [List.cons_append, List.cons.injEq, true_and] at heq
      rw [← heq, ← String.toList_inj]
      simp [htail]
    · rename_i hno
      cases hs : s.toList with
      | nil => rw [hs] at heq; simp at heq
      | cons x xs =>
          cases xs with
          | nil => rw [hs] at heq; simp at heq
          | cons y ys =>
              rw [hs] at heq
              simp only [List.cons_append, List.cons.injEq] at heq
              obtain ⟨rfl, rfl, _⟩ := heq
              exact absurd hs (hno ys)
  · rename_i hno
    split
    · rename_i cs heq
      exact absurd (by rw [heq]; rfl) (hno (cs ++ '_' :: c :: r))
    · rfl

end Source

namespace Discriminator

/-- The identifier that a discriminator stands for, without its direction marks. -/
def core (d : String) : String := identifierOf (Marks.dropped.read d)

end Discriminator

namespace Generation

theorem identifierOf_helperName (o : Operation) (d : String) :
    identifierOf (helperName o (Marks.dropped.read d)) = helperName o (core d) := by
  rw [helperName, String.append_assoc, identifierOf_append _ (isTail_suffix o), ← String.append_assoc]
  rfl

/-- The dispatcher shares its identifier with a helper only for one discriminator. -/
theorem helperName_eq_dispatcher {o : Operation} {d : String} :
    helperName o d = o.dispatcher ↔ o ≠ .tryParse ∧ d = "enum" := by
  refine ⟨eq_enum_of_helperName, ?_⟩
  rintro ⟨ho, rfl⟩
  cases o
  · decide
  · decide
  · exact absurd rfl ho

theorem identifierOf_dispatcher (o : Operation) : identifierOf o.dispatcher = o.dispatcher := by
  cases o <;> rfl

/-- Which identifiers the functions of a lookup file have. -/
theorem functionIdentifiers_lookup (o : Operation) (ps : List (Resolved × String)) :
    (lookupListing o (ps.map (asRead .dropped))).file.functionIdentifiers =
      (ps.map fun p => helperName o (core p.2)) ++ [o.dispatcher] := by
  have hnames : (lookupListing o (ps.map (asRead .dropped))).file.functionIdentifiers =
      (functionNames o (ps.map (asRead .dropped))).map identifierOf := by
    rw [← names_lookup, List.map_map]
    rfl
  have hhelpers : ps.map ((identifierOf ∘ fun p => helperName o p.2) ∘ asRead .dropped) =
      ps.map fun p => helperName o (core p.2) := by
    refine List.map_congr_left fun p _ => ?_
    rw [Function.comp, Function.comp, asRead, identifierOf_helperName]
  rw [hnames, functionNames, List.map_append, List.map_map, List.map_map, List.map_singleton,
    identifierOf_dispatcher, hhelpers]

theorem nodup_functionIdentifiers {enums : List Resolved} {ds : List String}
    (hds : assign (enums.map Resolved.name) = .ok ds) (o : Operation) :
    (lookupListing o ((enums.zip ds).map (asRead .dropped))).file.functionIdentifiers.Nodup ↔
      (ds.map core).Nodup ∧ (o ≠ .tryParse → "enum" ∉ ds.map core) := by
  have hcores : (enums.zip ds).map (fun p => helperName o (core p.2)) =
      (ds.map core).map (helperName o) := by
    conv => rhs; rw [← map_snd_assigned hds, List.map_map, List.map_map]
    rfl
  rw [functionIdentifiers_lookup, hcores, List.nodup_append',
    List.nodup_map_iff fun _ _ => helperName_injective o, List.disjoint_singleton]
  have hmem : o.dispatcher ∉ (ds.map core).map (helperName o) ↔
      (o ≠ .tryParse → "enum" ∉ ds.map core) := by
    rw [List.mem_map, not_exists]
    constructor
    · intro h ho henum
      exact h "enum" ⟨henum, helperName_eq_dispatcher.mpr ⟨ho, rfl⟩⟩
    · rintro h d ⟨hd, he⟩
      obtain ⟨ho, rfl⟩ := helperName_eq_dispatcher.mp he
      exact h ho hd
  rw [hmem]
  simp

/-- Discriminators that are their own identifiers leave the functions distinct. -/
theorem nodup_functionIdentifiers_of_core {enums : List Resolved} {ds : List String}
    (hds : assign (enums.map Resolved.name) = .ok ds) (o : Operation)
    (hcore : ∀ d ∈ ds, core d = d) :
    (lookupListing o ((enums.zip ds).map (asRead .dropped))).file.functionIdentifiers.Nodup := by
  have hself : ds.map core = ds := (List.map_congr_left hcore).trans (List.map_id ds)
  rw [nodup_functionIdentifiers hds o, hself]
  refine ⟨assign_nodup hds, fun _ hmem => ?_⟩
  rw [← map_snd_assigned hds] at hmem
  obtain ⟨p, hp, henum⟩ := List.mem_map.mp hmem
  obtain ⟨base, hbase, hform⟩ := form_of_mem_zip hds hp
  exact ne_enum_of_form hbase hform henum

end Generation

namespace Artifact

variable {enums : List Resolved} {c : Config} {o : Operation}

theorem assign_of_build {a : Artifact} (h : build enums c (.operation o) = .ok a) :
    ∃ ds, assign (enums.map Resolved.name) = .ok ds := by
  obtain ⟨l, _, hl, _⟩ := build_ok.mp h
  obtain ⟨ds, hds, _⟩ := bind_ok.mp hl
  exact ⟨ds, hds⟩

/-- In either layout, the functions of a lookup artifact are different identifiers exactly if the
discriminators stand for different identifiers and none of them is the one that makes a helper's
name that of the dispatcher. That holds whenever each discriminator is its own identifier. -/
theorem functions_distinct_iff (hc : c.validate = .ok ()) {a : Artifact}
    (h : build enums c (.operation o) = .ok a) :
    ∃ ds file, assign (enums.map Resolved.name) = .ok ds ∧ File.read? a.text = some file ∧
      (file.functionIdentifiers.Nodup ↔
        (ds.map core).Nodup ∧ (o ≠ .tryParse → "enum" ∉ ds.map core)) ∧
      ((∀ d ∈ ds, core d = d) → file.functionIdentifiers.Nodup) := by
  obtain ⟨ds, hds⟩ := assign_of_build h
  exact ⟨ds, _, hds, read_text hc hds h, nodup_functionIdentifiers hds o,
    nodup_functionIdentifiers_of_core hds o⟩

set_option maxRecDepth 4000 in
theorem functions_distinct_of_collidingLevels : ∃ a file,
    build collidingLevels {} (.operation .nameLookup) = .ok a ∧
      File.read? a.text = some file ∧ file.functionIdentifiers.Nodup := by
  have hassign : assign (collidingLevels.map Resolved.name) = .ok ["app_Level", "app_Level_2"] := by
    decide
  obtain ⟨a, ha⟩ := build_of_nameable (c := {}) rfl hassign .nameLookup
    fun e he => (names_collidingLevels e he).2
  obtain ⟨ds, file, hds, hfile, _, hdistinct⟩ := functions_distinct_iff rfl ha
  rw [hassign] at hds
  cases hds
  exact ⟨a, file, ha, hfile, hdistinct (by decide)⟩

/-- Two enums whose names differ in an `r#` only. -/
def rawColors : List Resolved := [⟨"Color", .u8, []⟩, ⟨"r#Color", .u8, []⟩]

set_option maxRecDepth 4000 in
/-- Enums with different names may give two functions of one identifier. -/
theorem rawColors_collide : (rawColors.map Resolved.name).Nodup ∧
    ({} : Config).validate = .ok () ∧
    ∃ a file, build rawColors {} (.operation .nameLookup) = .ok a ∧
      File.read? a.text = some file ∧ ¬ file.functionIdentifiers.Nodup := by
  have hnameable : ∀ e ∈ rawColors, IsNameable e.name := by decide
  have hassign : assign (rawColors.map Resolved.name) = .ok ["Color", "r#Color"] := by decide
  obtain ⟨a, ha⟩ := build_of_nameable (c := {}) rfl hassign .nameLookup hnameable
  refine ⟨by decide, rfl, a, _, ha, read_text rfl hassign ha, fun hnodup => ?_⟩
  have hcores := ((nodup_functionIdentifiers hassign .nameLookup).mp hnodup).1
  exact absurd hcores (by decide)

end Artifact

end EnumLookup
