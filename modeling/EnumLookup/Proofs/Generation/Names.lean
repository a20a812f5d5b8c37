import EnumLookup.Proofs.Discriminator.Assignment
import EnumLookup.Proofs.Discriminator.Shape
import EnumLookup.Proofs.Generation.Meaning

/-!
# Names of generated functions

Discriminators are distinct, so the names of helpers are distinct texts. None of them is the name of
a dispatcher, since no discriminator is a keyword.
-/

namespace EnumLookup.Generation

open Source Discriminator

theorem helperName_injective (o : Operation) {d d' : String}
    (h : helperName o d = helperName o d') : d = d' := by
  rwa [helperName, helperName, String.append_left_inj, String.append_left_inj] at h

/-- The one discriminator whose helper would have the name of an operation's dispatcher. -/
theorem eq_enum_of_helperName {o : Operation} {d : String} (h : helperName o d = o.dispatcher) :
    o ≠ .tryParse ∧ d = "enum" := by
  cases o with
  | nameLookup => exact ⟨nofun, helperName_injective .nameLookup (h.trans (by decide))⟩
  | valueTable => exact ⟨nofun, helperName_injective .valueTable (h.trans (by decide))⟩
  | tryParse =>
      have hlast := congrArg (fun s => s.toList.getLast?) h
      simp [helperName, Operation.suffix, Operation.dispatcher] at hlast

theorem ne_enum_of_form {name base d : String} (h : discriminator name = .ok base)
    (hd : IsForm base d) : d ≠ "enum" := by
  rintro rfl
  rcases hd with rfl | ⟨k, hk⟩
  · have hid := (discriminator_ok h).2.2
    exact absurd hid (by decide)
  · have hmem : '_' ∈ "enum".toList := by rw [hk, numbered]; simp
    exact absurd hmem (by decide)

theorem assign_of_enums {enums : List Resolved}
    (h : ∀ e ∈ enums, ∃ base, discriminator e.name = .ok base) :
    ∃ ds, assign (enums.map Resolved.name) = .ok ds := by
  refine assign_of_accepted fun name hname => ?_
  obtain ⟨e, he, rfl⟩ := List.mem_map.mp hname
  exact h e he

section Assigned

variable {enums : List Resolved} {ds : List String} (h : assign (enums.map Resolved.name) = .ok ds)

include h

theorem length_assigned : ds.length = enums.length := by
  rw [← (assign_forms h).length_eq, List.length_map]

/-- Each enum is paired with a form of its own base. -/
theorem form_of_mem_zip {p : Resolved × String} (hp : p ∈ enums.zip ds) :
    ∃ base, discriminator p.1.name = .ok base ∧ IsForm base p.2 :=
  (List.forall₂_iff_zip.mp (List.forall₂_map_left_iff.mp (assign_forms h))).2 hp

theorem map_snd_assigned : (enums.zip ds).map Prod.snd = ds :=
  List.map_snd_zip (length_assigned h).le

theorem map_fst_assigned : (enums.zip ds).map Prod.fst = enums :=
  List.map_fst_zip (length_assigned h).ge

/-- Assigned names are accepted ones. -/
theorem accepted_of_assigned : ∀ e ∈ enums, ∃ base, discriminator e.name = .ok base := by
  intro e he
  rw [← map_fst_assigned h] at he
  obtain ⟨p, hp, rfl⟩ := List.mem_map.mp he
  obtain ⟨base, hbase, _⟩ := form_of_mem_zip h hp
  exact ⟨base, hbase⟩

/-- The functions of a lookup file have distinct names, read as texts. -/
theorem nodup_functionNames (o : Operation) : (functionNames o (enums.zip ds)).Nodup := by
  have hds := assign_nodup h
  rw [← map_snd_assigned h, List.Nodup, List.pairwise_map] at hds
  rw [functionNames, List.nodup_append']
  refine ⟨List.pairwise_map.mpr (hds.imp fun hne he => hne (helperName_injective o he)),
    List.nodup_singleton _, ?_⟩
  intro n hn hn'
  obtain ⟨p, hp, rfl⟩ := List.mem_map.mp hn
  obtain ⟨_, henum⟩ := eq_enum_of_helperName (List.mem_singleton.mp hn')
  obtain ⟨base, hbase, hform⟩ := form_of_mem_zip h hp
  exact ne_enum_of_form hbase hform henum

end Assigned

end EnumLookup.Generation
