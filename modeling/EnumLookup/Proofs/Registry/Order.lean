import EnumLookup.Proofs.Registry

/-!
# The order of a registry's enums

Lookups take the first enum of a tag. Since a registry has one enum for each tag, the first is the
only one, and the order in which the enums were listed shows in no answer.
-/

namespace EnumLookup.Registry

variable {r r' : Registry} {es es' : List Resolved} {tag : String}

theorem find_ok (hnodup : r.tags.Nodup) {e : Resolved} :
    r.find tag = .ok e ↔ e ∈ r.enums ∧ e.name = tag := by
  constructor
  · intro h
    rw [find] at h
    split at h
    · rename_i e' he'
      cases h
      exact ⟨List.mem_of_find?_eq_some he', by simpa using List.find?_some he'⟩
    · cases h
  · rintro ⟨he, rfl⟩
    exact find_of_mem hnodup he

theorem find_error {f : Fault} : r.find tag = .error f ↔ tag ∉ r.tags ∧ f = .unsupportedTag tag := by
  rw [find]
  split
  · rename_i e he
    have hname : e.name = tag := by simpa using List.find?_some he
    have htag : tag ∈ r.tags := by
      rw [← hname]
      exact List.mem_map_of_mem (List.mem_of_find?_eq_some he)
    constructor
    · intro h
      cases h
    · exact fun h => absurd htag h.1
  · rename_i hnone
    have htag : tag ∉ r.tags := by
      intro h
      obtain ⟨e, he, hname⟩ := List.mem_map.mp h
      exact List.find?_eq_none.mp hnone e he (by simpa using hname)
    rw [Outcome.throw_error]
    exact ⟨fun h => ⟨htag, h.symm⟩, fun h => h.2.symm⟩

/-- Registries with the same enums find the same one for every tag, or none for the same reason. -/
theorem find_of_perm (h : r.enums.Perm r'.enums) (hnodup : r.tags.Nodup) (tag : String) :
    r.find tag = r'.find tag := by
  have htags : r.tags.Perm r'.tags := h.map Resolved.name
  cases hfind : r'.find tag with
  | ok e =>
      obtain ⟨he, hname⟩ := (find_ok (htags.nodup_iff.mp hnodup)).mp hfind
      exact (find_ok hnodup).mpr ⟨h.mem_iff.mpr he, hname⟩
  | error f =>
      obtain ⟨htag, hf⟩ := find_error.mp hfind
      exact find_error.mpr ⟨mt htags.mem_iff.mp htag, hf⟩

theorem accepts_iff : (∃ r, ofResolved es = .ok r) ↔ (es.map Resolved.name).Nodup :=
  ⟨fun ⟨_, h⟩ => (ofResolved_ok.mp h).1, fun h => ⟨_, ofResolved_ok.mpr ⟨h, rfl⟩⟩⟩

/-- Enums make a registry in every order or in none, and every lookup answers the same whatever their
order is. -/
theorem lookups_of_perm (h : es.Perm es') :
    ((∃ r, ofResolved es = .ok r) ↔ ∃ r', ofResolved es' = .ok r') ∧
    ∀ r r', ofResolved es = .ok r → ofResolved es' = .ok r' →
      (∀ tag v, r.nameOf tag v = r'.nameOf tag v) ∧
      (∀ tag, r.valuesOf tag = r'.valuesOf tag) ∧
      ∀ tag name, r.tryParse tag name = r'.tryParse tag name := by
  refine ⟨?_, fun r r' hr hr' => ?_⟩
  · rw [accepts_iff, accepts_iff]
    exact (h.map Resolved.name).nodup_iff
  · obtain ⟨hnodup, rfl⟩ := ofResolved_ok.mp hr
    obtain ⟨_, rfl⟩ := ofResolved_ok.mp hr'
    have hfind : ∀ tag, find ⟨es⟩ tag = find ⟨es'⟩ tag := find_of_perm h hnodup
    refine ⟨fun tag v => ?_, fun tag => ?_, fun tag name => ?_⟩
    · rw [nameOf, nameOf, hfind]
    · rw [valuesOf, valuesOf, hfind]
    · rw [tryParse, tryParse, hfind]

/-- Two enums that share a member's name and a value. -/
def sharedLevels : List Resolved := [
  ⟨"app.Level", .u8, [⟨"Low", .ofInt .u8 1⟩]⟩,
  ⟨"net.Level", .i8, [⟨"Off", .ofInt .i8 1⟩, ⟨"Low", .ofInt .i8 2⟩]⟩]

theorem lookups_of_sharedLevels : ∃ r r', ofResolved sharedLevels = .ok r ∧
    ofResolved sharedLevels.reverse = .ok r' ∧ r.tags ≠ r'.tags ∧
    r'.nameOf "net.Level" 1 = .ok (some "Off") ∧ r'.tryParse "app.Level" "Low" = .ok (some 1) ∧
    r'.valuesOf "app.Other" = .error (.unsupportedTag "app.Other") := by
  have hr : ofResolved sharedLevels = .ok ⟨sharedLevels⟩ := rfl
  obtain ⟨haccepts, hsame⟩ := lookups_of_perm (List.reverse_perm sharedLevels).symm
  obtain ⟨r', hr'⟩ := haccepts.mp ⟨_, hr⟩
  obtain ⟨hname, hvalues, hparse⟩ := hsame _ r' hr hr'
  refine ⟨_, r', hr, hr', ?_, ?_, ?_, ?_⟩
  · rw [(ofResolved_ok.mp hr').2]
    decide
  · rw [← hname]
    rfl
  · rw [← hparse]
    rfl
  · rw [← hvalues]
    rfl

end EnumLookup.Registry
