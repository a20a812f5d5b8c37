import EnumLookup.Proofs.Batch
import EnumLookup.Proofs.Resolution
import Mathlib.Data.List.Nodup

/-!
# Lookups undo each other

In a registry of declarations the members of an enum have distinct names, so a name leads to its own
value and back to the first member that has this value.
-/

namespace EnumLookup

open Outcome

/-- What has a name of its own is found by it. -/
theorem find?_name {α : Type} {name : α → String} {l : List α} (hnodup : (l.map name).Nodup) {x : α}
    (hx : x ∈ l) : l.find? (name · == name x) = some x := by
  cases hfind : l.find? (name · == name x) with
  | none => simpa using List.find?_eq_none.mp hfind x hx
  | some y =>
      have hname : name y = name x := by simpa using List.find?_some hfind
      rw [List.inj_on_of_nodup_map hnodup (List.mem_of_find?_eq_some hfind) hx hname]

namespace Resolved

variable {e : Resolved} {v : Int} {n : String}

/-- The name stands in the table with the value, and no entry before it has that value. -/
def IsFirstWith (table : List (String × Int)) (v : Int) (n : String) : Prop :=
  ∃ before after, table = before ++ (n, v) :: after ∧ ∀ p ∈ before, p.2 ≠ v

theorem mem_table : (n, v) ∈ e.table ↔ ∃ x ∈ e.entries, x.name = n ∧ x.value.value = v := by
  simp [table]

theorem nameOf?_eq_none : e.nameOf? v = none ↔ ∀ n, (n, v) ∉ e.table := by
  rw [nameOf?, Option.map_eq_none_iff, List.find?_eq_none]
  constructor
  · intro h n hmem
    obtain ⟨x, hx, _, hv⟩ := mem_table.mp hmem
    exact h x hx (by simpa using hv)
  · intro h x hx hv
    exact h x.name (mem_table.mpr ⟨x, hx, rfl, by simpa using hv⟩)

theorem isFirstWith_of_nameOf? (h : e.nameOf? v = some n) : IsFirstWith e.table v n := by
  obtain ⟨x, hx, rfl⟩ := Option.map_eq_some_iff.mp h
  obtain ⟨hv, before, after, hsplit, hbefore⟩ := List.find?_eq_some_iff_append.mp hx
  rw [beq_iff_eq] at hv
  refine ⟨before.map fun m => (m.name, m.value.value), after.map fun m => (m.name, m.value.value),
    ?_, ?_⟩
  · rw [table, hsplit, List.map_append, List.map_cons, hv]
  · intro p hp
    obtain ⟨m, hm, rfl⟩ := List.mem_map.mp hp
    simpa using hbefore m hm

theorem IsFirstWith.mem {table : List (String × Int)} (h : IsFirstWith table v n) :
    (n, v) ∈ table := by
  obtain ⟨before, after, rfl, _⟩ := h
  simp

/-- Where names are distinct, a name has the value that stands beside it. -/
theorem valueOf?_eq_some (hnodup : (e.entries.map Entry.name).Nodup) :
    (e.valueOf? n).map Constant.value = some v ↔ (n, v) ∈ e.table := by
  rw [valueOf?, mem_table]
  constructor
  · intro h
    obtain ⟨c, hc, hv⟩ := Option.map_eq_some_iff.mp h
    obtain ⟨x, hx, rfl⟩ := Option.map_eq_some_iff.mp hc
    have hn := List.find?_some hx
    exact ⟨x, List.mem_of_find?_eq_some hx, by simpa using hn, hv⟩
  · rintro ⟨x, hx, rfl, rfl⟩
    rw [find?_name hnodup hx]
    rfl

end Resolved

namespace Registry

variable {ds : List Declaration} {r : Registry}

theorem ofResolved_ok {es : List Resolved} :
    ofResolved es = .ok r ↔ (es.map Resolved.name).Nodup ∧ r = ⟨es⟩ := by
  rw [ofResolved, bind_ok]
  constructor
  · rintro ⟨_, hdistinct, h⟩
    cases h
    exact ⟨checkDistinct_ok.mp hdistinct, rfl⟩
  · rintro ⟨hnodup, rfl⟩
    exact ⟨(), checkDistinct_ok.mpr hnodup, rfl⟩

/-- Declarations make a registry if all of them resolve to enums with distinct names. -/
theorem ofDeclarations_ok : ofDeclarations ds = .ok r ↔
    ds.map Declaration.resolve = r.enums.map .ok ∧ (r.enums.map Resolved.name).Nodup := by
  rw [ofDeclarations, bind_ok]
  constructor
  · rintro ⟨es, hes, h⟩
    obtain ⟨hnodup, rfl⟩ := ofResolved_ok.mp h
    exact ⟨mapM_ok.mp hes, hnodup⟩
  · rintro ⟨hes, hnodup⟩
    exact ⟨r.enums, mapM_ok.mpr hes, ofResolved_ok.mpr ⟨hnodup, rfl⟩⟩

theorem find_of_mem (hnodup : (r.enums.map Resolved.name).Nodup) {e : Resolved} (he : e ∈ r.enums) :
    r.find e.name = .ok e := by
  rw [find, find?_name hnodup he]
  rfl

section Found

variable {tag : String} {e : Resolved} (h : r.find tag = .ok e)

include h

theorem nameOf_of_find (v : Int) : r.nameOf tag v = .ok (e.nameOf? v) := by
  rw [nameOf, h]; rfl

theorem valuesOf_of_find : r.valuesOf tag = .ok e.table := by
  rw [valuesOf, h]; rfl

theorem tryParse_of_find {n : String} (hn : Text.isBlank n = false) :
    r.tryParse tag n = .ok ((e.valueOf? n).map Constant.value) := by
  rw [tryParse, hn, h]; rfl

end Found

theorem not_blank_of_tryParse {tag n : String} {v : Option Int} (h : r.tryParse tag n = .ok v) :
    Text.isBlank n = false := by
  rw [tryParse] at h
  split at h
  · exact absurd h throw_ne_ok
  · rename_i hn
    simpa using hn

/-- In a registry of declarations a tag belongs to one of them. A name has a value exactly if the two
stand together in the enum's table. A value that stands there has the name of the first member with
it, which leads back to the value and is the only name if no other member has the value. Any other
value has no name; among these are all that the enum's width does not hold. -/
theorem lookups_round_trip (hr : ofDeclarations ds = .ok r) : ∀ tag ∈ r.tags, ∃ d ∈ ds, ∃ e,
    d.name = tag ∧ d.resolve = .ok e ∧ r.valuesOf tag = .ok e.table ∧
      e.table.map Prod.fst = d.members.map Member.name ∧
      (∀ n v, (n, v) ∈ e.table ↔ r.tryParse tag n = .ok (some v)) ∧
      (∀ n v, (n, v) ∈ e.table → ∃ m, r.nameOf tag v = .ok (some m) ∧
        Resolved.IsFirstWith e.table v m ∧ r.tryParse tag m = .ok (some v) ∧
        ((∀ n', (n', v) ∈ e.table → n' = n) → m = n)) ∧
      (∀ v, r.nameOf tag v = .ok none ↔ ∀ n, (n, v) ∉ e.table) ∧
      ∀ v, ¬ e.width.Holds v → r.nameOf tag v = .ok none := by
  intro tag htag
  obtain ⟨hresolve, hnodup⟩ := ofDeclarations_ok.mp hr
  obtain ⟨e, he, rfl⟩ := List.mem_map.mp htag
  have hmem : Except.ok e ∈ ds.map Declaration.resolve := by
    rw [hresolve]
    exact List.mem_map_of_mem he
  obtain ⟨d, hd, hde⟩ := List.mem_map.mp hmem
  have hfind := find_of_mem hnodup he
  have hnames := Declaration.nodup_of_resolve hde
  have hparse : ∀ n v, (n, v) ∈ e.table ↔ r.tryParse e.name n = .ok (some v) := by
    intro n v
    constructor
    · intro hnv
      obtain ⟨x, hx, rfl, _⟩ := Resolved.mem_table.mp hnv
      rw [tryParse_of_find hfind (Declaration.not_blank_of_resolve hde x hx),
        (Resolved.valueOf?_eq_some hnames).mpr hnv]
    · intro h
      rw [tryParse_of_find hfind (not_blank_of_tryParse h)] at h
      exact (Resolved.valueOf?_eq_some hnames).mp (Except.ok.inj h)
  have hnone : ∀ v, r.nameOf e.name v = .ok none ↔ ∀ n, (n, v) ∉ e.table := by
    intro v
    rw [nameOf_of_find hfind, Except.ok.injEq, Resolved.nameOf?_eq_none]
  refine ⟨d, hd, e, ?_, hde, valuesOf_of_find hfind, ?_, hparse, ?_, hnone, ?_⟩
  · exact (Declaration.resolve_name hde).symm
  · rw [← Declaration.names_of_resolve hde, Resolved.table, List.map_map]
    rfl
  · intro n v hnv
    cases hname : e.nameOf? v with
    | none => exact absurd hnv (Resolved.nameOf?_eq_none.mp hname n)
    | some m =>
        have hfirst := Resolved.isFirstWith_of_nameOf? hname
        refine ⟨m, ?_, hfirst, (hparse m v).mp hfirst.mem, fun honly => honly m hfirst.mem⟩
        rw [nameOf_of_find hfind, hname]
  · intro v hv
    rw [hnone]
    intro n hnv
    obtain ⟨x, hx, _, rfl⟩ := Resolved.mem_table.mp hnv
    apply hv
    rw [← Declaration.widths_of_resolve hde x hx]
    exact x.value.fits

/-- A member behind the greatest value of its width gets the value of the first one. -/
def wrappedLevels : List Declaration := [
  { name := "app.Level", underlying := "u8", members := [⟨"Low", none⟩, ⟨"High", some (.signed 255)⟩,
    ⟨"Top", none⟩] }]

set_option maxRecDepth 4000 in
theorem round_trip_of_wrappedLevels : ∃ r, ofDeclarations wrappedLevels = .ok r ∧
    r.tryParse "app.Level" "Top" = .ok (some 0) ∧ r.nameOf "app.Level" 0 = .ok (some "Low") ∧
    r.tryParse "app.Level" "Low" = .ok (some 0) ∧ r.nameOf "app.Level" 256 = .ok none := by
  have hr : ofDeclarations wrappedLevels = .ok ⟨[⟨"app.Level", .u8,
      [⟨"Low", .ofInt .u8 0⟩, ⟨"High", .ofInt .u8 255⟩, ⟨"Top", .ofInt .u8 0⟩]⟩]⟩ := rfl
  obtain ⟨_, _, e, _, _, hvalues, _, hparse, hback, hnone, _⟩ :=
    lookups_round_trip hr "app.Level" (by decide)
  have htable : [("Low", 0), ("High", 255), ("Top", 0)] = e.table := Except.ok.inj hvalues
  rw [← htable] at hparse hback hnone
  obtain ⟨m, hm, _, hagain, _⟩ := hback "Top" 0 (by decide)
  obtain rfl : "Low" = m := Option.some.inj (Except.ok.inj hm)
  exact ⟨_, hr, (hparse "Top" 0).mp (by decide), hm, hagain,
    (hnone 256).mpr fun n hn => by simp at hn⟩

end Registry

end EnumLookup
