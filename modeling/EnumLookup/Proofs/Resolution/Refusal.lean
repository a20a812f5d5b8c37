import EnumLookup.Proofs.Faults
import EnumLookup.Proofs.FirstFault
import EnumLookup.Proofs.Resolution
import EnumLookup.Proofs.Text.Blank

/-!
# Why declarations do not resolve

A declaration may be wrong in its integer type, its name and its members at once. It is refused for
its type first, then for its name, and otherwise for the first of its members that is blank or has
the name of an earlier one.
-/

namespace EnumLookup

open Outcome

/-! ## Spellings of integer types -/

namespace Width

/-- The names under which a width may be declared. -/
def names (w : Width) : List String := w.text :: w.aliases

/-- Trimmed, the declared text is one of the width's names, possibly behind `System.`. -/
def IsSpelling (w : Width) (declared : String) : Prop :=
  ∃ name ∈ w.names, Text.trim declared = name ∨ Text.trim declared = "System." ++ name

theorem eq_of_mem_names {v w : Width} {name : String} (hv : name ∈ v.names) (hw : name ∈ w.names) :
    v = w := by
  have hall : ∀ v ∈ all, ∀ w ∈ all, ∀ name ∈ v.names, name ∈ w.names → v = w := by decide
  exact hall v (by cases v <;> decide) w (by cases w <;> decide) name hv hw

theorem not_system_of_mem_names {w : Width} {name : String} (h : name ∈ w.names) :
    "System.".toList.isPrefixOf name.toList = false := by
  have hall : ∀ w ∈ all, ∀ name ∈ w.names, "System.".toList.isPrefixOf name.toList = false := by
    decide
  exact hall w (by cases w <;> decide) name h

/-- Dropping `System.` leaves a name exactly of that name, alone or behind `System.`. -/
theorem dropSystem_eq {w : Width} {name : String} (h : name ∈ w.names) {cs : List Char} :
    dropSystem cs = name.toList ↔ cs = name.toList ∨ cs = "System.".toList ++ name.toList := by
  rw [dropSystem]
  split
  · rename_i hprefix
    obtain ⟨r, rfl⟩ := List.isPrefixOf_iff_prefix.mp hprefix
    have hne : "System.".toList ++ r ≠ name.toList := by
      intro he
      rw [he, not_system_of_mem_names h] at hprefix
      cases hprefix
    rw [show "System.".length = "System.".toList.length from rfl, List.drop_left,
      List.append_cancel_left_eq]
    simp only [hne, false_or]
  · rename_i hprefix
    have hne : cs ≠ "System.".toList ++ name.toList := by
      rintro rfl
      exact hprefix (List.isPrefixOf_iff_prefix.mpr (List.prefix_append _ _))
    simp only [hne, or_false]

theorem mem_names_iff {w : Width} {declared : String} :
    String.ofList (dropSystem (Text.trim declared).toList) ∈ w.names ↔ w.IsSpelling declared := by
  constructor
  · intro h
    refine ⟨_, h, ?_⟩
    have hcases := (dropSystem_eq h).mp String.toList_ofList.symm
    rwa [← String.toList_append, String.toList_inj, String.toList_inj] at hcases
  · rintro ⟨name, hname, htrim⟩
    have hchars : (Text.trim declared).toList = name.toList ∨
        (Text.trim declared).toList = "System.".toList ++ name.toList := by
      rwa [← String.toList_append, String.toList_inj, String.toList_inj]
    rwa [(dropSystem_eq hname).mpr hchars, String.ofList_toList]

/-- A declared text names a width exactly if it is one of its spellings. -/
theorem ofDeclared?_eq_some {w : Width} {declared : String} :
    ofDeclared? declared = some w ↔ w.IsSpelling declared := by
  rw [← mem_names_iff]
  constructor
  · intro h
    simpa [names] using List.find?_some h
  · intro h
    cases hfind : ofDeclared? declared with
    | none =>
        have hall := List.find?_eq_none.mp hfind w (by cases w <;> decide)
        exact absurd (List.contains_iff_mem.mpr h) hall
    | some v =>
        have hv := List.find?_some hfind
        rw [eq_of_mem_names (List.contains_iff_mem.mp hv) h]

end Width

namespace Declaration

/-! ## Members -/

/-- The members' names are not blank and differ. -/
def AreUsable (ms : List Member) : Prop :=
  (∀ m ∈ ms, Text.trim m.name ≠ "") ∧ (ms.map Member.name).Nodup

/-- The fault of the first member whose name is blank or an earlier one's. -/
inductive MemberRefusal (enum : String) (ms : List Member) : Fault → Prop where
  | blank {before m after} (hsplit : ms = before ++ m :: after) (hbefore : AreUsable before)
      (hblank : Text.trim m.name = "") : MemberRefusal enum ms (.blankMember enum m.name)
  | repeated {before m after} (hsplit : ms = before ++ m :: after) (hbefore : AreUsable before)
      (hblank : Text.trim m.name ≠ "") (hname : m.name ∈ before.map Member.name) :
      MemberRefusal enum ms (.duplicateMember enum m.name)

theorem checkMembers_usable {enum : String} {ms : List Member} :
    checkMembers enum [] ms = .ok () ↔ AreUsable ms := by
  rw [checkMembers_ok, AreUsable]
  simp [Text.trim_eq_empty_iff]

theorem checkMembers_append {enum : String} {before after : List Member} : ∀ {seen},
    checkMembers enum seen (before ++ after) = (checkMembers enum seen before >>= fun _ =>
      checkMembers enum ((before.map Member.name).reverse ++ seen) after) := by
  induction before with
  | nil => exact rfl
  | cons m before ih =>
      intro seen
      simp only [List.cons_append, checkMembers, List.map_cons, List.reverse_cons, List.append_assoc]
      split
      · rfl
      split
      · rfl
      · exact ih

/-- Behind usable members, the next one decides whether it is refused. -/
theorem checkMembers_at {enum : String} {before : List Member} (hbefore : AreUsable before)
    (m : Member) (after : List Member) : checkMembers enum [] (before ++ m :: after) =
      checkMembers enum (before.map Member.name).reverse (m :: after) := by
  rw [checkMembers_append, checkMembers_usable.mpr hbefore, List.append_nil]
  rfl

/-- Members that are not usable have a first one that is to blame. -/
theorem exists_memberRefusal {ms : List Member} (h : ¬ AreUsable ms) (enum : String) :
    ∃ f, MemberRefusal enum ms f := by
  obtain ⟨before, m, after, hsplit, hbefore, hm⟩ := exists_first_bad ⟨by simp, List.nodup_nil⟩ h
  by_cases hblank : Text.trim m.name = ""
  · exact ⟨_, .blank hsplit hbefore hblank⟩
  by_cases hname : m.name ∈ before.map Member.name
  · exact ⟨_, .repeated hsplit hbefore hblank hname⟩
  · refine absurd ⟨?_, ?_⟩ hm
    · rw [List.forall_mem_append, List.forall_mem_singleton]
      exact ⟨hbefore.1, hblank⟩
    · rw [List.map_append, List.nodup_append_comm]
      exact List.nodup_cons.mpr ⟨hname, hbefore.2⟩

theorem checkMembers_of_refusal {enum : String} {ms : List Member} {f : Fault}
    (h : MemberRefusal enum ms f) : checkMembers enum [] ms = .error f := by
  cases h with
  | @blank before m after hsplit hbefore hblank =>
      rw [hsplit, checkMembers_at hbefore, checkMembers, if_pos (Text.trim_eq_empty_iff.mp hblank)]
      rfl
  | @repeated before m after hsplit hbefore hblank hname =>
      rw [hsplit, checkMembers_at hbefore, checkMembers, if_neg (mt Text.trim_eq_empty_iff.mpr hblank),
        if_pos (by simpa using hname)]
      rfl

theorem checkMembers_error {enum : String} {ms : List Member} {f : Fault} :
    checkMembers enum [] ms = .error f ↔ MemberRefusal enum ms f := by
  refine error_iff_of_cases ?_ (fun _ => checkMembers_of_refusal) f
  by_cases hms : AreUsable ms
  · exact .inl ⟨(), checkMembers_usable.mpr hms⟩
  · exact .inr (exists_memberRefusal hms enum)

/-! ## Declarations -/

theorem width_eq (d : Declaration) : d.width =
    match Width.ofDeclared? d.underlying with
    | some w => .ok w
    | none => .error (.unsupportedUnderlying d.name d.underlying) := by
  -- The widths that can be named are a long table, so their equation is not asked for.
  delta width
  cases Width.ofDeclared? d.underlying <;> rfl

theorem width_ok {d : Declaration} {w : Width} :
    d.width = .ok w ↔ w.IsSpelling d.underlying := by
  rw [← Width.ofDeclared?_eq_some, width_eq]
  cases Width.ofDeclared? d.underlying with
  | none => exact ⟨nofun, nofun⟩
  | some v => rw [Except.ok.injEq, Option.some.injEq]

theorem width_error {d : Declaration} {f : Fault} : d.width = .error f ↔
    (¬ ∃ w : Width, w.IsSpelling d.underlying) ∧ f = .unsupportedUnderlying d.name d.underlying := by
  simp only [← width_ok, width_eq]
  cases Width.ofDeclared? d.underlying with
  | none => simp [eq_comm]
  | some v => simp

/-- Why a declaration is refused: each reason takes precedence over those below it. -/
inductive Refusal (d : Declaration) : Fault → Prop where
  | underlying (hwidth : ¬ ∃ w : Width, w.IsSpelling d.underlying) :
      Refusal d (.unsupportedUnderlying d.name d.underlying)
  | name {flaw} (hwidth : ∃ w : Width, w.IsSpelling d.underlying)
      (hname : discriminator d.name = .error (.invalidName d.name flaw)) :
      Refusal d (.invalidName d.name flaw)
  | member {f} (hwidth : ∃ w : Width, w.IsSpelling d.underlying)
      (hname : ∃ base, discriminator d.name = .ok base)
      (hmember : MemberRefusal d.name d.members f) : Refusal d f

theorem validate_error {d : Declaration} {f : Fault} : d.validate = .error f ↔
    discriminator d.name = .error f ∨
      (∃ base, discriminator d.name = .ok base) ∧ MemberRefusal d.name d.members f := by
  rw [validate, bind_error]
  simp only [checkMembers_error, exists_and_right]

/-- A declaration resolves exactly if its integer type is spelled as one of the eight, its name yields
a discriminator, and its members' names are not blank and differ. Otherwise the fault is the first
reason against it, in this order. -/
theorem resolve_settled (d : Declaration) :
    ((∃ e, d.resolve = .ok e) ↔ (∃ w : Width, w.IsSpelling d.underlying) ∧
      (∃ base, discriminator d.name = .ok base) ∧ AreUsable d.members) ∧
    ∀ f, d.resolve = .error f ↔ Refusal d f := by
  constructor
  · simp only [resolve_ok, width_ok, validate_ok, AreUsable, ne_eq, Text.trim_eq_empty_iff,
      Bool.not_eq_true]
    exact ⟨fun ⟨_, w, hw, hvalid, _⟩ => ⟨⟨w, hw⟩, hvalid⟩, fun ⟨⟨w, hw⟩, hvalid⟩ => ⟨_, w, hw, hvalid, rfl⟩⟩
  · intro f
    rw [resolve, bind_error, width_error]
    constructor
    · rintro (⟨hwidth, rfl⟩ | ⟨w, hw, h⟩)
      · exact .underlying hwidth
      have hwidth : ∃ w : Width, w.IsSpelling d.underlying := ⟨w, width_ok.mp hw⟩
      rcases bind_error.mp h with h | ⟨_, _, h⟩
      · rcases validate_error.mp h with hname | ⟨hname, hmember⟩
        · obtain ⟨flaw, rfl⟩ := discriminator_error hname
          exact .name hwidth hname
        · exact .member hwidth hname hmember
      · cases h
    · intro h
      cases h with
      | underlying hwidth => exact .inl ⟨hwidth, rfl⟩
      | name hwidth hname =>
          obtain ⟨w, hw⟩ := hwidth
          exact .inr ⟨w, width_ok.mpr hw, bind_error.mpr (.inl (validate_error.mpr (.inl hname)))⟩
      | member hwidth hname hmember =>
          obtain ⟨w, hw⟩ := hwidth
          exact .inr ⟨w, width_ok.mpr hw,
            bind_error.mpr (.inl (validate_error.mpr (.inr ⟨hname, hmember⟩)))⟩

example : ({ name := "app.Level", members := [⟨"Low", none⟩, ⟨"Low", none⟩, ⟨" ", none⟩] } :
    Declaration).resolve = .error (.duplicateMember "app.Level" "Low") := rfl

end Declaration

end EnumLookup
