import EnumLookup.Proofs.Resolution
import Mathlib.Data.Int.ModEq

/-!
# Members count on

A width holds exactly one integer of each remainder, so it does not matter when a count is wrapped:
the value of a member is what has been counted from the last explicit value, or from nought, wrapped
once.
-/

namespace EnumLookup

/-! ## Wrapping -/

namespace Width

variable {w : Width} {m n : Int}

/-- The integers of the width, between its bounds as powers of two. -/
def range (w : Width) : Set Int :=
  if w.isSigned then {n | -2 ^ (w.bits - 1) ≤ n ∧ n ≤ 2 ^ (w.bits - 1) - 1}
  else {n | 0 ≤ n ∧ n ≤ 2 ^ w.bits - 1}

theorem count_eq (w : Width) : w.count = 2 ^ w.bits := Nat.one_shiftLeft _

theorem bits_le (w : Width) : w.bits ≤ 64 := by cases w <;> simp [bits]

theorem mem_range : n ∈ w.range ↔ w.Holds n := by
  cases w <;> simp [range, Holds, least, greatest, count, isSigned, bits]

theorem wrap_modEq (w : Width) (n : Int) : w.wrap n ≡ n [ZMOD 2 ^ w.bits] := by
  have hcount : ((w.count : Nat) : Int) = 2 ^ w.bits := by simp [count_eq]
  rw [wrap, ← hcount]
  split
  · exact Int.bmod_emod
  · exact Int.mod_modEq _ _

theorem wrap_congr (h : m ≡ n [ZMOD 2 ^ w.bits]) : w.wrap m = w.wrap n := by
  have hmod : m % (w.count : Nat) = n % (w.count : Nat) := by simpa [count_eq] using h.eq
  rw [wrap, wrap, Int.bmod, Int.bmod, hmod]

/-- A width holds exactly one integer of each remainder. -/
theorem eq_wrap_iff : m = w.wrap n ↔ m ∈ w.range ∧ m ≡ n [ZMOD 2 ^ w.bits] := by
  constructor
  · rintro rfl
    exact ⟨mem_range.mpr (w.wrap_holds n), w.wrap_modEq n⟩
  · rintro ⟨hm, hmod⟩
    rw [← wrap_congr hmod, wrap_of_holds (mem_range.mp hm)]

/-- What the low bits of a pattern stand for; in a signed width the highest of them is the sign. -/
def narrow (w : Width) (pattern : BitVec 64) : Int :=
  if w.isSigned then (pattern.setWidth w.bits).toInt else (pattern.setWidth w.bits).toNat

end Width

namespace Explicit

/-- The 64 bits that the value is stored in. -/
def pattern : Explicit → BitVec 64
  | signed v => v.toBitVec
  | unsigned v => v.toBitVec

theorem toInt_modEq (x : Explicit) (w : Width) : x.toInt ≡ x.pattern.toNat [ZMOD 2 ^ w.bits] := by
  have hdvd : (2 : Int) ^ w.bits ∣ 2 ^ 64 := pow_dvd_pow 2 w.bits_le
  cases x with
  | signed v =>
      have hmod : v.toInt ≡ v.toBitVec.toNat [ZMOD 2 ^ 64] := by
        show v.toBitVec.toInt % _ = _
        rw [BitVec.toInt_eq_toNat_bmod]
        exact Int.bmod_emod
      exact hmod.of_dvd hdvd
  | unsigned v => rfl

/-- To wrap an explicit value is to leave out the high bits of its pattern. -/
theorem wrap_toInt (x : Explicit) (w : Width) : w.wrap x.toInt = w.narrow x.pattern := by
  rw [Width.wrap_congr (x.toInt_modEq w), Width.wrap, Width.count_eq, Width.narrow]
  split
  · simp [BitVec.toInt_setWidth]
  · simp

end Explicit

theorem Constant.next_ofInt (w : Width) (n : Int) : (ofInt w n).next = ofInt w (n + 1) := by
  have hwrap : w.wrap (w.wrap n + 1) = w.wrap (n + 1) :=
    Width.wrap_congr ((w.wrap_modEq n).add_right 1)
  simp [next, ofInt, hwrap]

/-! ## Counting -/

/-- The integer that the member stands for where `n` is due. -/
def Member.count (m : Member) (n : Int) : Int := (m.value.map Explicit.toInt).getD n

namespace Declaration

/-- The explicit value of the member at an index. -/
def explicitAt (ms : List Member) (i : Nat) : Option Explicit := ms[i]?.bind Member.value

@[simp] theorem explicitAt_succ (m : Member) (ms : List Member) (i : Nat) :
    explicitAt (m :: ms) (i + 1) = explicitAt ms i := by simp [explicitAt]

variable {w : Width} {n : Int} {ms : List Member} {i j : Nat} {x : Explicit}

/-- One step of the count: the member's explicit value, or else the integer that is due. -/
theorem evaluate_step (w : Width) (n : Int) (m : Member) (ms : List Member) :
    evaluate w (.ofInt w n) (m :: ms) =
      ⟨m.name, .ofInt w (m.count n)⟩ :: evaluate w (.ofInt w (m.count n + 1)) ms := by
  cases h : m.value <;> simp [evaluate, Member.count, h, Constant.next_ofInt]

/-- Before the first explicit value the members count on from what is due at the start. -/
theorem evaluate_automatic (hi : i < ms.length) (hnone : ∀ k ≤ i, explicitAt ms k = none) :
    ((evaluate w (.ofInt w n) ms)[i]?).map Entry.value = some (.ofInt w (n + i)) := by
  induction ms generalizing n i with
  | nil => simp at hi
  | cons m ms ih =>
      have hm : m.value = none := hnone 0 (Nat.zero_le i)
      have hcount : m.count n = n := by simp [Member.count, hm]
      rw [evaluate_step, hcount]
      cases i with
      | zero => simp
      | succ i =>
          have hrest : ∀ k ≤ i, explicitAt ms k = none := by
            intro k hk
            simpa using hnone (k + 1) (by omega)
          have hsum : n + ((i + 1 : Nat) : Int) = n + 1 + i := by omega
          rw [List.getElem?_cons_succ, hsum]
          exact ih (by simpa using hi) hrest

/-- From an explicit value on the members count on from it. -/
theorem evaluate_explicit (hj : explicitAt ms j = some x) (hji : j ≤ i) (hi : i < ms.length)
    (hnone : ∀ k, j < k → k ≤ i → explicitAt ms k = none) :
    ((evaluate w (.ofInt w n) ms)[i]?).map Entry.value = some (.ofInt w (x.toInt + (i - j))) := by
  induction ms generalizing n i j with
  | nil => simp at hi
  | cons m ms ih =>
      rw [evaluate_step]
      cases j with
      | zero =>
          have hm : m.value = some x := hj
          have hcount : m.count n = x.toInt := by simp [Member.count, hm]
          rw [hcount]
          cases i with
          | zero => simp
          | succ i =>
              have hrest : ∀ k ≤ i, explicitAt ms k = none := by
                intro k hk
                simpa using hnone (k + 1) (by omega) (by omega)
              -- What follows counts on from the explicit value as from any start.
              have hsum : x.toInt + (((i + 1 : Nat) : Int) - (0 : Nat)) = x.toInt + 1 + i := by omega
              rw [List.getElem?_cons_succ, hsum]
              exact evaluate_automatic (by simpa using hi) hrest
      | succ j =>
          cases i with
          | zero => omega
          | succ i =>
              have hrest : ∀ k, j < k → k ≤ i → explicitAt ms k = none := by
                intro k hk hki
                simpa using hnone (k + 1) (by omega) (by omega)
              have hsum : ((i + 1 : Nat) : Int) - (j + 1 : Nat) = i - j := by omega
              rw [List.getElem?_cons_succ, hsum]
              exact ih (by simpa using hj) (by omega) (by simpa using hi) hrest

end Declaration

/-- The value of the member at an index is the one integer of the enum's width that agrees with `n`
modulo two to the number of bits. -/
def Resolved.CountsTo (e : Resolved) (i : Nat) (n : Int) : Prop :=
  ∃ m, e.entries[i]? = some m ∧
    ∀ v, v = m.value.value ↔ v ∈ e.width.range ∧ v ≡ n [ZMOD 2 ^ e.width.bits]

namespace Declaration

theorem countsTo_of_value {name : String} {w : Width} {es : List Entry} {i : Nat} {n : Int}
    (h : (es[i]?).map Entry.value = some (.ofInt w n)) :
    (⟨name, w, es⟩ : Resolved).CountsTo i n := by
  obtain ⟨m, hm, hvalue⟩ := Option.map_eq_some_iff.mp h
  refine ⟨m, hm, fun v => ?_⟩
  rw [hvalue]
  exact Width.eq_wrap_iff

/-- Resolution keeps the enum's name, the declared width and the members' names in their order, and
puts every value in that width. A member counts on from the last explicit value that is not behind it,
or from nought if there is none, and an explicit value itself is narrowed to the width. -/
theorem resolve_closed_form {d : Declaration} {e : Resolved} (h : d.resolve = .ok e) :
    e.name = d.name ∧ d.width = .ok e.width ∧
      e.entries.map Entry.name = d.members.map Member.name ∧
      (∀ m ∈ e.entries, m.value.width = e.width) ∧
      (∀ i j x, explicitAt d.members j = some x → j ≤ i → i < d.members.length →
        (∀ k, j < k → k ≤ i → explicitAt d.members k = none) → e.CountsTo i (x.toInt + (i - j))) ∧
      (∀ i < d.members.length, (∀ k ≤ i, explicitAt d.members k = none) → e.CountsTo i i) ∧
      ∀ i x, explicitAt d.members i = some x →
        ∃ m, e.entries[i]? = some m ∧ m.value.value = e.width.narrow x.pattern := by
  have hnames := names_of_resolve h
  have hwidths := widths_of_resolve h
  obtain ⟨w, hw, _, rfl⟩ := resolve_ok.mp h
  refine ⟨rfl, hw, hnames, hwidths, ?_, ?_, ?_⟩
  · intro i j x hj hji hi hnone
    exact countsTo_of_value (evaluate_explicit hj hji hi hnone)
  · intro i hi hnone
    have hvalue := evaluate_automatic (w := w) (n := 0) hi hnone
    rw [zero_add] at hvalue
    exact countsTo_of_value hvalue
  · intro i x hx
    obtain ⟨m, hm, _⟩ := Option.bind_eq_some_iff.mp hx
    have hi : i < d.members.length := (List.getElem?_eq_some_iff.mp hm).1
    have hvalue := evaluate_explicit (w := w) (n := 0) hx le_rfl hi (by omega)
    obtain ⟨y, hy, hconstant⟩ := Option.map_eq_some_iff.mp hvalue
    refine ⟨y, hy, ?_⟩
    rw [hconstant, sub_self, add_zero]
    exact x.wrap_toInt w

/-- Explicit values of both kinds beyond the width, and members that count on over its end. -/
def wrappedSteps : Declaration where
  name := "app.Step"
  underlying := "sbyte"
  members := [⟨"First", none⟩, ⟨"Second", none⟩, ⟨"Last", some (.signed 383)⟩, ⟨"Past", none⟩,
    ⟨"Below", some (.unsigned 18446744073709551615)⟩, ⟨"Next", none⟩]

set_option maxRecDepth 4000 in
theorem closed_form_of_wrappedSteps : ∃ e, wrappedSteps.resolve = .ok e ∧
    e.entries.map Entry.name = ["First", "Second", "Last", "Past", "Below", "Next"] ∧
    e.CountsTo 1 1 ∧ e.CountsTo 3 384 ∧ e.CountsTo 5 18446744073709551616 ∧
    e.table.map Prod.snd = [0, 1, 127, -128, -1, 0] := by
  have h : wrappedSteps.resolve = .ok ⟨"app.Step", .i8, [⟨"First", .ofInt .i8 0⟩,
    ⟨"Second", .ofInt .i8 1⟩, ⟨"Last", .ofInt .i8 127⟩, ⟨"Past", .ofInt .i8 (-128)⟩,
    ⟨"Below", .ofInt .i8 (-1)⟩, ⟨"Next", .ofInt .i8 0⟩]⟩ := rfl
  obtain ⟨_, _, hnames, _, hexplicit, hautomatic, _⟩ := resolve_closed_form h
  have hpast : ∀ k, 2 < k → k ≤ 3 → explicitAt wrappedSteps.members k = none := by
    intro k hk hle
    obtain rfl : k = 3 := by omega
    rfl
  have hnext : ∀ k, 4 < k → k ≤ 5 → explicitAt wrappedSteps.members k = none := by
    intro k hk hle
    obtain rfl : k = 5 := by omega
    rfl
  exact ⟨_, h, hnames, hautomatic 1 (by decide) (by decide),
    hexplicit 3 2 _ rfl (by decide) (by decide) hpast,
    hexplicit 5 4 _ rfl (by decide) (by decide) hnext, by decide⟩

end Declaration

end EnumLookup
