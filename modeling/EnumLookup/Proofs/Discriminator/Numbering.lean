import EnumLookup.Proofs.Discriminator.Assignment
import EnumLookup.Proofs.Faults
import EnumLookup.Proofs.FirstFault

/-!
# How discriminators are numbered

A batch is assigned discriminators exactly if each of its names yields a base. A base that is taken
is numbered with the least number that makes it new, and what is assigned to a name depends on the
names before it only. The search counts in 32 bits, which no batch of fewer than `2 ^ 32 - 2` names
exhausts.
-/

namespace EnumLookup.Discriminator

open Outcome

/-! ## The search for one text -/

/-- The text is the base if that is new, and otherwise the base with the least number from two on
that makes it new. -/
inductive IsLeastFree (earlier : List String) (base : String) : String → Prop where
  | base (h : base ∉ earlier) : IsLeastFree earlier base base
  | numbered {k : Nat} (h : base ∈ earlier) (hk : 2 ≤ k) (hfree : numbered base k ∉ earlier)
      (hleast : ∀ j, 2 ≤ j → j < k → numbered base j ∈ earlier) :
      IsLeastFree earlier base (numbered base k)

theorem IsLeastFree.congr {xs ys : List String} {base d : String} (h : IsLeastFree xs base d)
    (hmem : ∀ s, s ∈ xs ↔ s ∈ ys) : IsLeastFree ys base d := by
  cases h with
  | base hbase => exact .base (mt (hmem base).mpr hbase)
  | numbered hbase hk hfree hleast =>
      exact .numbered ((hmem _).mp hbase) hk (mt (hmem _).mpr hfree)
        fun j hj hjk => (hmem _).mp (hleast j hj hjk)

/-- The search ends in a numbered form, and all numbered forms before it are taken. -/
theorem firstFree_least (taken : List String) (base : String) : ∀ fuel k, ∃ j, k ≤ j ∧ j ≤ k + fuel ∧
    firstFree taken base fuel k = numbered base j ∧
      ∀ i, k ≤ i → i < j → numbered base i ∈ taken
  | 0, k => ⟨k, Nat.le_refl k, by omega, rfl, fun i hi hik => by omega⟩
  | fuel + 1, k => by
      rw [firstFree]
      split
      · rename_i hk
        obtain ⟨j, hkj, hj, heq, hbefore⟩ := firstFree_least taken base fuel (k + 1)
        refine ⟨j, by omega, by omega, heq, fun i hi hij => ?_⟩
        rcases Nat.eq_or_lt_of_le hi with rfl | hlt
        · simpa using hk
        · exact hbefore i hlt hij
      · exact ⟨k, Nat.le_refl k, by omega, rfl, fun i hi hik => by omega⟩

theorem distinct_of_not_mem {taken : List String} {base : String} (h : base ∉ taken) :
    distinct taken base = base := by
  rw [distinct, if_neg (by simpa using h)]

/-- A base that is taken gets its least free number, which is at most two more than the number of
taken texts. -/
theorem distinct_of_mem {taken : List String} {base : String} (h : base ∈ taken) :
    ∃ k, 2 ≤ k ∧ k ≤ taken.length + 2 ∧ distinct taken base = numbered base k ∧
      numbered base k ∉ taken ∧ ∀ j, 2 ≤ j → j < k → numbered base j ∈ taken := by
  have hsearch : distinct taken base = firstFree taken base taken.length 2 := by
    rw [distinct, if_pos (by simpa using h)]
  obtain ⟨k, hk, hle, heq, hleast⟩ := firstFree_least taken base taken.length 2
  refine ⟨k, hk, by omega, hsearch.trans heq, ?_, hleast⟩
  rw [← heq]
  exact firstFree_fresh taken base 2

theorem distinct_isLeastFree (taken : List String) (base : String) :
    IsLeastFree taken base (distinct taken base) := by
  by_cases h : base ∈ taken
  · obtain ⟨k, hk, _, heq, hfree, hleast⟩ := distinct_of_mem h
    rw [heq]
    exact .numbered h hk hfree hleast
  · rw [distinct_of_not_mem h]
    exact .base h

/-! ## A batch of bases -/

/-- What is assigned to bases in order, given the texts assigned before. -/
def numberFrom (taken : List String) : List String → List String
  | [] => []
  | base :: rest => distinct taken base :: numberFrom (distinct taken base :: taken) rest

@[simp] theorem length_numberFrom (bases : List String) : ∀ taken,
    (numberFrom taken bases).length = bases.length := by
  induction bases with
  | nil => exact fun _ => rfl
  | cons base rest ih => intro taken; simp [numberFrom, ih]

/-- The text at a place is free of those before it. -/
theorem numberFrom_isLeastFree {bases : List String} {base d : String} : ∀ {taken : List String}
    {i : Nat}, bases[i]? = some base → (numberFrom taken bases)[i]? = some d →
      IsLeastFree ((numberFrom taken bases).take i ++ taken) base d := by
  induction bases with
  | nil => intro taken i h; simp at h
  | cons b rest ih =>
      intro taken i hbase hd
      cases i with
      | zero =>
          simp only [numberFrom, List.getElem?_cons_zero, Option.some.injEq] at hbase hd
          subst hbase hd
          exact distinct_isLeastFree taken b
      | succ i =>
          simp only [numberFrom, List.getElem?_cons_succ] at hbase hd
          refine (ih hbase hd).congr fun s => ?_
          -- What the first base got is listed with the taken texts here and with the earlier results there.
          simp only [numberFrom, List.take_succ_cons, List.mem_append, List.mem_cons]
          tauto

/-- What comes behind a name does not change what it is assigned. -/
theorem take_numberFrom (bases : List String) : ∀ taken n,
    (numberFrom taken bases).take n = numberFrom taken (bases.take n) := by
  induction bases with
  | nil => intro taken n; simp [numberFrom]
  | cons base rest ih =>
      intro taken n
      cases n with
      | zero => rfl
      | succ n => simp [numberFrom, ih]

theorem numberFrom_of_nodup {bases : List String} : ∀ {taken : List String}, bases.Nodup →
    (∀ base ∈ bases, base ∉ taken) → numberFrom taken bases = bases := by
  induction bases with
  | nil => exact fun _ _ => rfl
  | cons base rest ih =>
      intro taken hnodup hnew
      rw [List.nodup_cons] at hnodup
      rw [List.forall_mem_cons] at hnew
      rw [numberFrom, distinct_of_not_mem hnew.1, ih hnodup.2]
      intro b hb hmem
      rcases List.mem_cons.mp hmem with rfl | hmem
      · exact hnodup.1 hb
      · exact hnew.2 b hb hmem

/-! ## A batch of names -/

theorem assignFrom_eq (names : List String) : ∀ taken,
    assignFrom taken names = numberFrom taken <$> names.mapM discriminator := by
  induction names with
  | nil => exact fun _ => rfl
  | cons name names ih =>
      intro taken
      rw [assignFrom, List.mapM_cons]
      cases discriminator name with
      | error f => rfl
      | ok base =>
          show (assignFrom (distinct taken base :: taken) names >>= _) = _
          rw [ih]
          cases names.mapM discriminator <;> rfl

/-- A batch is assigned what is assigned to the bases of its names. -/
theorem assign_ok {names ds : List String} : assign names = .ok ds ↔
    ∃ bases, names.map discriminator = bases.map .ok ∧ ds = numberFrom [] bases := by
  rw [assign, assignFrom_eq]
  cases h : names.mapM discriminator with
  | error f =>
      refine ⟨nofun, fun ⟨bases, hbases, _⟩ => ?_⟩
      rw [mapM_ok.mpr hbases] at h
      cases h
  | ok bases =>
      rw [mapM_ok] at h
      constructor
      · intro hds
        cases hds
        exact ⟨bases, h, rfl⟩
      · rintro ⟨bases', hbases', rfl⟩
        have hinj : Function.Injective (Except.ok : String → Except Fault String) :=
          fun _ _ => Except.ok.inj
        rw [List.map_injective_iff.mpr hinj (h.symm.trans hbases')]
        rfl

/-- The fault is that of the first name without a discriminator. -/
def IsFirstRejected (names : List String) (f : Fault) : Prop :=
  ∃ before name after, names = before ++ name :: after ∧
    (∀ n ∈ before, ∃ base, discriminator n = .ok base) ∧ discriminator name = .error f

theorem accepted_of_bases {names bases : List String}
    (h : names.map discriminator = bases.map .ok) :
    ∀ name ∈ names, ∃ base, discriminator name = .ok base := exists_map_ok.mp ⟨_, h⟩

theorem assign_error {names : List String} {f : Fault} :
    assign names = .error f ↔ IsFirstRejected names f := by
  rw [IsFirstRejected, ← mapM_error, assign, assignFrom_eq]
  cases names.mapM discriminator with
  | error f' => exact ⟨fun h => congrArg _ (Except.error.inj h), fun h => congrArg _ (Except.error.inj h)⟩
  | ok bases => exact ⟨nofun, nofun⟩

theorem IsFirstRejected.invalidName {names : List String} {f : Fault} (h : IsFirstRejected names f) :
    ∃ name flaw, f = .invalidName name flaw := by
  obtain ⟨_, name, _, _, _, hname⟩ := h
  exact ⟨name, discriminator_error hname⟩

theorem IsFirstRejected.not_accepted {names : List String} {f : Fault} (h : IsFirstRejected names f) :
    ¬ ∀ name ∈ names, ∃ base, discriminator name = .ok base := by
  obtain ⟨before, name, after, rfl, _, hname⟩ := h
  intro haccepted
  obtain ⟨base, hbase⟩ := haccepted name (by simp)
  rw [hname] at hbase
  cases hbase

theorem exists_firstRejected {names : List String}
    (h : ¬ ∀ name ∈ names, ∃ base, discriminator name = .ok base) :
    ∃ name flaw, IsFirstRejected names (.invalidName name flaw) := by
  cases hds : assign names with
  | ok ds =>
      obtain ⟨bases, hbases, _⟩ := assign_ok.mp hds
      exact absurd (accepted_of_bases hbases) h
  | error f =>
      have hf := assign_error.mp hds
      obtain ⟨name, flaw, rfl⟩ := hf.invalidName
      exact ⟨name, flaw, hf⟩

/-! ## Counting in 32 bits -/

theorem toNat_next {next : UInt32} (h : next.toNat + 1 < UInt32.size) :
    (next + 1).toNat = next.toNat + 1 := by
  rw [UInt32.toNat_add, UInt32.toNat_one]
  exact Nat.mod_eq_of_lt h

/-- The search for a text that is not taken, with the candidate in hand and the number to try next.
There is no answer if that number cannot be counted on. -/
def countFree (taken : List String) (base candidate : String) (next : UInt32) : Option String :=
  if taken.contains candidate then
    if next.toNat + 1 < UInt32.size then
      countFree taken base (numbered base next.toNat) (next + 1)
    else none
  else some candidate
termination_by UInt32.size - next.toNat
decreasing_by
  rw [toNat_next ‹_›]
  omega

/-- Discriminators for the names in order as `assignFrom` gives them, found by counting. -/
def countFrom (taken : List String) : List String → Option (Except Fault (List String))
  | [] => some (.ok [])
  | name :: rest =>
    match discriminator name with
    | .error f => some (.error f)
    | .ok base => do
      let d ← countFree taken base base 2
      return (← countFrom (d :: taken) rest).map (d :: ·)

/-- The search counts on to the first numbered form that is free, if it can count that far. -/
theorem countFree_numbered {taken : List String} {base : String} (n : Nat) :
    ∀ {candidate : String} {next : UInt32}, candidate ∈ taken →
      next.toNat + n + 1 < UInt32.size → numbered base (next.toNat + n) ∉ taken →
      (∀ j, next.toNat ≤ j → j < next.toNat + n → numbered base j ∈ taken) →
      countFree taken base candidate next = some (numbered base (next.toNat + n)) := by
  induction n with
  | zero =>
      intro candidate next hcandidate hsize hfree _
      rw [countFree, if_pos (by simpa using hcandidate), if_pos hsize, countFree,
        if_neg (by simpa using hfree), Nat.add_zero]
  | succ n ih =>
      intro candidate next hcandidate hsize hfree hbefore
      have hnext : (next + 1).toNat = next.toNat + 1 := toNat_next (by omega)
      have hshift : next.toNat + (n + 1) = (next + 1).toNat + n := by omega
      rw [hshift] at hsize hfree hbefore ⊢
      -- The candidate is taken, so the search is the same as one that starts a number later.
      rw [countFree, if_pos (by simpa using hcandidate), if_pos (by omega)]
      exact ih (hbefore _ (Nat.le_refl _) (by omega)) hsize hfree
        fun j hj hjn => hbefore j (by omega) hjn

/-- Counting finds what is assigned. -/
theorem countFree_eq {taken : List String} (h : taken.length + 3 < UInt32.size) (base : String) :
    countFree taken base base 2 = some (distinct taken base) := by
  by_cases hbase : base ∈ taken
  · obtain ⟨k, hk, hle, heq, hfree, hleast⟩ := distinct_of_mem hbase
    obtain ⟨n, rfl⟩ := Nat.exists_eq_add_of_le hk
    rw [heq]
    exact countFree_numbered n hbase (by show 2 + n + 1 < _; omega) hfree hleast
  · rw [countFree, if_neg (by simpa using hbase), distinct_of_not_mem hbase]

theorem countFrom_eq {names : List String} : ∀ {taken : List String},
    taken.length + names.length < 2 ^ 32 - 2 →
      countFrom taken names = some (assignFrom taken names) := by
  induction names with
  | nil => exact fun _ => rfl
  | cons name names ih =>
      intro taken h
      rw [List.length_cons] at h
      rw [countFrom, assignFrom]
      cases discriminator name with
      | error f => rfl
      | ok base =>
          have hcount : countFree taken base base 2 = some (distinct taken base) :=
            countFree_eq (by show _ < 2 ^ 32; omega) base
          have hrest : countFrom (distinct taken base :: taken) names =
              some (assignFrom (distinct taken base :: taken) names) :=
            ih (by rw [List.length_cons]; omega)
          simp only [hcount, hrest, Option.bind_eq_bind, Option.bind_some]
          show _ = some (assignFrom (distinct taken base :: taken) names >>= _)
          cases assignFrom (distinct taken base :: taken) names <;> rfl

/-- A batch is assigned discriminators by a search whose 32-bit counter is never exhausted, and fails
exactly as its first name without a discriminator does. What is assigned is distinct, and in order the
base of each name or, if that is taken by an earlier result, its form with the least number from two
on that is not. So distinct bases are kept, and the names behind a name do not matter for it. -/
theorem assign_least_free {names : List String} (h : names.length < 2 ^ 32 - 2) :
    countFrom [] names = some (assign names) ∧
    ((∃ ds, assign names = .ok ds) ↔ ∀ name ∈ names, ∃ base, discriminator name = .ok base) ∧
    (∀ f, assign names = .error f ↔ IsFirstRejected names f) ∧
    ∀ ds, assign names = .ok ds → ∃ bases, names.map discriminator = bases.map .ok ∧
      ds.length = names.length ∧ ds.Nodup ∧
      (∀ i base d, bases[i]? = some base → ds[i]? = some d → IsLeastFree (ds.take i) base d) ∧
      (bases.Nodup → ds = bases) ∧
      ∀ n, assign (names.take n) = .ok (ds.take n) := by
  refine ⟨countFrom_eq (by simpa using h), ⟨?_, assign_of_accepted⟩, fun f => assign_error, ?_⟩
  · rintro ⟨ds, hds⟩
    obtain ⟨bases, hbases, _⟩ := assign_ok.mp hds
    exact accepted_of_bases hbases
  · intro ds hds
    obtain ⟨bases, hbases, rfl⟩ := assign_ok.mp hds
    have hlength : names.length = bases.length := by simpa using congrArg List.length hbases
    refine ⟨bases, hbases, by simp [hlength], assign_nodup hds, fun i base d hbase hd => ?_,
      fun hnodup => numberFrom_of_nodup hnodup (by simp), fun n => ?_⟩
    · simpa using numberFrom_isLeastFree hbase hd
    · refine assign_ok.mpr ⟨bases.take n, ?_, take_numberFrom bases [] n⟩
      rw [List.map_take, hbases, List.map_take]

/-- A numbered form that stands as a name of its own is passed over. -/
theorem least_free_of_colors : ∃ ds,
    assign ["a_b_Color_2", "a.b_Color", "a_b.Color", "a::b::Color"] = .ok ds ∧
      countFrom [] ["a_b_Color_2", "a.b_Color", "a_b.Color", "a::b::Color"] = some (.ok ds) ∧
      ds = ["a_b_Color_2", "a_b_Color", "a_b_Color_3", "a_b_Color_4"] ∧
      assign ["a_b_Color_2", "a.b_Color"] = .ok ["a_b_Color_2", "a_b_Color"] := by
  have hds : assign ["a_b_Color_2", "a.b_Color", "a_b.Color", "a::b::Color"] =
      .ok ["a_b_Color_2", "a_b_Color", "a_b_Color_3", "a_b_Color_4"] := rfl
  have hlength : ["a_b_Color_2", "a.b_Color", "a_b.Color", "a::b::Color"].length < 2 ^ 32 - 2 := by
    decide
  obtain ⟨hcount, _, _, hall⟩ := assign_least_free hlength
  obtain ⟨_, _, _, _, _, _, hprefix⟩ := hall _ hds
  exact ⟨_, hds, hcount.trans (congrArg some hds), rfl, hprefix 2⟩

end EnumLookup.Discriminator
