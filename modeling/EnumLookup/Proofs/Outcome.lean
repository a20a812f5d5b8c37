/-!
# Steps that may fail

A sequence of steps succeeds if each of them does, and fails with the fault of the first that does
not.
-/

namespace EnumLookup.Outcome

variable {ε α β γ : Type}

theorem bind_ok {x : Except ε α} {f : α → Except ε β} {b : β} :
    (x >>= f) = .ok b ↔ ∃ a, x = .ok a ∧ f a = .ok b := by
  cases x with
  | error e => exact ⟨nofun, fun ⟨_, h, _⟩ => nomatch h⟩
  | ok a =>
      refine ⟨fun h => ⟨a, rfl, h⟩, ?_⟩
      rintro ⟨_, ha, h⟩
      cases ha
      exact h

theorem bind_error {x : Except ε α} {f : α → Except ε β} {e : ε} :
    (x >>= f) = .error e ↔ x = .error e ∨ ∃ a, x = .ok a ∧ f a = .error e := by
  cases x with
  | error e' =>
      refine ⟨fun h => .inl (congrArg _ (Except.error.inj h)), ?_⟩
      rintro (h | ⟨_, h, _⟩)
      · exact congrArg _ (Except.error.inj h)
      · cases h
  | ok a =>
      refine ⟨fun h => .inr ⟨a, rfl, h⟩, ?_⟩
      rintro (h | ⟨_, ha, h⟩)
      · cases h
      · cases ha
        exact h

theorem throw_ne_ok {e : ε} {a : α} : (throw e : Except ε α) ≠ .ok a := nofun

theorem throw_error {e e' : ε} : (throw e : Except ε α) = .error e' ↔ e = e' :=
  ⟨Except.error.inj, congrArg _⟩

/-- A list of outcomes is a success if all of them are. -/
theorem mapM_id_ok {os : List (Except ε α)} {as : List α} :
    os.mapM id = .ok as ↔ os = as.map .ok := by
  induction os generalizing as with
  | nil =>
      cases as with
      | nil => exact ⟨fun _ => rfl, fun _ => rfl⟩
      | cons a as => exact ⟨nofun, nofun⟩
  | cons o os ih =>
      rw [List.mapM_cons, bind_ok]
      constructor
      · rintro ⟨a, ha, h⟩
        obtain ⟨as', has', h⟩ := bind_ok.mp h
        cases h
        rw [List.map_cons, ih.mp has', show o = .ok a from ha]
      · intro h
        cases as with
        | nil => cases h
        | cons a as =>
            rw [List.map_cons, List.cons.injEq] at h
            exact ⟨a, h.1, bind_ok.mpr ⟨as, ih.mpr h.2, rfl⟩⟩

/-- A step for each member of a list succeeds if it does so for all of them. -/
theorem mapM_ok {f : α → Except ε β} {as : List α} {bs : List β} :
    as.mapM f = .ok bs ↔ as.map f = bs.map .ok := by
  rw [← mapM_id_ok, List.mapM_map]
  rfl

/-- Each of the steps succeeds exactly if together they have results. -/
theorem exists_map_ok {f : α → Except ε β} {as : List α} :
    (∃ bs : List β, as.map f = bs.map .ok) ↔ ∀ a ∈ as, ∃ b, f a = .ok b := by
  induction as with
  | nil => exact ⟨fun _ => nofun, fun _ => ⟨[], rfl⟩⟩
  | cons a as ih =>
      rw [List.forall_mem_cons, ← ih]
      constructor
      · rintro ⟨bs, h⟩
        cases bs with
        | nil => cases h
        | cons b bs =>
            obtain ⟨hb, hbs⟩ := List.cons.inj h
            exact ⟨⟨b, hb⟩, bs, hbs⟩
      · rintro ⟨⟨b, hb⟩, bs, hbs⟩
        exact ⟨b :: bs, by rw [List.map_cons, List.map_cons, hb, hbs]⟩

/-- What a step tells of each result, the steps tell of all their results. -/
theorem map_of_map_ok {f : α → Except ε β} {g : α → γ} {g' : β → γ}
    (hf : ∀ {a b}, f a = .ok b → g' b = g a) {as : List α} : ∀ {bs : List β},
    as.map f = bs.map .ok → bs.map g' = as.map g := by
  induction as with
  | nil =>
      intro bs h
      rw [List.map_eq_nil_iff.mp h.symm, List.map_nil, List.map_nil]
  | cons a as ih =>
      intro bs h
      cases bs with
      | nil => cases h
      | cons b bs =>
          obtain ⟨hb, hbs⟩ := List.cons.inj h
          rw [List.map_cons, List.map_cons, hf hb, ih hbs]

/-- The fault of a list of outcomes is the fault of one of them. -/
theorem mem_of_mapM_id_error {os : List (Except ε α)} {e : ε} (h : os.mapM id = .error e) :
    .error e ∈ os := by
  induction os with
  | nil => cases h
  | cons o os ih =>
      rw [List.mapM_cons, bind_error] at h
      rcases h with h | ⟨a, _, h⟩
      · exact List.mem_cons.mpr (.inl (show o = .error e from h).symm)
      · rcases bind_error.mp h with h | ⟨_, _, h⟩
        · exact List.mem_cons_of_mem _ (ih h)
        · cases h

end EnumLookup.Outcome
