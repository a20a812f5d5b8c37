import EnumLookup.Source.Reader

/-!
# Reading what the grammar spells

The reader takes every token sequence that the grammar allows for a type, an expression, an item or
a file, and stops where it ends. What follows must not extend it, which is a condition on the next
token alone. The bound on the depth is counted by the number of tokens.
-/

namespace EnumLookup.Source

namespace Reader

/-! ## Steps of readers -/

section Steps

variable {α β : Type}

theorem bind_of_some {x : Reader α} {f : α → Reader β} {s r : List Token} {a : α}
    (h : x s = some (a, r)) : (x >>= f) s = f a r := by
  show (x s).bind _ = _
  rw [h]; rfl

theorem bind_of_none {x : Reader α} {f : α → Reader β} {ts : List Token} (h : x ts = none) :
    (x >>= f) ts = none := by
  show (x ts).bind _ = _
  rw [h]; rfl

theorem orElse_of_none {x y : Reader α} {ts : List Token} (h : x ts = none) :
    (x <|> y) ts = y ts := by
  show (x ts <|> y ts) = _
  rw [h]; rfl

theorem mark_self (m : Mark) (r : List Token) : mark m (.mark m :: r) = some ((), r) := by
  simp [mark]

theorem skip_self (m : Mark) (r : List Token) : skip m (.mark m :: r) = some (true, r) := by
  simp [skip]

theorem skip_other {m : Mark} {ts : List Token} (h : ts.head? ≠ some (.mark m)) :
    skip m ts = some (false, ts) := by
  unfold skip
  split
  · rename_i m' r
    rw [if_neg]
    rintro rfl
    simp at h
  · rfl

theorem skipWord_self (w : String) (r : List Token) :
    skipWord w (.word w :: r) = some (true, r) := by
  simp [skipWord]

theorem skipWord_other {w : String} {ts : List Token} (h : ts.head? ≠ some (.word w)) :
    skipWord w ts = some (false, ts) := by
  unfold skipWord
  split
  · rename_i w' r
    rw [if_neg]
    rintro rfl
    simp at h
  · rfl

/-- A mark that stands here decides for the first of two readers. -/
theorem skip_then {m : Mark} {f g : Reader α} {r : List Token} :
    (skip m >>= fun b => if b = true then f else g) (.mark m :: r) = f r := by
  rw [bind_of_some (skip_self m r)]; rfl

/-- A mark that does not stand here decides for the second of two readers. -/
theorem skip_else {m : Mark} {f g : Reader α} {ts : List Token} (h : ts.head? ≠ some (.mark m)) :
    (skip m >>= fun b => if b = true then f else g) ts = g ts := by
  rw [bind_of_some (skip_other h)]; rfl

theorem skipWord_then {w : String} {f g : Reader α} {r : List Token} :
    (skipWord w >>= fun b => if b = true then f else g) (.word w :: r) = f r := by
  rw [bind_of_some (skipWord_self w r)]; rfl

theorem skipWord_else {w : String} {f g : Reader α} {ts : List Token}
    (h : ts.head? ≠ some (.word w)) :
    (skipWord w >>= fun b => if b = true then f else g) ts = g ts := by
  rw [bind_of_some (skipWord_other h)]; rfl

theorem word_self (w : String) (r : List Token) : word w (.word w :: r) = some ((), r) := by
  simp [word]

theorem identifier_self {w : String} (h : isIdentifier w = true) (r : List Token) :
    identifier (.word w :: r) = some (w, r) := by
  simp [identifier, h]

theorem segment_self {w : String} (h : isSegment w = true) (r : List Token) :
    segment (.word w :: r) = some (w, r) := by
  simp [segment, h]

end Steps

/-! ## What may follow -/

/-- The next token is none of these marks. -/
def Clear (ms : List Mark) (rest : List Token) : Prop :=
  ∀ m ∈ ms, rest.head? ≠ some (.mark m)

theorem Clear.mono {ms ns : List Mark} {rest : List Token} (h : Clear ns rest) (hs : ms ⊆ ns) :
    Clear ms rest := fun m hm => h m (hs hm)

theorem Clear.mark {ms : List Mark} {m : Mark} (h : m ∉ ms) (r : List Token) :
    Clear ms (.mark m :: r) := by
  intro n hn he
  simp only [List.head?_cons, Option.some.injEq, Token.mark.injEq] at he
  exact h (he ▸ hn)

theorem Clear.of_word (w : String) (r : List Token) {ms : List Mark} : Clear ms (.word w :: r) := by
  intro m _ he
  cases he

/-! ## Lists -/

section Lists

variable {α : Type} {spells : α → List Token → Prop}

/-- Items between commas are read up to the closing mark, if each item is read wherever a comma or
that mark follows it, and starts with neither. -/
theorem list_reads (item : Reader α) (close : Mark) {size : Nat} (hclose : close ≠ .comma)
    (hstart : ∀ {x us}, spells x us → ∃ t us', us = t :: us' ∧ t ≠ .mark close)
    (hitem : ∀ {x us next} (rest : List Token), spells x us → us.length ≤ size →
      next = .comma ∨ next = close →
      item (us ++ .mark next :: rest) = some (x, .mark next :: rest))
    {xs : List α} {ts : List Token} (h : Items spells xs ts) (hs : ts.length ≤ size)
    (rest : List Token) :
    ∀ {k}, ts.length < k →
      ∃ comma, list close item k (ts ++ .mark close :: rest) = some ((xs, comma), rest) := by
  have hne : ∀ {x us} (r : List Token), spells x us → (us ++ r).head? ≠ some (.mark close) := by
    intro x us r hx
    obtain ⟨t, us', rfl, ht⟩ := hstart hx
    simpa using ht
  induction h with
  | nil =>
      intro k hk
      obtain ⟨k, rfl⟩ : ∃ j, k = j + 1 := ⟨k - 1, by omega⟩
      exact ⟨true, by rw [List.nil_append, list, skip_then]; rfl⟩
  | @last x us hx =>
      intro k hk
      obtain ⟨k, rfl⟩ : ∃ j, k = j + 1 := ⟨k - 1, by omega⟩
      refine ⟨false, ?_⟩
      rw [list, skip_else (hne _ hx), bind_of_some (hitem rest hx hs (.inr rfl)),
        skip_else (by simpa using hclose), bind_of_some (mark_self close rest)]
      rfl
  | @lastComma x us hx =>
      intro k hk
      simp only [List.length_append, List.length_singleton] at hs hk
      obtain ⟨k, rfl⟩ : ∃ j, k = j + 2 := ⟨k - 2, by omega⟩
      refine ⟨true, ?_⟩
      -- Behind the last comma the reader starts on a list of no items.
      have hend : list close item (k + 1) (.mark close :: rest) = some (([], true), rest) := by
        rw [list, skip_then]
        rfl
      rw [List.append_assoc, List.singleton_append, list, skip_else (hne _ hx),
        bind_of_some (hitem (.mark close :: rest) hx (by omega) (.inl rfl)), skip_then,
        bind_of_some hend]
      rfl
  | @cons x y xs us vs hx _ ih =>
      intro k hk
      simp only [List.length_append, List.length_cons] at hs hk
      obtain ⟨k, rfl⟩ : ∃ j, k = j + 1 := ⟨k - 1, by omega⟩
      obtain ⟨comma, hrest⟩ := ih (by omega) (k := k) (by omega)
      refine ⟨comma, ?_⟩
      rw [List.append_assoc, List.cons_append, list, skip_else (hne _ hx),
        bind_of_some (hitem _ hx (by omega) (.inl rfl)), skip_then, bind_of_some hrest]
      rfl

/-- The same for items that are told by their first token and read wherever none of some marks
follows. -/
theorem list_reads_clear {starts : Token → Bool} {goesOn : List Mark}
    (hstart : ∀ {x us}, spells x us → ∃ t us', us = t :: us' ∧ starts t = true)
    (hcommaOn : Mark.comma ∉ goesOn) (item : Reader α) (close : Mark) (hcomma : close ≠ .comma)
    (hclose : close ∉ goesOn) (hnone : starts (.mark close) = false) {size : Nat}
    (hitem : ∀ {x us rest}, spells x us → us.length ≤ size → Clear goesOn rest →
      item (us ++ rest) = some (x, rest))
    {xs : List α} {ts : List Token} (h : Items spells xs ts) (hs : ts.length ≤ size)
    (rest : List Token) {k : Nat} (hk : ts.length < k) :
    ∃ comma, list close item k (ts ++ .mark close :: rest) = some ((xs, comma), rest) := by
  refine list_reads item close hcomma ?_ ?_ h hs rest hk
  · intro x us hx
    obtain ⟨t, us', he, ht⟩ := hstart hx
    refine ⟨t, us', he, ?_⟩
    rintro rfl
    rw [hnone] at ht
    cases ht
  · intro x us next r hx hus hnext
    refine hitem hx hus (Clear.mark ?_ r)
    rcases hnext with rfl | rfl
    · exact hcommaOn
    · exact hclose

/-- Items start as their first one does. -/
theorem items_start {P : Token → Prop} (hstart : ∀ {x us}, spells x us → ∃ t us', us = t :: us' ∧ P t)
    {x : α} {xs : List α} {ts : List Token} (h : Items spells (x :: xs) ts) :
    ∃ t us, ts = t :: us ∧ P t := by
  cases h with
  | last hx => exact hstart hx
  | lastComma hx =>
      obtain ⟨t, us, rfl, ht⟩ := hstart hx
      exact ⟨t, _, rfl, ht⟩
  | cons hx _ =>
      obtain ⟨t, us, rfl, ht⟩ := hstart hx
      exact ⟨t, _, rfl, ht⟩

end Lists

/-! ## Paths -/

theorem pathRest_reads {p : Path} (hp : ∀ s ∈ p, isSegment s = true) {rest : List Token}
    (hr : rest.head? ≠ some (.mark .pathSep)) :
    ∀ {n}, p.length < n →
      pathRest n ((p.flatMap fun t => [Token.mark .pathSep, .word t]) ++ rest) = some (p, rest) := by
  induction p with
  | nil =>
      intro n hn
      obtain ⟨n, rfl⟩ : ∃ j, n = j + 1 := ⟨n - 1, by simp at hn; omega⟩
      rw [pathRest, List.flatMap_nil, List.nil_append, bind_of_some (skip_other hr)]
      rfl
  | cons s p ih =>
      intro n hn
      simp only [List.length_cons] at hn
      obtain ⟨n, rfl⟩ : ∃ j, n = j + 1 := ⟨n - 1, by omega⟩
      have hrest := ih (fun t ht => hp t (by simp [ht])) (n := n) (by omega)
      simp only [List.flatMap_cons, List.cons_append, List.nil_append, pathRest]
      rw [bind_of_some (skip_self _ _)]
      simp only [if_true]
      rw [bind_of_some (segment_self (hp s (by simp)) _), bind_of_some hrest]
      rfl

theorem length_pathTokens (p : Path) : p.length ≤ (pathTokens p).length := by
  cases p with
  | nil => exact Nat.zero_le _
  | cons s p =>
      simp only [pathTokens, List.length_cons, Nat.add_le_add_iff_right]
      induction p with
      | nil => exact Nat.zero_le _
      | cons t p ih =>
          simp only [List.flatMap_cons, List.length_append, List.length_cons, List.length_nil]
          omega

theorem path_reads {p : Path} (hp : IsPath p) {rest : List Token}
    (hr : rest.head? ≠ some (.mark .pathSep)) {n : Nat} (hn : p.length ≤ n) :
    path n (pathTokens p ++ rest) = some (p, rest) := by
  cases p with
  | nil => exact absurd rfl hp.1
  | cons s p =>
      simp only [List.length_cons] at hn
      have hrest := pathRest_reads (p := p) (fun t ht => hp.2 t (by simp [ht])) hr (n := n) (by omega)
      rw [pathTokens, List.cons_append, path, bind_of_some (segment_self (hp.2 s (by simp)) _),
        bind_of_some hrest]
      rfl

/-- A path starts with a word that may stand in it. -/
theorem pathTokens_eq {p : Path} (hp : IsPath p) :
    ∃ s us, isSegment s = true ∧ pathTokens p = .word s :: us := by
  cases p with
  | nil => exact absurd rfl hp.1
  | cons s p => exact ⟨s, _, hp.2 s (by simp), rfl⟩

/-! ## Types -/

def startsType : Token → Bool
  | .word w => isSegment w
  | .mark .amp | .mark .openBracket | .mark .openParen => true
  | _ => false

theorem ty_start {t : Ty} {ts : List Token} (h : t.Spells ts) :
    ∃ u us, ts = u :: us ∧ startsType u = true := by
  cases h with
  | plain hp =>
      obtain ⟨s, us, hs, he⟩ := pathTokens_eq hp
      exact ⟨.word s, us, he, hs⟩
  | bound hp _ =>
      obtain ⟨s, us, hs, he⟩ := pathTokens_eq hp
      rw [he]
      exact ⟨.word s, _, rfl, hs⟩
  | generic hp _ =>
      obtain ⟨s, us, hs, he⟩ := pathTokens_eq hp
      rw [he]
      exact ⟨.word s, _, rfl, hs⟩
  | reference _ => exact ⟨.mark .amp, _, rfl, rfl⟩
  | slice _ => exact ⟨.mark .openBracket, _, rfl, rfl⟩
  | tuple _ => exact ⟨.mark .openParen, _, rfl, rfl⟩

/-- The marks that go on with a type. -/
def typeGoesOn : List Mark := [.pathSep, .less]

theorem tupleItems_cons_cons {α : Type} {x y : α} {xs : List α} {comma : Bool} {ts : List Token} :
    tupleItems (x :: y :: xs, comma) ts = some (x :: y :: xs, ts) := by
  cases comma <;> rfl

theorem lifetime?_other {ts : List Token} (h : ∀ l, ts.head? ≠ some (.lifetime l)) :
    lifetime? ts = some (none, ts) := by
  unfold lifetime?
  split
  · rename_i l r
    exact absurd rfl (h l)
  · rfl

theorem lifetimes_none {r : List Token} (h : ∀ l, r.head? ≠ some (.lifetime l)) {n : Nat}
    (hn : 0 < n) : lifetimes n r = some ([], r) := by
  obtain ⟨n, rfl⟩ : ∃ j, n = j + 1 := ⟨n - 1, by omega⟩
  rw [lifetimes, bind_of_some (lifetime?_other h)]
  rfl

/-- A type that starts with a word is a path with what stands in its brackets. -/
theorem ty_word {n : Nat} {ts : List Token} {s : String} (h : ts.head? = some (.word s)) :
    ty (n + 1) ts =
      (do
        let p ← path n
        if ← skip .less then
          let ls ← lifetimes n
          let (ts, _) ← list .greater (ty n) n
          return .named p ls ts
        return .named p [] [] : Reader Ty) ts := by
  rw [ty, skip_else (by simp [h]), skip_else (by simp [h]), skip_else (by simp [h])]

/-- The one lifetime of a path in brackets, with or without a comma behind it. -/
theorem lifetimes_one {comma : List Token} (hcomma : OptionalComma comma) (l : String)
    (rest : List Token) {n : Nat} (hn : 1 < n) :
    lifetimes n (.lifetime l :: (comma ++ .mark .greater :: rest)) =
      some ([l], .mark .greater :: rest) := by
  obtain ⟨n, rfl⟩ : ∃ j, n = j + 1 := ⟨n - 1, by omega⟩
  have hnone := lifetimes_none (r := .mark .greater :: rest) (by simp) (n := n) (by omega)
  cases hcomma with
  | absent =>
      rw [List.nil_append, lifetimes,
        bind_of_some (a := some l) (r := .mark .greater :: rest) rfl]
      dsimp only
      rw [bind_of_some (skip_other (by simp)), bind_of_some hnone]
      rfl
  | present =>
      rw [List.singleton_append, lifetimes,
        bind_of_some (a := some l) (r := .mark .comma :: .mark .greater :: rest) rfl]
      dsimp only
      rw [bind_of_some (skip_self _ _), bind_of_some hnone]
      rfl

section Reference

variable {us : List Token} (hus : ∃ u vs, us = u :: vs ∧ startsType u = true)

include hus

/-- A reference's target does not start with the keyword that may stand before it. -/
theorem mut_reads (isMut : Bool) :
    skipWord "mut" ((if isMut then [.word "mut"] else []) ++ us) = some (isMut, us) := by
  obtain ⟨u, vs, rfl, hu⟩ := hus
  cases isMut with
  | true => exact skipWord_self _ _
  | false =>
      refine skipWord_other ?_
      rw [if_neg (by decide), List.nil_append, List.head?_cons, ne_eq, Option.some.injEq]
      rintro rfl
      exact absurd hu (by decide)

/-- Nor does it start with a lifetime. -/
theorem referenceTokens_read (l : Option String) (isMut : Bool) :
    lifetime? (referenceTokens l isMut ++ us) =
      some (l, (if isMut then [.word "mut"] else []) ++ us) := by
  obtain ⟨u, vs, rfl, hu⟩ := hus
  rw [referenceTokens, List.append_assoc]
  cases l with
  | some l => rfl
  | none =>
      refine lifetime?_other fun l => ?_
      cases isMut with
      | true => exact nofun
      | false =>
          rw [Option.map_none, Option.toList_none, List.nil_append, if_neg (by decide),
            List.nil_append, List.head?_cons, ne_eq, Option.some.injEq]
          rintro rfl
          cases hu

end Reference

/-- The bound suffices to read every type of a size. -/
def ReadsTypes (n : Nat) : Prop :=
  ∀ {t : Ty} {ts rest : List Token}, t.Spells ts → ts.length < n → Clear typeGoesOn rest →
    ty n (ts ++ rest) = some (t, rest)

section Types

variable {n : Nat} (ih : ReadsTypes n)

/-- The path at the start of a type is read, and it is seen to be one by its first word. -/
theorem typePath_reads {p : Path} (hp : IsPath p) (hpn : p.length ≤ n) (us : List Token)
    (hus : us.head? ≠ some (.mark .pathSep)) :
    path n (pathTokens p ++ us) = some (p, us) ∧
      ∃ s, (pathTokens p ++ us).head? = some (.word s) := by
  obtain ⟨s, _, _, he⟩ := pathTokens_eq hp
  exact ⟨path_reads hp hus hpn, s, by rw [he]; rfl⟩

include ih

theorem tys_read (close : Mark) (hcomma : close ≠ .comma) (hclose : close ∉ typeGoesOn)
    (hstart : startsType (.mark close) = false) {xs : List Ty} {us : List Token}
    (hxs : Items Ty.Spells xs us) (hus : us.length < n) (rest : List Token) :
    ∃ comma, list close (ty n) n (us ++ .mark close :: rest) = some ((xs, comma), rest) := by
  exact list_reads_clear ty_start (by decide) (ty n) close hcomma hclose hstart
    (fun hx hle hclear => ih hx (by omega) hclear) hxs (Nat.le_refl _) rest hus

/-- One level more is read with the bound for what stands inside. -/
theorem ty_reads_step : ReadsTypes (n + 1) := by
  intro t ts rest h hn hr
  cases h with
  | @plain p hp =>
      have hlen := length_pathTokens p
      obtain ⟨hread, s, hs⟩ := typePath_reads (n := n) hp (by omega) rest (hr .pathSep (by decide))
      rw [ty_word hs, bind_of_some hread, skip_else (hr .less (by decide))]
      rfl
  | @bound p l comma hp hcomma =>
      have hlen := length_pathTokens p
      simp only [List.length_append, List.length_cons, List.length_nil] at hn
      obtain ⟨n, rfl⟩ : ∃ j, n = j + 2 := ⟨n - 2, by omega⟩
      simp only [List.append_assoc, List.cons_append, List.nil_append]
      obtain ⟨hread, s, hs⟩ := typePath_reads (n := n + 2) hp (by omega)
        (.mark .less :: .lifetime l :: (comma ++ .mark .greater :: rest)) (by simp)
      -- No type follows the lifetimes, and the reader takes the empty list for one with a comma.
      have hrest : list .greater (ty (n + 2)) (n + 2) (.mark .greater :: rest) =
          some (([], true), rest) := by
        rw [list, skip_then]; rfl
      rw [ty_word hs, bind_of_some hread, skip_then,
        bind_of_some (lifetimes_one hcomma l rest (by omega)), bind_of_some hrest]
      rfl
  | @generic p t args us hp hargs =>
      have hlen := length_pathTokens p
      simp only [List.length_append, List.length_cons, List.length_nil] at hn
      simp only [List.append_assoc, List.cons_append, List.nil_append]
      obtain ⟨hread, s, hs⟩ := typePath_reads (n := n) hp (by omega)
        (.mark .less :: (us ++ .mark .greater :: rest)) (by simp)
      obtain ⟨comma, hlist⟩ := tys_read ih .greater (by decide) (by decide) rfl hargs (by omega) rest
      have hnone : ∀ l, (us ++ .mark .greater :: rest).head? ≠ some (.lifetime l) := by
        intro l
        obtain ⟨u, us', rfl, hu⟩ := items_start ty_start hargs
        rw [List.cons_append, List.head?_cons, ne_eq, Option.some.injEq]
        rintro rfl
        cases hu
      rw [ty_word hs, bind_of_some hread, skip_then,
        bind_of_some (lifetimes_none hnone (by omega)), bind_of_some hlist]
      rfl
  | @reference l isMut t us ht =>
      simp only [List.cons_append, List.length_cons, List.length_append] at hn ⊢
      have hus : ∃ u vs, us ++ rest = u :: vs ∧ startsType u = true := by
        obtain ⟨u, vs, rfl, hu⟩ := ty_start ht
        exact ⟨u, _, rfl, hu⟩
      rw [ty, skip_then, List.append_assoc, bind_of_some (referenceTokens_read hus l isMut),
        bind_of_some (mut_reads hus isMut), bind_of_some (ih ht (by omega) hr)]
      rfl
  | @slice t us ht =>
      simp only [List.cons_append, List.length_cons, List.length_append, List.append_assoc,
        List.nil_append, List.length_nil] at hn ⊢
      rw [ty, skip_else (by simp), skip_then,
        bind_of_some (ih ht (by omega) (Clear.mark (by decide) _)),
        bind_of_some (mark_self _ _)]
      rfl
  | @tuple t u items us hitems =>
      simp only [List.cons_append, List.length_cons, List.length_append, List.append_assoc,
        List.nil_append, List.length_nil] at hn ⊢
      obtain ⟨comma, hlist⟩ := tys_read ih .closeParen (by decide) (by decide) rfl hitems (by omega)
        rest
      rw [ty, skip_else (by simp), skip_else (by simp), skip_then, bind_of_some hlist,
        bind_of_some tupleItems_cons_cons]
      rfl

end Types

theorem ty_reads {n : Nat} : ReadsTypes n := by
  induction n with
  | zero => intro t ts rest _ hn; omega
  | succ n ih => exact ty_reads_step ih

/-! ## Expressions -/

def startsChain : Token → Bool
  | .text _ | .mark .openBracket | .mark .openParen => true
  | .word w => isSegment w
  | _ => false

def startsExpr : Token → Bool
  | .number _ _ | .mark .minus | .mark .amp | .mark .bar => true
  | .word w => w == "match" || isSegment w
  | t => startsChain t

theorem startsExpr_of_startsChain {t : Token} (h : startsChain t = true) : startsExpr t = true := by
  unfold startsExpr
  split
  case h_5 => rw [Bool.or_eq_true]; exact .inr h
  all_goals first | rfl | exact h

theorem chain_start : ∀ {e ts}, Expr.Spells .chain e ts → ∃ t us, ts = t :: us ∧ startsChain t = true
  | _, _, .text => ⟨_, _, rfl, rfl⟩
  | _, _, .path hp => by
      obtain ⟨s, us, hs, he⟩ := pathTokens_eq hp
      exact ⟨.word s, us, he, hs⟩
  | _, _, .call hf _ => by
      obtain ⟨t, us, rfl, ht⟩ := chain_start hf
      exact ⟨t, _, rfl, ht⟩
  | _, _, .method hr _ _ => by
      obtain ⟨t, us, rfl, ht⟩ := chain_start hr
      exact ⟨t, _, rfl, ht⟩
  | _, _, .invoke hname _ => ⟨_, _, rfl, by simp [startsChain, isSegment, hname]⟩
  | _, _, .array _ => ⟨_, _, rfl, rfl⟩
  | _, _, .tuple _ => ⟨_, _, rfl, rfl⟩

theorem expr_start : ∀ {l e ts}, Expr.Spells l e ts → ∃ t us, ts = t :: us ∧ startsExpr t = true
  | .chain, _, _, h => by
      obtain ⟨t, us, he, ht⟩ := chain_start h
      exact ⟨t, us, he, startsExpr_of_startsChain ht⟩
  | _, _, _, @Expr.Spells.number v _ => by
      cases v with
      | ofNat n => exact ⟨_, _, rfl, rfl⟩
      | negSucc n => exact ⟨_, _, rfl, rfl⟩
  | _, _, _, .choose _ _ => ⟨_, _, rfl, rfl⟩
  | _, _, _, .ofChain h => expr_start h
  | _, _, _, .borrow _ => ⟨_, _, rfl, rfl⟩
  | _, _, _, .ofOperand h => expr_start h
  | _, _, _, .closure _ _ => ⟨_, _, rfl, rfl⟩
  | _, _, _, .bracedClosure _ _ => ⟨_, _, rfl, rfl⟩
  | _, _, _, .equal hl _ => by
      obtain ⟨t, us, rfl, ht⟩ := expr_start hl
      exact ⟨t, _, rfl, ht⟩

/-- No token that an expression cannot start with stands at its front. -/
theorem expr_start_ne {l : Level} {e : Expr} {ts : List Token} (h : Expr.Spells l e ts) {t : Token}
    (ht : startsExpr t = false) (rest : List Token) : (ts ++ rest).head? ≠ some t := by
  obtain ⟨u, us, rfl, hu⟩ := expr_start h
  rw [List.cons_append, List.head?_cons, ne_eq, Option.some.injEq]
  rintro rfl
  rw [ht] at hu
  cases hu

/-- The marks that go on with a path. -/
def pathGoesOn : List Mark := [.pathSep, .bang]

/-- The marks that go on with an operand. -/
def operandGoesOn : List Mark := [.openParen, .dot] ++ pathGoesOn

/-- The marks that go on with an expression. -/
def exprGoesOn : List Mark := .equal :: operandGoesOn

/-- The bound suffices to read every expression of a size. -/
def ReadsExprs (n : Nat) : Prop :=
  ∀ {e : Expr} {ts rest : List Token}, Expr.Spells .full e ts → 4 * ts.length + 4 ≤ n →
    Clear exprGoesOn rest → expr n (ts ++ rest) = some (e, rest)

/-- The bound suffices to read every operand of a size. -/
def ReadsOperands (n : Nat) : Prop :=
  ∀ {e : Expr} {ts rest : List Token}, Expr.Spells .operand e ts → 4 * ts.length + 3 ≤ n →
    Clear operandGoesOn rest → operand n (ts ++ rest) = some (e, rest)

/-- No call follows where the marks of one are missing. -/
theorem suffixes_none {e : Expr} {rest : List Token} (hr : Clear operandGoesOn rest) {m : Nat}
    (hm : 0 < m) : suffixes e m rest = some (e, rest) := by
  obtain ⟨m, rfl⟩ : ∃ j, m = j + 1 := ⟨m - 1, by omega⟩
  rw [suffixes, skip_else (hr .openParen (by decide)), skip_else (hr .dot (by decide))]
  rfl

theorem operand_of_primary {m : Nat} {e : Expr} {ts rest : List Token}
    (hamp : ts.head? ≠ some (.mark .amp)) (h : primary (m + 1) ts = some (e, rest))
    (hr : Clear operandGoesOn rest) : operand (m + 2) ts = some (e, rest) := by
  rw [operand, skip_else hamp, bind_of_some h, suffixes_none hr (by omega)]

/-- An operand without a comparison behind it is an expression. -/
theorem expr_of_operand {m : Nat} {e : Expr} {ts rest : List Token}
    (h : operand m ts = some (e, rest)) (hr : rest.head? ≠ some (.mark .equal)) :
    expr (m + 1) ts = some (e, rest) := by
  rw [expr, bind_of_some h, skip_else hr]
  rfl

section Expressions

variable {n : Nat} (ih : ∀ {m}, m < n → ReadsExprs m ∧ ReadsOperands m)

include ih

theorem exprs_read {m : Nat} (hm : m < n) (close : Mark) (hcomma : close ≠ .comma)
    (hclose : close ∉ exprGoesOn) (hstart : startsExpr (.mark close) = false) {xs : List Expr}
    {us : List Token} (hxs : Items (Expr.Spells .full) xs us) (hus : 4 * us.length + 4 ≤ m)
    (rest : List Token) :
    ∃ comma, list close (expr m) m (us ++ .mark close :: rest) = some ((xs, comma), rest) := by
  exact list_reads_clear expr_start (by decide) (expr m) close hcomma hclose hstart
    (fun hx hle hclear => (ih hm).1 hx (by omega) hclear) hxs (Nat.le_refl _) rest (by omega)

omit ih in
/-- A path is read where neither a further segment nor a bang follows. -/
theorem primary_path {p : Path} (hp : IsPath p) {rest : List Token} (hr : Clear pathGoesOn rest)
    {m : Nat} (hm : p.length ≤ m) : primary (m + 1) (pathTokens p ++ rest) = some (.path p, rest) := by
  obtain ⟨s, us, hs, he⟩ := pathTokens_eq hp
  have hpath := path_reads hp (hr .pathSep (by decide)) hm
  have hhead : (pathTokens p ++ rest).head? = some (.word s) := by rw [he]; rfl
  have hmatch : s ≠ "match" := by
    rintro rfl
    exact absurd hs (by decide)
  have hliteral : literal (pathTokens p ++ rest) = none := by rw [he]; rfl
  rw [primary, skip_else (by simp [hhead]), skip_else (by simp [hhead]),
    skip_else (by simp [hhead]), skipWord_else (by simp [hhead, hmatch]),
    orElse_of_none hliteral, bind_of_some hpath]
  cases p with
  | nil => exact absurd rfl hp.1
  | cons f p =>
      cases p with
      | nil =>
          dsimp only
          rw [skip_else (hr .bang (by decide))]
          rfl
      | cons g p => rfl

theorem primary_invoke {name : String} {args : List Expr} {ts : List Token}
    (hname : isIdentifier name = true) (hargs : Items (Expr.Spells .full) args ts) {m : Nat}
    (hm : m < n) (hpos : 0 < m) (hts : 4 * ts.length + 4 ≤ m) (rest : List Token) :
    primary (m + 1) (.word name :: .mark .bang :: .mark .openParen ::
      (ts ++ .mark .closeParen :: rest)) = some (.invoke name args, rest) := by
  have hsegment : isSegment name = true := by simp [isSegment, hname]
  have hmatch : name ≠ "match" := by
    rintro rfl
    exact absurd hname (by decide)
  have hpath : path m (.word name :: .mark .bang :: .mark .openParen ::
      (ts ++ .mark .closeParen :: rest)) =
      some ([name], .mark .bang :: .mark .openParen :: (ts ++ .mark .closeParen :: rest)) :=
    path_reads (p := [name]) ⟨by simp, by simpa using hsegment⟩ (by simp) hpos
  obtain ⟨comma, hlist⟩ := exprs_read ih hm .closeParen (by decide) (by decide) rfl hargs hts rest
  rw [primary, skip_else (by simp), skip_else (by simp), skip_else (by simp),
    skipWord_else (by simp [hmatch]), orElse_of_none rfl, bind_of_some hpath]
  dsimp only
  rw [skip_then, bind_of_some (mark_self _ _), bind_of_some hlist]
  rfl

theorem primary_array {items : List Expr} {ts : List Token}
    (hitems : Items (Expr.Spells .full) items ts) {m : Nat} (hm : m < n)
    (hts : 4 * ts.length + 4 ≤ m) (rest : List Token) :
    primary (m + 1) (.mark .openBracket :: (ts ++ .mark .closeBracket :: rest)) =
      some (.array items, rest) := by
  obtain ⟨comma, hlist⟩ := exprs_read ih hm .closeBracket (by decide) (by decide) rfl hitems hts rest
  rw [primary, skip_then, bind_of_some hlist]
  rfl

theorem primary_tuple {x y : Expr} {items : List Expr} {ts : List Token}
    (hitems : Items (Expr.Spells .full) (x :: y :: items) ts) {m : Nat} (hm : m < n)
    (hts : 4 * ts.length + 4 ≤ m) (rest : List Token) :
    primary (m + 1) (.mark .openParen :: (ts ++ .mark .closeParen :: rest)) =
      some (.tuple (x :: y :: items), rest) := by
  obtain ⟨comma, hlist⟩ := exprs_read ih hm .closeParen (by decide) (by decide) rfl hitems hts rest
  rw [primary, skip_else (by simp), skip_then, bind_of_some hlist, bind_of_some tupleItems_cons_cons]
  rfl

/-- A chain is read up to its end, and the bound that is left lets more calls follow. -/
theorem chain_reads : ∀ {e : Expr} {ts : List Token} (rest : List Token), Expr.Spells .chain e ts →
    4 * ts.length + 2 ≤ n → Clear pathGoesOn rest →
    ∃ k < ts.length, (primary n >>= fun e => suffixes e n) (ts ++ rest) = suffixes e (n - k) rest
  | _, _, rest, .text, hn, _ => by
      obtain ⟨n, rfl⟩ : ∃ j, n = j + 1 := ⟨n - 1, by omega⟩
      refine ⟨0, by simp, ?_⟩
      rw [List.cons_append, bind_of_some]
      · rfl
      · rw [primary, skip_else (by simp), skip_else (by simp), skip_else (by simp),
          skipWord_else (by simp)]
        rfl
  | _, _, rest, @Expr.Spells.path p hp, hn, hr => by
      obtain ⟨n, rfl⟩ : ∃ j, n = j + 1 := ⟨n - 1, by omega⟩
      obtain ⟨s, us, _, he⟩ := pathTokens_eq hp
      have hlen := length_pathTokens p
      exact ⟨0, by rw [he]; simp, bind_of_some (primary_path hp hr (by omega))⟩
  -- A call spends one more of the bound than the chain that it is made on.
  | _, _, rest, @Expr.Spells.call f args fs ts hf hargs, hn, _ => by
      simp only [List.length_append, List.length_cons, List.length_nil] at hn ⊢
      simp only [List.append_assoc, List.cons_append, List.nil_append]
      obtain ⟨k, hk, he⟩ := chain_reads (.mark .openParen :: (ts ++
        .mark .closeParen :: rest)) hf (by omega) (Clear.mark (by decide) _)
      refine ⟨k + 1, by omega, ?_⟩
      obtain ⟨m, hm⟩ : ∃ m, n - k = m + 1 := ⟨n - k - 1, by omega⟩
      obtain ⟨comma, hlist⟩ := exprs_read ih (m := m) (by omega) .closeParen (by decide)
        (by decide) rfl hargs (by omega) rest
      rw [he, hm, suffixes, skip_then, bind_of_some hlist, show n - (k + 1) = m by omega]
  | _, _, rest, @Expr.Spells.method f name args fs ts hf hname hargs, hn, _ => by
      simp only [List.length_append, List.length_cons, List.length_nil] at hn ⊢
      simp only [List.append_assoc, List.cons_append, List.nil_append]
      obtain ⟨k, hk, he⟩ := chain_reads (.mark .dot :: .word name :: .mark .openParen ::
        (ts ++ .mark .closeParen :: rest)) hf (by omega) (Clear.mark (by decide) _)
      refine ⟨k + 1, by omega, ?_⟩
      obtain ⟨m, hm⟩ : ∃ m, n - k = m + 1 := ⟨n - k - 1, by omega⟩
      obtain ⟨comma, hlist⟩ := exprs_read ih (m := m) (by omega) .closeParen (by decide)
        (by decide) rfl hargs (by omega) rest
      rw [he, hm, suffixes, skip_else (by simp), skip_then, bind_of_some (identifier_self hname _),
        bind_of_some (mark_self _ _), bind_of_some hlist, show n - (k + 1) = m by omega]
  | _, _, rest, @Expr.Spells.invoke name args ts hname hargs, hn, _ => by
      obtain ⟨n, rfl⟩ : ∃ j, n = j + 1 := ⟨n - 1, by omega⟩
      simp only [List.length_append, List.length_cons, List.length_nil] at hn ⊢
      simp only [List.append_assoc, List.cons_append, List.nil_append]
      exact ⟨0, by omega, bind_of_some
        (primary_invoke ih hname hargs (by omega) (by omega) (by omega) rest)⟩
  | _, _, rest, @Expr.Spells.array items ts hitems, hn, _ => by
      obtain ⟨n, rfl⟩ : ∃ j, n = j + 1 := ⟨n - 1, by omega⟩
      simp only [List.length_append, List.length_cons, List.length_nil] at hn ⊢
      simp only [List.append_assoc, List.cons_append, List.nil_append]
      exact ⟨0, by omega, bind_of_some (primary_array ih hitems (by omega) (by omega) rest)⟩
  | _, _, rest, @Expr.Spells.tuple x y items ts hitems, hn, _ => by
      obtain ⟨n, rfl⟩ : ∃ j, n = j + 1 := ⟨n - 1, by omega⟩
      simp only [List.length_append, List.length_cons, List.length_nil] at hn ⊢
      simp only [List.append_assoc, List.cons_append, List.nil_append]
      exact ⟨0, by omega, bind_of_some (primary_tuple ih hitems (by omega) (by omega) rest)⟩

omit ih in
theorem arms_start_ne {as : List (Expr × Expr)} {ts : List Token}
    (h : Arms (Expr.Spells .operand) (Expr.Spells .full) as ts) (rest : List Token) :
    (ts ++ .mark .closeBrace :: rest).head? ≠ some (.mark .comma) := by
  cases h with
  | nil => simp
  | bare hp _ _ =>
      simp only [List.append_assoc]
      exact expr_start_ne hp rfl _
  | braced hp _ _ _ =>
      simp only [List.append_assoc]
      exact expr_start_ne hp rfl _

omit ih in
theorem optionalComma_skipped {comma rest : List Token} (h : OptionalComma comma)
    (hr : rest.head? ≠ some (.mark .comma)) : ∃ b, skip .comma (comma ++ rest) = some (b, rest) := by
  cases h with
  | absent => exact ⟨false, skip_other hr⟩
  | present => exact ⟨true, skip_self _ _⟩

theorem arms_read : ∀ {as : List (Expr × Expr)} {ts : List Token} {m : Nat},
    Arms (Expr.Spells .operand) (Expr.Spells .full) as ts → 4 * ts.length + 5 ≤ m → m ≤ n →
    ∀ rest, arms m (ts ++ .mark .closeBrace :: rest) = some (as, rest) := by
  intro as ts m h
  induction h generalizing m with
  | nil =>
      intro hm _ rest
      obtain ⟨m, rfl⟩ : ∃ j, m = j + 1 := ⟨m - 1, by omega⟩
      rw [List.nil_append, arms, skip_then]
      rfl
  | @bare p e as ps es us hp he _ ihs =>
      intro hm hmn rest
      obtain ⟨m, rfl⟩ : ∃ j, m = j + 1 := ⟨m - 1, by omega⟩
      simp only [List.length_append, List.length_cons] at hm
      simp only [List.append_assoc, List.cons_append]
      have hpattern := (ih (m := m) (by omega)).2 hp (by omega)
        (Clear.mark (m := .fatArrow) (by decide) (es ++ .mark .comma :: (us ++
          .mark .closeBrace :: rest)))
      have hvalue := (ih (m := m) (by omega)).1 he (by omega)
        (Clear.mark (m := .comma) (by decide) (us ++ .mark .closeBrace :: rest))
      rw [arms, skip_else (expr_start_ne hp rfl _), bind_of_some hpattern,
        bind_of_some (mark_self _ _), skip_else (expr_start_ne he rfl _), bind_of_some hvalue,
        skip_then, bind_of_some (ihs (by omega) (by omega) rest)]
      rfl
  | @braced p e as ps es comma us hp he hcomma hs ihs =>
      intro hm hmn rest
      obtain ⟨m, rfl⟩ : ∃ j, m = j + 1 := ⟨m - 1, by omega⟩
      simp only [List.length_append, List.length_cons] at hm
      simp only [List.append_assoc, List.cons_append]
      have hpattern := (ih (m := m) (by omega)).2 hp (by omega)
        (Clear.mark (m := .fatArrow) (by decide) (.mark .openBrace :: (es ++ .mark .closeBrace ::
          (comma ++ (us ++ .mark .closeBrace :: rest)))))
      have hvalue := (ih (m := m) (by omega)).1 he (by omega)
        (Clear.mark (m := .closeBrace) (by decide) (comma ++ (us ++ .mark .closeBrace :: rest)))
      obtain ⟨b, hskip⟩ := optionalComma_skipped hcomma (arms_start_ne hs rest)
      rw [arms, skip_else (expr_start_ne hp rfl _), bind_of_some hpattern,
        bind_of_some (mark_self _ _), skip_then, bind_of_some hvalue,
        bind_of_some (mark_self _ _), bind_of_some hskip,
        bind_of_some (ihs (by omega) (by omega) rest)]
      rfl

theorem operands_read : ReadsOperands n := by
  intro e ts rest h hn hr
  cases h with
  | @number v w =>
      obtain ⟨n, rfl⟩ : ∃ j, n = j + 2 := ⟨n - 2, by omega⟩
      cases v with
      | ofNat v =>
          refine operand_of_primary (by simp [numberTokens]) ?_ hr
          rw [numberTokens, List.cons_append, primary, skip_else (by simp), skip_else (by simp),
            skip_else (by simp), skipWord_else (by simp)]
          rfl
      | negSucc v =>
          refine operand_of_primary (by simp [numberTokens]) ?_ hr
          rw [numberTokens, List.cons_append, primary, skip_else (by simp), skip_else (by simp),
            skip_else (by simp), skipWord_else (by simp)]
          rfl
  | @choose e as ss ts he has =>
      obtain ⟨n, rfl⟩ : ∃ j, n = j + 2 := ⟨n - 2, by omega⟩
      simp only [List.length_append, List.length_cons, List.length_nil] at hn
      simp only [List.append_assoc, List.cons_append, List.nil_append]
      refine operand_of_primary (by simp) ?_ hr
      have hsubject := (ih (m := n) (by omega)).1 he (by omega)
        (Clear.mark (m := .openBrace) (by decide) (ts ++ .mark .closeBrace :: rest))
      rw [primary, skip_else (by simp), skip_else (by simp), skip_else (by simp), skipWord_then,
        bind_of_some hsubject, bind_of_some (mark_self _ _),
        bind_of_some (arms_read ih has (by omega) (by omega) rest)]
      rfl
  | ofChain hc =>
      obtain ⟨n, rfl⟩ : ∃ j, n = j + 1 := ⟨n - 1, by omega⟩
      obtain ⟨t, us, he, ht⟩ := chain_start hc
      have hamp : (ts ++ rest).head? ≠ some (.mark .amp) := by
        rw [he, List.cons_append, List.head?_cons, ne_eq, Option.some.injEq]
        rintro rfl
        cases ht
      obtain ⟨k, hk, hread⟩ := chain_reads (n := n) (fun hm => ih (by omega)) rest hc (by omega)
        (hr.mono (by simp [operandGoesOn]))
      rw [operand, skip_else hamp, hread, suffixes_none hr (by omega)]
  | @borrow e ts he =>
      obtain ⟨n, rfl⟩ : ∃ j, n = j + 1 := ⟨n - 1, by omega⟩
      simp only [List.length_cons] at hn
      rw [List.cons_append, operand, skip_then,
        bind_of_some ((ih (m := n) (by omega)).2 he (by omega) hr)]
      rfl

theorem exprs_read_step : ReadsExprs n := by
  intro e ts rest h hn hr
  obtain ⟨n, rfl⟩ : ∃ j, n = j + 1 := ⟨n - 1, by omega⟩
  have hoperand : Clear operandGoesOn rest := hr.mono (by simp [exprGoesOn])
  have hequal : rest.head? ≠ some (.mark .equal) := hr .equal (by decide)
  cases h with
  | ofOperand ho => exact expr_of_operand ((ih (m := n) (by omega)).2 ho (by omega) hoperand) hequal
  | @closure p e ts hp he =>
      obtain ⟨n, rfl⟩ : ∃ j, n = j + 2 := ⟨n - 2, by omega⟩
      simp only [List.length_cons] at hn
      refine expr_of_operand (operand_of_primary (by simp) ?_ hoperand) hequal
      rw [List.cons_append, List.cons_append, List.cons_append, primary, skip_else (by simp),
        skip_else (by simp), skip_then, bind_of_some (identifier_self hp _),
        bind_of_some (mark_self _ _), skip_else (expr_start_ne he rfl _),
        bind_of_some ((ih (m := n) (by omega)).1 he (by omega) hr)]
      rfl
  | @bracedClosure p e ts hp he =>
      obtain ⟨n, rfl⟩ : ∃ j, n = j + 2 := ⟨n - 2, by omega⟩
      simp only [List.length_append, List.length_cons, List.length_nil] at hn
      simp only [List.append_assoc, List.cons_append, List.nil_append]
      refine expr_of_operand (operand_of_primary (by simp) ?_ hoperand) hequal
      rw [primary, skip_else (by simp), skip_else (by simp), skip_then,
        bind_of_some (identifier_self hp _), bind_of_some (mark_self _ _), skip_then,
        bind_of_some ((ih (m := n) (by omega)).1 he (by omega) (Clear.mark (by decide) rest)),
        bind_of_some (mark_self _ _)]
      rfl
  | @equal l r ls rs hl hright =>
      simp only [List.length_append, List.length_cons] at hn
      rw [List.append_assoc, List.cons_append, expr,
        bind_of_some ((ih (m := n) (by omega)).2 hl (by omega) (Clear.mark (by decide) _)), skip_then,
        bind_of_some ((ih (m := n) (by omega)).2 hright (by omega) hoperand)]
      rfl

end Expressions

theorem reads (n : Nat) : ReadsExprs n ∧ ReadsOperands n := by
  induction n using Nat.strongRecOn with
  -- Expressions and operands contain each other, so one bound serves both.
  | ind n ih => exact ⟨exprs_read_step (fun hm => ih _ hm), operands_read (fun hm => ih _ hm)⟩

theorem expr_reads {n : Nat} {e : Expr} {ts rest : List Token} (h : Expr.Spells .full e ts)
    (hn : 4 * ts.length + 4 ≤ n) (hr : Clear exprGoesOn rest) :
    expr n (ts ++ rest) = some (e, rest) := (reads n).1 h hn hr

end Reader

end EnumLookup.Source
