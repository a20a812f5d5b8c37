import EnumLookup.Proofs.Source.Reading

/-!
# Reading items and files

Functions, items and files are read from what the grammar spells, whatever the bound beyond the size
of the text. Items that are read one by one leave the rest of a file as it is, so a file is refused
where its first bad item starts.
-/

namespace EnumLookup.Source

namespace Reader

/-! ## Functions -/

theorem body_reads {ss : List Stmt} {ts : List Token} (h : Sequence Stmt.Spells ss ts) {e : Expr}
    {es : List Token} (he : Expr.Spells .full e es) (rest : List Token) :
    ∀ {n}, 4 * (ts.length + es.length) + 5 ≤ n →
      body n (ts ++ (es ++ .mark .closeBrace :: rest)) = some ((ss, e), rest) := by
  induction h with
  | nil =>
      intro n hn
      obtain ⟨n, rfl⟩ : ∃ j, n = j + 1 := ⟨n - 1, by omega⟩
      simp only [List.length_nil] at hn
      rw [List.nil_append, body, skipWord_else (expr_start_ne he (by decide) _),
        skipWord_else (expr_start_ne he (by decide) _),
        bind_of_some (expr_reads he (by omega) (Clear.mark (by decide) rest)),
        bind_of_some (mark_self _ _)]
      rfl
  | @cons s ss ts us hs _ ih =>
      intro n hn
      obtain ⟨n, rfl⟩ : ∃ j, n = j + 1 := ⟨n - 1, by omega⟩
      simp only [List.length_append] at hn
      have hrest := ih (n := n) (by cases hs <;> simp at hn <;> omega)
      cases hs with
      | @discard v ts hv =>
          simp only [List.length_append, List.length_cons, List.length_nil] at hn
          simp only [List.append_assoc, List.cons_append, List.nil_append] at hrest ⊢
          rw [body, skipWord_else (by simp), skipWord_then, bind_of_some (word_self _ _),
            bind_of_some (mark_self _ _),
            bind_of_some (expr_reads hv (by omega) (Clear.mark (by decide) _)),
            bind_of_some (mark_self _ _), bind_of_some hrest]
          rfl
      | @returnIf c v cs ts hc hv =>
          simp only [List.length_append, List.length_cons, List.length_nil] at hn
          simp only [List.append_assoc, List.cons_append, List.nil_append] at hrest ⊢
          rw [body, skipWord_then,
            bind_of_some (expr_reads hc (by omega) (Clear.mark (by decide) _)),
            bind_of_some (mark_self _ _), bind_of_some (word_self _ _),
            bind_of_some (expr_reads hv (by omega) (Clear.mark (by decide) _)),
            bind_of_some (mark_self _ _), bind_of_some (mark_self _ _), bind_of_some hrest]
          rfl

theorem param_start {p : Param} {ts : List Token} (h : p.Spells ts) :
    ∃ t us, ts = t :: us ∧ t ≠ .mark .closeParen := by
  cases h with
  | receiver => exact ⟨_, _, rfl, by decide⟩
  | typed _ _ => exact ⟨_, _, rfl, by simp⟩

theorem param_reads {p : Param} {ts rest : List Token} (h : p.Spells ts) {n : Nat}
    (hn : ts.length < n) (hr : Clear typeGoesOn rest) : param n (ts ++ rest) = some (p, rest) := by
  cases h with
  | receiver =>
      rw [List.cons_append, List.cons_append, List.nil_append, param, skip_then,
        bind_of_some (word_self _ _)]
      rfl
  | typed hname ht =>
      simp only [List.length_cons] at hn
      rw [List.cons_append, List.cons_append, param, skip_else (by simp),
        bind_of_some (identifier_self hname _), bind_of_some (mark_self _ _),
        bind_of_some (ty_reads ht (by omega) hr)]
      rfl

theorem function_reads {f : Function} {ts : List Token} (h : f.Spells ts) {n : Nat}
    (hn : 4 * ts.length + 5 ≤ n) (rest : List Token) : function n (ts ++ rest) = some (f, rest) := by
  cases h with
  | @mk name params result ss value ps rs bs es hname hparams hresult hbody hvalue =>
      simp only [List.length_append, List.length_cons, List.length_nil] at hn
      simp only [List.append_assoc, List.cons_append, List.nil_append]
      obtain ⟨comma, hlist⟩ := list_reads (param n) .closeParen (by decide) param_start
        (fun {x us next} r hx hus hnext => param_reads hx (n := n) (by omega) (Clear.mark (by
          rcases hnext with rfl | rfl <;> decide) r)) hparams (Nat.le_refl _)
        (.mark .arrow :: (rs ++ .mark .openBrace :: (bs ++ (es ++ .mark .closeBrace :: rest))))
        (k := n) (by omega)
      rw [function, bind_of_some (identifier_self hname _), bind_of_some (mark_self _ _),
        bind_of_some hlist]
      dsimp only
      rw [bind_of_some (mark_self _ _),
        bind_of_some (ty_reads hresult (by omega) (Clear.mark (by decide) _)),
        bind_of_some (mark_self _ _), bind_of_some (body_reads hbody hvalue rest (by omega))]
      rfl

/-! ## Items -/

def startsAttr : Token → Bool
  | .doc false _ | .mark .hash => true
  | _ => false

theorem name_start {w : String} {ts : List Token} (h : SpellsName w ts) :
    ∃ t us, ts = t :: us ∧ t ≠ .mark .closeParen := by
  cases h
  exact ⟨_, _, rfl, by simp⟩

theorem attrs_read {as : List Attr} {ts rest : List Token} (h : Sequence Attr.Spells as ts)
    (hr : ∀ t, rest.head? = some t → startsAttr t = false) :
    ∀ {n}, ts.length < n → attrs n (ts ++ rest) = some (as, rest) := by
  induction h with
  | nil =>
      intro n hn
      obtain ⟨n, rfl⟩ : ∃ j, n = j + 1 := ⟨n - 1, by omega⟩
      rw [List.nil_append, attrs]
      dsimp only
      split
      · rename_i t r
        have := hr _ rfl
        cases this
      · rename_i r
        have := hr _ rfl
        cases this
      · rfl
  | @cons a as ts us ha _ ih =>
      intro n hn
      obtain ⟨n, rfl⟩ : ∃ j, n = j + 1 := ⟨n - 1, by omega⟩
      simp only [List.length_append] at hn
      have hrest := ih (n := n) (by cases ha <;> simp at hn <;> omega)
      cases ha with
      | doc =>
          rw [List.append_assoc, List.cons_append, List.nil_append, attrs]
          show (attrs n >>= fun as => pure (_ :: as)) _ = _
          rw [bind_of_some hrest]
          rfl
      | @list name args ts hname hargs =>
          simp only [List.length_append, List.length_cons, List.length_nil] at hn
          simp only [List.append_assoc, List.cons_append, List.nil_append] at hrest ⊢
          obtain ⟨comma, hlist⟩ := list_reads identifier .closeParen (by decide) name_start
            (fun {x vs next} r hx _ _ => by
              cases hx with
              | mk hw => exact identifier_self hw _) hargs (Nat.le_refl _)
            (.mark .closeBracket :: (us ++ rest)) (k := n) (by omega)
          rw [attrs]
          dsimp only
          rw [bind_of_some (mark_self _ _), bind_of_some (identifier_self hname _),
            bind_of_some (mark_self _ _), bind_of_some hlist]
          dsimp only
          rw [bind_of_some (mark_self _ _), bind_of_some hrest]
          rfl

theorem attrs_start {as : List Attr} {ts : List Token} (h : Sequence Attr.Spells as ts) {P : Token → Prop}
    (hattr : ∀ {t}, startsAttr t = true → P t) {rest : List Token}
    (hrest : ∃ t us, rest = t :: us ∧ P t) : ∃ t us, ts ++ rest = t :: us ∧ P t := by
  cases h with
  | nil => exact hrest
  | cons ha _ =>
      cases ha with
      | doc => exact ⟨_, _, rfl, hattr rfl⟩
      | list _ _ => exact ⟨_, _, rfl, hattr rfl⟩

theorem variant_start {v : Variant} {ts : List Token} (h : v.Spells ts) :
    ∃ t us, ts = t :: us ∧ t ≠ .mark .closeBrace := by
  cases h with
  | @mk attrs name fields as ts has _ _ =>
      rw [List.append_assoc, List.cons_append]
      refine attrs_start has ?_ ⟨_, _, rfl, by simp⟩
      rintro t ht rfl
      cases ht

theorem variant_reads {v : Variant} {ts : List Token} (h : v.Spells ts) {n : Nat}
    (hn : ts.length < n) (rest : List Token) : variant n (ts ++ rest) = some (v, rest) := by
  cases h with
  | @mk attrs name fields as ts has hname hfields =>
      simp only [List.length_append, List.length_cons, List.length_nil] at hn
      simp only [List.append_assoc, List.cons_append, List.nil_append]
      obtain ⟨comma, hlist⟩ := tys_read ty_reads .closeParen (by decide) (by decide)
        rfl hfields (n := n) (by omega) rest
      rw [variant, bind_of_some (attrs_read has (by rintro t ht; cases ht; rfl) (by omega)),
        bind_of_some (identifier_self hname _), bind_of_some (mark_self _ _), bind_of_some hlist]
      rfl

theorem methods_read {fs : List Function} {ts : List Token}
    (h : Sequence Function.SpellsMethod fs ts) (rest : List Token) :
    ∀ {n}, 4 * ts.length + 5 ≤ n → methods n (ts ++ .mark .closeBrace :: rest) = some (fs, rest) := by
  induction h with
  | nil =>
      intro n hn
      obtain ⟨n, rfl⟩ : ∃ j, n = j + 1 := ⟨n - 1, by omega⟩
      rw [List.nil_append, methods, skip_then]
      rfl
  | @cons f fs ts us hf _ ih =>
      intro n hn
      obtain ⟨n, rfl⟩ : ∃ j, n = j + 1 := ⟨n - 1, by omega⟩
      cases hf with
      | mk hf =>
          simp only [List.length_append, List.length_cons] at hn
          rw [List.append_assoc, List.cons_append, methods, skip_else (by simp),
            bind_of_some (word_self _ _), bind_of_some (function_reads hf (by omega) _),
            bind_of_some (ih (by omega))]
          rfl

theorem itemKind_reads {k : ItemKind} {ts : List Token} (h : k.Spells ts) {n : Nat}
    (hn : 4 * ts.length + 5 ≤ n) (rest : List Token) :
    itemKind n (ts ++ rest) = some (k, rest) := by
  cases h with
  | module hname =>
      simp only [List.cons_append, List.nil_append]
      rw [itemKind, skipWord_then, bind_of_some (identifier_self hname _),
        bind_of_some (mark_self _ _)]
      rfl
  | @use p hp =>
      have hlen := length_pathTokens p
      simp only [List.length_append, List.length_cons, List.length_nil] at hn
      simp only [List.append_assoc, List.cons_append, List.nil_append]
      rw [itemKind, skipWord_else (by simp), skipWord_then,
        bind_of_some (path_reads hp (by simp) (by omega)), bind_of_some (mark_self _ _)]
      rfl
  | constant hname ht he =>
      simp only [List.length_append, List.length_cons, List.length_nil] at hn
      simp only [List.append_assoc, List.cons_append, List.nil_append]
      rw [itemKind, skipWord_else (by simp), skipWord_else (by simp), skipWord_then,
        bind_of_some (identifier_self hname _), bind_of_some (mark_self _ _),
        bind_of_some (ty_reads ht (by omega) (Clear.mark (by decide) _)),
        bind_of_some (mark_self _ _),
        bind_of_some (expr_reads he (by omega) (Clear.mark (by decide) _)),
        bind_of_some (mark_self _ _)]
      rfl
  | function hf =>
      simp only [List.length_cons] at hn
      rw [List.cons_append, itemKind, skipWord_else (by simp), skipWord_else (by simp),
        skipWord_else (by simp), skipWord_then, bind_of_some (function_reads hf (by omega) rest)]
      rfl
  | @enumeration name vs ts hname hvs =>
      simp only [List.length_append, List.length_cons, List.length_nil] at hn
      simp only [List.append_assoc, List.cons_append, List.nil_append]
      obtain ⟨comma, hlist⟩ := list_reads (variant n) .closeBrace (by decide) variant_start
        (fun {x us next} r hx hus _ => variant_reads hx (by omega) _) hvs (Nat.le_refl _) rest
        (k := n) (by omega)
      rw [itemKind, skipWord_else (by simp), skipWord_else (by simp), skipWord_else (by simp),
        skipWord_else (by simp), skipWord_then, bind_of_some (identifier_self hname _),
        bind_of_some (mark_self _ _), bind_of_some hlist]
      rfl
  | implementation hi ht hfs =>
      simp only [List.length_append, List.length_cons, List.length_nil] at hn
      simp only [List.append_assoc, List.cons_append, List.nil_append]
      rw [itemKind, skipWord_else (by simp), skipWord_else (by simp), skipWord_else (by simp),
        skipWord_else (by simp), skipWord_else (by simp), bind_of_some (word_self _ _),
        bind_of_some (ty_reads hi (by omega) (Clear.of_word _ _)),
        bind_of_some (word_self _ _),
        bind_of_some (ty_reads ht (by omega) (Clear.mark (by decide) _)),
        bind_of_some (mark_self _ _), bind_of_some (methods_read hfs rest (by omega))]
      rfl

/-! ## Files -/

/-- What an item declares starts with a keyword of its own. -/
theorem itemKind_start {k : ItemKind} {ts : List Token} (h : k.Spells ts) :
    ∃ w us, ts = .word w :: us ∧ w ≠ "pub" := by
  cases h <;> exact ⟨_, _, rfl, by decide⟩

/-- The tokens of an item are those of its attributes, its visibility and its declaration. -/
theorem items_cons {as : List Attr} {ts : List Token} (has : Sequence Attr.Spells as ts)
    (isPublic : Bool) {us : List Token} {w : String} (hus : us.head? = some (.word w))
    (hw : w ≠ "pub") {n : Nat} (hn : ts.length < n) :
    items (n + 1) (ts ++ ((if isPublic then [Token.word "pub"] else []) ++ us)) =
      (do
        let kind ← itemKind n
        return ⟨as, isPublic, kind⟩ :: (← items n) : Reader (List Item)) us := by
  have hpub : skipWord "pub" ((if isPublic then [Token.word "pub"] else []) ++ us) =
      some (isPublic, us) := by
    cases isPublic with
    | true => exact skipWord_self _ _
    | false => exact skipWord_other (by simpa [hus] using hw)
  have hfollow : ∀ t, ((if isPublic then [Token.word "pub"] else []) ++ us).head? = some t →
      startsAttr t = false := by
    intro t ht
    cases isPublic with
    | true => cases ht; rfl
    | false =>
        rw [if_neg (by decide), List.nil_append, hus] at ht
        cases ht
        rfl
  have hne : (ts ++ ((if isPublic then [Token.word "pub"] else []) ++ us)).isEmpty = false := by
    cases us with
    | nil => cases hus
    | cons u us => simp
  rw [items]
  show (if (ts ++ ((if isPublic then [Token.word "pub"] else []) ++ us)).isEmpty = true then
    (pure [] : Reader (List Item)) else _) _ = _
  rw [if_neg (by simp [hne]), bind_of_some (attrs_read has hfollow hn), bind_of_some hpub]

/-- Items are read one by one, and the rest of the file is read as if it stood alone. -/
theorem items_append {is : List Item} {ts : List Token} (h : Sequence Item.Spells is ts)
    (rest : List Token) : ∀ {n}, 4 * ts.length + 6 ≤ n →
      items n (ts ++ rest) = (items (n - is.length) rest).map fun (js, r) => (is ++ js, r) := by
  induction h with
  | nil => intro n hn; simp
  | @cons i is ts us hi _ ih =>
      intro n hn
      obtain ⟨n, rfl⟩ : ∃ j, n = j + 1 := ⟨n - 1, by omega⟩
      cases hi with
      | @mk attrs kind as ks isPublic has hkind =>
          simp only [List.length_append] at hn
          obtain ⟨w, vs, he, hw⟩ := itemKind_start hkind
          have hlen : 0 < ks.length := by rw [he]; simp
          rw [List.append_assoc, List.append_assoc, List.append_assoc,
            items_cons has _ (by rw [he]; rfl) hw (by omega),
            bind_of_some (itemKind_reads hkind (by omega) _)]
          show (items n >>= fun js => pure (_ :: js)) _ = _
          rw [show n + 1 - (_ :: is).length = n - is.length by simp]
          -- The item takes one from the bound, and its tokens leave enough for the others.
          have hrest := ih (n := n) (by omega)
          cases hitems : items (n - is.length) rest with
          | none =>
              rw [hitems] at hrest
              rw [bind_of_none hrest]
              rfl
          | some js =>
              rw [hitems] at hrest
              rw [bind_of_some hrest]
              rfl

theorem length_items_le {is : List Item} {ts : List Token} (h : Sequence Item.Spells is ts) :
    is.length ≤ ts.length := by
  induction h with
  | nil => exact Nat.le_refl _
  | cons hi _ ih =>
      cases hi with
      | mk isPublic _ hkind =>
          obtain ⟨w, vs, rfl, _⟩ := itemKind_start hkind
          simp only [List.length_append, List.length_cons]
          omega

theorem docs_read (ds : List String) {rest : List Token}
    (hr : ∀ t, rest.head? ≠ some (.doc true t)) : docs (ds.map (.doc true) ++ rest) = (ds, rest) := by
  induction ds with
  | nil =>
      rw [List.map_nil, List.nil_append]
      unfold docs
      split
      · rename_i t r
        exact absurd rfl (hr t)
      · rfl
  | cons d ds ih => rw [List.map_cons, List.cons_append, docs, ih]

/-- Items do not start with documentation of their module. -/
theorem items_start_ne {is : List Item} {ts : List Token} (h : Sequence Item.Spells is ts)
    (t : String) : ts.head? ≠ some (.doc true t) := by
  cases h with
  | nil => simp
  | @cons i is ts us hi _ =>
      cases hi with
      | @mk attrs kind as ks isPublic has hkind =>
          obtain ⟨w, vs, rfl, _⟩ := itemKind_start hkind
          have hrest : ∃ u vs', (if isPublic then [Token.word "pub"] else []) ++
              (.word w :: vs ++ us) = u :: vs' ∧ u ≠ .doc true t := by
            cases isPublic with
            | true => exact ⟨_, _, rfl, by simp⟩
            | false => exact ⟨_, _, rfl, by simp⟩
          have hattr : ∀ {u}, startsAttr u = true → u ≠ .doc true t := by
            rintro u hu rfl
            cases hu
          obtain ⟨u, vs', he, hu⟩ := attrs_start has hattr hrest
          rw [List.append_assoc, List.append_assoc, he]
          simpa using hu

end Reader

open Reader

/-- A file is read from every text that the grammar allows for it. -/
theorem File.ofTokens?_of_spells {f : File} {ts : List Token} (h : f.Spells ts) :
    File.ofTokens? ts = some f := by
  cases h with
  | @mk ds is us his =>
      rw [File.ofTokens?, docs_read ds (items_start_ne his)]
      obtain ⟨n, hn⟩ : ∃ n, 8 * (ds.map (Token.doc true) ++ us).length + 8 - is.length = n + 1 := by
        have := length_items_le his
        exact ⟨_, (Nat.succ_pred (by simp only [List.length_append]; omega)).symm⟩
      have hitems := items_append his [] (n := 8 * (ds.map (Token.doc true) ++ us).length + 8)
        (by simp only [List.length_append]; omega)
      have hnil : Reader.items (n + 1) [] = some ([], []) := rfl
      rw [List.append_nil, hn, hnil, Option.map_some] at hitems
      dsimp only at hitems
      rw [List.append_nil] at hitems
      show (Reader.items _ us).bind _ = _
      rw [hitems]
      rfl

/-- A function whose name falls apart into two words is refused. -/
theorem Reader.itemKind_split (n : Nat) (v w : String) (ts : List Token) :
    itemKind n (.word "fn" :: .word v :: .word w :: ts) = none := by
  have hfunction : function n (.word v :: .word w :: ts) = none := by
    by_cases hv : isIdentifier v = true
    · rw [function, bind_of_some (identifier_self hv _)]
      exact bind_of_none rfl
    · exact bind_of_none (by simp [identifier, hv])
  rw [itemKind, skipWord_else (by simp), skipWord_else (by simp), skipWord_else (by simp),
    skipWord_then, bind_of_none hfunction]

/-- A file is refused for the first function whose name falls apart into two words. -/
theorem File.ofTokens?_of_split (ds : List String) {is : List Item} {ts : List Token}
    (his : Sequence Item.Spells is ts) {as : List Attr} {us : List Token}
    (has : Sequence Attr.Spells as us) (v w : String) (vs : List Token) :
    File.ofTokens? (ds.map (Token.doc true) ++
      (ts ++ (us ++ .word "pub" :: .word "fn" :: .word v :: .word w :: vs))) = none := by
  have hstart : ∀ t, (ts ++ (us ++ .word "pub" :: .word "fn" :: .word v :: .word w :: vs)).head? ≠
      some (.doc true t) := by
    intro t
    have hattr : ∀ {u}, startsAttr u = true → u ≠ .doc true t := by
      rintro u hu rfl
      cases hu
    obtain ⟨u, us', hus, hu⟩ := attrs_start has hattr
      ⟨.word "pub", .word "fn" :: .word v :: .word w :: vs, rfl, by simp⟩
    rw [hus]
    cases hts : ts with
    | nil => simpa using hu
    | cons x xs =>
        have := items_start_ne his t
        rw [hts] at this
        simpa using this
  rw [File.ofTokens?, docs_read ds hstart]
  generalize hn : 8 * (ds.map (Token.doc true) ++
    (ts ++ (us ++ .word "pub" :: .word "fn" :: .word v :: .word w :: vs))).length + 8 = n
  simp only [List.length_append, List.length_cons] at hn
  have hlength := length_items_le his
  obtain ⟨k, hk⟩ : ∃ k, n - is.length = k + 1 := ⟨n - is.length - 1, by omega⟩
  have hnone : Reader.items (n - is.length)
      (us ++ .word "pub" :: .word "fn" :: .word v :: .word w :: vs) = none := by
    rw [hk]
    exact (items_cons has true (w := "fn") rfl (by decide) (by omega)).trans
      (bind_of_none (Reader.itemKind_split k v w vs))
  show (Reader.items n _).bind _ = none
  rw [items_append his _ (by omega), hnone]
  rfl

end EnumLookup.Source
