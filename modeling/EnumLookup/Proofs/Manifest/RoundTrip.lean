import EnumLookup.Manifest.Format
import EnumLookup.Proofs.Manifest.Json
import EnumLookup.Resolution

/-!
# Manifests written as JSON

A manifest that is written as JSON is read back as it was, up to the sign kind of its values: a
numeral does not tell whether a value was unsigned, so it is read as signed wherever it can be.
-/

namespace EnumLookup

namespace Explicit

/-- The value as its numeral is read: signed unless it is too large for that. -/
def canonical : Explicit → Explicit
  | signed v => signed v
  | unsigned v => if v.toNat < 2 ^ 63 then signed (Int64.ofInt v.toNat) else unsigned v

theorem ofInt?_toInt (v : Explicit) : ofInt? v.toInt = some v.canonical := by
  cases v with
  | signed v =>
      have hfits : -0x8000000000000000 ≤ (signed v).toInt ∧ (signed v).toInt < 0x8000000000000000 :=
        ⟨v.le_toInt, v.toInt_lt⟩
      rw [ofInt?, if_pos hfits, toInt, Int64.ofInt_toInt, canonical]
  | unsigned v =>
      have hlt := v.toNat_lt
      have hint : (unsigned v).toInt = v.toNat := rfl
      by_cases hsmall : v.toNat < 2 ^ 63
      · rw [ofInt?, if_pos (by omega), hint, canonical, if_pos hsmall]
      · rw [ofInt?, if_neg (by omega), if_pos (by omega), hint, canonical, if_neg hsmall,
          Int.toNat_natCast, UInt64.ofNat_toNat]

@[simp] theorem toInt_canonical (v : Explicit) : v.canonical.toInt = v.toInt := by
  cases v with
  | signed v => rfl
  | unsigned v =>
      by_cases hsmall : v.toNat < 2 ^ 63
      · rw [canonical, if_pos hsmall, toInt, toInt,
          Int64.toInt_ofInt_of_le (by omega) (by omega)]
      · rw [canonical, if_neg hsmall]

/-- A value that is read from an integer is signed wherever it can be. -/
theorem canonical_of_ofInt? {n : Int} {v : Explicit} (h : ofInt? n = some v) : v.canonical = v := by
  unfold ofInt? at h
  split at h
  · cases h
    rfl
  split at h
  · rename_i hsigned hbound
    cases h
    have hsize : n.toNat < UInt64.size := by
      change n.toNat < 2 ^ 64
      omega
    rw [canonical, UInt64.toNat_ofNat_of_lt' hsize, if_neg (by omega)]
  · cases h

end Explicit

/-- The member with its value as its numeral is read. -/
def Member.canonical (m : Member) : Member := { m with value := m.value.map Explicit.canonical }

/-- The declaration with its values as their numerals are read. -/
def Declaration.canonical (d : Declaration) : Declaration :=
  { d with members := d.members.map Member.canonical }

/-- The manifest with its values as their numerals are read. -/
def Manifest.canonical (m : Manifest) : Manifest := ⟨m.enums.map Declaration.canonical⟩

/-! ## Resolution -/

namespace Declaration

theorem checkMembers_canonical (enum : String) (ms : List Member) :
    ∀ seen, checkMembers enum seen (ms.map Member.canonical) = checkMembers enum seen ms := by
  induction ms with
  | nil => intro seen; rfl
  | cons m ms ih =>
      intro seen
      rw [List.map_cons, checkMembers, checkMembers, ih]
      rfl

theorem evaluate_canonical (w : Width) (ms : List Member) :
    ∀ auto, evaluate w auto (ms.map Member.canonical) = evaluate w auto ms := by
  induction ms with
  | nil => intro auto; rfl
  | cons m ms ih =>
      intro auto
      have hvalue : (m.canonical.value.map fun x => Constant.ofInt w x.toInt) =
          m.value.map fun x => Constant.ofInt w x.toInt := by
        cases hv : m.value with
        | none => simp [Member.canonical, hv]
        | some v => simp [Member.canonical, hv]
      simp only [List.map_cons, evaluate, hvalue, ih]
      rfl

/-- Only the integers that values stand for matter to resolution. -/
theorem resolve_canonical (d : Declaration) : d.canonical.resolve = d.resolve := by
  -- Spelled out, the widths that can be named are a long table, so their equation is not asked for.
  have hwidth : d.canonical.width = d.width := by
    delta width
    simp only [canonical]
  have hvalid : d.canonical.validate = d.validate := by
    simp only [validate, canonical, checkMembers_canonical]
  rw [resolve, resolve, hvalid, hwidth]
  simp only [canonical, evaluate_canonical]

end Declaration

/-! ## What is written is read back -/

namespace Manifest

theorem mapM_of_forall {α β : Type} {f : α → Option β} {g : α → β} {xs : List α}
    (h : ∀ x ∈ xs, f x = some (g x)) : xs.mapM f = some (xs.map g) := by
  induction xs with
  | nil => rfl
  | cons x xs ih =>
      rw [List.mapM_cons, h x List.mem_cons_self, ih fun y hy => h y (List.mem_cons_of_mem _ hy)]
      rfl

theorem exists_of_mapM {α β : Type} {f : α → Option β} {xs : List α} :
    ∀ {ys : List β}, xs.mapM f = some ys → ∀ y ∈ ys, ∃ x ∈ xs, f x = some y := by
  induction xs with
  | nil =>
      intro ys h y hy
      cases h
      cases hy
  | cons x xs ih =>
      intro ys h y hy
      rw [List.mapM_cons] at h
      obtain ⟨z, hz, h⟩ := Option.bind_eq_some_iff.mp h
      obtain ⟨zs, hzs, h⟩ := Option.bind_eq_some_iff.mp h
      cases h
      rcases List.mem_cons.mp hy with rfl | hy
      · exact ⟨x, List.mem_cons_self, hz⟩
      · obtain ⟨x', hx', hfx⟩ := ih hzs y hy
        exact ⟨x', List.mem_cons_of_mem _ hx', hfx⟩

variable {d : Document}

theorem text_node (s : String) : d.text (Json.node (.text s)) = some s := rfl

theorem items_node (js : List Text.Json) :
    d.items (Json.node (.array js)) = some (js.map Json.node) := by
  rw [Json.node, Json.nodes_eq_map]
  rfl

theorem value_node (v : Explicit) :
    d.value (Json.node (.int v.toInt)) = some (some v.canonical) := by
  simp [Document.value, Document.resolve, Json.node, Json.plain, Explicit.ofInt?_toInt]

/-- The fields of a written table are found by their names. -/
theorem fields_node (names : List String) (fs : List (String × Text.Json)) :
    d.fields Json.rules names (Json.node (.object fs)) =
      names.mapM fun name => field name (Json.fieldNodes fs) := by
  have hkeys : (Json.fieldNodes fs).all (·.1.isSome) = true := by
    induction fs with
    | nil => rfl
    | cons f fs ih => exact ih
  simp only [Document.fields, Document.resolve, Json.node, Option.bind_eq_bind, Option.bind_some,
    hkeys, if_true]

theorem member?_memberJson (m : Member) :
    member? d Json.rules (Json.node (memberJson m)) = some m.canonical := by
  obtain ⟨name, value⟩ := m
  cases value with
  | none =>
      simp [member?, memberJson, fields_node, Json.fieldNodes, field, text_node, Member.canonical]
  | some v =>
      simp [member?, memberJson, fields_node, Json.fieldNodes, field, text_node, value_node,
        Member.canonical]

theorem declaration?_declarationJson (e : Declaration) :
    declaration? d Json.rules (Json.node (declarationJson e)) = some e.canonical := by
  have hmembers : e.members.mapM (member? d Json.rules ∘ Json.node ∘ memberJson) =
      some (e.members.map Member.canonical) := mapM_of_forall fun m _ => member?_memberJson m
  simp [declaration?, declarationJson, fields_node, Json.fieldNodes, field, text_node, items_node,
    hmembers, Declaration.canonical]

theorem ofDocument?_json (m : Manifest) :
    ofDocument? Json.rules { root := Json.node m.json } = some m.canonical := by
  have henums : ∀ d, m.enums.mapM (declaration? d Json.rules ∘ Json.node ∘ declarationJson) =
      some (m.enums.map Declaration.canonical) :=
    fun d => mapM_of_forall fun e _ => declaration?_declarationJson e
  simp [ofDocument?, json, fields_node, Json.fieldNodes, field, items_node, henums, canonical]

theorem parse_json (m : Manifest) (origin : String) :
    parse .json m.json.compact origin = .ok m.canonical := by
  have hmanifest : Format.json.manifest? m.json.compact.toList = some m.canonical := by
    simp only [Format.manifest?, Text.Json.compact, String.toList_ofList,
      Json.document?_compactChars, Option.bind_some, ofDocument?_json]
  rw [parse, hmanifest]
  rfl

/-! ## What is read is canonical -/

variable {rules : Rules} {n : Node}

theorem canonical_of_value {v : Option Explicit} (h : d.value n = some v) :
    v.map Explicit.canonical = v := by
  obtain ⟨n', _, h⟩ := Option.bind_eq_some_iff.mp h
  split at h
  · split at h
    · cases h
      rfl
    · obtain ⟨x, hx, rfl⟩ := Option.map_eq_some_iff.mp h
      rw [Option.map_some, Explicit.canonical_of_ofInt? hx]
    · cases h
  · cases h

theorem canonical_of_member? {m : Member} (h : member? d rules n = some m) : m.canonical = m := by
  obtain ⟨fs, _, h⟩ := Option.bind_eq_some_iff.mp h
  split at h
  · rename_i name value _
    obtain ⟨s, _, h⟩ := Option.bind_eq_some_iff.mp h
    obtain ⟨v, hv, h⟩ := Option.bind_eq_some_iff.mp h
    cases h
    have hcanonical : v.map Explicit.canonical = v := by
      cases value with
      | none =>
          cases hv
          rfl
      | some n => exact canonical_of_value hv
    rw [Member.canonical, hcanonical]
  · cases h

theorem map_of_forall {α : Type} {f : α → α} {xs : List α} (h : ∀ x ∈ xs, f x = x) :
    xs.map f = xs := (List.map_congr_left h).trans (List.map_id' xs)

theorem canonical_of_declaration? {e : Declaration} (h : declaration? d rules n = some e) :
    e.canonical = e := by
  obtain ⟨fs, _, h⟩ := Option.bind_eq_some_iff.mp h
  split at h
  · obtain ⟨items, _, h⟩ := Option.bind_eq_some_iff.mp h
    obtain ⟨s, _, h⟩ := Option.bind_eq_some_iff.mp h
    obtain ⟨u, _, h⟩ := Option.bind_eq_some_iff.mp h
    obtain ⟨ms, hms, h⟩ := Option.bind_eq_some_iff.mp h
    cases h
    have hmembers : ms.map Member.canonical = ms := map_of_forall fun m hm => by
      obtain ⟨n, _, hn⟩ := exists_of_mapM hms m hm
      exact canonical_of_member? hn
    rw [Declaration.canonical, hmembers]
  · cases h

theorem canonical_of_ofDocument? {m : Manifest} (h : ofDocument? rules d = some m) :
    m.canonical = m := by
  obtain ⟨fs, _, h⟩ := Option.bind_eq_some_iff.mp h
  split at h
  · obtain ⟨items, _, h⟩ := Option.bind_eq_some_iff.mp h
    obtain ⟨es, hes, h⟩ := Option.bind_eq_some_iff.mp h
    cases h
    have henums : es.map Declaration.canonical = es := map_of_forall fun e he => by
      obtain ⟨n, _, hn⟩ := exists_of_mapM hes e he
      exact canonical_of_declaration? hn
    rw [canonical, henums]
  · cases h

theorem canonical_of_parse {f : Format} {content origin : String} {m : Manifest}
    (h : parse f content origin = .ok m) : m.canonical = m := by
  unfold parse at h
  split at h
  · rename_i m' hm
    cases h
    cases f with
    | json =>
        obtain ⟨d, _, hd⟩ := Option.bind_eq_some_iff.mp hm
        exact canonical_of_ofDocument? hd
    | yaml =>
        obtain ⟨d, _, hd⟩ := Option.bind_eq_some_iff.mp hm
        exact canonical_of_ofDocument? hd
    | toml =>
        obtain ⟨d, _, hd⟩ := Option.bind_eq_some_iff.mp hm
        exact canonical_of_ofDocument? hd
  · cases h

/-- A manifest written as JSON is read back with its values as their numerals are read, which is the
manifest itself if it was read from any text, and resolves as before in any case. -/
theorem json_round_trip (m : Manifest) (origin : String) :
    parse .json m.json.compact origin = .ok m.canonical ∧
      m.canonical.enums.map Declaration.resolve = m.enums.map Declaration.resolve ∧
      ∀ f content origin', parse f content origin' = .ok m →
        parse .json m.json.compact origin = .ok m := by
  refine ⟨parse_json m origin, ?_, fun f content origin' h => ?_⟩
  · rw [canonical, List.map_map]
    exact List.map_congr_left fun e _ => Declaration.resolve_canonical e
  · rw [parse_json, canonical_of_parse h]

/-- A name to be escaped, and unsigned values below and above the greatest signed one. -/
def edgeManifest : Manifest :=
  ⟨[⟨"a\"\\\n\x7f😀", "u64", [⟨"Low", some (.unsigned 5)⟩,
    ⟨"High", some (.unsigned 0xffffffffffffffff)⟩, ⟨"Next", none⟩]⟩]⟩

theorem round_trip_of_edgeManifest :
    ∃ m, m = ⟨[⟨"a\"\\\n\x7f😀", "u64", [⟨"Low", some (.signed 5)⟩,
        ⟨"High", some (.unsigned 0xffffffffffffffff)⟩, ⟨"Next", none⟩]⟩]⟩ ∧
      parse .json edgeManifest.json.compact "inline" = .ok m ∧
      parse .json m.json.compact "inline" = .ok m := by
  have hfirst := (json_round_trip edgeManifest "inline").1
  exact ⟨edgeManifest.canonical, by decide, hfirst,
    (json_round_trip edgeManifest.canonical "inline").2.2 .json _ _ hfirst⟩

end Manifest

end EnumLookup
