import SignalPipeline.Json.Document
import SignalPipeline.Json.MemberLemmas
import SignalPipeline.Proofs.Decimal.Finite
import SignalPipeline.Proofs.Json.Layout

/-!
# What is parsed is valid and not too deep

Every number of a parsed text is one that a document can hold, and no container is nested deeper
than the parser allows: one that is deeper has become an unreadable part. The parser's invariant
is that the parts of an open container are within what the containers around it leave of the depth.

* `Document.Within`: documents with valid numbers and containers nested at most so deep.
* `Document.parse?_within`: a parsed document.
* `Document.value?_within`: the value of such a document is canonical and as shallow.
* `Json.Writable`: values whose numbers are valid.
-/

namespace SignalPipeline

/-! ## Tokens -/

/-- Tokens whose number, if they have one, is valid. -/
def Token.Valid (t : Token) : Prop :=
  ∀ n, t = .number (some n) → n.Valid

theorem Token.valid_scan? {cs r : List Char} {t : Token} (h : Token.scan? cs = some (t, r)) :
    t.Valid := by
  intro n hn
  subst hn
  rw [Token.scan?.eq_def] at h
  split at h
  iterate 9 cases h
  · obtain ⟨x, -, hx⟩ := Option.map_eq_some_iff.1 h
    cases hx
  · obtain ⟨x, -, hx⟩ := Option.map_eq_some_iff.1 h
    have hnumber : Token.number (Number.ofLiteral? x.1) = .number (some n) :=
      congrArg Prod.fst hx
    exact Number.valid_ofLiteral? (Token.number.inj hnumber)

theorem valid_lex? (cs : List Char) {ts : List Token} (h : lex? cs = some ts) :
    ∀ t ∈ ts, t.Valid := by
  fun_induction lex? cs generalizing ts with
  | case1 =>
    cases h
    exact nofun
  | case2 c cs hspace ih => exact ih h
  | case3 => cases h
  | case4 c cs hspace t r hscan ih =>
    obtain ⟨us, hus, rfl⟩ := Option.map_eq_some_iff.1 h
    exact List.forall_mem_cons.2 ⟨Token.valid_scan? hscan, ih hus⟩

/-! ## Documents -/

namespace Document

/-- Documents with valid numbers and containers nested at most so deep. -/
inductive Within : Nat → Document → Prop where
  | null (n : Nat) : Within n .null
  | bool (n : Nat) (b : Bool) : Within n (.bool b)
  | number (n : Nat) {i : Number} (valid : i.Valid) : Within n (.number i)
  | string (n : Nat) (s : String) : Within n (.string s)
  | unreadable (n : Nat) : Within n .unreadable
  | array {n : Nat} {items : List Document} (each : ∀ d ∈ items, Within n d) :
    Within (n + 1) (.array items)
  | object {n : Nat} {members : List (Option String × Document)}
    (each : ∀ m ∈ members, Within n m.2) : Within (n + 1) (.object members)

theorem within_ofToken? {t : Token} {d : Document} (n : Nat) (ht : t.Valid)
    (h : ofToken? t = some d) : d.Within n := by
  cases t with
  | null => cases h; exact .null n
  | bool b => cases h; exact .bool n b
  | number i =>
    cases i with
    | none => cases h; exact .unreadable n
    | some i => cases h; exact .number n (ht i rfl)
  | string s =>
    cases s with
    | none => cases h; exact .unreadable n
    | some s => cases h; exact .string n s
  | _ => cases h

/-- Open containers whose parts are within a depth. -/
def Frame.Within (n : Nat) : Frame → Prop
  | .array items => ∀ d ∈ items, Document.Within n d
  | .object members _ => ∀ m ∈ members, Document.Within n m.2

/-- Each open container's parts are within what the containers around them leave of the depth. -/
def Bounded : List Frame → Prop
  | [] => True
  | f :: stack => f.Within (maxDepth - (stack.length + 1)) ∧ Bounded stack

theorem within_nest {stack : List Frame} {d : Document}
    (h : d.Within (maxDepth - (stack.length + 1) + 1)) :
    (nest stack d).Within (maxDepth - stack.length) := by
  unfold nest
  split
  · next hlt =>
    have hdepth : maxDepth - (stack.length + 1) + 1 = maxDepth - stack.length := by omega
    exact hdepth ▸ h
  · exact .unreadable _

/-- Inside bounded containers fewer than so many tokens are read as a document within the depth. -/
def ReadsWithin (k : Nat) : Prop :=
  ∀ (ts : List Token) (stack : List Frame) (e : Document), ts.length < k →
    (∀ t ∈ ts, t.Valid) → Bounded stack → readValue? stack ts = some e → e.Within maxDepth

/-- Behind a value inside bounded containers they are. -/
def ResumesWithin (k : Nat) : Prop :=
  ∀ (ts : List Token) (stack : List Frame) (d e : Document), ts.length < k →
    (∀ t ∈ ts, t.Valid) → Bounded stack → d.Within (maxDepth - stack.length) →
      resume? stack d ts = some e → e.Within maxDepth

theorem readsWithin_succ {k : Nat} (hread : ReadsWithin k) (hresume : ResumesWithin k) :
    ReadsWithin (k + 1) := by
  intro ts stack e hk hts hstack h
  rw [readValue?.eq_def] at h
  split at h
  · next ts =>
    simp only [List.length_cons, List.forall_mem_cons] at hk hts
    have hnest : (nest stack (.array [])).Within (maxDepth - stack.length) :=
      within_nest (.array (List.forall_mem_nil _))
    exact hresume ts stack _ e (by omega) hts.2.2 hstack hnest h
  · next ts _ =>
    simp only [List.length_cons, List.forall_mem_cons] at hk hts
    have hopen : Bounded (.array [] :: stack) := ⟨List.forall_mem_nil _, hstack⟩
    exact hread ts _ e (by omega) hts.2 hopen h
  · next ts =>
    simp only [List.length_cons, List.forall_mem_cons] at hk hts
    have hnest : (nest stack (.object [])).Within (maxDepth - stack.length) :=
      within_nest (.object (List.forall_mem_nil _))
    exact hresume ts stack _ e (by omega) hts.2.2 hstack hnest h
  · next key ts =>
    simp only [List.length_cons, List.forall_mem_cons] at hk hts
    have hopen : Bounded (.object [] key :: stack) := ⟨List.forall_mem_nil _, hstack⟩
    exact hread ts _ e (by omega) hts.2.2.2 hopen h
  · next t ts _ _ _ _ =>
    simp only [List.length_cons, List.forall_mem_cons] at hk hts
    obtain ⟨d, hd, h⟩ := Option.bind_eq_some_iff.1 h
    exact hresume ts stack d e (by omega) hts.2 hstack (within_ofToken? _ hts.1 hd) h
  · cases h

theorem resumesWithin_succ {k : Nat} (hread : ReadsWithin k) (hresume : ResumesWithin k) :
    ResumesWithin (k + 1) := by
  intro ts stack d e hk hts hstack hd h
  rw [resume?.eq_def] at h
  split at h
  · split at h
    · next hempty =>
      cases h
      rw [List.isEmpty_iff.1 hempty] at hd
      exact hd
    · cases h
  · next ts =>
    simp only [List.length_cons, List.forall_mem_cons] at hk hts
    split at h
    · next items stack =>
      have hopen : Bounded (.array (d :: items) :: stack) :=
        ⟨List.forall_mem_cons.2 ⟨hd, hstack.1⟩, hstack.2⟩
      exact hread ts _ e (by omega) hts.2 hopen h
    · next members key stack =>
      split at h
      · next next ts =>
        simp only [List.length_cons, List.forall_mem_cons] at hk hts
        have hopen : Bounded (.object ((key, d) :: members) next :: stack) :=
          ⟨List.forall_mem_cons.2 ⟨hd, hstack.1⟩, hstack.2⟩
        exact hread ts _ e (by omega) hts.2.2.2 hopen h
      · cases h
    · cases h
  · next ts =>
    simp only [List.length_cons, List.forall_mem_cons] at hk hts
    split at h
    · next items stack =>
      have each : ∀ i ∈ (d :: items).reverse, i.Within (maxDepth - (stack.length + 1)) := by
        simp only [List.mem_reverse, List.forall_mem_cons]
        exact ⟨hd, hstack.1⟩
      exact hresume ts stack _ e (by omega) hts.2 hstack.2 (within_nest (.array each)) h
    · cases h
  · next ts =>
    simp only [List.length_cons, List.forall_mem_cons] at hk hts
    split at h
    · next members key stack =>
      have each : ∀ m ∈ ((key, d) :: members).reverse,
          m.2.Within (maxDepth - (stack.length + 1)) := by
        simp only [List.mem_reverse, List.forall_mem_cons]
        exact ⟨hd, hstack.1⟩
      exact hresume ts stack _ e (by omega) hts.2 hstack.2 (within_nest (.object each)) h
    · cases h
  · cases h

/-- A parsed document has valid numbers and is within the depth. -/
theorem parse?_within {s : String} {d : Document} (h : parse? s = some d) :
    d.Within maxDepth := by
  have hboth : ∀ k, ReadsWithin k ∧ ResumesWithin k := by
    intro k
    induction k with
    | zero => exact ⟨fun _ _ _ hk => absurd hk (Nat.not_lt_zero _),
        fun _ _ _ _ hk => absurd hk (Nat.not_lt_zero _)⟩
    | succ k ih => exact ⟨readsWithin_succ ih.1 ih.2, resumesWithin_succ ih.1 ih.2⟩
  obtain ⟨ts, hts, h⟩ := Option.bind_eq_some_iff.1 h
  exact (hboth (ts.length + 1)).1 ts [] d (Nat.lt_succ_self _) (valid_lex? _ hts) trivial h

end Document

/-! ## Values -/

namespace Json

theorem depth_array_le {n : Nat} {items : List Json} :
    (Json.array items).depth ≤ n + 1 ↔ ∀ v ∈ items, v.depth ≤ n := by
  have hitems : depth.depthItems items ≤ n ↔ ∀ v ∈ items, v.depth ≤ n := by
    induction items with
    | nil => simp [depth.depthItems]
    | cons v vs ih => rw [depth.depthItems, Nat.max_le, ih, List.forall_mem_cons]
  rw [depth, ← hitems]
  omega

theorem depth_object_le {n : Nat} {members : List Member} :
    (Json.object members).depth ≤ n + 1 ↔ ∀ m ∈ members, m.2.depth ≤ n := by
  have hmembers : depth.depthMembers members ≤ n ↔ ∀ m ∈ members, m.2.depth ≤ n := by
    induction members with
    | nil => simp [depth.depthMembers]
    | cons m ms ih => rw [depth.depthMembers, Nat.max_le, ih, List.forall_mem_cons]
  rw [depth, ← hmembers]
  omega

theorem depth_ofFloat (x : Float) : (Json.ofFloat x).depth = 0 := by
  unfold Json.ofFloat
  split <;> rfl

theorem depth_ofStrings_le (ss : List String) : (Json.ofStrings ss).depth ≤ 1 := by
  refine depth_array_le.2 fun v hv => ?_
  obtain ⟨s, -, rfl⟩ := List.mem_map.1 hv
  exact Nat.le_refl 0

/-- Values whose numbers are valid. -/
def Writable (v : Json) : Prop :=
  ∀ t ∈ v.tokens, t.Valid

theorem writable_array {items : List Json} (h : ∀ v ∈ items, v.Writable) :
    (Json.array items).Writable := by
  have hitems : ∀ vs : List Json, (∀ v ∈ vs, v.Writable) → ∀ t ∈ itemTokens vs, t.Valid := by
    intro vs
    induction vs with
    | nil => simp [itemTokens, Token.Valid]
    | cons v vs ih =>
      intro h
      rw [List.forall_mem_cons] at h
      rw [itemTokens, List.forall_mem_cons, List.forall_mem_append]
      exact ⟨nofun, h.1, ih h.2⟩
  cases items with
  | nil => simp [Writable, tokens, Token.Valid]
  | cons v vs =>
    rw [List.forall_mem_cons] at h
    rw [Writable, tokens, List.forall_mem_cons, List.forall_mem_append]
    exact ⟨nofun, h.1, hitems vs h.2⟩

theorem writable_object {members : List Member} (h : ∀ m ∈ members, m.2.Writable) :
    (Json.object members).Writable := by
  have hmembers : ∀ ms : List Member, (∀ m ∈ ms, m.2.Writable) →
      ∀ t ∈ memberTokens ms, t.Valid := by
    intro ms
    induction ms with
    | nil => simp [memberTokens, Token.Valid]
    | cons m ms ih =>
      intro h
      rw [List.forall_mem_cons] at h
      rw [memberTokens, List.forall_mem_cons, List.forall_mem_cons, List.forall_mem_cons,
        List.forall_mem_append]
      exact ⟨nofun, nofun, nofun, h.1, ih h.2⟩
  cases members with
  | nil => simp [Writable, tokens, Token.Valid]
  | cons m ms =>
    rw [List.forall_mem_cons] at h
    rw [Writable, tokens, List.forall_mem_cons, List.forall_mem_cons, List.forall_mem_cons,
      List.forall_mem_append]
    exact ⟨nofun, nofun, nofun, h.1, hmembers ms h.2⟩

theorem writable_string (s : String) : (Json.string s).Writable := by
  simp [Writable, tokens, Token.Valid]

theorem Canonical.writable {v : Json} (h : v.Canonical) : v.Writable := by
  induction h with
  | number valid =>
    intro t ht n hn
    rw [List.mem_singleton.1 ht] at hn
    cases hn
    exact valid
  | array each ih => exact writable_array ih
  | object each ascending ih => exact writable_object ih
  | _ => simp [Writable, tokens, Token.Valid]

theorem canonical_ofFloat (x : Float) : (Json.ofFloat x).Canonical := by
  unfold Json.ofFloat
  split
  · next h => exact .number (n := .real x) h
  · exact .null

theorem canonical_ofStrings (ss : List String) : (Json.ofStrings ss).Canonical := by
  refine .array fun v hv => ?_
  obtain ⟨s, -, rfl⟩ := List.mem_map.1 hv
  exact .string s

/-- What is left out where there is nothing to write. -/
theorem forall_mem_optional {α : Type} {P : Json → Prop} {write : α → Json}
    (h : ∀ a, P (write a)) (o : Option α) (name : String) :
    ∀ m ∈ (o.map fun a => (name, write a)).toList, P m.2 := by
  cases o with
  | none => exact List.forall_mem_nil _
  | some a => exact List.forall_mem_singleton.2 (h a)

theorem canonical_ofMembers {ms : List Member} (h : ∀ m ∈ ms, m.2.Canonical) :
    (Json.ofMembers ms).Canonical :=
  .object (fun m hm => h m (mem_sortMembers hm)) (ascending_sortMembers ms)

end Json

namespace Document

theorem of_itemValues? {items : List Document} {vs : List Json} (h : itemValues? items = some vs) :
    ∀ v ∈ vs, ∃ d ∈ items, value? d = some v := by
  induction items generalizing vs with
  | nil =>
    cases h
    exact nofun
  | cons d ds ih =>
    obtain ⟨v, hv, h⟩ := Option.bind_eq_some_iff.1 h
    obtain ⟨ws, hws, rfl⟩ := Option.map_eq_some_iff.1 h
    refine List.forall_mem_cons.2 ⟨⟨d, List.mem_cons_self, hv⟩, fun w hw => ?_⟩
    obtain ⟨e, he, hew⟩ := ih hws w hw
    exact ⟨e, List.mem_cons_of_mem d he, hew⟩

theorem of_memberValues? {members : List (Option String × Document)} {ms : List Member}
    (h : memberValues? members = some ms) :
    ∀ m ∈ ms, ∃ e ∈ members, value? e.2 = some m.2 := by
  induction members generalizing ms with
  | nil =>
    cases h
    exact nofun
  | cons e es ih =>
    obtain ⟨key, -, h⟩ := Option.bind_eq_some_iff.1 h
    obtain ⟨v, hv, h⟩ := Option.bind_eq_some_iff.1 h
    obtain ⟨ns, hns, rfl⟩ := Option.map_eq_some_iff.1 h
    refine List.forall_mem_cons.2 ⟨⟨e, List.mem_cons_self, hv⟩, fun m hm => ?_⟩
    obtain ⟨f, hf, hfm⟩ := ih hns m hm
    exact ⟨f, List.mem_cons_of_mem e hf, hfm⟩

/-- The value of a document within a depth is canonical and no deeper. -/
theorem value?_within {n : Nat} {d : Document} {v : Json} (hd : d.Within n)
    (h : value? d = some v) : v.Canonical ∧ v.depth ≤ n := by
  induction hd generalizing v with
  | null n => cases h; exact ⟨.null, Nat.zero_le n⟩
  | bool n b => cases h; exact ⟨.bool b, Nat.zero_le n⟩
  | number n valid => cases h; exact ⟨.number valid, Nat.zero_le n⟩
  | string n s => cases h; exact ⟨.string s, Nat.zero_le n⟩
  | unreadable n => cases h
  | @array n items each ih =>
    obtain ⟨vs, hvs, rfl⟩ := Option.map_eq_some_iff.1 h
    have hall : ∀ v ∈ vs, v.Canonical ∧ v.depth ≤ n := by
      intro v hv
      obtain ⟨d, hd, hdv⟩ := of_itemValues? hvs v hv
      exact ih d hd hdv
    exact ⟨.array fun v hv => (hall v hv).1, Json.depth_array_le.2 fun v hv => (hall v hv).2⟩
  | @object n members each ih =>
    obtain ⟨ms, hms, rfl⟩ := Option.map_eq_some_iff.1 h
    have hall : ∀ m ∈ ms, m.2.Canonical ∧ m.2.depth ≤ n := by
      intro m hm
      obtain ⟨e, he, hem⟩ := of_memberValues? hms m hm
      exact ih e he hem
    exact ⟨Json.canonical_ofMembers fun m hm => (hall m hm).1,
      Json.depth_object_le.2 fun m hm => (hall m (mem_sortMembers hm)).2⟩

end Document

end SignalPipeline
