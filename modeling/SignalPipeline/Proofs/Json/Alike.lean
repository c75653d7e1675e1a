import SignalPipeline.Proofs.Json.Bounds

/-!
# Documents with the same value

Two documents have the same value exactly if they are the same tree up to what their texts are
free to choose: the order of the members of an object, and members behind which another one with
the same key stands.

* `Document.lastMember?`: the member of an object that counts.
* `Document.Alike`: documents that are the same tree in this sense.
* `Document.alike_iff`: alike documents are those with the same value.
-/

namespace SignalPipeline.Document

/-- The last of the members with a key. -/
def lastMember? (members : List (Option String × Document)) (key : String) : Option Document :=
  members.reverse.lookup (some key)

/-- Documents that are the same tree: items in the same order, members in any, and of the members
with one key the last. Numbers have the same kind and the same value; the sign of a zero counts. -/
inductive Alike : Document → Document → Prop where
  | null : Alike .null .null
  | bool (b : Bool) : Alike (.bool b) (.bool b)
  | number (n : Number) : Alike (.number n) (.number n)
  | string (s : String) : Alike (.string s) (.string s)
  | array {ds es : List Document} (each : ∀ i : Nat, Option.Rel Alike ds[i]? es[i]?) :
    Alike (.array ds) (.array es)
  | object {ms ns : List (Option String × Document)}
    (each : ∀ key, Option.Rel Alike (lastMember? ms key) (lastMember? ns key)) :
    Alike (.object ms) (.object ns)

theorem mem_of_lastMember? {ms : List (Option String × Document)} {key : String} {d : Document}
    (h : lastMember? ms key = some d) : (some key, d) ∈ ms := by
  obtain ⟨before, after, hsplit, -⟩ := List.lookup_eq_some_iff.1 h
  rw [← List.mem_reverse, hsplit]
  exact List.mem_append_right _ List.mem_cons_self

/-! ## Values part by part -/

/-- A document that has a value. -/
def HasValue (d : Document) (v : Json) : Prop :=
  value? d = some v

theorem forall₂_itemValues? {ds : List Document} {vs : List Json} (h : itemValues? ds = some vs) :
    List.Forall₂ HasValue ds vs := by
  induction ds generalizing vs with
  | nil =>
    cases h
    exact .nil
  | cons d ds ih =>
    obtain ⟨v, hv, h⟩ := Option.bind_eq_some_iff.1 h
    obtain ⟨ws, hws, rfl⟩ := Option.map_eq_some_iff.1 h
    exact .cons hv (ih hws)

theorem forall₂_memberValues? {ms : List (Option String × Document)} {ns : List Member}
    (h : memberValues? ms = some ns) :
    List.Forall₂ (fun m n => m.1 = some n.1 ∧ HasValue m.2 n.2) ms ns := by
  induction ms generalizing ns with
  | nil =>
    cases h
    exact .nil
  | cons m ms ih =>
    obtain ⟨key, hkey, h⟩ := Option.bind_eq_some_iff.1 h
    obtain ⟨v, hv, h⟩ := Option.bind_eq_some_iff.1 h
    obtain ⟨rest, hrest, rfl⟩ := Option.map_eq_some_iff.1 h
    exact .cons ⟨hkey, hv⟩ (ih hrest)

theorem rel_getElem?_of_forall₂ {ds : List Document} {vs : List Json}
    (h : List.Forall₂ HasValue ds vs) (i : Nat) : Option.Rel HasValue ds[i]? vs[i]? := by
  induction h generalizing i with
  | nil => exact .none
  | cons hv _ ih =>
    cases i with
    | zero => exact .some hv
    | succ i => exact ih i

/-- Each item has the value at its place. -/
theorem rel_getElem? {ds : List Document} {vs : List Json} (h : itemValues? ds = some vs)
    (i : Nat) : Option.Rel HasValue ds[i]? vs[i]? :=
  rel_getElem?_of_forall₂ (forall₂_itemValues? h) i

theorem rel_lookup_of_forall₂ {ms : List (Option String × Document)} {ns : List Member}
    (h : List.Forall₂ (fun m n => m.1 = some n.1 ∧ HasValue m.2 n.2) ms ns) (key : String) :
    Option.Rel HasValue (ms.lookup (some key)) (ns.lookup key) := by
  induction h with
  | nil => exact .none
  | @cons m n ms ns hm _ ih =>
    obtain ⟨k, d⟩ := m
    obtain ⟨l, v⟩ := n
    obtain ⟨hk, hv⟩ := hm
    cases hk
    rw [List.lookup_cons, lookup_cons_ite]
    by_cases he : key = l
    · subst he
      rw [if_pos rfl, beq_self_eq_true]
      exact .some hv
    · rw [if_neg he, beq_false_of_ne fun h => he (Option.some.inj h)]
      exact ih

/-- The member that counts has the value under its key. -/
theorem rel_lookup {ms : List (Option String × Document)} {ns : List Member}
    (h : memberValues? ms = some ns) (key : String) :
    Option.Rel HasValue (lastMember? ms key) ((sortMembers ns).lookup key) := by
  rw [lookup_sortMembers_reverse]
  exact rel_lookup_of_forall₂ (List.rel_reverse (forall₂_memberValues? h)) key

/-- Parts are alike exactly if they have the same values. -/
theorem rel_alike_iff {x y : Option Document} {a b : Option Json} (hx : Option.Rel HasValue x a)
    (hy : Option.Rel HasValue y b)
    (h : ∀ d ∈ x, ∀ (e : Document) (v w : Json), HasValue d v → HasValue e w →
      (d.Alike e ↔ v = w)) :
    Option.Rel Alike x y ↔ a = b := by
  cases hx with
  | none =>
    cases hy with
    | none => exact ⟨fun _ => rfl, fun _ => .none⟩
    | some he => exact ⟨nofun, nofun⟩
  | some hd =>
    cases hy with
    | none => exact ⟨nofun, nofun⟩
    | some he =>
      rw [Option.some.injEq, ← h _ rfl _ _ _ hd he]
      exact ⟨fun hrel => by cases hrel; assumption, .some⟩

/-! ## Same value -/

/-- The value of a document, one level deep. -/
inductive Shape : Document → Json → Prop where
  | null : Shape .null .null
  | bool (b : Bool) : Shape (.bool b) (.bool b)
  | number (n : Number) : Shape (.number n) (.number n)
  | string (s : String) : Shape (.string s) (.string s)
  | array {ds : List Document} {vs : List Json} (items : itemValues? ds = some vs) :
    Shape (.array ds) (.array vs)
  | object {ms : List (Option String × Document)} {ns sorted : List Member}
    (members : memberValues? ms = some ns) (sorting : sortMembers ns = sorted) :
    Shape (.object ms) (.object sorted)

theorem HasValue.shape {d : Document} {v : Json} (h : d.HasValue v) : d.Shape v := by
  cases d with
  | unreadable => cases h
  | array ds =>
    obtain ⟨vs, hvs, rfl⟩ := Option.map_eq_some_iff.1 h
    exact .array hvs
  | object ms =>
    obtain ⟨ns, hns, rfl⟩ := Option.map_eq_some_iff.1 h
    exact .object hns rfl
  | null => cases h; exact .null
  | bool b => cases h; exact .bool b
  | number n => cases h; exact .number n
  | string s => cases h; exact .string s

/-- A document without parts is alike to no other, and no other has its value. -/
theorem leaf_alike_iff {d e : Document} {v w : Json} (hself : d.Alike d)
    (halike : ∀ c, d.Alike c → c = d) (hshape : ∀ c : Document, c.Shape v → c = d)
    (hv : d.HasValue v) (hw : e.HasValue w) : d.Alike e ↔ v = w := by
  constructor
  · intro h
    rw [halike e h] at hw
    exact Option.some.inj (hv.symm.trans hw)
  · rintro rfl
    rw [hshape e hw.shape]
    exact hself

/-- Documents with values are alike exactly if they have the same value. -/
theorem alike_iff {n : Nat} {d e : Document} {v w : Json} (hd : d.Within n) (hv : d.HasValue v)
    (hw : e.HasValue w) : d.Alike e ↔ v = w := by
  induction hd generalizing e v w with
  | unreadable n => cases hv
  | null n =>
    cases hv.shape
    exact leaf_alike_iff .null (fun c h => by cases h; rfl) (fun c h => by cases h; rfl) hv hw
  | bool n b =>
    cases hv.shape
    exact leaf_alike_iff (.bool b) (fun c h => by cases h; rfl) (fun c h => by cases h; rfl) hv hw
  | @number n i valid =>
    cases hv.shape
    exact leaf_alike_iff (.number i) (fun c h => by cases h; rfl) (fun c h => by cases h; rfl) hv hw
  | string n s =>
    cases hv.shape
    exact leaf_alike_iff (.string s) (fun c h => by cases h; rfl) (fun c h => by cases h; rfl) hv hw
  | @array n ds each ih =>
    obtain ⟨vs, hvs, rfl⟩ := Option.map_eq_some_iff.1 hv
    have hitem : ∀ {es ws} (i : Nat), itemValues? es = some ws →
        (Option.Rel Alike ds[i]? es[i]? ↔ vs[i]? = ws[i]?) := fun i hws =>
      rel_alike_iff (rel_getElem? hvs i) (rel_getElem? hws i) fun d hd _ _ _ hv hw =>
        ih d (List.mem_of_getElem? hd) hv hw
    constructor
    · intro h
      cases h with
      | array halike =>
        obtain ⟨ws, hws, rfl⟩ := Option.map_eq_some_iff.1 hw
        rw [List.ext_getElem? fun i => (hitem i hws).1 (halike i)]
    · rintro rfl
      cases hw.shape with
      | array hws => exact .array fun i => (hitem i hws).2 rfl
  | @object n ms each ih =>
    obtain ⟨ns, hns, rfl⟩ := Option.map_eq_some_iff.1 hv
    have hmember : ∀ {os ps} (key : String), memberValues? os = some ps →
        (Option.Rel Alike (lastMember? ms key) (lastMember? os key) ↔
          (sortMembers ns).lookup key = (sortMembers ps).lookup key) := fun key hps =>
      rel_alike_iff (rel_lookup hns key) (rel_lookup hps key) fun d hd _ _ _ hv hw =>
        ih _ (mem_of_lastMember? hd) hv hw
    constructor
    · intro h
      cases h with
      | object halike =>
        obtain ⟨ps, hps, rfl⟩ := Option.map_eq_some_iff.1 hw
        have hlookup : ∀ key, (sortMembers ns).lookup key = (sortMembers ps).lookup key :=
          fun key => (hmember key hps).1 (halike key)
        rw [Json.ofMembers, Json.ofMembers,
          (ascending_sortMembers ns).eq_of_lookup (ascending_sortMembers ps) hlookup]
    · rintro rfl
      cases hw.shape with
      | object hps hsorted =>
        exact .object fun key => (hmember key hps).2 (by rw [hsorted])

/-- Zeros with different signs are different numbers. -/
example : ¬ (number (.real 0)).Alike (number (.real (-0))) := by
  have hvalid : (Number.real 0).Valid := by
    rw [Number.Valid]
    decide
  have hzero : (number (.real 0)).HasValue (.number (.real 0)) := rfl
  have hminus : (number (.real (-0))).HasValue (.number (.real (-0))) := rfl
  rw [alike_iff (.number 0 hvalid) hzero hminus, Json.number.injEq, Number.real.injEq]
  decide

end SignalPipeline.Document
