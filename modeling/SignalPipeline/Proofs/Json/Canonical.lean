import SignalPipeline.Json.Document
import SignalPipeline.Json.MemberLemmas

/-!
# The canonical form of a value

The canonical form of any value has ascending members at every level, and such values are their own
canonical form. It is also what the value is read as when it is written: the members are sorted, and
of several with one key the last counts.

* `Json.byParts`: induction over a value.
* `Json.Arranged`: values with ascending members at every level.
* `Json.arranged_canonicalize`: canonical forms are such values.
* `Json.canonicalize_canonicalize`: a canonical form is its own.
* `Json.value?_toDocument`: the value of the document of a value is its canonical form.
-/

namespace SignalPipeline.Json

open Document

/-! ## Induction -/

/-- Induction over a value, through the items of arrays and the members of objects. -/
@[elab_as_elim]
theorem byParts {motive : Json → Prop} (null : motive .null) (bool : ∀ b, motive (.bool b))
    (number : ∀ n, motive (.number n)) (string : ∀ s, motive (.string s))
    (array : ∀ items, (∀ v ∈ items, motive v) → motive (.array items))
    (object : ∀ members : List Member, (∀ m ∈ members, motive m.2) → motive (.object members))
    (v : Json) : motive v :=
  @Json.rec motive (fun items => ∀ v ∈ items, motive v)
    (fun members => ∀ m ∈ members, motive m.2) (fun m => motive m.2)
    null bool number string array object
    (List.forall_mem_nil _) (fun _ _ hv hvs => List.forall_mem_cons.2 ⟨hv, hvs⟩)
    (List.forall_mem_nil _) (fun _ _ hm hms => List.forall_mem_cons.2 ⟨hm, hms⟩)
    (fun _ _ hv => hv) v

/-! ## Ascending members at every level -/

theorem canonicalizeItems_eq_map (vs : List Json) : canonicalizeItems vs = vs.map canonicalize := by
  induction vs with
  | nil => rfl
  | cons v vs ih => rw [canonicalizeItems, ih, List.map_cons]

theorem canonicalizeMembers_eq_map (ms : List Member) :
    canonicalizeMembers ms = ms.map fun m => (m.1, m.2.canonicalize) := by
  induction ms with
  | nil => rfl
  | cons m ms ih => rw [canonicalizeMembers, ih, List.map_cons]

/-- Values with ascending members at every level. -/
inductive Arranged : Json → Prop where
  | null : Arranged .null
  | bool (b : Bool) : Arranged (.bool b)
  | number (n : Number) : Arranged (.number n)
  | string (s : String) : Arranged (.string s)
  | array {items : List Json} (each : ∀ v ∈ items, Arranged v) : Arranged (.array items)
  | object {members : List Member} (each : ∀ m ∈ members, Arranged m.2)
      (ascending : Ascending members) : Arranged (.object members)

/-- The canonical form of a value has ascending members at every level. -/
theorem arranged_canonicalize (v : Json) : v.canonicalize.Arranged := by
  induction v using byParts with
  | null => exact .null
  | bool b => exact .bool b
  | number n => exact .number n
  | string s => exact .string s
  | array items ih =>
    rw [canonicalize, canonicalizeItems_eq_map]
    exact .array (List.forall_mem_map.2 ih)
  | object members ih =>
    rw [canonicalize, canonicalizeMembers_eq_map]
    refine .object (fun m hm => ?_) (ascending_sortMembers _)
    obtain ⟨n, hn, rfl⟩ := List.mem_map.1 (mem_sortMembers hm)
    exact ih n hn

/-- Where the members ascend at every level nothing is moved. -/
theorem Arranged.canonicalize_eq {v : Json} (h : v.Arranged) : v.canonicalize = v := by
  induction h with
  | @array items each ih =>
    rw [canonicalize, canonicalizeItems_eq_map, List.map_congr_left ih, List.map_id']
  | @object members each ascending ih =>
    have hmembers : ∀ m ∈ members, (m.1, m.2.canonicalize) = m := fun m hm =>
      Prod.ext rfl (ih m hm)
    rw [canonicalize, canonicalizeMembers_eq_map, List.map_congr_left hmembers, List.map_id',
      sortMembers_of_ascending ascending]
  | _ => rfl

/-- A canonical form is its own. -/
theorem canonicalize_canonicalize (v : Json) : v.canonicalize.canonicalize = v.canonicalize :=
  v.arranged_canonicalize.canonicalize_eq

theorem Canonical.arranged {v : Json} (h : v.Canonical) : v.Arranged := by
  induction h with
  | null => exact .null
  | bool b => exact .bool b
  | number valid => exact .number _
  | string s => exact .string s
  | array each ih => exact .array ih
  | object each ascending ih => exact .object ih ascending

/-! ## The value of a document -/

theorem itemDocuments_eq_map (vs : List Json) : itemDocuments vs = vs.map toDocument := by
  induction vs with
  | nil => rfl
  | cons v vs ih => rw [itemDocuments, ih, List.map_cons]

theorem memberDocuments_eq_map (ms : List Member) :
    memberDocuments ms = ms.map fun m => (some m.1, m.2.toDocument) := by
  induction ms with
  | nil => rfl
  | cons m ms ih => rw [memberDocuments, ih, List.map_cons]

theorem itemValues?_documents {vs : List Json}
    (h : ∀ v ∈ vs, value? v.toDocument = some v.canonicalize) :
    itemValues? (itemDocuments vs) = some (canonicalizeItems vs) := by
  induction vs with
  | nil => rfl
  | cons v vs ih =>
    obtain ⟨hv, hvs⟩ := List.forall_mem_cons.1 h
    rw [itemDocuments, itemValues?, hv, ih hvs]
    rfl

theorem memberValues?_documents {ms : List Member}
    (h : ∀ m ∈ ms, value? m.2.toDocument = some m.2.canonicalize) :
    memberValues? (memberDocuments ms) = some (canonicalizeMembers ms) := by
  induction ms with
  | nil => rfl
  | cons m ms ih =>
    obtain ⟨hm, hms⟩ := List.forall_mem_cons.1 h
    rw [memberDocuments, memberValues?, hm, ih hms]
    rfl

/-- The value of the document of a value is the canonical form of the value. -/
theorem value?_toDocument (v : Json) : value? v.toDocument = some v.canonicalize := by
  induction v using byParts with
  | array items ih =>
    rw [toDocument, value?, itemValues?_documents ih]
    rfl
  | object members ih =>
    rw [toDocument, value?, memberValues?_documents ih]
    rfl
  | _ => rfl

/-- A canonical value is the value of its document. -/
theorem Canonical.value?_toDocument {v : Json} (h : v.Canonical) :
    value? v.toDocument = some v := by
  rw [v.value?_toDocument, h.arranged.canonicalize_eq]

end SignalPipeline.Json
