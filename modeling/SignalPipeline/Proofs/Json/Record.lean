import SignalPipeline.Json.Reader
import SignalPipeline.Proofs.Json.Bounds
import SignalPipeline.Proofs.Json.Canonical
import SignalPipeline.Proofs.Json.Parse

/-!
# Records of documents

What a reader of records finds where a record was written, and what it can find at all.

* `Read.list_written`: items that are read back are read back as a list.
* `Read.record_written`: every field of a written record is found under its name.
* `Slots.required_written`, `Slots.defaulted_written`, `Slots.optional_written`: one field of it.
* `Read.Ensures`: readers that find only values with a property in documents within a depth.
-/

namespace SignalPipeline

variable {α β : Type}

theorem except_bind_eq_ok {ε : Type} {x : Except ε α} {f : α → Except ε β} {b : β} :
    (x >>= f) = .ok b ↔ ∃ a, x = .ok a ∧ f a = .ok b := by
  cases x with
  | error e => exact ⟨nofun, nofun⟩
  | ok a => exact ⟨fun h => ⟨a, rfl, h⟩, fun ⟨_, h, hf⟩ => by cases h; exact hf⟩

/-! ## Written records -/

/-- The documents of the members of a written record. -/
def Slots.written (ms : List Member) : Slots :=
  ms.map fun m => (m.1, m.2.toDocument)

/-- Fields with distinct names, none of which stands for another field. -/
structure Field.Unambiguous (fields : List Field) : Prop where
  named : ∀ key ∈ fields.map Field.name, Read.fieldOf? fields key = some key
  distinct : (fields.map Field.name).Nodup

/-- The member of a field that is left out where there is nothing to write. -/
theorem lookup_optional {α : Type} (o : Option α) (write : α → Json) (name key : String) :
    ((o.map fun a => (name, write a)).toList).lookup key =
      if key == name then o.map write else none := by
  cases o with
  | none => simp
  | some a =>
    simp only [Option.map_some, Option.toList_some, List.lookup_cons, List.lookup_nil]
    cases key == name <;> rfl

theorem keys_optional {α : Type} (o : Option α) (write : α → Json) (name : String) :
    (((o.map fun a => (name, write a)).toList).map Prod.fst).Sublist [name] := by
  cases o with
  | none => exact List.nil_sublist _
  | some a => exact List.Sublist.refl _

namespace Read

/-- Items that are each read back as something are read back as the list of it. -/
theorem list_written_map {read : Reader β} {write : α → Json} {f : α → β} {as : List α}
    (h : ∀ a ∈ as, read (write a).toDocument = .ok (f a)) :
    Read.list read (Json.array (as.map write)).toDocument = .ok (as.map f) := by
  rw [Json.toDocument, Json.itemDocuments_eq_map, List.map_map]
  change (as.map (Json.toDocument ∘ write)).mapM read = .ok (as.map f)
  induction as with
  | nil => rfl
  | cons a as ih =>
    obtain ⟨ha, has⟩ := List.forall_mem_cons.1 h
    rw [List.map_cons, List.mapM_cons, Function.comp_apply, ha, ih has]
    rfl

theorem list_written {read : Reader α} {write : α → Json} {as : List α}
    (h : ∀ a ∈ as, read (write a).toDocument = .ok a) :
    Read.list read (Json.array (as.map write)).toDocument = .ok as := by
  have hlist := list_written_map (f := id) h
  rwa [List.map_id] at hlist

/-- A name is read back as what it names. -/
theorem oneOf_written {named : String → Option α} {name : String} {a : α}
    (h : named name = some a) (expected : String) :
    Read.oneOf expected named (Json.string name).toDocument = .ok a := by
  rw [Json.toDocument, Read.oneOf, Read.oneOf.choose, h]
  rfl

theorem float_written {x : Float} (h : x.isFinite = true) :
    Read.float (Json.ofFloat x).toDocument = .ok x := by
  rw [Json.ofFloat, if_pos h]
  rfl

/-- The members of a written record are collected, each under its own key. -/
theorem collect_written {fields : List Field} {ms : List Member} {found : Slots}
    (hnamed : ∀ m ∈ ms, fieldOf? fields m.1 = some m.1)
    (hdistinct : (found.map Prod.fst ++ ms.map Prod.fst).Nodup) :
    collect fields found (Json.memberDocuments ms) = .ok (found ++ Slots.written ms) := by
  induction ms generalizing found with
  | nil => exact congrArg Except.ok (List.append_nil found).symm
  | cons m ms ih =>
    obtain ⟨hm, hms⟩ := List.forall_mem_cons.1 hnamed
    have hnew : found.lookup m.1 = none := by
      rw [List.lookup_eq_none_iff]
      intro p hp
      rw [List.map_cons, List.nodup_append] at hdistinct
      have hne := hdistinct.2.2 p.1 (List.mem_map_of_mem hp) m.1 List.mem_cons_self
      simpa using Ne.symm hne
    have hrest : ((found ++ [(m.1, m.2.toDocument)]).map Prod.fst ++ ms.map Prod.fst).Nodup := by
      simpa using hdistinct
    rw [Json.memberDocuments, collect, hm]
    simp only [hnew, Option.isSome_none, Bool.false_eq_true, if_false]
    rw [ih hms hrest, List.append_assoc]
    rfl

/-- Every field of a written record is found under its name. -/
theorem record_written (expected : String) {fields : List Field} (hf : Field.Unambiguous fields)
    {ms : List Member} (hms : (ms.map Prod.fst).Sublist (fields.map Field.name)) :
    record expected fields (Json.object ms).toDocument = .ok (Slots.written ms) := by
  have hnamed : ∀ m ∈ ms, fieldOf? fields m.1 = some m.1 := fun m hm =>
    hf.named m.1 (hms.subset (List.mem_map_of_mem hm))
  exact collect_written hnamed (hms.nodup hf.distinct)

end Read

namespace Slots

variable {read : Reader α} {ms : List Member} {key : String}

theorem lookup_written (ms : List Member) (key : String) :
    (written ms).lookup key = (ms.lookup key).map Json.toDocument := by
  induction ms with
  | nil => rfl
  | cons m ms ih =>
    change List.lookup key ((m.1, m.2.toDocument) :: written ms) = _
    obtain ⟨k, v⟩ := m
    rw [List.lookup_cons, List.lookup_cons]
    cases key == k with
    | true => rfl
    | false => exact ih

theorem required_written {v : Json} {a : α} (h : ms.lookup key = some v)
    (hread : read v.toDocument = .ok a) : (written ms).required key read = .ok a := by
  rw [required, lookup_written, h]
  exact hread

theorem defaulted_written {v : Json} {a absent : α} (h : ms.lookup key = some v)
    (hread : read v.toDocument = .ok a) : (written ms).defaulted key read absent = .ok a := by
  rw [defaulted, lookup_written, h]
  exact hread

/-- A field that is left out where there is nothing to write. -/
theorem optional_written (write : α → Json) {o : Option α} (h : ms.lookup key = o.map write)
    (hread : ∀ a, o = some a → Read.optional read (write a).toDocument = .ok (some a)) :
    (written ms).optional key read = .ok o := by
  rw [optional, defaulted, lookup_written, h]
  cases o with
  | none => rfl
  | some a => exact hread a rfl

/-- A text that is left out where there is none. -/
theorem optional_string_written {o : Option String} (h : ms.lookup key = o.map Json.string) :
    (written ms).optional key Read.string = .ok o :=
  optional_written Json.string h fun _ _ => rfl

end Slots

/-! ## Texts of numbers -/

/-- The numbers of a value that can be written are read back if its floats are. -/
theorem Json.readBack_of_writable {v : Json} (hv : v.Writable)
    (hr : ∀ x : Float, x.isFinite = true → .number (some (.real x)) ∈ v.tokens →
      (Number.real x).ReadsBack) : ReadBack v.tokens := by
  intro n hn
  have hvalid : n.Valid := hv _ hn n rfl
  cases n with
  | integer i => exact Number.readsBack_integer hvalid
  | real x => exact hr x hvalid hn

/-! ## What can be found -/

/-- The document of a canonical value is within the depth of the value. -/
theorem Json.Canonical.within_toDocument {n : Nat} {v : Json} (hv : v.Canonical)
    (hn : v.depth ≤ n) : v.toDocument.Within n := by
  induction hv generalizing n with
  | null => exact .null n
  | bool b => exact .bool n b
  | number valid => exact .number n valid
  | string s => exact .string n s
  | array each ih =>
    cases n with
    | zero => exact absurd hn (by simp [Json.depth])
    | succ n =>
      rw [Json.toDocument, Json.itemDocuments_eq_map]
      refine .array (List.forall_mem_map.2 fun v hv => ?_)
      exact ih v hv (Json.depth_array_le.1 hn v hv)
  | object each ascending ih =>
    cases n with
    | zero => exact absurd hn (by simp [Json.depth])
    | succ n =>
      rw [Json.toDocument, Json.memberDocuments_eq_map]
      refine .object (List.forall_mem_map.2 fun m hm => ?_)
      exact ih m hm (Json.depth_object_le.1 hn m hm)

namespace Read

/-- In documents within a depth a reader finds only values with a property. -/
def Ensures (n : Nat) (read : Reader α) (P : α → Prop) : Prop :=
  ∀ d a, d.Within n → read d = .ok a → P a

variable {n : Nat} {read : Reader α} {P : α → Prop}

theorem mismatch_ne_ok (expected : String) (d : Document) (a : α) :
    mismatch expected d ≠ .ok a := by
  cases d <;> exact nofun

theorem ensures_value : Ensures n Read.value fun v => v.Canonical ∧ v.depth ≤ n := by
  intro d v hd h
  unfold Read.value at h
  split at h
  · next w hw =>
    cases h
    exact Document.value?_within hd hw
  · cases h

theorem ensures_float : Ensures n Read.float fun x => x.isFinite = true := by
  intro d x hd h
  cases hd with
  | number n valid =>
    cases h
    exact Number.isFinite_toFloat valid
  | _ => cases h

theorem Ensures.optional (h : Ensures n read P) :
    Ensures n (Read.optional read) fun o => ∀ a, o = some a → P a := by
  intro d o hd ho a ha
  subst ha
  unfold Read.optional at ho
  split at ho
  · cases ho
  · next _ _ =>
    cases hread : read d with
    | error e =>
      rw [hread] at ho
      cases ho
    | ok b =>
      rw [hread] at ho
      cases ho
      exact h d a hd hread

theorem Ensures.list (h : Ensures n read P) :
    Ensures (n + 1) (Read.list read) fun as => ∀ a ∈ as, P a := by
  intro d as hd has
  cases hd with
  | @array n items each =>
    change items.mapM read = .ok as at has
    induction items generalizing as with
    | nil =>
      cases has
      exact List.forall_mem_nil P
    | cons d ds ih =>
      rw [List.mapM_cons, except_bind_eq_ok] at has
      obtain ⟨a, ha, has⟩ := has
      obtain ⟨bs, hbs, has⟩ := except_bind_eq_ok.1 has
      cases has
      obtain ⟨hd, hds⟩ := List.forall_mem_cons.1 each
      exact List.forall_mem_cons.2 ⟨h d a hd ha, ih bs hds hbs⟩
  | _ => cases has

theorem Ensures.pair (first : Reader β) (h : Ensures n read P) :
    Ensures (n + 1) (Read.pair first read) fun p => P p.2 := by
  intro d p hd hp
  unfold Read.pair at hp
  split at hp
  · next d e =>
    obtain ⟨b, hb, hp⟩ := except_bind_eq_ok.1 hp
    obtain ⟨a, ha, hp⟩ := except_bind_eq_ok.1 hp
    cases hp
    cases hd with
    | array each => exact h e a (each e (by simp)) ha
  · cases hp
  · exact absurd hp (mismatch_ne_ok _ _ _)

theorem collect_within {fields : List Field} {found slots : Slots}
    {members : List (Option String × Document)} (hfound : ∀ m ∈ found, m.2.Within n)
    (hmembers : ∀ m ∈ members, m.2.Within n) (h : collect fields found members = .ok slots) :
    ∀ m ∈ slots, m.2.Within n := by
  induction members generalizing found with
  | nil =>
    cases h
    exact hfound
  | cons m ms ih =>
    obtain ⟨hm, hms⟩ := List.forall_mem_cons.1 hmembers
    obtain ⟨key, d⟩ := m
    cases key with
    | none => cases h
    | some key =>
      rw [collect] at h
      split at h
      · exact ih hfound hms h
      · next name _ =>
        split at h
        · cases h
        · have hmore : ∀ m ∈ found ++ [(name, d)], m.2.Within n :=
            List.forall_mem_append.2 ⟨hfound, List.forall_mem_singleton.2 hm⟩
          exact ih hmore hms h

/-- The documents of a record's fields are within the depth that is left inside the record. -/
theorem record_within {expected : String} {fields : List Field} {d : Document} {slots : Slots}
    (hd : d.Within (n + 1)) (h : record expected fields d = .ok slots) :
    ∀ m ∈ slots, m.2.Within n := by
  cases hd with
  | @array n items each =>
    change (if 0 ≤ items.length ∧ items.length ≤ fields.length then
      pure ((fields.map Field.name).zip items) else throw _) = Except.ok slots at h
    split at h
    · cases h
      exact fun m hm => each m.2 (List.of_mem_zip hm).2
    · cases h
  | object each => exact collect_within (List.forall_mem_nil _) each h
  | _ => cases h

end Read

namespace Slots

variable {n : Nat} {slots : Slots} {key : String} {read : Reader α} {P : α → Prop}

theorem required_ensures (hs : ∀ m ∈ slots, m.2.Within n) (hread : Read.Ensures n read P) {a : α}
    (h : slots.required key read = .ok a) : P a := by
  unfold required at h
  split at h
  · next d hd => exact hread d a (hs _ (mem_of_lookup hd)) h
  · cases h

theorem defaulted_ensures (hs : ∀ m ∈ slots, m.2.Within n) (hread : Read.Ensures n read P)
    {a absent : α} (habsent : P absent) (h : slots.defaulted key read absent = .ok a) : P a := by
  unfold defaulted at h
  split at h
  · next d hd => exact hread d a (hs _ (mem_of_lookup hd)) h
  · cases h
    exact habsent

theorem optional_ensures (hs : ∀ m ∈ slots, m.2.Within n) (hread : Read.Ensures n read P)
    {o : Option α} (h : slots.optional key read = .ok o) : ∀ a, o = some a → P a := by
  refine defaulted_ensures hs hread.optional ?_ h
  intro a ha
  cases ha

end Slots

end SignalPipeline
