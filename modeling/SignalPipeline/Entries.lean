/-!
# Entries in the order of their first insertion

A list of keys with values in which a new key goes to the end and a known key keeps its place.

* `Entries.put`: inserts or replaces.
* `Entries.get?_put`: what a look-up finds afterwards.
* `Entries.keys_put`: the keys afterwards.
* `Entries.getElem?_put_of_ne`: entries with other keys stay where they are.
* `Entries.of_get?_putAll`: what a look-up finds after several insertions.
-/

namespace SignalPipeline

/-- Keys with values. -/
abbrev Entries (α : Type) := List (String × α)

namespace Entries

variable {α : Type}

/-- The value of the first entry with a key. -/
def get? (es : Entries α) (key : String) : Option α :=
  es.lookup key

/-- The keys in order. -/
def keys (es : Entries α) : List String :=
  es.map Prod.fst

/-- Replaces the value of the first entry with the key, or appends an entry. -/
def put (es : Entries α) (key : String) (value : α) : Entries α :=
  match es with
  | [] => [(key, value)]
  | (k, v) :: rest => if k == key then (k, value) :: rest else (k, v) :: put rest key value

/-- Inserts entries one after the other. -/
def putAll (es : Entries α) (added : List (String × α)) : Entries α :=
  added.foldl (fun es (k, v) => es.put k v) es

/-- Entries from pairs; the last of equal keys wins, at the place of the first. -/
def ofPairs (pairs : List (String × α)) : Entries α :=
  putAll [] pairs

/-- What a look-up finds after an insertion. -/
theorem get?_put (es : Entries α) (key other : String) (value : α) :
    (es.put key value).get? other = if other = key then some value else es.get? other := by
  induction es with
  | nil =>
    by_cases h : other = key
    · simp [put, get?, h]
    · simp [put, get?, List.lookup_cons, h, beq_false_of_ne h]
  | cons e es ih =>
    obtain ⟨k, v⟩ := e
    simp only [get?] at ih
    by_cases hk : k = key
    · subst hk
      by_cases h : other = k
      · simp [put, get?, h]
      · simp [put, get?, List.lookup_cons, h, beq_false_of_ne h]
    · by_cases h : other = k
      · subst h
        simp [put, get?, hk]
      · simp [put, get?, List.lookup_cons, hk, beq_false_of_ne h, ih]

/-- The keys after an insertion. -/
theorem keys_put (es : Entries α) (key : String) (value : α) :
    (es.put key value).keys = if key ∈ es.keys then es.keys else es.keys ++ [key] := by
  induction es with
  | nil => simp [put, keys]
  | cons e es ih =>
    obtain ⟨k, v⟩ := e
    simp only [keys] at ih
    by_cases hk : k = key
    · simp [put, keys, hk]
    · have hk' : ¬ key = k := fun h => hk h.symm
      by_cases hm : key ∈ es.map Prod.fst
      · simp only [hm, ite_true] at ih
        simp [put, keys, hk, hk', ih, hm]
      · simp only [hm, ite_false] at ih
        simp [put, keys, hk, hk', ih, hm]

/-- An insertion touches no entry with another key. -/
theorem getElem?_put_of_ne {es : Entries α} {key other : String} {value v : α} {i : Nat}
    (h : other ≠ key) : (es.put key value)[i]? = some (other, v) ↔ es[i]? = some (other, v) := by
  induction es generalizing i with
  | nil => cases i <;> simp [put, Ne.symm h]
  | cons e es ih =>
    obtain ⟨k, w⟩ := e
    by_cases hk : k = key
    · subst hk
      cases i <;> simp [put, Ne.symm h]
    · cases i with
      | zero => simp [put, hk]
      | succ i => simpa [put, hk] using ih

/-- What is found after insertions was inserted or was there before. -/
theorem of_get?_putAll {es : Entries α} {added : List (String × α)} {key : String} {value : α}
    (h : (es.putAll added).get? key = some value) :
    (key, value) ∈ added ∨ es.get? key = some value := by
  induction added generalizing es with
  | nil => exact .inr h
  | cons entry added ih =>
    rcases ih h with hlater | hput
    · exact .inl (List.mem_cons_of_mem entry hlater)
    · rw [get?_put] at hput
      split at hput
      · next hkey =>
        cases hput
        subst hkey
        exact .inl List.mem_cons_self
      · exact .inr hput

/-- Insertions under other keys do not change what is found. -/
theorem get?_putAll_of_forall_ne {es : Entries α} {added : List (String × α)} {key : String}
    (h : ∀ e ∈ added, e.1 ≠ key) : (es.putAll added).get? key = es.get? key := by
  induction added generalizing es with
  | nil => rfl
  | cons entry added ih =>
    obtain ⟨hentry, hadded⟩ := List.forall_mem_cons.1 h
    exact (ih hadded).trans ((get?_put ..).trans (if_neg hentry.symm))

end Entries

end SignalPipeline
