import Mathlib.Data.Finset.Card
import Mathlib.Data.Set.Card
import SignalPipeline.Entries
import SignalPipeline.Graph.Repetition
import SignalPipeline.Json.MemberLemmas

/-!
# Entries are a map that keeps the order of insertion

Entries with distinct keys stay such entries under every insertion. After any number of insertions a
look-up finds what was inserted last, and the keys stand in the order in which they first came up.
The order of the keys and the last values are all there is to know about entries.

* `Entries.IsMap`: what distinct keys amount to for listing, looking up and counting.
* `Entries.nodup_keys_putAll`: insertions neither make nor mend a repeated key.
* `Entries.get?_putAll_iff`, `Entries.keys_putAll`: look-ups and keys after insertions.
* `Entries.insertion_ordered`: all of this, and when two sequences of insertions give the same.
-/

namespace SignalPipeline

namespace Entries

variable {α : Type} {es es' start added before after : Entries α} {key : String} {value : α}

/-! ## Distinct keys -/

/-- Entries that are a map: no key is repeated, they list what a look-up finds, and there are as
many of them as keys. -/
structure IsMap (es : Entries α) : Prop where
  distinct : es.keys.Nodup
  listed : ∀ key value, (key, value) ∈ es ↔ es.get? key = some value
  counted : es.length = {key | (es.get? key).isSome}.ncard

theorem get?_eq_none_iff : es.get? key = none ↔ key ∉ es.keys := by
  rw [get?, List.lookup_eq_none_iff, keys, List.mem_map]
  simp only [bne_iff_ne, not_exists, not_and]
  exact forall₂_congr fun _ _ => ne_comm

theorem isSome_get?_iff : (es.get? key).isSome ↔ key ∈ es.keys := by
  rw [Option.isSome_iff_ne_none, ne_eq, get?_eq_none_iff, not_not]

theorem length_keys (es : Entries α) : es.keys.length = es.length :=
  List.length_map _

/-- There are as many entries as keys exactly if no key is repeated. -/
theorem length_eq_ncard_iff :
    es.length = {key | (es.get? key).isSome}.ncard ↔ es.keys.Nodup := by
  have hkeys : {key | (es.get? key).isSome} = (es.keys.toFinset : Set String) := by
    ext key
    rw [Set.mem_ofPred_eq, isSome_get?_iff, List.coe_toFinset, Set.mem_ofPred_eq]
  rw [hkeys, Set.ncard_coe_finset, ← length_keys, eq_comm]
  exact Multiset.toFinset_card_eq_card_iff_nodup

/-- Entries are a map if no key is repeated. -/
theorem isMap_iff : es.IsMap ↔ es.keys.Nodup :=
  ⟨IsMap.distinct, fun h =>
    ⟨h, fun _ _ => ⟨lookup_eq_some_of_mem h, mem_of_lookup⟩, length_eq_ncard_iff.2 h⟩⟩

/-- Entries with distinct keys are known by their keys and by what a look-up finds. -/
theorem eq_of_get? (h : es.keys.Nodup) (hkeys : es.keys = es'.keys)
    (hget : ∀ key, es.get? key = es'.get? key) : es = es' := by
  induction es generalizing es' with
  | nil => exact (List.map_eq_nil_iff.1 hkeys.symm).symm
  | cons e es ih =>
    obtain ⟨k, v⟩ := e
    match es' with
    | [] => cases hkeys
    | (k', v') :: es' =>
      obtain ⟨rfl, hrest⟩ := List.cons_eq_cons.1 hkeys
      obtain ⟨hfresh, hdistinct⟩ := List.nodup_cons.1 h
      have hv : v = v' := by simpa [get?] using hget k
      subst hv
      rw [ih hdistinct hrest fun key => ?_]
      by_cases hk : key = k
      · -- neither rest has the key
        subst hk
        have hfresh' : key ∉ keys es' := fun hkey => hfresh (hrest ▸ hkey)
        rw [get?_eq_none_iff.2 hfresh, get?_eq_none_iff.2 hfresh']
      · have hne : (key == k) = false := beq_false_of_ne hk
        simpa [get?, List.lookup_cons, hne] using hget key

/-! ## One insertion after the other -/

theorem nodup_keys_put : (es.put key value).keys.Nodup ↔ es.keys.Nodup := by
  rw [keys_put]
  split
  · rfl
  · next h => rw [← List.concat_eq_append, List.nodup_concat, and_iff_right h]

/-- Insertions neither make nor mend a repeated key. -/
theorem nodup_keys_putAll : (es.putAll added).keys.Nodup ↔ es.keys.Nodup := by
  induction added generalizing es with
  | nil => rfl
  | cons e added ih => exact ih.trans nodup_keys_put

/-- The keys of entries in order, behind them the new keys in the order of their first insertion. -/
def keyOrder (start added : Entries α) : List String :=
  start.keys ++ (firstOccurrences added.keys).filter (· ∉ start.keys)

theorem keys_putAll : (start.putAll added).keys = keyOrder start added := by
  induction added generalizing start with
  | nil => simp [putAll, keyOrder, firstOccurrences, keys]
  | cons e added ih =>
    obtain ⟨key, value⟩ := e
    have hstep : (start.putAll ((key, value) :: added)).keys =
        keyOrder (start.put key value) added := ih
    have hcons : firstOccurrences (keys ((key, value) :: added)) =
        key :: (firstOccurrences (keys added)).filter (· != key) := rfl
    rw [hstep, keyOrder, keyOrder, keys_put, hcons]
    by_cases h : key ∈ start.keys
    · -- an old key is not among the new ones
      rw [if_pos h, List.filter_cons_of_neg (by simpa using h), List.filter_filter]
      congr 1
      refine List.filter_congr fun k _ => ?_
      by_cases hk : k = key
      · simp [hk, h]
      · simp [hk]
    · rw [if_neg h, List.filter_cons_of_pos (by simpa using h), List.filter_filter,
        List.append_assoc, List.singleton_append]
      congr 2
      refine List.filter_congr fun k _ => ?_
      rw [Bool.eq_iff_iff]
      simp

/-- The value that was last inserted under a key, or that it had before if none was. -/
inductive Latest (start added : Entries α) (key : String) (value : α) : Prop where
  | inserted (before after : Entries α) (split : added = before ++ (key, value) :: after)
    (last : key ∉ after.keys)
  | kept (listed : (key, value) ∈ start) (never : key ∉ added.keys)

theorem get?_putAll_of_not_mem (h : key ∉ added.keys) :
    (start.putAll added).get? key = start.get? key :=
  get?_putAll_of_forall_ne fun _ he hkey => h (hkey ▸ List.mem_map_of_mem he)

/-- Of several values that were inserted under a key the last is found. -/
theorem get?_putAll_of_last (h : key ∉ after.keys) :
    (start.putAll (before ++ (key, value) :: after)).get? key = some value := by
  rw [putAll, List.foldl_append, List.foldl_cons]
  refine (get?_putAll_of_not_mem h).trans ?_
  rw [get?_put, if_pos rfl]

/-- A key that was inserted was inserted once for the last time. -/
theorem exists_last (h : key ∈ added.keys) :
    ∃ (before : Entries α) (value : α) (after : Entries α),
      added = before ++ (key, value) :: after ∧ key ∉ after.keys := by
  induction added with
  | nil => cases h
  | cons e added ih =>
    by_cases hlater : key ∈ keys added
    · obtain ⟨before, value, after, rfl, hlast⟩ := ih hlater
      exact ⟨e :: before, value, after, rfl, hlast⟩
    · obtain ⟨k, value⟩ := e
      rcases List.mem_cons.1 h with rfl | h
      · exact ⟨[], value, added, rfl, hlater⟩
      · exact absurd h hlater

theorem get?_putAll_iff (h : start.keys.Nodup) :
    (start.putAll added).get? key = some value ↔ Latest start added key value := by
  constructor
  · intro hget
    by_cases hkey : key ∈ added.keys
    · obtain ⟨before, value', after, rfl, hlast⟩ := exists_last hkey
      cases (get?_putAll_of_last hlast).symm.trans hget
      exact .inserted before after rfl hlast
    · rw [get?_putAll_of_not_mem hkey] at hget
      exact .kept (mem_of_lookup hget) hkey
  · rintro (⟨before, after, rfl, hlast⟩ | ⟨hlisted, hnever⟩)
    · exact get?_putAll_of_last hlast
    · rw [get?_putAll_of_not_mem hnever]
      exact lookup_eq_some_of_mem h hlisted

/-! ## What insertions amount to -/

theorem mem_keyOrder : key ∈ keyOrder start added ↔ key ∈ start.keys ∨ key ∈ added.keys := by
  rw [keyOrder, List.mem_append, List.mem_filter, mem_firstOccurrences, decide_eq_true_iff]
  tauto

/-- There are as many entries as different keys. -/
theorem length_putAll (h : start.keys.Nodup) :
    (start.putAll added).length = (start.keys ++ added.keys).toFinset.card := by
  have hkeys : (start.keys ++ added.keys).toFinset = (start.putAll added).keys.toFinset := by
    ext key
    rw [List.mem_toFinset, List.mem_toFinset, keys_putAll, mem_keyOrder, List.mem_append]
  rw [hkeys, List.toFinset_card_of_nodup (nodup_keys_putAll.2 h), length_keys]

/-- Entries are the same after two sequences of insertions if these give the same order of keys and
the same last values. -/
theorem putAll_eq_iff {start' added' : Entries α} (h : start.keys.Nodup) (h' : start'.keys.Nodup) :
    start.putAll added = start'.putAll added' ↔
      keyOrder start added = keyOrder start' added' ∧
        ∀ key value, Latest start added key value ↔ Latest start' added' key value := by
  constructor
  · intro heq
    refine ⟨?_, fun key value => ?_⟩
    · rw [← keys_putAll, heq, keys_putAll]
    · rw [← get?_putAll_iff h, heq, get?_putAll_iff h']
  · rintro ⟨hkeys, hlatest⟩
    refine eq_of_get? (nodup_keys_putAll.2 h) ?_ fun key => ?_
    · rw [keys_putAll, hkeys, keys_putAll]
    · refine Option.ext fun value => ?_
      rw [get?_putAll_iff h, hlatest, get?_putAll_iff h']

/-- **Entries keep the order of insertion.** After any insertions into entries with distinct keys a
look-up finds the value that was last inserted under a key, or the one that stood there if none was,
or nothing. The keys are those that stood there, in their order, and behind them the new ones in the
order of their first insertion, each once, and there are as many entries as different keys. Two
sequences of insertions give the same entries, order included, exactly if they give the same order
of keys and the same last values. -/
theorem insertion_ordered (start added : Entries α) (h : start.keys.Nodup) :
    (∀ key value, (start.putAll added).get? key = some value ↔ Latest start added key value) ∧
      (∀ key, (start.putAll added).get? key = none ↔ key ∉ start.keys ∧ key ∉ added.keys) ∧
      (start.putAll added).keys = start.keys ++
        (firstOccurrences added.keys).filter (· ∉ start.keys) ∧
      (start.putAll added).keys.Nodup ∧
      (start.putAll added).length = (start.keys ++ added.keys).toFinset.card ∧
      ∀ start' added' : Entries α, start'.keys.Nodup →
        (start.putAll added = start'.putAll added' ↔
          keyOrder start added = keyOrder start' added' ∧
            ∀ key value, Latest start added key value ↔ Latest start' added' key value) := by
  refine ⟨fun key value => get?_putAll_iff h, fun key => ?_, keys_putAll, nodup_keys_putAll.2 h,
    length_putAll h, fun start' added' h' => putAll_eq_iff h h'⟩
  rw [get?_eq_none_iff, keys_putAll, mem_keyOrder, not_or]

/-- Behind two old keys two new ones come up, one of them twice, and an old key gets another value;
insertions in another order give the same. -/
theorem insertion_ordered_mixed :
    let start : Entries Nat := [("ta", 1), ("ml", 2)]
    let added : Entries Nat := [("news", 3), ("ta", 4), ("news", 5), ("risk", 6)]
    let added' : Entries Nat := [("ta", 7), ("news", 5), ("risk", 6), ("ta", 4)]
    start.keys.Nodup ∧ (start.putAll added).keys = ["ta", "ml", "news", "risk"] ∧
      (start.putAll added).get? "ta" = some 4 ∧ (start.putAll added).get? "ml" = some 2 ∧
      (start.putAll added).length = 4 ∧
      keyOrder start added = keyOrder start added' ∧
      ∀ key value, Latest start added key value ↔ Latest start added' key value := by
  intro start added added'
  have hdistinct : start.keys.Nodup := by decide
  obtain ⟨hget, -, hkeys, -, hlength, heq⟩ := insertion_ordered start added hdistinct
  refine ⟨hdistinct, hkeys.trans (by decide), (hget "ta" 4).2 ?_, (hget "ml" 2).2 ?_,
    hlength.trans (by decide), (heq start added' hdistinct).1 rfl⟩
  · exact .inserted [("news", 3)] [("news", 5), ("risk", 6)] rfl (by decide)
  · exact .kept (by decide) (by decide)

end Entries
end SignalPipeline
