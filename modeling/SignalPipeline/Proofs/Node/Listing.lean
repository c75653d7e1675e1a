import SignalPipeline.Node.State
import SignalPipeline.Proofs.Entries.Insertion
import SignalPipeline.Proofs.Json.Record

/-!
# Enrichment results as a document lists them

Results are inserted one by one, or read from a document, where they are listed as pairs. Insertions
keep the keys distinct. Reading takes every list of pairs as it stands, one in which a key is listed
twice included, and no later insertion puts that right: look-ups then find the first of the pairs
only, and there are more results than keys.

* `Enrichment.read_eq_ok_iff`: the lists that are read.
* `Enrichment.Obtained`: results from a document or from none, and insertions.
* `Enrichment.obtained_isMap_iff`: such results are a map if the document lists no key twice.
* `Enrichment.read_admits_repeated`: a list that is read although it has a key twice.
-/

namespace SignalPipeline

/-! ## Lists of pairs -/

/-- The items of a list are read one by one. -/
theorem Read.list_eq_ok_iff {α : Type} {read : Reader α} {items : List Document} {as : List α} :
    Read.list read (.array items) = .ok as ↔ List.Forall₂ (fun d a => read d = .ok a) items as := by
  change items.mapM read = .ok as ↔ _
  induction items generalizing as with
  | nil =>
    rw [List.mapM_nil, List.forall₂_nil_left_iff]
    exact ⟨fun h => by cases h; rfl, fun h => by rw [h]; rfl⟩
  | cons d ds ih =>
    rw [List.mapM_cons, except_bind_eq_ok]
    simp only [except_bind_eq_ok, ih]
    constructor
    · rintro ⟨a, ha, bs, hbs, h⟩
      cases h
      exact .cons ha hbs
    · rintro (_ | ⟨ha, hbs⟩)
      exact ⟨_, ha, _, hbs, rfl⟩

namespace Enrichment

variable {d : Document} {results origin : Enrichment}

/-- A document that lists results: an array with an array of a key and a value for each, in
order. -/
def Listed (d : Document) (results : Enrichment) : Prop :=
  ∃ items, d = .array items ∧ List.Forall₂
    (fun item result => ∃ v, item = .array [.string result.1, v] ∧ v.value? = some result.2)
    items results

theorem readString_eq_ok_iff {s : String} : Read.string d = .ok s ↔ d = .string s := by
  constructor
  · intro h
    cases d with
    | string t =>
      cases h
      rfl
    | _ => cases h
  · rintro rfl
    rfl

theorem readValue_eq_ok_iff {v : Json} : Read.value d = .ok v ↔ d.value? = some v := by
  unfold Read.value
  cases d.value? with
  | none => exact ⟨nofun, nofun⟩
  | some w => exact ⟨fun h => by cases h; rfl, fun h => by cases h; rfl⟩

theorem readPair_eq_ok_iff {result : String × Json} :
    Read.pair Read.string Read.value d = .ok result ↔
      ∃ v, d = .array [.string result.1, v] ∧ v.value? = some result.2 := by
  constructor
  · intro h
    unfold Read.pair at h
    split at h
    · next v =>
      obtain ⟨key, hkey, h⟩ := except_bind_eq_ok.1 h
      obtain ⟨value, hvalue, h⟩ := except_bind_eq_ok.1 h
      cases h
      exact ⟨v, by rw [readString_eq_ok_iff.1 hkey], readValue_eq_ok_iff.1 hvalue⟩
    · cases h
    · exact absurd h (Read.mismatch_ne_ok _ _ _)
  · rintro ⟨v, rfl, hv⟩
    exact except_bind_eq_ok.2 ⟨result.1, rfl, except_bind_eq_ok.2
      ⟨result.2, readValue_eq_ok_iff.2 hv, rfl⟩⟩

/-- Exactly the lists of pairs are read, each pair as it stands. -/
theorem read_eq_ok_iff : Enrichment.read d = .ok results ↔ Listed d results := by
  constructor
  · intro h
    cases d with
    | array items =>
      refine ⟨items, rfl, (Read.list_eq_ok_iff.1 h).imp fun item result hitem => ?_⟩
      exact readPair_eq_ok_iff.1 hitem
    | _ => cases h
  · rintro ⟨items, rfl, h⟩
    exact Read.list_eq_ok_iff.2 (h.imp fun item result hitem => readPair_eq_ok_iff.2 hitem)

/-! ## How results come about -/

/-- Results that begin as those of no document, of a document or of a checkpoint, and to which
others were added one by one. -/
inductive Obtained : Enrichment → Enrichment → Prop where
  | new : Obtained [] []
  | decoded {d : Document} {results : Enrichment} (read : Enrichment.read d = .ok results) :
    Obtained results results
  | restored {checkpoint : String} {s : PipelineState}
    (read : PipelineState.ofText? checkpoint = some s) : Obtained s.results s.results
  | inserted {origin results : Enrichment} (obtained : Obtained origin results) (key : String)
    (value : Json) : Obtained origin (results.put key value)

/-- Whether a key is repeated is decided in the beginning. -/
theorem Obtained.nodup_iff (h : Obtained origin results) :
    results.keys.Nodup ↔ origin.keys.Nodup := by
  induction h with
  | new => rfl
  | decoded => rfl
  | restored => rfl
  | inserted _ key value ih => exact Entries.nodup_keys_put.trans ih

end Enrichment

/-! ## Checkpoints -/

namespace PipelineState

/-- The results that a checkpoint shows: those that its record lists, or none where it has no
list. -/
def Shows (checkpoint : String) (results : Enrichment) : Prop :=
  ∃ d slots, Document.parse? checkpoint = some d ∧
    Read.record "a pipeline state" fields d = .ok slots ∧
      ((slots.lookup "enrichmentResults" = none ∧ results = []) ∨
        ∃ listing, slots.lookup "enrichmentResults" = some listing ∧
          Enrichment.Listed listing results)

variable {checkpoint : String} {s : PipelineState}

theorem results_of_read {d : Document} (h : read d = .ok s) :
    ∃ slots, Read.record "a pipeline state" fields d = .ok slots ∧
      slots.defaulted "enrichmentResults" Enrichment.read [] = .ok s.results := by
  obtain ⟨slots, hslots, h⟩ := except_bind_eq_ok.1 h
  obtain ⟨_, -, h⟩ := except_bind_eq_ok.1 h
  obtain ⟨_, -, h⟩ := except_bind_eq_ok.1 h
  obtain ⟨results, hresults, h⟩ := except_bind_eq_ok.1 h
  obtain ⟨_, -, h⟩ := except_bind_eq_ok.1 h
  obtain ⟨_, -, h⟩ := except_bind_eq_ok.1 h
  obtain ⟨⟨_, _⟩, -, h⟩ := except_bind_eq_ok.1 h
  cases h
  exact ⟨slots, hslots, hresults⟩

/-- A state that is taken up again has the results that its checkpoint shows. -/
theorem shows_of_ofText? (h : ofText? checkpoint = some s) : Shows checkpoint s.results := by
  obtain ⟨d, hd, hread⟩ := Option.bind_eq_some_iff.1 h
  have hok : read d = .ok s := by
    cases hr : read d with
    | error e =>
      rw [hr] at hread
      cases hread
    | ok t =>
      rw [hr] at hread
      cases hread
      rfl
  obtain ⟨slots, hslots, hresults⟩ := results_of_read hok
  refine ⟨d, slots, hd, hslots, ?_⟩
  unfold Slots.defaulted at hresults
  split at hresults
  · next listing hlisting =>
    exact .inr ⟨listing, hlisting, Enrichment.read_eq_ok_iff.1 hresults⟩
  · next hnone =>
    exact .inl ⟨hnone, (Except.ok.inj hresults).symm⟩

end PipelineState

namespace Enrichment

/-- **Results are a map unless a document lists a key twice.** Results that come from nothing, from
a document or from a checkpoint and then by insertions are a map exactly if there was no key twice
in the beginning, and only then are there as many of them as keys. In the beginning they are what
the document lists, pair by pair, and no list of pairs is refused; of a checkpoint it is the list in
its record. -/
theorem obtained_isMap_iff (origin results : Enrichment) (h : Obtained origin results) :
    (results.IsMap ↔ origin.keys.Nodup) ∧
      (results.length = {key | (results.get? key).isSome}.ncard ↔ origin.keys.Nodup) ∧
      (∀ d, Enrichment.read d = .ok origin ↔ Listed d origin) ∧
      ∀ checkpoint s, PipelineState.ofText? checkpoint = some s → s.results = origin →
        PipelineState.Shows checkpoint origin := by
  refine ⟨?_, ?_, fun d => read_eq_ok_iff, fun checkpoint s hs horigin => ?_⟩
  · rw [Entries.isMap_iff, h.nodup_iff]
  · rw [Entries.length_eq_ncard_iff, h.nodup_iff]
  · subst horigin
    exact PipelineState.shows_of_ofText? hs

/-- Two results are read, one is replaced and one is added: three results, and a map. -/
theorem obtained_isMap_iff_inserted :
    let origin : Enrichment := [("ta", .bool false), ("ml", .null)]
    let results : Enrichment := [("ta", .bool true), ("ml", .null), ("news", .null)]
    Obtained origin results ∧ origin.keys.Nodup ∧ results.IsMap ∧
      results.length = {key | (results.get? key).isSome}.ncard := by
  intro origin results
  have hread : Enrichment.read (.array [.array [.string "ta", .bool false],
      .array [.string "ml", .null]]) = .ok origin := rfl
  have hobtained : Obtained origin results :=
    ((Obtained.decoded hread).inserted "ta" (.bool true)).inserted "news" .null
  have hdistinct : origin.keys.Nodup := by decide
  obtain ⟨hmap, hcounted, -⟩ := obtained_isMap_iff origin results hobtained
  exact ⟨hobtained, hdistinct, hmap.2 hdistinct, hcounted.2 hdistinct⟩

/-- A list with a key twice is read. The second pair is among the results, but a look-up finds the
first, and there are more results than keys. -/
theorem read_admits_repeated :
    let results : Enrichment := [("ta", .bool false), ("ta", .bool true)]
    Enrichment.read (.array [.array [.string "ta", .bool false],
        .array [.string "ta", .bool true]]) = .ok results ∧
      ¬ results.keys.Nodup ∧ ("ta", .bool true) ∈ results ∧
      results.get? "ta" = some (.bool false) ∧
      results.length ≠ {key | (results.get? key).isSome}.ncard := by
  intro results
  have hrepeated : ¬ results.keys.Nodup := by decide
  exact ⟨rfl, hrepeated, by simp [results], rfl, mt Entries.length_eq_ncard_iff.1 hrepeated⟩

end Enrichment
end SignalPipeline
