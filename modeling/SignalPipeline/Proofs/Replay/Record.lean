import SignalPipeline.Proofs.Node.Record
import SignalPipeline.Replay.Snapshot

/-!
# The records of a snapshot are read back

Every field of a snapshot comes back, with one exception: a block whose value is null is written as
null and read as if it were absent.

* `NoveltyInfo.read_toJson`, `MarketInfo.read_toJson`, `ScoringRecord.read_toJson`,
  `DecisionRecord.read_toJson`: the parts of a snapshot.
* `StoredSnapshot.withoutNulls`: what is left of a snapshot.
* `StoredSnapshot.read_toJson`: the snapshot.
-/

namespace SignalPipeline

namespace NoveltyInfo

theorem unambiguous_fields : Field.Unambiguous fields :=
  ⟨by decide, by decide⟩

/-- The members of the record of a classification. -/
def members (n : NoveltyInfo) : List Member :=
  [("classification", .string n.classification), ("isDuplicate", .bool n.isDuplicate)] ++
    (n.duplicateOf.map fun s => ("duplicateOf", Json.string s)).toList ++
    (n.computedAt.map fun t => ("computedAt", t.toJson)).toList

theorem keys_members (n : NoveltyInfo) :
    (n.members.map Prod.fst).Sublist (fields.map Field.name) := by
  simp only [members, List.map_append]
  exact ((List.Sublist.refl _).append (keys_optional _ _ "duplicateOf")).append
    (keys_optional _ _ "computedAt")

/-- A classification is read back if its time is. -/
theorem read_toJson {n : NoveltyInfo} (ht : ∀ t, n.computedAt = some t → t.ReadsBack) :
    read n.toJson.toDocument = .ok n := by
  have hslots : Read.record "novelty information" fields n.toJson.toDocument =
      .ok (.written n.members) := Read.record_written _ unambiguous_fields n.keys_members
  have hclassification : (Slots.written n.members).required "classification" Read.string =
      .ok n.classification := Slots.required_written rfl rfl
  have hisDuplicate : (Slots.written n.members).defaulted "isDuplicate" Read.bool false =
      .ok n.isDuplicate := Slots.defaulted_written rfl rfl
  have hduplicateOf : (Slots.written n.members).optional "duplicateOf" Read.string =
      .ok n.duplicateOf := by
    refine Slots.optional_string_written ?_
    simp [members, List.lookup_cons, List.lookup_append, lookup_optional]
  have hcomputedAt : (Slots.written n.members).optional "computedAt" Timestamp.read =
      .ok n.computedAt := by
    refine Slots.optional_written Timestamp.toJson ?_ fun t h => ?_
    · simp [members, List.lookup_cons, List.lookup_append, lookup_optional]
    · exact congrArg (some <$> ·) (Timestamp.read_toJson (ht t h))
  rw [read, hslots]
  simp only [bind, Except.bind, hclassification, hisDuplicate, hduplicateOf, hcomputedAt]
  rfl

end NoveltyInfo

namespace MarketInfo

theorem unambiguous_fields : Field.Unambiguous fields :=
  ⟨by decide, by decide⟩

theorem keys_members (m : MarketInfo) :
    (m.members.map Prod.fst).Sublist (fields.map Field.name) := by
  simp only [members, List.map_append]
  exact (((keys_optional _ _ "symbol").append (keys_optional _ _ "timeframe")).append
    (keys_optional _ _ "strategy")).append (keys_optional _ _ "direction")

/-- What a signal is about is read back. -/
theorem read_toJson (m : MarketInfo) : read m.toJson.toDocument = .ok m := by
  have hslots : Read.record "market information" fields m.toJson.toDocument =
      .ok (.written m.members) := Read.record_written _ unambiguous_fields m.keys_members
  have hsymbol : (Slots.written m.members).optional "symbol" Read.string = .ok m.symbol :=
    Slots.optional_string_written (by simp [members, List.lookup_append, lookup_optional])
  have htimeframe : (Slots.written m.members).optional "timeframe" Read.string = .ok m.timeframe :=
    Slots.optional_string_written (by simp [members, List.lookup_append, lookup_optional])
  have hstrategy : (Slots.written m.members).optional "strategy" Read.string = .ok m.strategy :=
    Slots.optional_string_written (by simp [members, List.lookup_append, lookup_optional])
  have hdirection : (Slots.written m.members).optional "direction" Read.string = .ok m.direction :=
    Slots.optional_string_written (by simp [members, List.lookup_append, lookup_optional])
  rw [read, hslots]
  simp only [bind, Except.bind, hsymbol, htimeframe, hstrategy, hdirection]
  rfl

end MarketInfo

namespace ScoringRecord

theorem unambiguous_fields : Field.Unambiguous fields :=
  ⟨by decide, by decide⟩

/-- The members of the record of a scoring. -/
def members (r : ScoringRecord) : List Member :=
  [("score", .ofFloat r.score), ("scoredAt", r.scoredAt.toJson)] ++
    (r.configHash.map fun s => ("configHash", Json.string s)).toList ++
    (r.logicVersion.map fun s => ("logicVersion", Json.string s)).toList ++
    (r.novelty.map fun n => ("novelty", n.toJson)).toList

theorem keys_members (r : ScoringRecord) :
    (r.members.map Prod.fst).Sublist (fields.map Field.name) := by
  simp only [members, List.map_append]
  exact (((List.Sublist.refl _).append (keys_optional _ _ "configHash")).append
    (keys_optional _ _ "logicVersion")).append (keys_optional _ _ "novelty")

/-- The times of a scoring are read back. -/
structure Timed (r : ScoringRecord) : Prop where
  scored : r.scoredAt.ReadsBack
  classified : ∀ n, r.novelty = some n → ∀ t, n.computedAt = some t → t.ReadsBack

/-- A scoring is read back if its times are and its score is finite. -/
theorem read_toJson {r : ScoringRecord} (ht : r.Timed) (hscore : r.score.isFinite = true) :
    read r.toJson.toDocument = .ok r := by
  have hslots : Read.record "a scoring record" fields r.toJson.toDocument =
      .ok (.written r.members) := Read.record_written _ unambiguous_fields r.keys_members
  have hscore : (Slots.written r.members).required "score" Read.float = .ok r.score :=
    Slots.required_written rfl (Read.float_written hscore)
  have hscoredAt : (Slots.written r.members).required "scoredAt" Timestamp.read =
      .ok r.scoredAt := Slots.required_written rfl (Timestamp.read_toJson ht.scored)
  have hconfigHash : (Slots.written r.members).optional "configHash" Read.string =
      .ok r.configHash := by
    refine Slots.optional_string_written ?_
    simp [members, List.lookup_cons, List.lookup_append, lookup_optional]
  have hlogicVersion : (Slots.written r.members).optional "logicVersion" Read.string =
      .ok r.logicVersion := by
    refine Slots.optional_string_written ?_
    simp [members, List.lookup_cons, List.lookup_append, lookup_optional]
  have hnovelty : (Slots.written r.members).optional "novelty" NoveltyInfo.read =
      .ok r.novelty := by
    refine Slots.optional_written NoveltyInfo.toJson ?_ fun n hn => ?_
    · simp [members, List.lookup_cons, List.lookup_append, lookup_optional]
    · exact congrArg (some <$> ·) (NoveltyInfo.read_toJson (ht.classified n hn))
  rw [read, hslots]
  simp only [bind, Except.bind, hscore, hscoredAt, hconfigHash, hlogicVersion, hnovelty]
  rfl

end ScoringRecord

namespace DecisionRecord

theorem unambiguous_fields : Field.Unambiguous fields :=
  ⟨by decide, by decide⟩

/-- The members of the record of a decision. -/
def members (r : DecisionRecord) : List Member :=
  [("value", .string r.value), ("confidence", .ofFloat r.confidence),
    ("reasonCodes", .ofStrings r.reasonCodes)]

/-- A decision is read back if its confidence is finite. -/
theorem read_toJson {r : DecisionRecord} (hconfidence : r.confidence.isFinite = true) :
    read r.toJson.toDocument = .ok r := by
  have hslots : Read.record "a decision record" fields r.toJson.toDocument =
      .ok (.written r.members) := Read.record_written _ unambiguous_fields (.refl _)
  have hvalue : (Slots.written r.members).required "value" Read.string = .ok r.value :=
    Slots.required_written rfl rfl
  have hconfidence : (Slots.written r.members).defaulted "confidence" Read.float 0 =
      .ok r.confidence := Slots.defaulted_written rfl (Read.float_written hconfidence)
  have hreasonCodes : (Slots.written r.members).defaulted "reasonCodes" Read.strings [] =
      .ok r.reasonCodes := Slots.defaulted_written rfl (Read.list_written fun _ _ => rfl)
  rw [read, hslots]
  simp only [bind, Except.bind, hvalue, hconfidence, hreasonCodes]
  rfl

end DecisionRecord

/-! ## Blocks -/

/-- Whether a value is not null. -/
def Json.isPresent : Json → Bool
  | .null => false
  | _ => true

theorem Json.isPresent_of_ne {v : Json} (h : v ≠ .null) : v.isPresent = true := by
  cases v with
  | null => exact absurd rfl h
  | _ => rfl

theorem lookup_block (o : Option Json) (name key : String) :
    ((o.map fun v => (name, v)).toList).lookup key = if key == name then o else none :=
  (lookup_optional o id name key).trans (by rw [Option.map_id]; rfl)

/-- A block is read back unless its value is null. -/
theorem Slots.optional_block_written {ms : List Member} {key : String} {o : Option Json}
    (h : ms.lookup key = o) (hcanonical : ∀ v, o = some v → v.Canonical) :
    (written ms).optional key Read.value = .ok (o.filter Json.isPresent) := by
  rw [optional, defaulted, lookup_written, h]
  cases o with
  | none => rfl
  | some v =>
    have hread := read_canonical (hcanonical v rfl)
    show Read.optional Read.value v.toDocument = _
    cases v with
    | null => rfl
    | _ => exact congrArg (some <$> ·) hread

namespace StoredSnapshot

theorem unambiguous_fields : Field.Unambiguous fields :=
  ⟨by decide, by decide⟩

/-- The members of the record of a snapshot. -/
def members (s : StoredSnapshot) : List Member :=
  [("signalId", .string s.signalId), ("market", s.market.toJson),
      ("scoring", s.scoring.toJson), ("decision", s.decision.toJson)] ++
    (s.execution.map fun v => ("execution", v)).toList ++
    (s.rawInput.map fun v => ("rawInput", v)).toList ++
    (s.provenance.map fun v => ("provenance", v)).toList

theorem keys_members (s : StoredSnapshot) :
    (s.members.map Prod.fst).Sublist (fields.map Field.name) := by
  simp only [members, List.map_append]
  exact (((List.Sublist.refl _).append (keys_optional _ id "execution")).append
    (keys_optional _ id "rawInput")).append (keys_optional _ id "provenance")

/-- The snapshot without the blocks whose value is null. -/
def withoutNulls (s : StoredSnapshot) : StoredSnapshot :=
  { s with
    execution := s.execution.filter Json.isPresent
    rawInput := s.rawInput.filter Json.isPresent
    provenance := s.provenance.filter Json.isPresent }

/-- Snapshots as they occur: the numbers are finite and the blocks are canonical, as every value
that is built or parsed is. -/
structure Storable (s : StoredSnapshot) : Prop where
  score : s.scoring.score.isFinite = true
  confidence : s.decision.confidence.isFinite = true
  execution : ∀ v, s.execution = some v → v.Canonical
  rawInput : ∀ v, s.rawInput = some v → v.Canonical
  provenance : ∀ v, s.provenance = some v → v.Canonical

/-- A snapshot is read back, without the blocks whose value is null, if its times are. -/
theorem read_toJson {s : StoredSnapshot} (ht : s.scoring.Timed) (hs : s.Storable) :
    read s.toJson.toDocument = .ok s.withoutNulls := by
  have hslots : Read.record "a stored snapshot" fields s.toJson.toDocument =
      .ok (.written s.members) := Read.record_written _ unambiguous_fields s.keys_members
  have hsignalId : (Slots.written s.members).required "signalId" Read.string = .ok s.signalId :=
    Slots.required_written rfl rfl
  have hmarket : (Slots.written s.members).defaulted "market" MarketInfo.read .unknown =
      .ok s.market := Slots.defaulted_written rfl s.market.read_toJson
  have hscoring : (Slots.written s.members).required "scoring" ScoringRecord.read =
      .ok s.scoring := Slots.required_written rfl (ScoringRecord.read_toJson ht hs.score)
  have hdecision : (Slots.written s.members).required "decision" DecisionRecord.read =
      .ok s.decision := Slots.required_written rfl (DecisionRecord.read_toJson hs.confidence)
  have hexecution : (Slots.written s.members).optional "execution" Read.value =
      .ok (s.execution.filter Json.isPresent) := by
    refine Slots.optional_block_written ?_ hs.execution
    simp [members, List.lookup_cons, List.lookup_append, lookup_block]
  have hrawInput : (Slots.written s.members).optional "rawInput" Read.value =
      .ok (s.rawInput.filter Json.isPresent) := by
    refine Slots.optional_block_written ?_ hs.rawInput
    simp [members, List.lookup_cons, List.lookup_append, lookup_block]
  have hprovenance : (Slots.written s.members).optional "provenance" Read.value =
      .ok (s.provenance.filter Json.isPresent) := by
    refine Slots.optional_block_written ?_ hs.provenance
    simp [members, List.lookup_cons, List.lookup_append, lookup_block]
  rw [read, hslots]
  simp only [bind, Except.bind, hsignalId, hmarket, hscoring, hdecision, hexecution, hrawInput,
    hprovenance]
  rfl

end StoredSnapshot

end SignalPipeline
