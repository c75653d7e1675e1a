import SignalPipeline.Run.StageMeta

/-!
# Scored results

What a pipeline finds out about a signal, as far as two runs can be compared: score and decision,
and where they come from.

* `NoveltyInfo.stableText`: the part of a classification that does not change from run to run.
* `PipelineOutcome`: a scored result with the execution records of its stages, if they were asked
  for.
-/

namespace SignalPipeline

/-- Whether a signal is new, or a duplicate of an earlier one. -/
structure NoveltyInfo where
  classification : String
  isDuplicate : Bool
  /-- The earlier signal. -/
  duplicateOf : Option String
  /-- When the classification was made. -/
  computedAt : Option Timestamp
  deriving Repr, DecidableEq

namespace NoveltyInfo

/-- The classification in words, without the time when it was made. -/
def stableText (n : NoveltyInfo) : String :=
  match n.duplicateOf with
  | some earlier => s!"{n.classification} (duplicate={n.isDuplicate}, of={earlier})"
  | none => s!"{n.classification} (duplicate={n.isDuplicate})"

/-- The fields of the record. -/
def fields : List Field :=
  [⟨"classification", []⟩, ⟨"isDuplicate", []⟩, ⟨"duplicateOf", []⟩, ⟨"computedAt", []⟩]

/-- Reads a classification. -/
def read : Reader NoveltyInfo := fun d => do
  let slots ← Read.record "novelty information" fields d
  pure {
    classification := ← slots.required "classification" Read.string
    isDuplicate := ← slots.defaulted "isDuplicate" Read.bool false
    duplicateOf := ← slots.optional "duplicateOf" Read.string
    computedAt := ← slots.optional "computedAt" Timestamp.read }

/-- The record of a classification. -/
def toJson (n : NoveltyInfo) : Json :=
  .object <|
    [("classification", .string n.classification), ("isDuplicate", .bool n.isDuplicate)] ++
    (n.duplicateOf.map fun s => ("duplicateOf", Json.string s)).toList ++
    (n.computedAt.map fun t => ("computedAt", t.toJson)).toList

end NoveltyInfo

/-- What a pipeline finds out about a signal. -/
structure ScoredResult where
  score : Float
  decision : String
  confidence : Float
  reasonCodes : List String
  /-- The digest of the configuration that scored the signal. -/
  configHash : Option String
  /-- The version of the logic that scored the signal. -/
  logicVersion : Option String
  novelty : Option NoveltyInfo

namespace ScoredResult

/-- The fields of the record. -/
def fields : List Field :=
  [⟨"score", []⟩, ⟨"decision", []⟩, ⟨"confidence", []⟩, ⟨"reasonCodes", []⟩,
    ⟨"configHash", []⟩, ⟨"logicVersion", []⟩, ⟨"novelty", []⟩]

/-- Reads a result from the documents of its fields. -/
def ofSlots (slots : Slots) : Except ReadError ScoredResult := do
  pure {
    score := ← slots.required "score" Read.float
    decision := ← slots.required "decision" Read.string
    confidence := ← slots.defaulted "confidence" Read.float 0
    reasonCodes := ← slots.defaulted "reasonCodes" Read.strings []
    configHash := ← slots.optional "configHash" Read.string
    logicVersion := ← slots.optional "logicVersion" Read.string
    novelty := ← slots.optional "novelty" NoveltyInfo.read }

/-- Reads a result. -/
def read : Reader ScoredResult := fun d => do
  ofSlots (← Read.record "a scored result" fields d)

/-- The members of the record. -/
def members (r : ScoredResult) : List Member :=
  [("score", .ofFloat r.score), ("decision", .string r.decision),
    ("confidence", .ofFloat r.confidence), ("reasonCodes", .ofStrings r.reasonCodes)] ++
  (r.configHash.map fun s => ("configHash", Json.string s)).toList ++
  (r.logicVersion.map fun s => ("logicVersion", Json.string s)).toList ++
  (r.novelty.map fun n => ("novelty", n.toJson)).toList

/-- The record of a result. -/
def toJson (r : ScoredResult) : Json :=
  .object r.members

end ScoredResult

/-- What a pipeline gives back. -/
structure PipelineOutcome where
  result : ScoredResult
  /-- The execution records of the stages, if they were asked for. -/
  stageSummaries : Option (List StageMeta)

namespace PipelineOutcome

/-- Reads an outcome: the members of the result and of the outcome stand in one object. -/
def read : Reader PipelineOutcome := fun d => do
  let slots ← Read.recordObject "a pipeline outcome"
    (ScoredResult.fields ++ [⟨"stageSummaries", []⟩]) d
  let result ← ScoredResult.ofSlots slots
  let stageSummaries ← slots.optional "stageSummaries" (Read.list StageMeta.read)
  pure ⟨result, stageSummaries⟩

/-- The record of an outcome. -/
def toJson (o : PipelineOutcome) : Json :=
  .object <| o.result.members ++
    (o.stageSummaries.map fun ms => ("stageSummaries", Json.array (ms.map StageMeta.toJson))).toList

end PipelineOutcome

end SignalPipeline
