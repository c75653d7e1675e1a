import SignalPipeline.Replay.ScoredResult

/-!
# Stored snapshots

What was kept of a signal when it was scored, and the input that a replay can recover from it: the
signal as it came in, if that was kept, or else what is known about its market.

* `StoredSnapshot.scoredResult`: the stored side of a comparison.
* `StoredSnapshot.input`: the input of a replay, and whether something of it is lost.
-/

namespace SignalPipeline

/-- What a signal is about. -/
structure MarketInfo where
  symbol : Option String
  timeframe : Option String
  strategy : Option String
  direction : Option String
  deriving Repr, DecidableEq

namespace MarketInfo

/-- Nothing is known. -/
def unknown : MarketInfo := ⟨none, none, none, none⟩

/-- The fields of the record. -/
def fields : List Field :=
  [⟨"symbol", []⟩, ⟨"timeframe", []⟩, ⟨"strategy", []⟩, ⟨"direction", []⟩]

/-- Reads what a signal is about. -/
def read : Reader MarketInfo := fun d => do
  let slots ← Read.record "market information" fields d
  pure {
    symbol := ← slots.optional "symbol" Read.string
    timeframe := ← slots.optional "timeframe" Read.string
    strategy := ← slots.optional "strategy" Read.string
    direction := ← slots.optional "direction" Read.string }

/-- The members that are known. -/
def members (m : MarketInfo) : List Member :=
  (m.symbol.map fun s => ("symbol", Json.string s)).toList ++
  (m.timeframe.map fun s => ("timeframe", Json.string s)).toList ++
  (m.strategy.map fun s => ("strategy", Json.string s)).toList ++
  (m.direction.map fun s => ("direction", Json.string s)).toList

/-- The record of what a signal is about. -/
def toJson (m : MarketInfo) : Json :=
  .object m.members

end MarketInfo

/-- How a signal was scored. -/
structure ScoringRecord where
  score : Float
  /-- The time to score by. -/
  scoredAt : Timestamp
  configHash : Option String
  logicVersion : Option String
  novelty : Option NoveltyInfo

namespace ScoringRecord

/-- The fields of the record. -/
def fields : List Field :=
  [⟨"score", []⟩, ⟨"scoredAt", []⟩, ⟨"configHash", []⟩, ⟨"logicVersion", []⟩, ⟨"novelty", []⟩]

/-- Reads how a signal was scored. -/
def read : Reader ScoringRecord := fun d => do
  let slots ← Read.record "a scoring record" fields d
  pure {
    score := ← slots.required "score" Read.float
    scoredAt := ← slots.required "scoredAt" Timestamp.read
    configHash := ← slots.optional "configHash" Read.string
    logicVersion := ← slots.optional "logicVersion" Read.string
    novelty := ← slots.optional "novelty" NoveltyInfo.read }

/-- The record of how a signal was scored. -/
def toJson (r : ScoringRecord) : Json :=
  .object <|
    [("score", .ofFloat r.score), ("scoredAt", r.scoredAt.toJson)] ++
    (r.configHash.map fun s => ("configHash", Json.string s)).toList ++
    (r.logicVersion.map fun s => ("logicVersion", Json.string s)).toList ++
    (r.novelty.map fun n => ("novelty", n.toJson)).toList

end ScoringRecord

/-- What was decided about a signal. -/
structure DecisionRecord where
  value : String
  confidence : Float
  reasonCodes : List String

namespace DecisionRecord

/-- The fields of the record. -/
def fields : List Field :=
  [⟨"value", []⟩, ⟨"confidence", []⟩, ⟨"reasonCodes", []⟩]

/-- Reads what was decided about a signal. -/
def read : Reader DecisionRecord := fun d => do
  let slots ← Read.record "a decision record" fields d
  pure {
    value := ← slots.required "value" Read.string
    confidence := ← slots.defaulted "confidence" Read.float 0
    reasonCodes := ← slots.defaulted "reasonCodes" Read.strings [] }

/-- The record of what was decided about a signal. -/
def toJson (r : DecisionRecord) : Json :=
  .object [("value", .string r.value), ("confidence", .ofFloat r.confidence),
    ("reasonCodes", .ofStrings r.reasonCodes)]

end DecisionRecord

/-- What was kept of a signal. -/
structure StoredSnapshot where
  signalId : String
  market : MarketInfo
  scoring : ScoringRecord
  decision : DecisionRecord
  execution : Option Json
  /-- The signal as it came in, if that was kept. -/
  rawInput : Option Json
  provenance : Option Json

/-- The input of a replay. -/
structure ReplayInput where
  payload : Json
  /-- Whether the payload is rebuilt from what is known about the signal. -/
  lossy : Bool
  notes : List String

/-- The record of an input. -/
def ReplayInput.toJson (i : ReplayInput) : Json :=
  .object [("payload", i.payload), ("lossy", .bool i.lossy), ("notes", .ofStrings i.notes)]

namespace StoredSnapshot

/-- The fields of the record. -/
def fields : List Field :=
  [⟨"signalId", []⟩, ⟨"market", []⟩, ⟨"scoring", []⟩, ⟨"decision", []⟩, ⟨"execution", []⟩,
    ⟨"rawInput", []⟩, ⟨"provenance", []⟩]

/-- Reads a snapshot. -/
def read : Reader StoredSnapshot := fun d => do
  let slots ← Read.record "a stored snapshot" fields d
  pure {
    signalId := ← slots.required "signalId" Read.string
    market := ← slots.defaulted "market" MarketInfo.read .unknown
    scoring := ← slots.required "scoring" ScoringRecord.read
    decision := ← slots.required "decision" DecisionRecord.read
    execution := ← slots.optional "execution" Read.value
    rawInput := ← slots.optional "rawInput" Read.value
    provenance := ← slots.optional "provenance" Read.value }

/-- The record of a snapshot. -/
def toJson (s : StoredSnapshot) : Json :=
  .object <|
    [("signalId", .string s.signalId), ("market", s.market.toJson),
      ("scoring", s.scoring.toJson), ("decision", s.decision.toJson)] ++
    (s.execution.map fun v => ("execution", v)).toList ++
    (s.rawInput.map fun v => ("rawInput", v)).toList ++
    (s.provenance.map fun v => ("provenance", v)).toList

/-- The stored side of a comparison. -/
def scoredResult (s : StoredSnapshot) : ScoredResult where
  score := s.scoring.score
  decision := s.decision.value
  confidence := s.decision.confidence
  reasonCodes := s.decision.reasonCodes
  configHash := s.scoring.configHash
  logicVersion := s.scoring.logicVersion
  novelty := s.scoring.novelty

/-- The note on an input that was kept. -/
def verbatimNote : String := "replayed from verbatim raw input"

/-- The note on an input that was rebuilt. -/
def lossyNote : String :=
  "raw input was not retained; input rebuilt from structured fields and free-text fields are " ++
    "not recoverable"

/-- The input of a replay: the signal as it came in, or else what is known about its market. -/
def input (s : StoredSnapshot) : ReplayInput :=
  match s.rawInput with
  | some raw => ⟨raw, false, [verbatimNote]⟩
  | none => ⟨.ofMembers s.market.members, true, [lossyNote]⟩

end StoredSnapshot

end SignalPipeline
