import SignalPipeline.Node.State
import SignalPipeline.Replay.Snapshot
import SignalPipeline.Run.Handler

/-!
# Fixtures

A stored snapshot, the outcome that repeats it, a state with a small enrichment pipeline, and a
small list of stages: data for trying out replays, runs of nodes and runs of stages.

* `Fixture.snapshot`, `Fixture.outcome`: a stored signal and the run that gives the same result.
* `Fixture.state`, `Fixture.underway`: a state with three nodes, and one in the middle of its run.
* `Fixture.diamond`, `Fixture.knot`: a stage whose two parents have a parent in common, and a cycle
  of stages.
* `Fixture.intake`: two stages whose handlers give the outcome.
-/

namespace SignalPipeline.Fixture

/-- The digest of the scoring configuration. -/
def configHash : String := "5f2b1c0e9d8a7b6c5d4e3f2a1b0c9d8e7f6a5b4c3d2e1f0a9b8c7d6e5f4a3b2c"

/-- The version of the scoring logic. -/
def logicVersion : String := "scoring-v3"

/-- Ten o'clock on the first of April 2024. -/
def scoredAt : Timestamp :=
  .onHour ⟨2024, 4, 1⟩ 10

/-- The snapshot of a signal that came in as text. -/
def snapshot (signalId : String) : StoredSnapshot where
  signalId := signalId
  market := ⟨some "BTCUSDT", some "4h", some "breakout", some "long"⟩
  scoring := {
    score := 72.5
    scoredAt := scoredAt
    configHash := some configHash
    logicVersion := some logicVersion
    novelty := some ⟨"novel", false, none, some scoredAt⟩ }
  decision := ⟨"take", 0.81, ["TREND_UP", "VOLUME_SPIKE"]⟩
  execution := some (.ofMembers [("status", .string "filled")])
  rawInput := some (.ofMembers [("symbol", .string "BTCUSDT"), ("timeframe", .string "4h"),
    ("text", .string "BTC 4h breakout, going long above 64k")])
  provenance := some (.ofMembers [("source", .string "webhook")])

/-- The outcome of a run that gives what the snapshot holds. -/
def outcome : PipelineOutcome :=
  ⟨(snapshot "fixture").scoredResult, none⟩

/-- A state with three nodes, each after the one in front of it. -/
def state (signalId : String) (startTime : Timestamp) : PipelineState :=
  .fresh signalId
    (.ofMembers [("symbol", .string "ETHUSDT"), ("text", .string "ETH reclaiming range high")])
    [.ofType "ta" .required "technical-indicators",
      (NodeConfig.ofType "patterns" .enrichment "pattern-recognition").addDependency "ta",
      (NodeConfig.ofType "ml" .enrichment "ai-ml").addDependency "patterns"]
    startTime

/-- A state whose first node has finished and whose second one, which does not say whether it is
enabled, is at work. -/
def underway : PipelineState where
  signalId := "sig-1"
  rawSignal := .ofMembers [("symbol", .string "ETHUSDT"), ("price", .number (.integer 3120)),
    ("text", .string "ETH \"reclaiming\"\nrange high")]
  results := [("ta", .ofMembers [("rsi", .ofFloat 61.5), ("trend", .string "up")]),
    ("_normalized", .bool true)]
  nodes := [.ofType "ta" .required "technical-indicators",
    ⟨"patterns", "enrichment", "pattern-recognition", true, none, ["ta"]⟩]
  currentNode := some "patterns"
  startTime := scoredAt
  trace := [⟨"ta", .required, scoredAt, some ⟨1711965600, 12500000⟩, some 12.5, .completed, none⟩,
    .startedAt "patterns" .enrichment ⟨1711965601, 0⟩]

/-- A source, two stages that depend on it, and one that joins them; some dependencies are declared
twice. -/
def diamond : List StageDefinition :=
  [.internal "source",
    (StageDefinition.internal "left").withDependencies ["source", "source"],
    (StageDefinition.internal "right").withDependencies ["source"],
    (StageDefinition.internal "join").withDependencies ["right", "left", "right"]]

/-- A source and three stages that wait for each other, one of them also for the source. -/
def knot : List StageDefinition :=
  [.internal "source",
    (StageDefinition.internal "x").withDependencies ["source", "z", "source"],
    (StageDefinition.internal "y").withDependencies ["x"],
    (StageDefinition.internal "z").withDependencies ["y"]]

/-- Handlers for the diamond that all give a payload. -/
def relays : Binding :=
  [("source", .echo), ("left", Handler.echo.taking 30), ("right", .constant (.string "r")),
    ("join", .echo)]

/-- Handlers for the diamond of which one fails and one breaks off. -/
def faulty : Binding :=
  [("source", .echo), ("left", .failing "left is down"), ("right", ⟨fun _ _ => .panic "boom", 5⟩),
    ("join", .echo)]

/-- A stage that takes a signal in, and one that scores it. -/
def intake : List StageDefinition :=
  [.internal "ingest", (StageDefinition.internal "score").withDependencies ["ingest"]]

/-- The outcome as a payload. -/
def scored : Json :=
  .ofMembers [("score", .ofFloat 72.5), ("decision", .string "take"),
    ("confidence", .ofFloat 0.81), ("reasonCodes", .ofStrings ["TREND_UP", "VOLUME_SPIKE"]),
    ("configHash", .string configHash), ("logicVersion", .string logicVersion),
    ("novelty", .ofMembers [("classification", .string "novel"), ("isDuplicate", .bool false),
      ("computedAt", scoredAt.toJson)])]

/-- Handlers that give the outcome for every signal that is scored at its time. -/
def scorers : Binding :=
  [("ingest", .echo),
    ("score", ⟨fun _ ctx =>
      if ctx.scoringTime = some scoredAt then .payload scored
      else .failure (.message "scored at another time"), 0⟩)]

end SignalPipeline.Fixture
