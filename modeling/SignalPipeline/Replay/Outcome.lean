import SignalPipeline.Replay.Comparison

/-!
# Outcomes of replays

A replay either finds that nothing was stored for a signal, or gives the stored and the recomputed
result with their comparison.

* `ReplayOutcome.toJson`: the record of an outcome.
-/

namespace SignalPipeline

/-- The circumstances of a replay. -/
structure ReplayMeta where
  ranAt : Timestamp
  pipelineVersion : String
  /-- Whether the input was rebuilt. -/
  lossyInput : Bool
  notes : List String

/-- The record of the circumstances. -/
def ReplayMeta.toJson (m : ReplayMeta) : Json :=
  .object [("ranAt", m.ranAt.toJson), ("pipelineVersion", .string m.pipelineVersion),
    ("lossyInput", .bool m.lossyInput), ("notes", .ofStrings m.notes)]

/-- A completed replay. -/
structure ReplayResult where
  signalId : String
  stored : ScoredResult
  recomputed : ScoredResult
  comparison : Comparison
  replayMeta : ReplayMeta
  /-- The execution records of the recomputation, if they were asked for. -/
  stageSummaries : Option (List StageMeta)

/-- What comes of a replay. -/
inductive ReplayOutcome where
  | replayed (result : ReplayResult)
  /-- Nothing is stored for the signal. -/
  | notFound (signalId : String)

namespace ReplayOutcome

/-- The completed replay, if there is one. -/
def result? : ReplayOutcome → Option ReplayResult
  | replayed r => some r
  | notFound _ => none

/-- Whether nothing is stored for the signal. -/
def isNotFound : ReplayOutcome → Bool
  | replayed _ => false
  | notFound _ => true

/-- The record of an outcome. -/
def toJson : ReplayOutcome → Json
  | replayed r =>
    .object <|
      [("status", .string "replayed"), ("signalId", .string r.signalId),
        ("stored", r.stored.toJson), ("recomputed", r.recomputed.toJson),
        ("comparison", r.comparison.toJson), ("replayMeta", r.replayMeta.toJson)] ++
      (r.stageSummaries.map fun ms =>
        ("stageSummaries", Json.array (ms.map StageMeta.toJson))).toList
  | notFound id => .object [("status", .string "not_found"), ("signalId", .string id)]

end ReplayOutcome

end SignalPipeline
