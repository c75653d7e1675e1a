import SignalPipeline.Replay.Outcome

/-!
# Reports of replays

The outcome of a replay as lines for people. Texts of the data stand in the lines as they are.

* `ReplayOutcome.report`: the report of an outcome.
-/

namespace SignalPipeline

/-- Score, decision and confidence of a result. -/
def ScoredResult.reportText (r : ScoredResult) : String :=
  s!"score {fixed 4 r.score}, decision {r.decision} ({fixed 4 r.confidence})"

namespace ReplayMeta

/-- The lines on the circumstances of a replay. -/
def reportLines (m : ReplayMeta) : List String :=
  [s!"  ran at {m.ranAt.millisText} with pipeline {m.pipelineVersion}"] ++
  (if m.lossyInput then
    ["  WARNING: lossy input, results may differ for that reason alone"] else []) ++
  m.notes.map fun note => s!"  note: {note}"

end ReplayMeta

/-- The line on a stage. -/
def StageMeta.reportLine (m : StageMeta) : String :=
  s!"  {m.id} [{m.status.name}] {fixed 1 m.duration}ms"

namespace ReplayResult

/-- The last word of a report. -/
def verdict (r : ReplayResult) : String :=
  if r.comparison.hasChanges then "DRIFT DETECTED" else "NO DRIFT"

/-- The lines of a report, without their line ends. -/
def reportLines (r : ReplayResult) : List String :=
  [s!"Replay of signal {r.signalId}"] ++ r.replayMeta.reportLines ++
  [s!"  stored:     {r.stored.reportText}", s!"  recomputed: {r.recomputed.reportText}",
    "Comparison:"] ++
  (r.comparison.lines.map fun line => s!"  - {line}") ++
  (match r.stageSummaries with
    | some stages => "Stages:" :: stages.map StageMeta.reportLine
    | none => []) ++
  [s!"Result: {r.verdict}"]

end ReplayResult

/-- Lines with their line ends. -/
def textOfLines (lines : List String) : String :=
  String.join (lines.map fun line => line ++ "\n")

/-- The report of an outcome. -/
def ReplayOutcome.report : ReplayOutcome → String
  | replayed r => textOfLines r.reportLines
  | notFound id => textOfLines [s!"Signal {id} not found; nothing to replay."]

end SignalPipeline
