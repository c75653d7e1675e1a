import SignalPipeline.Engine.Settings
import SignalPipeline.Replay.Outcome
import SignalPipeline.Replay.Store

/-!
# Replays

A comparator runs a pipeline once more on the input of a stored signal, under the signal's own id
and at the time at which it was scored, and compares what comes out with what was stored. It reads
from the store and never writes.

* `Comparator.replay`: the replay of one signal.
* `Pipeline`: what a comparator can run.
-/

namespace SignalPipeline

/-- How a pipeline is to run. -/
structure RunOptions where
  /-- Whether the outcome shall have the execution records of the stages. -/
  includeStageSummaries : Bool := false
  isDemo : Bool := false
  signalId : Option String := none
  /-- The time to score by, where it is not the present. -/
  scoringTime : Option Timestamp := none
  deriving Repr, DecidableEq

/-- The record of options. -/
def RunOptions.toJson (o : RunOptions) : Json :=
  .object [("includeStageSummaries", .bool o.includeStageSummaries), ("isDemo", .bool o.isDemo),
    ("signalId", .ofString? o.signalId),
    ("scoringTime", o.scoringTime.elim .null Timestamp.toJson)]

/-- A run of a pipeline as seen from outside. -/
structure PipelineReport where
  result : Except Failure PipelineOutcome
  journal : Journal

/-- Something that can be run on an input. -/
structure Pipeline where
  run : Json → RunOptions → PipelineReport

namespace Pipeline

/-- A pipeline with one outcome for everything. -/
def constant (o : PipelineOutcome) : Pipeline :=
  ⟨fun _ _ => ⟨.ok o, []⟩⟩

/-- A pipeline that always fails. -/
def failing (f : Failure) : Pipeline :=
  ⟨fun _ _ => ⟨.error f, []⟩⟩

end Pipeline

/-- A replay as seen from outside. -/
structure ReplayReport where
  result : Except EngineError ReplayOutcome
  journal : Journal
  /-- What the pipeline was run on, if it was run. -/
  request : Option (Json × RunOptions)

/-- What replays signals. -/
structure Comparator where
  pipeline : Pipeline
  store : Option SignalStore := none
  epsilon : Float := defaultEpsilon
  pipelineVersion : String := ({} : EngineSettings).pipelineVersion
  includeStageSummaries : Bool := false

namespace Comparator

/-- The comparator under the tolerance and the version of the settings. -/
def configured (c : Comparator) (s : EngineSettings) : Comparator :=
  { c with epsilon := s.scoreEpsilon, pipelineVersion := s.pipelineVersion }

/-- The snapshot of a signal. A store that is missing or out of reach is a fault of the
configuration. -/
def lookup (c : Comparator) (id : String) : Except EngineError (Option StoredSnapshot) :=
  match c.store with
  | none => .error (.configuration (.missingCollaborator ConfigurationError.storeName))
  | some store =>
    match store.find? id with
    | .ok found => .ok found
    | .error (.unavailable reason) => .error (.configuration (.storeUnavailable reason))
    | .error e => .error (.store e)

/-- The error of a replay whose pipeline failed: the engine's own error, if that is the cause. -/
def recomputationError (f : Failure) : EngineError :=
  f.engine?.getD (.stage "replay" f)

/-- The options under which the pipeline runs on a snapshot. -/
def options (c : Comparator) (s : StoredSnapshot) : RunOptions where
  includeStageSummaries := c.includeStageSummaries
  isDemo := false
  signalId := some s.signalId
  scoringTime := some s.scoring.scoredAt

/-- The result of a replay, from the outcome of the pipeline. -/
def resultOf (c : Comparator) (now : Timestamp) (s : StoredSnapshot) (o : PipelineOutcome) :
    ReplayResult where
  signalId := s.signalId
  stored := s.scoredResult
  recomputed := o.result
  comparison := .ofResults s.scoredResult o.result c.epsilon
  replayMeta := ⟨now, c.pipelineVersion, s.input.lossy, s.input.notes⟩
  stageSummaries := o.stageSummaries

/-! ## What a replay says -/

/-- What is said when nothing is stored. -/
def notFoundEntry (id : String) : JournalEntry :=
  Journal.record .info "No stored snapshot to replay" [("signal_id", .string id)]

/-- What is said of an input that was rebuilt. -/
def inputEntries (id : String) (i : ReplayInput) : Journal :=
  if i.lossy then
    [Journal.record .warn "Replaying from a lossy reconstructed input" [("signal_id", .string id)]]
  else []

/-- What is said at the end of a replay. -/
def comparedEntry (id : String) (c : Comparison) : JournalEntry :=
  Journal.record .info "Replay compared"
    [("signal_id", .string id), ("delta", .ofFloat c.delta),
      ("decision_changed", .bool c.decisionChanged), ("changed", .bool c.hasChanges)]

/-! ## Replays -/

/-- Runs the pipeline on a snapshot and compares. -/
def replaySnapshot (c : Comparator) (now : Timestamp) (id : String) (s : StoredSnapshot) :
    ReplayReport :=
  let request := (s.input.payload, c.options s)
  let run := c.pipeline.run request.1 request.2
  let before := inputEntries id s.input ++ run.journal
  match run.result with
  | .error f => ⟨.error (recomputationError f), before, some request⟩
  | .ok o =>
    let r := c.resultOf now s o
    ⟨.ok (.replayed r), before ++ [comparedEntry id r.comparison], some request⟩

/-- The replay of one signal at a time. -/
def replay (c : Comparator) (now : Timestamp) (id : String) : ReplayReport :=
  match c.lookup id with
  | .error e => ⟨.error e, [], none⟩
  | .ok none => ⟨.ok (.notFound id), [notFoundEntry id], none⟩
  | .ok (some s) => c.replaySnapshot now id s

end Comparator

end SignalPipeline
