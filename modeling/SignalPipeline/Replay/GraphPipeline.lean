import SignalPipeline.Replay.Comparator

/-!
# Pipelines of stages

An executor as a pipeline: the final payload of its run is read as a scored result.

* `Pipeline.ofExecutor`: the pipeline of an executor.
-/

namespace SignalPipeline

namespace RunOptions

/-- The name under which handlers see whether execution records were asked for. -/
def summariesKey : String := "includeStageSummaries"

/-- The context of a run under given options. -/
def context (o : RunOptions) (sink : EventSink) : RunContext where
  signalId := o.signalId
  isDemo := o.isDemo
  scoringTime := o.scoringTime
  metadata := [(summariesKey, .bool o.includeStageSummaries)]
  sink := sink

end RunOptions

/-- The outcome of a run, if its payload is a scored result. -/
def PipelineOutcome.ofRun (o : RunOptions) (out : RunOutput) : Except Failure PipelineOutcome :=
  match ScoredResult.read.value out.payload with
  | .ok result => .ok ⟨result, if o.includeStageSummaries then some out.stageMeta else none⟩
  | .error e => .error (.decoding e)

/-- The pipeline of an executor. -/
def Pipeline.ofExecutor (e : Executor) (schedule : Schedule) (start : Timestamp)
    (sink : EventSink) : Pipeline where
  run input o :=
    let run := e.run schedule start input (o.context sink)
    ⟨match run.result with
      | .ok out => PipelineOutcome.ofRun o out
      | .error e => .error (.engine e), run.journal⟩

end SignalPipeline
