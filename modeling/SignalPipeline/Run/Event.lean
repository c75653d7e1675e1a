import SignalPipeline.Json.Basic

/-!
# Lifecycle events

What a run reports while it goes on: stages that start, complete or fail, nodes that complete or
fail, and the end of the run.

* `Event.name`: the dotted name of an event.
* `Event.data`: the details of an event as a JSON object.
-/

namespace SignalPipeline

/-- An event of a run. Durations are in milliseconds. -/
inductive Event where
  | stageStarted (stage : String)
  | stageCompleted (stage : String) (duration : Float)
  | stageFailed (stage error : String) (duration : Float)
  /-- A node finished; the flag says whether its provider answered. -/
  | nodeCompleted (node : String) (available : Bool) (duration : Float)
  | nodeFailed (node error : String)
  | runCompleted (stages : Nat) (duration : Float)
  /-- A run broke off, at a stage if one is known. -/
  | runFailed (stage : Option String) (error : String)

namespace Event

/-- The dotted name of an event. -/
def name : Event → String
  | stageStarted _ => "stage.started"
  | stageCompleted _ _ => "stage.completed"
  | stageFailed _ _ _ => "stage.failed"
  | nodeCompleted _ _ _ => "node.completed"
  | nodeFailed _ _ => "node.failed"
  | runCompleted _ _ => "pipeline.completed"
  | runFailed _ _ => "pipeline.failed"

/-- The details of an event. -/
def data : Event → Json
  | stageStarted stage => .ofMembers [("stage", .string stage)]
  | stageCompleted stage duration =>
    .ofMembers [("stage", .string stage), ("duration_ms", .ofFloat duration)]
  | stageFailed stage error duration =>
    .ofMembers [("stage", .string stage), ("error", .string error),
      ("duration_ms", .ofFloat duration)]
  | nodeCompleted node available duration =>
    .ofMembers [("node", .string node), ("service_available", .bool available),
      ("duration_ms", .ofFloat duration)]
  | nodeFailed node error => .ofMembers [("node", .string node), ("error", .string error)]
  | runCompleted stages duration =>
    .ofMembers [("stages", .ofNat stages), ("duration_ms", .ofFloat duration)]
  | runFailed stage error =>
    .ofMembers [("stage", .ofString? stage), ("error", .string error)]

end Event

end SignalPipeline
