import SignalPipeline.Node.Config
import SignalPipeline.Time.Text

/-!
# Trace entries

The record of one execution of a node: when it started, and, once it has finished, when it ended,
how long it took, and what went wrong.

* `TraceEntry.startedAt`, `TraceEntry.completedAt`, `TraceEntry.failedAt`: an entry in the course
  of an execution.
* `TraceEntry.read`, `TraceEntry.toJson`: the record in documents.
-/

namespace SignalPipeline

/-- How far an execution has come. -/
inductive TraceStatus where
  | pending
  | running
  | completed
  | failed
  deriving Repr, DecidableEq

namespace TraceStatus

instance : Inhabited TraceStatus := ⟨.pending⟩

/-- The name of a status. -/
def name : TraceStatus → String
  | pending => "pending"
  | running => "running"
  | completed => "completed"
  | failed => "failed"

/-- The status with a name. -/
def ofName? : String → Option TraceStatus
  | "pending" => some pending
  | "running" => some running
  | "completed" => some completed
  | "failed" => some failed
  | _ => none

/-- Reads a status. -/
def read : Reader TraceStatus := Read.oneOf "a trace status" ofName?

theorem ofName?_name (s : TraceStatus) : ofName? s.name = some s := by
  cases s <;> rfl

/-- Whether an execution is over. -/
def isFinished : TraceStatus → Bool
  | completed => true
  | failed => true
  | _ => false

end TraceStatus

/-- The record of one execution of a node. The duration is in milliseconds. -/
structure TraceEntry where
  nodeId : String
  nodeType : NodeType
  startTime : Timestamp
  endTime : Option Timestamp
  duration : Option Float
  status : TraceStatus
  error : Option String
  deriving BEq

namespace TraceEntry

/-- An execution that has begun. -/
def startedAt (nodeId : String) (nodeType : NodeType) (start : Timestamp) : TraceEntry :=
  ⟨nodeId, nodeType, start, none, none, .running, none⟩

/-- An execution that has come to an end. -/
def finish (e : TraceEntry) (stop : Timestamp) (status : TraceStatus) : TraceEntry :=
  { e with
    endTime := some stop
    duration := some (e.startTime.elapsedMillis stop)
    status := status }

/-- An execution that was successful. -/
def completedAt (e : TraceEntry) (stop : Timestamp) : TraceEntry :=
  e.finish stop .completed

/-- An execution that failed. -/
def failedAt (e : TraceEntry) (stop : Timestamp) (error : String) : TraceEntry :=
  { e.finish stop .failed with error := some error }

/-- Whether an execution is over. -/
def isFinished (e : TraceEntry) : Bool :=
  e.status.isFinished

/-- Whether an execution is over and took no negative time. -/
def isTimed (e : TraceEntry) : Bool :=
  e.isFinished && e.endTime.any (fun stop => !stop.before e.startTime) &&
    e.duration.any fun x => x ≥ 0

/-- The fields of the record. -/
def fields : List Field :=
  [⟨"nodeId", []⟩, ⟨"nodeType", []⟩, ⟨"startTime", []⟩, ⟨"endTime", []⟩, ⟨"durationMs", []⟩,
    ⟨"status", []⟩, ⟨"error", []⟩]

/-- Reads an entry. -/
def read : Reader TraceEntry := fun d => do
  let slots ← Read.record "a trace entry" fields d
  pure {
    nodeId := ← slots.required "nodeId" Read.string
    nodeType := ← slots.required "nodeType" NodeType.read
    startTime := ← slots.required "startTime" Timestamp.read
    endTime := ← slots.optional "endTime" Timestamp.read
    duration := ← slots.optional "durationMs" Read.float
    status := ← slots.required "status" TraceStatus.read
    error := ← slots.optional "error" Read.string }

/-- The record of an entry; what is not known is left out. -/
def toJson (e : TraceEntry) : Json :=
  .object <|
    [("nodeId", .string e.nodeId), ("nodeType", .string e.nodeType.name),
      ("startTime", e.startTime.toJson)] ++
    (e.endTime.map fun t => ("endTime", t.toJson)).toList ++
    (e.duration.map fun x => ("durationMs", Json.ofFloat x)).toList ++
    [("status", .string e.status.name)] ++
    (e.error.map fun s => ("error", Json.string s)).toList

end TraceEntry

end SignalPipeline
