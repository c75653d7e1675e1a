import SignalPipeline.Time.Text

/-!
# Execution records of stages

What is kept of a stage that ran: its dependencies, whether it succeeded, and when it ran.

* `StageMeta.read`, `StageMeta.toJson`: the record in documents.
-/

namespace SignalPipeline

/-- Whether a stage succeeded. -/
inductive StageStatus where
  | success
  | failed
  deriving Repr, DecidableEq

namespace StageStatus

/-- The name of a status. -/
def name : StageStatus → String
  | success => "success"
  | failed => "failed"

/-- The status with a name. -/
def ofName? : String → Option StageStatus
  | "success" => some success
  | "failed" => some failed
  | _ => none

/-- Reads a status. -/
def read : Reader StageStatus := Read.oneOf "a stage status" ofName?

end StageStatus

/-- The execution record of a stage. The duration is in milliseconds. -/
structure StageMeta where
  id : String
  dependsOn : List String
  status : StageStatus
  duration : Float
  startedAt : Timestamp
  endedAt : Timestamp

namespace StageMeta

/-- Whether a stage took no negative time. -/
def isTimed (m : StageMeta) : Bool :=
  m.duration ≥ 0 && !m.endedAt.before m.startedAt

/-- The fields of the record. -/
def fields : List Field :=
  [⟨"id", []⟩, ⟨"dependsOn", []⟩, ⟨"status", []⟩, ⟨"durationMs", []⟩, ⟨"startedAt", []⟩,
    ⟨"endedAt", []⟩]

/-- Reads an execution record. -/
def read : Reader StageMeta := fun d => do
  let slots ← Read.record "an execution record" fields d
  pure {
    id := ← slots.required "id" Read.string
    dependsOn := ← slots.required "dependsOn" Read.strings
    status := ← slots.required "status" StageStatus.read
    duration := ← slots.required "durationMs" Read.float
    startedAt := ← slots.required "startedAt" Timestamp.read
    endedAt := ← slots.required "endedAt" Timestamp.read }

/-- The record in a document. -/
def toJson (m : StageMeta) : Json :=
  .object [("id", .string m.id), ("dependsOn", .ofStrings m.dependsOn),
    ("status", .string m.status.name), ("durationMs", .ofFloat m.duration),
    ("startedAt", m.startedAt.toJson), ("endedAt", m.endedAt.toJson)]

end StageMeta

end SignalPipeline
