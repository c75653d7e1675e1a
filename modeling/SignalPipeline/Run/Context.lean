import SignalPipeline.Entries
import SignalPipeline.Run.Journal
import SignalPipeline.Time.Timestamp

/-!
# Run contexts

What every handler of one run can see: the signal, whether the run is a demonstration, the time to
score by, and further values by name. A context does not change while the run goes on.

* `RunId`: ids that ascend with time.
* `RunContext.effectiveTime`: the time to score by.
-/

namespace SignalPipeline

/-- A 128-bit id of a run. -/
structure RunId where
  value : Nat
  deriving Repr, DecidableEq

namespace RunId

/-- The version of ids that start with the time. -/
def timeOrdered : Nat := 7

/-- An id from a time in milliseconds since 1970 and from random bits: 48 bits of time, the
version, twelve random bits, the two bits of the variant, and 62 random bits. -/
def ofTime (millis randomHigh randomLow : Nat) : RunId :=
  ⟨(millis % 0x1000000000000) <<< 80 + timeOrdered <<< 76 + (randomHigh % 0x1000) <<< 64 +
    2 <<< 62 + randomLow % 0x4000000000000000⟩

/-- The version of an id. -/
def version (id : RunId) : Nat :=
  id.value >>> 76 % 16

end RunId

/-- What the handlers of a run can see. -/
structure RunContext where
  runId : RunId := .ofTime 0 0 0
  signalId : Option String := none
  isDemo : Bool := false
  /-- The time to score by, where it is not the present. -/
  scoringTime : Option Timestamp := none
  metadata : Entries Json := []
  sink : EventSink := .discard

namespace RunContext

/-- The time to score by: the pinned one, or else the present. -/
def effectiveTime (ctx : RunContext) (now : Timestamp) : Timestamp :=
  ctx.scoringTime.getD now

/-- The context with one more value. -/
def withMetadata (ctx : RunContext) (key : String) (value : Json) : RunContext :=
  { ctx with metadata := ctx.metadata.put key value }

/-- A value by name. -/
def metadata? (ctx : RunContext) (key : String) : Option Json :=
  ctx.metadata.get? key

end RunContext

end SignalPipeline
