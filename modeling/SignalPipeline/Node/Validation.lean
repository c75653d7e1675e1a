import SignalPipeline.Node.State

/-!
# Validation of states

A state breaks a rule if its signal id is blank, if a running execution has an end, or if the
executions are not in the order of their starts. Everything else that looks odd is a warning and
never refuses a state.

* `PipelineState.violations`, `PipelineState.warnings`: what is found, in order.
* `PipelineState.validate`: the warnings of a state that breaks no rule.
-/

namespace SignalPipeline

/-- A rule that a state breaks. Positions are those of the trace. -/
inductive StateViolation where
  | blankSignalId
  /-- A running execution has an end time or a duration. -/
  | runningWithEnd (position : Nat) (node : String)
  /-- An execution starts before the one in front of it. -/
  | startsBefore (position : Nat) (node earlier : String)
  deriving Repr, DecidableEq

/-- The violation in words. -/
def StateViolation.text : StateViolation → String
  | blankSignalId => "signalId must not be empty"
  | runningWithEnd i node => s!"trace[{i}] node '{node}' is running but carries endTime/durationMs"
  | startsBefore i node earlier =>
    s!"trace[{i}] node '{node}' starts before trace[{i - 1}] node '{earlier}'"

/-- Something about a state that looks odd. -/
inductive StateWarning where
  | longSignalId (length limit : Nat)
  /-- An execution that is over has no end time or no duration. -/
  | finishedWithoutEnd (position : Nat) (node : String) (status : TraceStatus)
  /-- A result belongs to no execution. -/
  | untracedResult (key : String)
  deriving Repr, DecidableEq

/-- The warning in words. -/
def StateWarning.text : StateWarning → String
  | longSignalId length limit => s!"signalId is {length} characters, above the {limit} limit"
  | finishedWithoutEnd i node status =>
    s!"trace[{i}] node '{node}' is {status.name} but is missing endTime/durationMs"
  | untracedResult key => s!"enrichment result '{key}' has no trace entry"

/-- What is said about a state that breaks no rule. -/
structure ValidationReport where
  warnings : List StateWarning
  /-- The number of executions that were checked. -/
  traceEntries : Nat
  deriving Repr, DecidableEq

/-- Whether there is no warning. -/
def ValidationReport.isClean (r : ValidationReport) : Bool :=
  r.warnings.isEmpty

namespace TraceEntry

/-- The violation of a running execution that has an end. -/
def violation? (position : Nat) (e : TraceEntry) : Option StateViolation :=
  if e.status = .running ∧ (e.endTime.isSome || e.duration.isSome) then
    some (.runningWithEnd position e.nodeId)
  else none

/-- The warning about an execution that is over but has no end. -/
def warning? (position : Nat) (e : TraceEntry) : Option StateWarning :=
  if e.isFinished && (e.endTime.isNone || e.duration.isNone) then
    some (.finishedWithoutEnd position e.nodeId e.status)
  else none

/-- The violations of neighbours that are not in the order of their starts, from a position on. -/
def disorder (position : Nat) : List TraceEntry → List StateViolation
  | a :: b :: es =>
    (if b.startTime.before a.startTime then [.startsBefore (position + 1) b.nodeId a.nodeId]
      else []) ++ disorder (position + 1) (b :: es)
  | _ => []

end TraceEntry

namespace PipelineState

/-- The length above which a signal id draws a warning. -/
def defaultIdLimit : Nat := 255

/-- The character in front of keys that are not named after a node. -/
def bookkeepingMark : Char := '_'

/-- Whether a key is not named after a node. -/
def isBookkeeping (key : String) : Bool :=
  key.toList.head? == some bookkeepingMark

/-- What a function finds at the positions of the trace. -/
def findings {α : Type} (s : PipelineState) (find : Nat → TraceEntry → Option α) : List α :=
  s.trace.zipIdx.filterMap fun (e, i) => find i e

/-- The rules that a state breaks. -/
def violations (s : PipelineState) : List StateViolation :=
  (if Text.isBlankText s.signalId then [.blankSignalId] else []) ++
    s.findings TraceEntry.violation? ++ TraceEntry.disorder 0 s.trace

/-- The keys of results that belong to no execution. -/
def untracedKeys (s : PipelineState) : List String :=
  s.results.keys.filter fun key =>
    !isBookkeeping key && !(s.trace.any fun e => e.nodeId == key)

/-- What looks odd about a state. -/
def warnings (limit : Nat) (s : PipelineState) : List StateWarning :=
  (if limit < s.signalId.length && !Text.isBlankText s.signalId then
      [.longSignalId s.signalId.length limit] else []) ++
    s.findings TraceEntry.warning? ++ s.untracedKeys.map .untracedResult

/-- The warnings of a state that breaks no rule, or else every rule it breaks. -/
def validate (s : PipelineState) (limit : Nat := defaultIdLimit) :
    Except InvariantError ValidationReport :=
  if s.violations.isEmpty then .ok ⟨s.warnings limit, s.trace.length⟩
  else .error ⟨s.violations.map StateViolation.text⟩

end PipelineState

end SignalPipeline
