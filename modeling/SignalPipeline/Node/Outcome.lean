import SignalPipeline.Node.State
import SignalPipeline.Run.Context

/-!
# Nodes and their outcomes

A node works on the state of a signal and says how it went. A node that does without an outside
service it relies on has still completed; only a failure ends a run.

* `NodeOutcome.status`: the trace status that an outcome stands for.
* `PipelineNode.computed`: a node that stores what a function of the state gives.
-/

namespace SignalPipeline

/-- How the execution of a node went. -/
inductive NodeOutcome where
  | available
  /-- The node did without a service it relies on. -/
  | unavailable (reason : String)
  | failed (failure : Failure)

namespace NodeOutcome

/-- The trace status that an outcome stands for. -/
def status : NodeOutcome → TraceStatus
  | failed _ => .failed
  | _ => .completed

/-- Whether the node has completed. -/
def isCompleted : NodeOutcome → Bool
  | failed _ => false
  | _ => true

/-- The outcome of a task that either succeeds or fails. -/
def ofResult : Except Failure Unit → NodeOutcome
  | .ok _ => available
  | .error failure => failed failure

end NodeOutcome

/-- What comes of the execution of a node. -/
structure NodeEffect where
  outcome : NodeOutcome
  state : PipelineState
  /-- What the node itself said. -/
  journal : Journal := []

/-- A node: its execution with its declaration, the state, and the context of the run. -/
structure PipelineNode where
  execute : NodeConfig → PipelineState → RunContext → NodeEffect

namespace PipelineNode

/-- A node that stores under its id what a function gives; where that fails, so does the node. -/
def computed (f : PipelineState → Except Failure Json) : PipelineNode where
  execute config state _ :=
    match f state with
    | .ok value => ⟨.available, state.setResult config.id value, []⟩
    | .error failure => ⟨.failed failure, state, []⟩

/-- A node that stores a fixed value under its id. -/
def constant (value : Json) : PipelineNode :=
  computed fun _ => .ok value

/-- A node that always fails. -/
def failing (message : String) : PipelineNode :=
  computed fun _ => .error (.message message)

end PipelineNode

/-- Nodes by the name under which declarations ask for them. -/
abbrev NodeRegistry := Entries PipelineNode

end SignalPipeline
