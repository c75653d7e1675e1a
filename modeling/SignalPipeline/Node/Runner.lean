import SignalPipeline.Node.Order
import SignalPipeline.Node.Outcome

/-!
# Runs of nodes

The nodes of a state run one at a time, in their order, on that state. Before the first one runs,
every declaration is checked and every node of the plan is found in the registry; from then on the
plan does not change, whatever the nodes do to the state. A failure ends the run.

The clock is given as a sequence of readings: each node takes two, at its start and at its end.

* `NodePlan.ofConfigs`: the plan of a list of declarations, or the first fault.
* `runNodes`: a run, with the state it leaves and its journal.
-/

namespace SignalPipeline

/-- A node of a plan. -/
structure PlannedNode where
  config : NodeConfig
  type : NodeType
  node : PipelineNode

/-- The nodes to run, in order. -/
abbrev NodePlan := List PlannedNode

namespace NodePlan

/-- The types of declarations that are well formed and whose ids are distinct and not yet seen. -/
def checkConfigs (seen : List String) :
    List NodeConfig → Except ConfigurationError (List (NodeConfig × NodeType))
  | [] => .ok []
  | c :: cs => do
    let type ← c.check
    if seen.contains c.id then throw (.invalidValue c.id "id" "duplicate")
    let rest ← checkConfigs (c.id :: seen) cs
    pure ((c, type) :: rest)

/-- A declaration with the node that serves it. -/
def locate (r : NodeRegistry) (c : NodeConfig) (type : NodeType) :
    Except ConfigurationError PlannedNode :=
  match r.get? c.plugin with
  | some node => .ok ⟨c, type, node⟩
  | none => .error (.unregisteredNodePlugin c.id c.plugin)

/-- The plan of a list of declarations, or the first fault. -/
def ofConfigs (r : NodeRegistry) (configs : List NodeConfig) :
    Except ConfigurationError NodePlan := do
  let checked ← checkConfigs [] configs
  let order ← executionOrder configs
  let declared := order.filterMap fun id => checked.find? fun (c, _) => c.id == id
  declared.mapM fun (c, type) => locate r c type

end NodePlan

/-- The ids of a run of nodes. -/
structure NodeSummary where
  /-- Nodes that have completed, in order. -/
  executed : List String
  /-- Nodes that have completed without a service they rely on. -/
  unavailable : List String
  /-- Disabled nodes, in declared order. -/
  skipped : List String
  deriving Repr, DecidableEq

namespace NodeSummary

/-- The record of a summary. -/
def toJson (s : NodeSummary) : Json :=
  .object [("executed", .ofStrings s.executed), ("unavailable", .ofStrings s.unavailable),
    ("skipped", .ofStrings s.skipped)]

/-- The summary with one more node in front. -/
def completed (id : String) (outcome : NodeOutcome) (s : NodeSummary) : NodeSummary :=
  { s with
    executed := id :: s.executed
    unavailable := (match outcome with
      | .unavailable _ => [id]
      | _ => []) ++ s.unavailable }

end NodeSummary

/-- A run of nodes as seen from outside. -/
structure NodeRunReport where
  result : Except EngineError NodeSummary
  state : PipelineState
  journal : Journal

/-- The readings of a clock, in order. -/
abbrev Clock := Nat → Timestamp

namespace PlannedNode

/-- What is said after every execution. -/
def spanEntry (id : String) : JournalEntry :=
  Journal.record .trace "Span finished" [("span_name", .string id)]

/-- What is said about the outcome of a node. -/
def outcomeEntries (id : String) (duration : Float) : NodeOutcome → Journal
  | .available => [.event (.nodeCompleted id true duration)]
  | .unavailable reason =>
    [Journal.record .warn "Node completed without its provider"
        [("node", .string id), ("reason", .string reason)],
      .event (.nodeCompleted id false duration)]
  | .failed failure =>
    [Journal.record .error "Node failed" [("node", .string id), ("error", .string failure.text)],
      .event (.nodeFailed id failure.text)]

/-- The trace entry of an execution. -/
def traceEntry (p : PlannedNode) (start stop : Timestamp) : NodeOutcome → TraceEntry
  | .failed failure =>
    (TraceEntry.startedAt p.config.id p.type start).failedAt stop failure.text
  | _ => (TraceEntry.startedAt p.config.id p.type start).completedAt stop

/-- The execution of a node, with its trace entry. The duration of its event is that of the trace
entry, between two readings of one clock; a program may measure it with a clock of its own. -/
def execute (p : PlannedNode) (ctx : RunContext) (start stop : Timestamp) (s : PipelineState) :
    NodeEffect :=
  let effect := p.node.execute p.config { s with currentNode := some p.config.id } ctx
  { effect with
    state := effect.state.addTrace (p.traceEntry start stop effect.outcome)
    journal := effect.journal ++ spanEntry p.config.id ::
      outcomeEntries p.config.id (start.elapsedMillis stop) effect.outcome }

end PlannedNode

namespace PipelineState

/-- The state between runs. -/
def atRest (s : PipelineState) : PipelineState :=
  { s with currentNode := none }

end PipelineState

/-- What is said at the start of a run. -/
def startEntry (signalId : String) (nodes skipped : Nat) : JournalEntry :=
  Journal.record .debug "Running pipeline nodes"
    [("signal_id", .string signalId), ("nodes", .ofNat nodes), ("skipped", .ofNat skipped)]

/-- What is said at the end of a successful run. -/
def endEntry (signalId : String) (summary : NodeSummary) : JournalEntry :=
  Journal.record .info "Pipeline nodes completed"
    [("signal_id", .string signalId), ("executed", .ofNat summary.executed.length),
      ("unavailable", .ofNat summary.unavailable.length)]

/-- Runs the nodes of a plan, with the clock read so many times before. -/
def runPlan (clock : Clock) (readings : Nat) (ctx : RunContext) (s : PipelineState) :
    NodePlan → NodeRunReport
  | [] => ⟨.ok ⟨[], [], []⟩, s.atRest, []⟩
  | p :: ps =>
    let effect := p.execute ctx (clock readings) (clock (readings + 1)) s
    match effect.outcome with
    | .failed failure =>
      ⟨.error (.stage p.config.id failure), effect.state.atRest, effect.journal⟩
    | outcome =>
      let rest := runPlan clock (readings + 2) ctx effect.state ps
      ⟨rest.result.map (NodeSummary.completed p.config.id outcome), rest.state,
        effect.journal ++ rest.journal⟩

/-- Runs the nodes of a state on it. -/
def runNodes (r : NodeRegistry) (clock : Clock) (ctx : RunContext) (s : PipelineState) :
    NodeRunReport :=
  match NodePlan.ofConfigs r s.nodes with
  | .error e => ⟨.error (.configuration e), s, []⟩
  | .ok plan =>
    let skipped := (s.nodes.filter fun c => !c.isEnabled).map NodeConfig.id
    let run := runPlan clock 0 ctx s plan
    let start := startEntry s.signalId plan.length skipped.length
    match run.result with
    | .error e => ⟨.error e, run.state, start :: run.journal⟩
    | .ok summary =>
      ⟨.ok { summary with skipped := skipped }, run.state,
        start :: run.journal ++ [endEntry run.state.signalId summary]⟩

end SignalPipeline
