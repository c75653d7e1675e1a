import SignalPipeline.Node.Provider
import SignalPipeline.Proofs.Node.Refusal

/-!
# What a run of nodes leaves behind

A run is a sequence of calls: each node of the plan is called with the state that the one before it
has left, until one fails. State, trace, events and result all tell of these calls.

* `NodeCall`, `NodeRun.Chain`: one call, and calls one after the other.
* `NodeRun.Recorded`, `NodeRun.Ending`: what the trace and the result say about calls.
* `NodeRun.runPlan_chain`: the calls of a run.
* `NodeRun.runNodes_accounted`: all that a run leaves behind, for nodes that keep the trace.
-/

namespace SignalPipeline

/-- The text of the error that an outcome carries. -/
def NodeOutcome.error? : NodeOutcome → Option String
  | failed failure => some failure.text
  | _ => none

/-- Whether a node did without a service it relies on. -/
def NodeOutcome.isUnavailable : NodeOutcome → Bool
  | unavailable _ => true
  | _ => false

/-- The event of an outcome. -/
def NodeOutcome.event (id : String) (duration : Float) : NodeOutcome → Event
  | available => .nodeCompleted id true duration
  | unavailable _ => .nodeCompleted id false duration
  | failed failure => .nodeFailed id failure.text

/-- A node that leaves the trace to the run. -/
def PipelineNode.KeepsTrace (node : PipelineNode) : Prop :=
  ∀ config s ctx, (node.execute config s ctx).state.trace = s.trace

theorem PipelineNode.computed_keepsTrace (f : PipelineState → Except Failure Json) :
    (PipelineNode.computed f).KeepsTrace := by
  intro config s ctx
  unfold PipelineNode.computed
  dsimp only
  split <;> rfl

theorem PipelineNode.ofProvider_keepsTrace (p : PredictionProvider) :
    (PipelineNode.ofProvider p).KeepsTrace := by
  intro config s ctx
  unfold PipelineNode.ofProvider
  dsimp only
  split <;> rfl

/-- One call of a node in a run. -/
structure NodeCall where
  planned : PlannedNode
  /-- The state that the node is given. -/
  given : PipelineState
  start : Timestamp
  stop : Timestamp

namespace NodeCall

/-- The call of a node of a plan in a state. -/
def ofPlanned (p : PlannedNode) (s : PipelineState) (start stop : Timestamp) : NodeCall :=
  ⟨p, { s with currentNode := some p.config.id }, start, stop⟩

/-- The id of the node. -/
def id (c : NodeCall) : String :=
  c.planned.config.id

/-- What comes of the call. -/
def effect (ctx : RunContext) (c : NodeCall) : NodeEffect :=
  c.planned.node.execute c.planned.config c.given ctx

/-- How the call went. -/
def outcome (ctx : RunContext) (c : NodeCall) : NodeOutcome :=
  (c.effect ctx).outcome

/-- The trace entry of the call. -/
def entry (ctx : RunContext) (c : NodeCall) : TraceEntry :=
  c.planned.traceEntry c.start c.stop (c.outcome ctx)

/-- The event of the call. -/
def event (ctx : RunContext) (c : NodeCall) : Event :=
  (c.outcome ctx).event c.id (c.start.elapsedMillis c.stop)

/-- The events while the call goes on: those of the node itself, then the one of the call. -/
def events (ctx : RunContext) (c : NodeCall) : List Event :=
  Journal.events (c.effect ctx).journal ++ [c.event ctx]

end NodeCall

namespace NodeRun

/-- Calls one after the other from one state to another, with the clock read so many times before:
each node is given the state that the call before it has left, as the node at work. -/
inductive Chain (clock : Clock) (ctx : RunContext) :
    Nat → PipelineState → List NodeCall → PipelineState → Prop
  | done (n : Nat) (s : PipelineState) : Chain clock ctx n s [] s
  | call (n : Nat) (s : PipelineState) (c : NodeCall) (cs : List NodeCall) (t : PipelineState)
      (given : c.given = { s with currentNode := some c.id }) (start : c.start = clock n)
      (stop : c.stop = clock (n + 1))
      (rest : Chain clock ctx (n + 2) ((c.effect ctx).state.addTrace (c.entry ctx)) cs t) :
      Chain clock ctx n s (c :: cs) t

/-- A trace entry that tells of a call. -/
structure Recorded (ctx : RunContext) (c : NodeCall) (entry : TraceEntry) : Prop where
  nodeId : entry.nodeId = c.id
  nodeType : NodeType.ofName? c.planned.config.type = some entry.nodeType
  startTime : entry.startTime = c.start
  endTime : entry.endTime = some c.stop
  duration : entry.duration = some (c.start.elapsedMillis c.stop)
  status : entry.status = (c.outcome ctx).status
  error : entry.error = (c.outcome ctx).error?

/-- How a run of a plan ends: all of it was called and has completed, or the last call is the only
one that failed. -/
inductive Ending (ctx : RunContext) (plan : NodePlan) (skipped : List String)
    (calls : List NodeCall) : Except EngineError NodeSummary → Prop
  | completed (whole : calls.map NodeCall.planned = plan)
      (all : ∀ c ∈ calls, (c.outcome ctx).isCompleted = true) :
      Ending ctx plan skipped calls (.ok ⟨calls.map NodeCall.id,
        (calls.filter fun c => (c.outcome ctx).isUnavailable).map NodeCall.id, skipped⟩)
  | failed (front : List NodeCall) (c : NodeCall) (split : calls = front ++ [c])
      (all : ∀ f ∈ front, (f.outcome ctx).isCompleted = true) (failure : Failure)
      (fails : c.outcome ctx = .failed failure) :
      Ending ctx plan skipped calls (.error (.stage c.id failure))

/-- All that a run leaves behind. -/
structure Account (clock : Clock) (ctx : RunContext) (s : PipelineState) (plan : NodePlan)
    (calls : List NodeCall) (report : NodeRunReport) : Prop where
  /-- The calls go through the plan from its front. -/
  planned : calls.map NodeCall.planned <+: plan
  /-- The last call has left the state, apart from the node at work. -/
  chain : ∃ t, Chain clock ctx 0 s calls t ∧ report.state = t.atRest
  given : ∀ c ∈ calls, c.given.currentNode = some c.id
  trace : ∃ entries, report.state.trace = s.trace ++ entries ∧
    List.Forall₂ (Recorded ctx) calls entries
  events : report.journal.events = calls.flatMap (NodeCall.events ctx)
  rest : report.state.currentNode = none
  /-- The nodes that were disabled at the start are skipped. -/
  ending : Ending ctx plan ((s.nodes.filter fun c => !c.isEnabled).map NodeConfig.id) calls
    report.result

variable {clock : Clock} {ctx : RunContext} {n : Nat} {s t : PipelineState} {plan : NodePlan}
  {calls : List NodeCall} {c : NodeCall} {skipped : List String}

/-! ## One call -/

theorem recorded_entry (h : NodeType.ofName? c.planned.config.type = some c.planned.type) :
    Recorded ctx c (c.entry ctx) := by
  unfold NodeCall.entry PlannedNode.traceEntry
  split
  · next failure hf => exact ⟨rfl, h, rfl, rfl, rfl, by rw [hf]; rfl, by rw [hf]; rfl⟩
  · next hf =>
    cases ho : c.outcome ctx with
    | available => exact ⟨rfl, h, rfl, rfl, rfl, by rw [ho]; rfl, by rw [ho]; rfl⟩
    | unavailable reason => exact ⟨rfl, h, rfl, rfl, rfl, by rw [ho]; rfl, by rw [ho]; rfl⟩
    | failed failure => exact absurd ho (hf failure)

/-- What is said about a call: what the node says, and one event. -/
theorem events_execute (p : PlannedNode) (start stop : Timestamp) :
    Journal.events (p.execute ctx start stop s).journal =
      (NodeCall.ofPlanned p s start stop).events ctx := by
  have hevent : ∀ (id : String) (duration : Float) (o : NodeOutcome),
      Journal.events (PlannedNode.spanEntry id :: PlannedNode.outcomeEntries id duration o) =
        [o.event id duration] := by
    intro id duration o
    cases o <;> rfl
  unfold PlannedNode.execute
  dsimp only
  rw [Journal.events_append, hevent]
  rfl

theorem Ending.cons {result : Except EngineError NodeSummary}
    (h : Ending ctx plan skipped calls result) (hc : (c.outcome ctx).isCompleted = true) :
    Ending ctx (c.planned :: plan) skipped (c :: calls)
      (result.map (NodeSummary.completed c.id (c.outcome ctx))) := by
  cases h with
  | completed whole all =>
    have hunavailable :
        ((c :: calls).filter fun d => (d.outcome ctx).isUnavailable).map NodeCall.id =
          (NodeSummary.completed c.id (c.outcome ctx) ⟨calls.map NodeCall.id,
            (calls.filter fun d => (d.outcome ctx).isUnavailable).map NodeCall.id,
            skipped⟩).unavailable := by
      rw [List.filter_cons]
      cases ho : c.outcome ctx <;> rfl
    have h := @Ending.completed ctx (c.planned :: plan) skipped (c :: calls)
      (congrArg (List.cons c.planned) whole) (List.forall_mem_cons.2 ⟨hc, all⟩)
    rw [hunavailable] at h
    exact h
  | failed front d split all failure fails =>
    subst split
    exact .failed (c :: front) d rfl (List.forall_mem_cons.2 ⟨hc, all⟩) failure fails

/-- The nodes that are skipped have no part in how the run ends. -/
theorem Ending.skipping {result : Except EngineError NodeSummary}
    (h : Ending ctx plan [] calls result) (skipped : List String) :
    Ending ctx plan skipped calls (result.map fun summary => { summary with skipped }) := by
  cases h with
  | completed whole all => exact .completed whole all
  | failed front c split all failure fails => exact .failed front c split all failure fails

/-! ## All calls -/

/-- The calls of a run of a plan. -/
theorem runPlan_chain (clock : Clock) (n : Nat) (ctx : RunContext) (s : PipelineState)
    (plan : NodePlan) :
    ∃ calls t, Chain clock ctx n s calls t ∧ (runPlan clock n ctx s plan).state = t.atRest ∧
      calls.map NodeCall.planned <+: plan ∧
      (runPlan clock n ctx s plan).journal.events = calls.flatMap (NodeCall.events ctx) ∧
      Ending ctx plan [] calls (runPlan clock n ctx s plan).result := by
  induction plan generalizing n s with
  | nil => exact ⟨[], s, .done n s, rfl, List.nil_prefix, rfl, .completed rfl (by simp)⟩
  | cons p ps ih =>
    let c := NodeCall.ofPlanned p s (clock n) (clock (n + 1))
    rw [runPlan]
    dsimp only
    split
    · next failure hf =>
      refine ⟨[c], _, .call n s c [] _ rfl rfl rfl (.done _ _), rfl, ?_, ?_,
        .failed [] c rfl (by simp) failure hf⟩
      · exact List.cons_prefix_cons.2 ⟨rfl, List.nil_prefix⟩
      · rw [events_execute]
        exact (List.append_nil _).symm
    · next hf =>
      obtain ⟨calls, t, hchain, hstate, hplanned, hevents, hending⟩ :=
        ih (n + 2) (p.execute ctx (clock n) (clock (n + 1)) s).state
      refine ⟨c :: calls, t, .call n s c calls t rfl rfl rfl hchain, hstate,
        List.cons_prefix_cons.2 ⟨rfl, hplanned⟩, ?_, ?_⟩
      · rw [Journal.events_append, events_execute, hevents]
        rfl
      · refine @Ending.cons ctx ps calls c [] _ hending ?_
        cases ho : c.outcome ctx with
        | failed failure => exact absurd ho (hf failure)
        | _ => rfl

/-- Nodes that keep the trace leave one entry for each call. -/
theorem Chain.trace (h : Chain clock ctx n s calls t)
    (hkeep : ∀ c ∈ calls, c.planned.node.KeepsTrace) :
    t.trace = s.trace ++ calls.map (NodeCall.entry ctx) := by
  induction h with
  | done n s => simp
  | call n s c cs t given start stop rest ih =>
    obtain ⟨hc, hcs⟩ := List.forall_mem_cons.1 hkeep
    have hstep : (c.effect ctx).state.trace = s.trace := by
      rw [NodeCall.effect, hc, given]
    rw [ih hcs, PipelineState.addTrace, hstep, List.map_cons, List.append_assoc]
    rfl

theorem Chain.given (h : Chain clock ctx n s calls t) :
    ∀ c ∈ calls, c.given.currentNode = some c.id := by
  induction h with
  | done n s => simp
  | call n s c cs t given start stop rest ih =>
    refine List.forall_mem_cons.2 ⟨?_, ih⟩
    rw [given]

/-- What a run adds to that of its plan: it says that it begins and ends, and which nodes it
skips. -/
theorem runNodes_of_ok {r : NodeRegistry} (h : NodePlan.ofConfigs r s.nodes = .ok plan) :
    (runNodes r clock ctx s).state = (runPlan clock 0 ctx s plan).state ∧
      (runNodes r clock ctx s).journal.events = (runPlan clock 0 ctx s plan).journal.events ∧
      (runNodes r clock ctx s).result = (runPlan clock 0 ctx s plan).result.map fun summary =>
        { summary with skipped := (s.nodes.filter fun c => !c.isEnabled).map NodeConfig.id } := by
  unfold runNodes
  rw [h]
  dsimp only
  cases (runPlan clock 0 ctx s plan).result with
  | error e => exact ⟨rfl, rfl, rfl⟩
  | ok summary =>
    refine ⟨rfl, ?_, rfl⟩
    dsimp only
    rw [Journal.events_append]
    exact List.append_nil _

/-- **The records of a run agree.** Where a run is not refused and its nodes keep the trace, it goes
through the plan that the declarations had at its start, up to the first node that fails; trace,
events, and result tell of the same calls, in the same order. -/
theorem runNodes_accounted (r : NodeRegistry) (clock : Clock) (ctx : RunContext)
    (s : PipelineState) (hkeep : ∀ plugin node, r.get? plugin = some node → node.KeepsTrace)
    (haccepted : ∀ e, (runNodes r clock ctx s).result ≠ .error (.configuration e)) :
    ∃ plan calls, NodePlan.Serves r s.nodes plan ∧
      Account clock ctx s plan calls (runNodes r clock ctx s) := by
  cases hplan : NodePlan.ofConfigs r s.nodes with
  | error e => exact absurd (runNodes_refused_iff.2 hplan) (haccepted e)
  | ok plan =>
    have hserves := NodePlan.ofConfigs_ok hplan
    obtain ⟨calls, t, hchain, hstate, hplanned, hevents, hending⟩ :=
      runPlan_chain clock 0 ctx s plan
    obtain ⟨hstate', hevents', hresult⟩ := @runNodes_of_ok clock ctx s plan r hplan
    have hmem : ∀ c ∈ calls, c.planned ∈ plan := fun c hc =>
      hplanned.subset (List.mem_map_of_mem hc)
    have htrace : t.trace = s.trace ++ calls.map (NodeCall.entry ctx) :=
      hchain.trace fun c hc => hkeep _ _ (hserves.node _ (hmem c hc))
    have hrecorded : List.Forall₂ (Recorded ctx) calls (calls.map (NodeCall.entry ctx)) := by
      rw [List.forall₂_map_right_iff, List.forall₂_same]
      exact fun c hc => recorded_entry (hserves.type _ (hmem c hc))
    rw [hstate] at hstate'
    refine ⟨plan, calls, hserves, hplanned, ⟨t, hchain, hstate'⟩, hchain.given,
      ⟨_, ?_, hrecorded⟩, hevents'.trans hevents, ?_, ?_⟩
    · rw [hstate']
      exact htrace
    · rw [hstate']
      rfl
    · rw [hresult]
      exact hending.skipping _

/-- Of the fixture's nodes the first disables all of them, the second does without its provider, and
the third fails. -/
theorem runNodes_accounted_fixture :
    let r : NodeRegistry :=
      [("technical-indicators", ⟨fun _ s _ =>
          ⟨.available, { s with nodes := s.nodes.map fun c => c.withEnabled false }, []⟩⟩),
        ("pattern-recognition", .ofProvider (.offline "patterns")), ("ai-ml", .failing "down")]
    let clock : Clock := fun _ => Fixture.scoredAt
    let s := Fixture.state "s" Fixture.scoredAt
    (∀ plugin node, r.get? plugin = some node → node.KeepsTrace) ∧
      (∀ e, (runNodes r clock {} s).result ≠ .error (.configuration e)) ∧
      ∃ plan calls, NodePlan.Serves r s.nodes plan ∧
        Account clock {} s plan calls (runNodes r clock {} s) := by
  intro r clock s
  have hkeep : ∀ plugin node, r.get? plugin = some node → node.KeepsTrace := by
    intro plugin node hnode
    simp only [r, Entries.get?, List.lookup_cons, List.lookup_nil] at hnode
    split at hnode
    · cases hnode
      exact fun _ _ _ => rfl
    · split at hnode
      · cases hnode
        exact PipelineNode.ofProvider_keepsTrace _
      · split at hnode
        · cases hnode
          exact PipelineNode.computed_keepsTrace _
        · cases hnode
  have hplan : (NodePlan.ofConfigs r s.nodes).isOk = true := by decide +kernel
  have haccepted : ∀ e, (runNodes r clock {} s).result ≠ .error (.configuration e) := by
    intro e he
    rw [runNodes_refused_iff.1 he] at hplan
    cases hplan
  exact ⟨hkeep, haccepted, runNodes_accounted r clock {} s hkeep haccepted⟩

end NodeRun
end SignalPipeline
