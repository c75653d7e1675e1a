import SignalPipeline.Node.Validation
import SignalPipeline.Proofs.Node.Account

/-!
# Runs of nodes leave valid states

A run closes the trace entry of every node that it calls, the one that fails included, and the
nodes that come with the engine store nothing but a result under their own id. So a run on a fresh
state leaves one that breaks no rule and draws no warning, wherever the run stops.

* `PipelineState.Tidy`: states in which the validation finds nothing but their signal id, if that.
* `PipelineState.Tidy.addTrace`: a closed execution keeps a state tidy.
* `PipelineNode.Standard`, `PipelineNode.ActsStandard`: the nodes that come with the engine.
* `NodeRun.Chain.tidy`: calls of such nodes keep a state tidy, with a clock that never goes back.
* `NodeRun.runNodes_validates`: the validation of what a run leaves.
-/

namespace SignalPipeline

/-! ## The order of time -/

/-- What is not before is not before anything earlier either. -/
theorem Timestamp.not_before_trans {a b c : Timestamp} (hab : b.before a = false)
    (hbc : c.before b = false) : c.before a = false := by
  simp only [before, Bool.or_eq_false_iff, Bool.and_eq_false_iff, decide_eq_false_iff_not,
    beq_eq_false_iff_ne] at hab hbc ⊢
  omega

/-- A clock that never goes back. -/
def Clock.Steady (clock : Clock) : Prop :=
  ∀ n, (clock (n + 1)).before (clock n) = false

theorem Clock.Steady.not_before {clock : Clock} (h : clock.Steady) (n k : Nat) :
    (clock (n + k)).before (clock n) = false := by
  induction k with
  | zero => simp [Timestamp.before]
  | succ k ih => exact Timestamp.not_before_trans ih (h (n + k))

/-! ## Tidy states -/

namespace TraceEntry

/-- An execution that is over, with its end and its duration. -/
structure Closed (e : TraceEntry) : Prop where
  finished : e.isFinished = true
  ended : e.endTime.isSome = true
  timed : e.duration.isSome = true

variable {e : TraceEntry}

theorem Closed.violation? (h : e.Closed) (position : Nat) : e.violation? position = none := by
  refine if_neg fun hrunning => ?_
  have hfinished := h.finished
  rw [isFinished, hrunning.1] at hfinished
  cases hfinished

theorem Closed.warning? (h : e.Closed) (position : Nat) : e.warning? position = none := by
  refine if_neg fun hmissing => ?_
  simp only [Bool.and_eq_true, Bool.or_eq_true, Option.isNone_iff_eq_none] at hmissing
  rcases hmissing.2 with hnone | hnone
  · simpa [hnone] using h.ended
  · simpa [hnone] using h.timed

theorem Closed.completedAt (id : String) (type : NodeType) (start stop : Timestamp) :
    ((startedAt id type start).completedAt stop).Closed :=
  ⟨rfl, rfl, rfl⟩

theorem Closed.failedAt (id : String) (type : NodeType) (start stop : Timestamp)
    (error : String) : ((startedAt id type start).failedAt stop error).Closed :=
  ⟨rfl, rfl, rfl⟩

/-- Neighbours are in order exactly when nothing is found. -/
theorem disorder_eq_nil_iff {es : List TraceEntry} {position : Nat} :
    disorder position es = [] ↔
      es.IsChain fun a b => b.startTime.before a.startTime = false := by
  induction es generalizing position with
  | nil => simp [disorder]
  | cons a es ih =>
    cases es with
    | nil => simp [disorder]
    | cons b es =>
      rw [disorder, List.append_eq_nil_iff, ih, List.isChain_cons_cons]
      refine and_congr_left fun _ => ?_
      cases b.startTime.before a.startTime <;> simp

end TraceEntry

namespace PipelineState

/-- States whose executions are closed and in the order of their starts, with no result that
belongs to no execution. -/
structure Tidy (s : PipelineState) : Prop where
  closed : ∀ e ∈ s.trace, e.Closed
  ordered : s.trace.Pairwise fun a b => b.startTime.before a.startTime = false
  traced : ∀ key ∈ s.results.keys, ∃ e ∈ s.trace, e.nodeId = key

variable {s s' : PipelineState}

theorem findings_eq_nil {α : Type} {find : Nat → TraceEntry → Option α}
    (h : ∀ e ∈ s.trace, ∀ i, find i e = none) : s.findings find = [] := by
  refine List.filterMap_eq_nil_iff.2 fun p hp => ?_
  exact h p.1 (List.fst_mem_of_mem_zipIdx hp) p.2

/-- A state with nothing in it but the signal is tidy. -/
theorem Tidy.of_empty (htrace : s.trace = []) (hresults : s.results = []) : s.Tidy where
  closed := by simp [htrace]
  ordered := by simp [htrace]
  traced := by simp [hresults, Entries.keys]

/-- The validation finds nothing in a tidy state whose signal id is in order. -/
theorem Tidy.validate (h : s.Tidy) {limit : Nat} (hid : Text.isBlankText s.signalId = false)
    (hlimit : s.signalId.length ≤ limit) : s.validate limit = .ok ⟨[], s.trace.length⟩ := by
  have hviolations : s.violations = [] := by
    rw [violations, hid, findings_eq_nil fun e he => (h.closed e he).violation?,
      TraceEntry.disorder_eq_nil_iff.2 h.ordered.isChain]
    rfl
  have huntraced : s.untracedKeys = [] := by
    refine List.filter_eq_nil_iff.2 fun key hkey hfound => ?_
    obtain ⟨e, he, hnode⟩ := h.traced key hkey
    simp only [Bool.and_eq_true, Bool.not_eq_true', List.any_eq_false, beq_iff_eq] at hfound
    exact hfound.2 e he hnode
  have hwarnings : s.warnings limit = [] := by
    rw [warnings, findings_eq_nil fun e he => (h.closed e he).warning?, huntraced,
      decide_eq_false (Nat.not_lt.2 hlimit)]
    rfl
  rw [PipelineState.validate, hviolations, hwarnings]
  rfl

/-- A closed execution that starts behind all others keeps a state tidy, with a result of its own
node at most. -/
theorem Tidy.addTrace (h : s.Tidy) {e : TraceEntry} (htrace : s'.trace = s.trace)
    (hkeys : ∀ key ∈ s'.results.keys, key ∈ s.results.keys ∨ key = e.nodeId) (closed : e.Closed)
    (last : ∀ f ∈ s.trace, e.startTime.before f.startTime = false) : (s'.addTrace e).Tidy where
  closed := by
    rw [PipelineState.addTrace, htrace]
    exact List.forall_mem_append.2 ⟨h.closed, List.forall_mem_singleton.2 closed⟩
  ordered := by
    rw [PipelineState.addTrace, htrace]
    refine List.pairwise_append.2 ⟨h.ordered, List.pairwise_singleton _ _, fun f hf e' he' => ?_⟩
    rw [List.mem_singleton.1 he']
    exact last f hf
  traced key hkey := by
    rw [PipelineState.addTrace, htrace]
    rcases hkeys key hkey with hold | rfl
    · obtain ⟨f, hf, hnode⟩ := h.traced key hold
      exact ⟨f, List.mem_append_left _ hf, hnode⟩
    · exact ⟨e, List.mem_append_right _ List.mem_cons_self, rfl⟩

end PipelineState

/-! ## The nodes that come with the engine -/

namespace PipelineNode

/-- The nodes that come with the engine. -/
inductive Standard : PipelineNode → Prop
  | computed (f : PipelineState → Except Failure Json) : Standard (.computed f)
  | constant (value : Json) : Standard (.constant value)
  | failing (message : String) : Standard (.failing message)
  | ofProvider (p : PredictionProvider) : Standard (.ofProvider p)

/-- A node that acts as a standard one in every call, though not as the same one: what is computed
and how a provider answers may change from call to call. -/
def ActsStandard (node : PipelineNode) : Prop :=
  ∀ config s ctx, ∃ other, Standard other ∧
    node.execute config s ctx = other.execute config s ctx

theorem Standard.acts {node : PipelineNode} (h : node.Standard) : node.ActsStandard :=
  fun _ _ _ => ⟨node, h, rfl⟩

theorem computed_state (f : PipelineState → Except Failure Json) (config : NodeConfig)
    (s : PipelineState) (ctx : RunContext) :
    ((computed f).execute config s ctx).state = s ∨
      ∃ value, ((computed f).execute config s ctx).state = s.setResult config.id value := by
  unfold computed
  dsimp only
  split
  · exact .inr ⟨_, rfl⟩
  · exact .inl rfl

theorem ofProvider_state (p : PredictionProvider) (config : NodeConfig) (s : PipelineState)
    (ctx : RunContext) :
    ∃ value, ((ofProvider p).execute config s ctx).state = s.setResult config.id value := by
  unfold ofProvider
  dsimp only
  split <;> exact ⟨_, rfl⟩

/-- A standard node does nothing to a state but to store a result under its own id. -/
theorem ActsStandard.state {node : PipelineNode} (h : node.ActsStandard) (config : NodeConfig)
    (s : PipelineState) (ctx : RunContext) :
    (node.execute config s ctx).state = s ∨
      ∃ value, (node.execute config s ctx).state = s.setResult config.id value := by
  obtain ⟨other, hother, hsame⟩ := h config s ctx
  rw [hsame]
  cases hother with
  | computed f => exact computed_state f config s ctx
  | constant value => exact computed_state _ config s ctx
  | failing message => exact computed_state _ config s ctx
  | ofProvider p => exact .inr (ofProvider_state p config s ctx)

theorem ActsStandard.keepsTrace {node : PipelineNode} (h : node.ActsStandard) :
    node.KeepsTrace := by
  intro config s ctx
  rcases h.state config s ctx with hs | ⟨value, hs⟩ <;> rw [hs]
  rfl

theorem ActsStandard.signalId {node : PipelineNode} (h : node.ActsStandard) (config : NodeConfig)
    (s : PipelineState) (ctx : RunContext) :
    (node.execute config s ctx).state.signalId = s.signalId := by
  rcases h.state config s ctx with hs | ⟨value, hs⟩ <;> rw [hs]
  rfl

theorem ActsStandard.mem_keys {node : PipelineNode} (h : node.ActsStandard) (config : NodeConfig)
    (s : PipelineState) (ctx : RunContext) :
    ∀ key ∈ (node.execute config s ctx).state.results.keys,
      key ∈ s.results.keys ∨ key = config.id := by
  intro key hkey
  rcases h.state config s ctx with hs | ⟨value, hs⟩ <;> rw [hs] at hkey
  · exact .inl hkey
  · rw [PipelineState.setResult, Entries.keys_put] at hkey
    split at hkey
    · exact .inl hkey
    · simpa using hkey

end PipelineNode

/-! ## Runs -/

namespace NodeRun

variable {clock : Clock} {ctx : RunContext} {n : Nat} {s t : PipelineState}
  {calls : List NodeCall} {c : NodeCall}

/-- The trace entry of a call is closed. -/
theorem closed_entry (ctx : RunContext) (c : NodeCall) : (c.entry ctx).Closed := by
  unfold NodeCall.entry PlannedNode.traceEntry
  split
  · exact .failedAt _ _ _ _ _
  · exact .completedAt _ _ _ _

theorem entry_startTime (ctx : RunContext) (c : NodeCall) :
    (c.entry ctx).startTime = c.start := by
  unfold NodeCall.entry PlannedNode.traceEntry
  split <;> rfl

theorem entry_nodeId (ctx : RunContext) (c : NodeCall) : (c.entry ctx).nodeId = c.id := by
  unfold NodeCall.entry PlannedNode.traceEntry
  split <;> rfl

/-- Calls of standard nodes keep a state tidy: every execution starts at a later reading of the
clock than those before it. -/
theorem Chain.tidy (hclock : clock.Steady) (h : Chain clock ctx n s calls t)
    (hacts : ∀ c ∈ calls, c.planned.node.ActsStandard) (hs : s.Tidy)
    (hpast : ∀ e ∈ s.trace, (clock n).before e.startTime = false) :
    t.Tidy ∧ t.signalId = s.signalId := by
  induction h with
  | done n s => exact ⟨hs, rfl⟩
  | call n s c cs t given start stop rest ih =>
    obtain ⟨hc, hcs⟩ := List.forall_mem_cons.1 hacts
    have htrace : (c.effect ctx).state.trace = s.trace := by
      rw [NodeCall.effect, hc.keepsTrace, given]
    have hsignal : (c.effect ctx).state.signalId = s.signalId := by
      rw [NodeCall.effect, hc.signalId, given]
    have hkeys : ∀ key ∈ (c.effect ctx).state.results.keys,
        key ∈ s.results.keys ∨ key = (c.entry ctx).nodeId := by
      intro key hkey
      rw [entry_nodeId]
      have := hc.mem_keys c.planned.config c.given ctx key hkey
      rwa [given] at this
    have hlast : ∀ e ∈ s.trace, (c.entry ctx).startTime.before e.startTime = false := by
      rw [entry_startTime, start]
      exact hpast
    have hnext := hs.addTrace htrace hkeys (closed_entry ctx c) hlast
    have hpast' : ∀ e ∈ ((c.effect ctx).state.addTrace (c.entry ctx)).trace,
        (clock (n + 2)).before e.startTime = false := by
      rw [PipelineState.addTrace, htrace]
      refine List.forall_mem_append.2 ⟨fun e he => ?_, List.forall_mem_singleton.2 ?_⟩
      · exact Timestamp.not_before_trans (hpast e he) (hclock.not_before n 2)
      · rw [entry_startTime, start]
        exact hclock.not_before n 2
    obtain ⟨htidy, hid⟩ := ih hcs hnext hpast'
    exact ⟨htidy, hid.trans hsignal⟩

/-- How the calls of a run go with its result: where the declarations have no plan the run is
refused with their first fault and makes none, every other one goes through a plan from its
front. -/
inductive Resulting (r : NodeRegistry) (ctx : RunContext) (s : PipelineState) :
    List NodeCall → Except EngineError NodeSummary → Prop
  | refused {e : ConfigurationError} (unplanned : NodePlan.ofConfigs r s.nodes = .error e) :
      Resulting r ctx s [] (.error (.configuration e))
  | ran {plan : NodePlan} {calls : List NodeCall} {result : Except EngineError NodeSummary}
      (serves : NodePlan.Serves r s.nodes plan) (planned : calls.map NodeCall.planned <+: plan)
      (ending : Ending ctx plan ((s.nodes.filter fun c => !c.isEnabled).map NodeConfig.id) calls
        result) :
      Resulting r ctx s calls result

/-- The executions of nodes in a run: calls from its state to the one that it leaves, up to the
node at work. -/
structure Executed (r : NodeRegistry) (clock : Clock) (ctx : RunContext) (s : PipelineState)
    (calls : List NodeCall) (report : NodeRunReport) : Prop where
  chain : ∃ t, Chain clock ctx 0 s calls t ∧ report.state.atRest = t.atRest
  events : report.journal.events = calls.flatMap (NodeCall.events ctx)
  result : Resulting r ctx s calls report.result

theorem exists_executed (r : NodeRegistry) (clock : Clock) (ctx : RunContext)
    (s : PipelineState) :
    ∃ calls, Executed r clock ctx s calls (runNodes r clock ctx s) := by
  cases hplan : NodePlan.ofConfigs r s.nodes with
  | error e =>
    rw [runNodes_of_error hplan]
    exact ⟨[], ⟨s, .done 0 s, rfl⟩, rfl, .refused hplan⟩
  | ok plan =>
    obtain ⟨calls, t, hchain, hstate, hplanned, hevents, hending⟩ :=
      runPlan_chain clock 0 ctx s plan
    obtain ⟨hstate', hevents', hresult⟩ := @runNodes_of_ok clock ctx s plan r hplan
    refine ⟨calls, ⟨t, hchain, ?_⟩, hevents'.trans hevents, ?_⟩
    · rw [hstate', hstate]
      rfl
    · rw [hresult]
      exact .ran (NodePlan.ofConfigs_ok hplan) hplanned (hending.skipping _)

/-- The nodes that a run calls come from its registry. -/
theorem Resulting.registered {r : NodeRegistry} {result : Except EngineError NodeSummary}
    (h : Resulting r ctx s calls result) :
    ∀ c ∈ calls, ∃ plugin, r.get? plugin = some c.planned.node := by
  cases h with
  | refused unplanned => exact List.forall_mem_nil _
  | ran serves planned ending =>
    exact fun c hc => ⟨_, serves.node _ (planned.subset (List.mem_map_of_mem hc))⟩

/-- **A run leaves a valid state.** On a state without executions and results whose signal id is in
order, a run of standard nodes leaves a state that breaks no rule and draws no warning, with one
execution for each node that was called: whether the run succeeds, fails at some node or is
refused. -/
theorem runNodes_validates (r : NodeRegistry) (clock : Clock) (ctx : RunContext)
    (s : PipelineState) (limit : Nat)
    (hnodes : ∀ plugin node, r.get? plugin = some node → node.ActsStandard)
    (hclock : clock.Steady) (htrace : s.trace = []) (hresults : s.results = [])
    (hid : Text.isBlankText s.signalId = false) (hlimit : s.signalId.length ≤ limit) :
    ∃ calls, Executed r clock ctx s calls (runNodes r clock ctx s) ∧
      (runNodes r clock ctx s).state.validate limit = .ok ⟨[], calls.length⟩ := by
  obtain ⟨calls, hexecuted⟩ := exists_executed r clock ctx s
  obtain ⟨t, hchain, hstate⟩ := hexecuted.chain
  have hacts : ∀ c ∈ calls, c.planned.node.ActsStandard := fun c hc =>
    let ⟨plugin, hget⟩ := hexecuted.result.registered c hc
    hnodes plugin _ hget
  obtain ⟨htidy, hsignal⟩ := hchain.tidy hclock hacts (.of_empty htrace hresults) (by simp [htrace])
  have hlength : t.trace.length = calls.length := by
    rw [hchain.trace fun c hc => (hacts c hc).keepsTrace, htrace]
    simp
  refine ⟨calls, hexecuted, ?_⟩
  -- the validation does not look at the node at work
  change (runNodes r clock ctx s).state.atRest.validate limit = _
  rw [hstate, ← hlength]
  exact htidy.validate (hsignal ▸ hid) (hsignal ▸ hlimit)

/-- Of the fixture's nodes the second does without its provider and the third fails. -/
theorem runNodes_validates_fixture :
    let r : NodeRegistry :=
      [("technical-indicators", .constant .null),
        ("pattern-recognition", .ofProvider (.offline "patterns")), ("ai-ml", .failing "down")]
    let clock : Clock := fun n => ⟨n, 0⟩
    let s := Fixture.state "s" Fixture.scoredAt
    (∀ plugin node, r.get? plugin = some node → node.ActsStandard) ∧ clock.Steady ∧
      s.trace = [] ∧ s.results = [] ∧ Text.isBlankText s.signalId = false ∧
      s.signalId.length ≤ 1 ∧ ∃ calls, Executed r clock {} s calls (runNodes r clock {} s) ∧
        (runNodes r clock {} s).state.validate 1 = .ok ⟨[], calls.length⟩ := by
  intro r clock s
  have hnodes : ∀ plugin node, r.get? plugin = some node → node.ActsStandard := by
    intro plugin node hnode
    simp only [r, Entries.get?, List.lookup_cons, List.lookup_nil] at hnode
    split at hnode
    · cases hnode
      exact (PipelineNode.Standard.constant _).acts
    · split at hnode
      · cases hnode
        exact (PipelineNode.Standard.ofProvider _).acts
      · split at hnode
        · cases hnode
          exact (PipelineNode.Standard.failing _).acts
        · cases hnode
  have hclock : clock.Steady := fun n => by
    simp only [clock, Timestamp.before, Bool.or_eq_false_iff, Bool.and_eq_false_iff,
      decide_eq_false_iff_not, beq_eq_false_iff_ne]
    omega
  have hid : Text.isBlankText s.signalId = false := by decide
  have hlimit : s.signalId.length ≤ 1 := by decide
  exact ⟨hnodes, hclock, rfl, rfl, hid, hlimit,
    runNodes_validates r clock {} s 1 hnodes hclock rfl rfl hid hlimit⟩

end NodeRun

end SignalPipeline
