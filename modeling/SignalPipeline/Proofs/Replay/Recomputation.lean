import SignalPipeline.Proofs.Dataflow.FailFast
import SignalPipeline.Proofs.Json.Record
import SignalPipeline.Replay.GraphPipeline

/-!
# Replays are runs on what was stored

A replay over an executor is one run of it, on what the snapshot says the signal was and in a
context pinned to the snapshot. It hides nothing: a store that fails, a stage that fails and a
payload that is no scored result end it with errors of their own, and where there is nothing to
replay no stage starts.

* `StoredSnapshot.Recovers`: the input that a snapshot stands for.
* `RunContext.Pinned`: contexts in which handlers see the signal as it was scored.
* `Comparator.Recomputes`: the result of a replay, from the run that it made.
* `Comparator.replay_exact`: the replay of a signal in all cases.
-/

namespace SignalPipeline

/-! ## What a snapshot stands for -/

namespace MarketInfo

/-- What is known under a key. -/
def field? (m : MarketInfo) : String → Option String
  | "symbol" => m.symbol
  | "timeframe" => m.timeframe
  | "strategy" => m.strategy
  | "direction" => m.direction
  | _ => none

theorem lookup_members (m : MarketInfo) (key : String) :
    m.members.lookup key = (m.field? key).map Json.string := by
  unfold field?
  split <;> simp_all [members, List.lookup_append, lookup_optional]

theorem nodup_members (m : MarketInfo) : (m.members.map Prod.fst).Nodup := by
  have hkeys : (m.members.map Prod.fst).Sublist
      (["symbol"] ++ ["timeframe"] ++ ["strategy"] ++ ["direction"]) := by
    simp only [members, List.map_append]
    exact (((keys_optional _ _ "symbol").append (keys_optional _ _ "timeframe")).append
      (keys_optional _ _ "strategy")).append (keys_optional _ _ "direction")
  exact hkeys.nodup (by decide)

end MarketInfo

/-- The input that a snapshot stands for, and whether something of it is lost: the signal as it came
in, if that was kept, or else an object with what is known about the market and nothing more. -/
inductive StoredSnapshot.Recovers (s : StoredSnapshot) : Json → Bool → Prop
  | verbatim (raw : Json) (kept : s.rawInput = some raw) : Recovers s raw false
  | rebuilt (members : List Member) (lost : s.rawInput = none) (ascending : Ascending members)
      (known : ∀ key, members.lookup key = (s.market.field? key).map .string) :
      Recovers s (.object members) true

theorem StoredSnapshot.recovers_input (s : StoredSnapshot) :
    s.Recovers s.input.payload s.input.lossy := by
  unfold StoredSnapshot.input
  split
  · next raw kept => exact .verbatim raw kept
  · next lost =>
    refine .rebuilt _ lost (ascending_sortMembers _) fun key => ?_
    rw [lookup_sortMembers s.market.nodup_members, s.market.lookup_members]

/-- Contexts in which a snapshot is replayed: handlers see its signal, that the run is no
demonstration, and the time at which it was scored. -/
structure RunContext.Pinned (s : StoredSnapshot) (ctx : RunContext) : Prop where
  signal : ctx.signalId = some s.signalId
  genuine : ctx.isDemo = false
  time : ctx.scoringTime = some s.scoring.scoredAt

/-! ## What a run says of itself -/

namespace Executor

variable {e : Executor} {schedule : Schedule} {start : Timestamp} {payload : Json}
  {ctx : RunContext}

/-- Every stage of a run is answered by its handler in the context of the run. -/
theorem answered_of_mem_flights (e : Executor) (schedule : Schedule) (start : Timestamp)
    (payload : Json) (ctx : RunContext) :
    ∀ f ∈ (e.run schedule start payload ctx).flights,
      ∃ h, e.binding.get? f.stage.id = some h ∧ f.answer = h.answer f.input ctx := by
  obtain ⟨n, p, reached, hflights⟩ := e.exists_flights schedule start payload ctx
  rw [hflights]
  refine reached.invariant (I := fun p => ∀ f ∈ p.dispatched,
    ∃ h, e.binding.get? f.stage.id = some h ∧ f.answer = h.answer f.input ctx) nofun ?_
  intro p q ha hp hgoes
  cases hgoes with
  | @dispatch id rest h ready room bound =>
    have hid := ha.known id (Progress.Accounted.mem_released.2 (.inl (ready ▸ List.mem_cons_self)))
    refine List.forall_mem_append.2 ⟨hp, List.forall_mem_singleton.2 ⟨h, ?_, rfl⟩⟩
    exact (congrArg e.binding.get? (StageGraph.stageAt_mem hid).2).trans bound
  | complete waits taken answered =>
    obtain ⟨before, after, -, rfl⟩ := Progress.takeNext_eq_some taken
    exact hp

/-- The execution records of a run are one for each stage. -/
theorem ids_stageMeta {out : RunOutput}
    (h : (e.run schedule start payload ctx).result = .ok out) :
    (out.stageMeta.map StageMeta.id).Perm e.graph.ids := by
  obtain ⟨n, p, -, all, rfl⟩ := completed_of_ok h
  rw [output, List.map_map]
  exact all

end Executor

namespace Pipeline

variable {e : Executor} {schedule : Schedule} {start : Timestamp} {sink : EventSink}
  {payload : Json} {o : RunOptions}

theorem run_ofExecutor_ok {out : RunOutput}
    (h : (e.run schedule start payload (o.context sink)).result = .ok out) :
    ((ofExecutor e schedule start sink).run payload o).result = PipelineOutcome.ofRun o out := by
  simp only [ofExecutor, h]

theorem run_ofExecutor_error {error : EngineError}
    (h : (e.run schedule start payload (o.context sink)).result = .error error) :
    ((ofExecutor e schedule start sink).run payload o).result = .error (.engine error) := by
  simp only [ofExecutor, h]

end Pipeline

/-! ## Replays -/

/-- A replay in which no pipeline ran and no stage started. -/
structure ReplayReport.Idle (r : ReplayReport) : Prop where
  request : r.request = none
  events : r.journal.events = []

namespace Comparator

/-- The result of a replay, from the run that it made on a snapshot: the comparison with what the
payload says, or the error of the run, or that of a payload which says nothing. -/
inductive Recomputes (c : Comparator) (s : StoredSnapshot) (lossy : Bool) (run : RunReport) :
    Except EngineError ReplayOutcome → Prop
  | replayed (out : RunOutput) (result : ScoredResult) (r : ReplayResult)
      (ran : run.result = .ok out) (decoded : ScoredResult.read.value out.payload = .ok result)
      (signal : r.signalId = s.signalId) (stored : r.stored = s.scoredResult)
      (recomputed : r.recomputed = result)
      (compared : r.comparison = .ofResults s.scoredResult result c.epsilon)
      (lost : r.replayMeta.lossyInput = lossy)
      (summaries :
        r.stageSummaries = if c.includeStageSummaries then some out.stageMeta else none) :
      Recomputes c s lossy run (.ok (.replayed r))
  | undecodable (out : RunOutput) (e : ReadError) (ran : run.result = .ok out)
      (unread : ScoredResult.read.value out.payload = .error e) :
      Recomputes c s lossy run (.error (.stage "replay" (.decoding e)))
  | failed (id : String) (failure : Failure) (broke : run.result = .error (.stage id failure)) :
      Recomputes c s lossy run (.error (.stage id failure))

variable {c : Comparator} {e : Executor} {schedule : Schedule} {start : Timestamp}
  {sink : EventSink} {s : StoredSnapshot}

/-- The context in which an executor runs on a snapshot. -/
def contextOf (c : Comparator) (sink : EventSink) (s : StoredSnapshot) : RunContext :=
  (c.options s).context sink

theorem pinned_contextOf (c : Comparator) (sink : EventSink) (s : StoredSnapshot) :
    (c.contextOf sink s).Pinned s :=
  ⟨rfl, rfl, rfl⟩

/-- The replay of a snapshot has the result of the run on it. -/
theorem recomputes_replaySnapshot (hc : c.pipeline = .ofExecutor e schedule start sink)
    (now : Timestamp) (id : String) (s : StoredSnapshot) :
    Recomputes c s s.input.lossy (e.run schedule start s.input.payload (c.contextOf sink s))
      (c.replaySnapshot now id s).result := by
  unfold replaySnapshot
  dsimp only
  cases hr : (e.run schedule start s.input.payload (c.contextOf sink s)).result with
  | error error =>
    rw [hc, Pipeline.run_ofExecutor_error hr]
    obtain ⟨n, p, f, rest, failure, -, -, -, rfl, -⟩ := Executor.taken_of_error hr
    exact .failed f.stage.id failure hr
  | ok out =>
    rw [hc, Pipeline.run_ofExecutor_ok hr]
    unfold PipelineOutcome.ofRun
    cases hd : ScoredResult.read.value out.payload with
    | error error => exact .undecodable out error hr hd
    | ok result => exact .replayed out result _ hr hd rfl rfl rfl rfl rfl rfl

/-- Where a run is that of a replay, the replay succeeds exactly if the run does and its payload
is a scored result. -/
theorem Recomputes.ok_iff {lossy : Bool} {run : RunReport}
    {result : Except EngineError ReplayOutcome} (h : c.Recomputes s lossy run result) :
    (∃ o, result = .ok o) ↔ ∃ out r, run.result = .ok out ∧
      ScoredResult.read.value out.payload = .ok r := by
  cases h with
  | replayed out r _ ran decoded => exact ⟨fun _ => ⟨out, r, ran, decoded⟩, fun _ => ⟨_, rfl⟩⟩
  | undecodable out e ran unread =>
    refine ⟨fun ⟨_, h⟩ => (by cases h), fun ⟨out', r, ran', decoded⟩ => ?_⟩
    rw [ran] at ran'
    cases ran'
    rw [unread] at decoded
    cases decoded
  | failed id failure broke =>
    refine ⟨fun ⟨_, h⟩ => (by cases h), fun ⟨out, r, ran, _⟩ => ?_⟩
    rw [broke] at ran
    cases ran

/-- The events of the replay of a snapshot are those of its run. -/
theorem events_replaySnapshot (hc : c.pipeline = .ofExecutor e schedule start sink)
    (now : Timestamp) (id : String) (s : StoredSnapshot) :
    (c.replaySnapshot now id s).journal.events =
      (e.run schedule start s.input.payload (c.contextOf sink s)).journal.events := by
  have hbefore : Journal.events (inputEntries id s.input) = [] := by
    unfold inputEntries
    split <;> rfl
  have hjournal : (c.pipeline.run s.input.payload (c.options s)).journal =
      (e.run schedule start s.input.payload (c.contextOf sink s)).journal := by
    rw [hc]
    rfl
  unfold replaySnapshot
  dsimp only
  split
  · rw [Journal.events_append, hbefore, hjournal]
    rfl
  · rw [Journal.events_append, Journal.events_append, hbefore, hjournal]
    exact List.append_nil _

theorem request_replaySnapshot (c : Comparator) (now : Timestamp) (id : String)
    (s : StoredSnapshot) :
    (c.replaySnapshot now id s).request = some (s.input.payload, c.options s) := by
  unfold replaySnapshot
  dsimp only
  split <;> rfl

/-- What the store says of a signal, if there is a store. -/
def answer? (c : Comparator) (id : String) : Option (Except StoreError (Option StoredSnapshot)) :=
  c.store.map fun store => store.find? id

/-- What a comparator makes of what its store says. -/
theorem lookup_eq (c : Comparator) (id : String) :
    c.lookup id = match c.answer? id with
      | none => .error (.configuration (.missingCollaborator ConfigurationError.storeName))
      | some (.ok found) => .ok found
      | some (.error (.unavailable reason)) => .error (.configuration (.storeUnavailable reason))
      | some (.error (.malformed place)) => .error (.store (.malformed place)) := by
  unfold lookup answer?
  cases c.store with
  | none => rfl
  | some store =>
    dsimp only [Option.map_some]
    cases store.find? id with
    | ok found => rfl
    | error error => cases error <;> rfl

/-- The replay of a signal that is found is that of its snapshot. -/
theorem replay_of_found (c : Comparator) (now : Timestamp) {id : String}
    (h : c.answer? id = some (.ok (some s))) : c.replay now id = c.replaySnapshot now id s := by
  unfold replay
  rw [lookup_eq, h]

/-- **A replay over an executor is one run on what was stored, and masks nothing.** Without a store,
or with one that is out of reach, it is a fault of the configuration; a record of the store that is
malformed is the error of the store; and where nothing is stored it says so. In none of these cases
does a stage start. A snapshot that is found is run on once: on the input that it stands for, with
the signal, no demonstration, and the time of the scoring for every handler to see. The replay
succeeds exactly where this run does with a scored result, and fails with the error of the run or
with that of the payload. -/
theorem replay_exact (hc : c.pipeline = .ofExecutor e schedule start sink) (now : Timestamp)
    (id : String) :
    let report := c.replay now id
    (c.answer? id = none ∨ (∃ reason, c.answer? id = some (.error (.unavailable reason))) →
      report.Idle ∧ ∃ fault, report.result = .error (.configuration fault) ∧
        fault.field = "signal store") ∧
    (∀ place, c.answer? id = some (.error (.malformed place)) →
      report.Idle ∧ report.result = .error (.store (.malformed place))) ∧
    (c.answer? id = some (.ok none) → report.Idle ∧ report.result = .ok (.notFound id)) ∧
    ∀ s, c.answer? id = some (.ok (some s)) →
      ∃ payload lossy ctx, s.Recovers payload lossy ∧ ctx.Pinned s ∧
        let run := e.run schedule start payload ctx
        report.request = some (payload, c.options s) ∧
        report.journal.events = run.journal.events ∧
        (∀ f ∈ run.flights,
          ∃ h, e.binding.get? f.stage.id = some h ∧ f.answer = h.answer f.input ctx) ∧
        c.Recomputes s lossy run report.result ∧
        ((∃ o, report.result = .ok o) ↔ ∃ out result, run.result = .ok out ∧
          ScoredResult.read.value out.payload = .ok result) ∧
        ∀ out, run.result = .ok out → (out.stageMeta.map StageMeta.id).Perm e.graph.ids := by
  intro report
  have hreport : report = c.replay now id := rfl
  unfold replay at hreport
  rw [lookup_eq] at hreport
  refine ⟨?_, fun place h => ?_, fun h => ?_, fun s h => ?_⟩
  · rintro (h | ⟨reason, h⟩)
    · rw [hreport, h]
      exact ⟨⟨rfl, rfl⟩, _, rfl, rfl⟩
    · rw [hreport, h]
      exact ⟨⟨rfl, rfl⟩, _, rfl, rfl⟩
  · rw [hreport, h]
    exact ⟨⟨rfl, rfl⟩, rfl⟩
  · rw [hreport, h]
    exact ⟨⟨rfl, rfl⟩, rfl⟩
  · rw [hreport, h]
    have hresult := recomputes_replaySnapshot hc now id s
    exact ⟨_, _, _, s.recovers_input, c.pinned_contextOf sink s, c.request_replaySnapshot now id s,
      events_replaySnapshot hc now id s, Executor.answered_of_mem_flights _ _ _ _ _, hresult,
      hresult.ok_iff, fun out hout => Executor.ids_stageMeta hout⟩

/-- The replay of a snapshot without its input, over a diamond whose stages fail: it ends as the
run on what is known about the market does. -/
theorem replay_exact_diamond :
    ∃ (g : StageGraph) (e : Executor), StageGraph.build Fixture.diamond = .ok g ∧
      Executor.ofBinding g Fixture.faulty = .ok e ∧
      let s := { Fixture.snapshot "sig-1" with rawInput := none }
      let c : Comparator :=
        { pipeline := .ofExecutor e .earliest default .discard
          store := some (.ofSnapshots (.ofList [s])) }
      c.answer? "sig-1" = some (.ok (some s)) ∧
        ∃ payload lossy ctx, s.Recovers payload lossy ∧ ctx.Pinned s ∧
          c.Recomputes s lossy (e.run .earliest default payload ctx)
            (c.replay default "sig-1").result := by
  obtain ⟨g, e, hg, he⟩ := Executor.exists_executor_diamond (b := Fixture.faulty) (by decide)
  refine ⟨g, e, hg, he, ?_⟩
  intro s c
  have hc : c.pipeline = .ofExecutor e .earliest default .discard := rfl
  obtain ⟨-, -, -, hfound⟩ := replay_exact hc default "sig-1"
  obtain ⟨payload, lossy, ctx, hinput, hctx, -, -, -, hresult, -, -⟩ := hfound s rfl
  exact ⟨rfl, payload, lossy, ctx, hinput, hctx, hresult⟩

end Comparator

end SignalPipeline
