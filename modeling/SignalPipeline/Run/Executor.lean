import SignalPipeline.Run.Accounting
import SignalPipeline.Run.StageMeta

/-!
# Executors

An executor runs the stages of a graph with the handlers bound to them. Stages whose dependencies
have completed are dispatched from a queue, as many at once as the cap admits; the first failure
taken ends the run and everything still in flight is given up.

Time is that of a virtual clock in which only the delays of handlers pass.

* `Executor.step`: one move of a run. It dispatches a stage, takes a completion, or ends the run.
* `Executor.Goes`, `Executor.Ends`: the moves that a run makes, and the ways in which it ends.
* `Executor.run`: a run, with its result and its journal. It ends because every move but the last
  is one of the two moves of a stage.
* `Executor.ofRegistry`: an executor whose handlers come from a registry.
* `runDefinitions`: checks a list of stages, binds and runs it.
-/

namespace SignalPipeline

/-- The result of a successful run. -/
structure RunOutput where
  /-- The output of the only sink, or an object with the outputs of all sinks by id. -/
  payload : Json
  /-- One record for each stage, in the order of completion. -/
  stageMeta : List StageMeta
  /-- The outputs of all stages, by ascending id. -/
  outputs : List Member

/-- A run as seen from outside. -/
structure RunReport where
  result : Except EngineError RunOutput
  journal : Journal
  /-- Everything that was dispatched, in order. -/
  flights : List Flight
  /-- The time at which the run ended. -/
  endedAt : Nat

/-- A run that ends before any stage. -/
def RunReport.refused (e : EngineError) : RunReport :=
  ⟨.error e, [], [], 0⟩

/-- The report of a run that ends here. -/
def Progress.report (p : Progress) (result : Except EngineError RunOutput) : RunReport :=
  ⟨result, p.journal, p.dispatched, p.clock⟩

/-- A graph with handlers and a cap on the stages in flight. -/
structure Executor where
  graph : StageGraph
  binding : Binding
  cap : Option Nat
  bound : ∀ s ∈ graph.stages, ∃ h, binding.get? s.id = some h
  /-- A cap admits a stage. -/
  admits : ∀ limit, cap = some limit → 0 < limit

namespace Executor

/-- An executor without a cap; every stage has to be bound. -/
def ofBinding (g : StageGraph) (b : Binding) : Except ConfigurationError Executor :=
  match h : g.stages.find? fun s => (b.get? s.id).isNone with
  | some s => .error (.unboundStage s.id)
  | none => .ok {
      graph := g
      binding := b
      cap := none
      bound := fun s hs => by
        have := List.find?_eq_none.1 h s hs
        exact Option.ne_none_iff_exists'.1 fun hn => this (Option.isNone_iff_eq_none.2 hn)
      admits := nofun }

/-- An executor whose handlers come from a registry. -/
def ofRegistry (g : StageGraph) (r : HandlerRegistry) : Except ConfigurationError Executor := do
  ofBinding g (← r.bind g)

/-- The executor with a cap; zero counts as one. -/
def withCap (e : Executor) (limit : Nat) : Executor where
  graph := e.graph
  binding := e.binding
  cap := some (max limit 1)
  bound := e.bound
  admits n h := by
    cases h
    exact Nat.le_max_right _ _

/-- The executor with a cap or without one. -/
def withOptionalCap (e : Executor) (limit : Option Nat) : Executor :=
  match limit with
  | some n => e.withCap n
  | none => { e with cap := none, admits := nofun }

/-! ## What a run says -/

/-- The text of a cap in a log record. -/
def capText : Option Nat → String
  | none => "None"
  | some n => s!"Some({n})"

/-- What is said at the start of a run. -/
def startEntries (e : Executor) : Journal :=
  [Journal.record .debug "Starting DAG run"
    [("stages", .ofNat e.graph.size), ("max_concurrency", .string (capText e.cap))]]

/-- What is said when a stage has failed, and the run with it. -/
def failureEntries (f : Flight) (failure : Failure) : Journal :=
  [Journal.record .error "Stage failed"
      [("stage", .string f.stage.id), ("error", .string failure.text)],
    .event (.stageFailed f.stage.id failure.text f.duration),
    .event (.runFailed (some f.stage.id) failure.text)]

/-- What is said at the end of a successful run. -/
def successEntries (stages clock : Nat) : Journal :=
  [.event (.runCompleted stages (Float.ofNat clock)),
    Journal.record .info "DAG run completed" [("stages", .ofNat stages)]]

/-! ## How a run ends -/

/-- The execution record of a completed stage, for a run begun at a time. -/
def stageMeta (start : Timestamp) (c : Completion) : StageMeta where
  id := c.flight.stage.id
  dependsOn := c.flight.stage.dependsOn
  status := .success
  duration := c.flight.duration
  startedAt := start.addMillis c.flight.startedAt
  endedAt := start.addMillis c.flight.dueAt

/-- The payload of a run: the output of the only sink, or all outputs of sinks by id. -/
def sinkPayload (g : StageGraph) (output? : String → Option Json) : Json :=
  match g.sinks with
  | [only] => (output? only).getD .null
  | sinks => .ofMembers (sinks.map fun s => (s, (output? s).getD .null))

/-- What a run gives in which every stage completed. -/
def output (g : StageGraph) (start : Timestamp) (p : Progress) : RunOutput where
  payload := sinkPayload g p.output?
  stageMeta := p.completed.map (stageMeta start)
  outputs := sortMembers (p.completed.map fun c => (c.flight.stage.id, c.output))

/-- The error of a run in which stages wait for each other. -/
def deadlock (g : StageGraph) (p : Progress) : EngineError :=
  let left := g.ids.filter fun id => !p.completedIds.contains id
  .internal ("Deadlocked stage graph; remaining stages: [" ++
    ", ".intercalate (left.map Text.debugQuote) ++ "]")

/-- The end of a run in which nothing is in flight any more. -/
def conclude (g : StageGraph) (start : Timestamp) (p : Progress) : RunReport :=
  if p.completed.length == g.size then
    (p.say (successEntries p.completed.length p.clock)).report (.ok (output g start p))
  else
    p.report (.error (deadlock g p))

/-! ## Moves -/

/-- What becomes of a run with one move. -/
inductive Turn where
  | goes (p : Progress)
  | ends (r : RunReport)

/-- Takes the next completion; without one the run is over. -/
def take (e : Executor) (schedule : Schedule) (start : Timestamp) (p : Progress) : Turn :=
  match p.takeNext schedule with
  | none => .ends (conclude e.graph start p)
  | some (f, rest) =>
    match f.answer.result with
    | .error failure =>
      .ends ((rest.say (failureEntries f failure)).report (.error (.stage f.stage.id failure)))
    | .ok output => .goes (rest.complete e.graph f output)

/-- One move: the stage at the front of the queue is dispatched if there is room for it, otherwise
the next completion is taken. -/
def step (e : Executor) (schedule : Schedule) (start : Timestamp) (payload : Json)
    (ctx : RunContext) (p : Progress) : Turn :=
  match p.ready, p.hasRoom e.cap with
  | id :: rest, true =>
    match e.binding.get? id with
    | none => .ends (p.report (.error (.configuration (.unboundStage id))))
    | some h => .goes (p.dispatch rest (p.flight h payload ctx (e.graph.stageAt id)))
  | _, _ => e.take schedule start p

variable (e : Executor) (schedule : Schedule) (start : Timestamp) (payload : Json)
  (ctx : RunContext)

/-- The moves with which a run goes on. -/
inductive Goes (p : Progress) : Progress → Prop
  /-- There is room, and the stage at the front of the queue takes off. -/
  | dispatch {id : String} {rest : List String} {h : Handler} (ready : p.ready = id :: rest)
      (room : p.hasRoom e.cap = true) (bound : e.binding.get? id = some h) :
      Goes p (p.dispatch rest (p.flight h payload ctx (e.graph.stageAt id)))
  /-- A completion with a payload is taken. -/
  | complete {f : Flight} {rest : Progress} {output : Json}
      (waits : p.ready = [] ∨ p.hasRoom e.cap = false)
      (taken : p.takeNext schedule = some (f, rest)) (answered : f.answer.result = .ok output) :
      Goes p (rest.complete e.graph f output)

/-- The moves with which a run ends. -/
inductive Ends (p : Progress) : RunReport → Prop
  /-- The stage at the front of the queue has no handler. -/
  | unbound {id : String} {rest : List String} (ready : p.ready = id :: rest)
      (room : p.hasRoom e.cap = true) (unbound : e.binding.get? id = none) :
      Ends p (p.report (.error (.configuration (.unboundStage id))))
  /-- A completion with a failure is taken. -/
  | fail {f : Flight} {rest : Progress} {failure : Failure}
      (waits : p.ready = [] ∨ p.hasRoom e.cap = false)
      (taken : p.takeNext schedule = some (f, rest)) (answered : f.answer.result = .error failure) :
      Ends p ((rest.say (failureEntries f failure)).report (.error (.stage f.stage.id failure)))
  /-- Nothing is in flight. -/
  | conclude (waits : p.ready = [] ∨ p.hasRoom e.cap = false) (idle : p.inFlight = []) :
      Ends p (conclude e.graph start p)

variable {e schedule start payload ctx} {p q : Progress} {r : RunReport}

theorem waits_of_not (h : ∀ id rest, p.ready = id :: rest → p.hasRoom e.cap = true → False) :
    p.ready = [] ∨ p.hasRoom e.cap = false := by
  cases hr : p.ready with
  | nil => exact .inl rfl
  | cons id rest => exact .inr (Bool.eq_false_iff.2 (h id rest hr))

/-- Where a move goes on, it is one of those with which a run goes on. -/
theorem goes_of_step (h : e.step schedule start payload ctx p = .goes q) :
    e.Goes schedule payload ctx p q := by
  have taking : (p.ready = [] ∨ p.hasRoom e.cap = false) → e.take schedule start p = .goes q →
      e.Goes schedule payload ctx p q := by
    intro hw ht
    unfold take at ht
    split at ht
    · cases ht
    · next f rest htaken =>
      split at ht
      · cases ht
      · next output ho =>
        cases ht
        exact .complete hw htaken ho
  unfold step at h
  split at h
  · next id rest hr hroom =>
    split at h
    · cases h
    · next hb =>
      cases h
      exact .dispatch hr hroom hb
  · next hn => exact taking (waits_of_not hn) h

/-- Where a move ends the run, it is one of those with which a run ends. -/
theorem ends_of_step (h : e.step schedule start payload ctx p = .ends r) :
    e.Ends schedule start p r := by
  have taking : (p.ready = [] ∨ p.hasRoom e.cap = false) → e.take schedule start p = .ends r →
      e.Ends schedule start p r := by
    intro hw ht
    unfold take at ht
    split at ht
    · next hnone =>
      cases ht
      exact .conclude hw (Progress.takeNext_eq_none hnone)
    · next f rest htaken =>
      split at ht
      · next failure hf =>
        cases ht
        exact .fail hw htaken hf
      · cases ht
  unfold step at h
  split at h
  · next id rest hr hroom =>
    split at h
    · next hb =>
      cases h
      exact .unbound hr hroom hb
    · cases h
  · next hn => exact taking (waits_of_not hn) h

/-- A move that goes on keeps the books. -/
theorem Goes.accounted (h : e.Goes schedule payload ctx p q) (ha : p.Accounted e.graph) :
    q.Accounted e.graph := by
  cases h with
  | @dispatch id rest h hr room hb =>
    have hid : id ∈ e.graph.ids :=
      ha.known id (Progress.Accounted.mem_released.2 (.inl (hr ▸ List.mem_cons_self)))
    obtain ⟨hs, hid⟩ := StageGraph.stageAt_mem hid
    refine ha.dispatch ?_ hs
    rw [hr]
    exact congrArg (· :: rest) hid.symm
  | complete waits taken answered => exact ha.complete taken _

/-- Every move that goes on is one of the two moves of a stage. -/
theorem Goes.moves (h : e.Goes schedule payload ctx p q) : q.moves = p.moves + 1 := by
  cases h with
  | dispatch ready room bound => exact Progress.Accounted.moves_dispatch p _ _
  | complete waits taken answered => exact Progress.Accounted.moves_complete taken _

/-! ## Runs -/

/-- The moves of a run, one after the other, from a state whose books are right. -/
def turns (e : Executor) (schedule : Schedule) (start : Timestamp) (payload : Json)
    (ctx : RunContext) (p : Progress) (ha : p.Accounted e.graph) : RunReport :=
  match h : e.step schedule start payload ctx p with
  | .goes q => turns e schedule start payload ctx q ((goes_of_step h).accounted ha)
  | .ends r => r
termination_by 2 * e.graph.size - p.moves
decreasing_by
  have hm := (goes_of_step h).moves
  have := ((goes_of_step h).accounted ha).moves_le
  omega

/-- The state in which a run begins. -/
def begin (e : Executor) : Progress :=
  (Progress.initial e.graph).say e.startEntries

theorem begin_accounted (e : Executor) : e.begin.Accounted e.graph :=
  let ⟨distinct, known, flights, counted, due⟩ := Progress.Accounted.initial e.graph
  ⟨distinct, known, flights, counted, due⟩

/-- Runs every stage once. -/
def run (e : Executor) (schedule : Schedule) (start : Timestamp) (payload : Json)
    (ctx : RunContext) : RunReport :=
  e.turns schedule start payload ctx e.begin e.begin_accounted

end Executor

/-- Checks a list of stages, binds them to handlers and runs them once without a cap. -/
def runDefinitions (stages : List StageDefinition) (schedule : Schedule) (start : Timestamp)
    (payload : Json) (ctx : RunContext) (r : HandlerRegistry) : RunReport :=
  match StageGraph.build stages with
  | .error e => .refused (.graph e)
  | .ok g =>
    match Executor.ofRegistry g r with
    | .error e => .refused (.configuration e)
    | .ok e => e.run schedule start payload ctx

end SignalPipeline
