import SignalPipeline.Run.Handler
import SignalPipeline.Run.Journal

/-!
# Progress of a run

The state of a run over a graph. Each stage counts its dependencies that have not completed; at
zero it joins the queue of ready stages, from which stages are dispatched. A dispatched stage is
in flight until its completion is taken, and the completion counts down the stages that depend on
it. Stages that become ready together join the queue in declared order.

Which of the stages in flight completes next is left open: it is the choice of a `Schedule`. The
stages in flight at two turns of a run are never the same, so schedules give every order
(`Executor.Reach.exists_schedule`).

* `Progress.dispatch`: a stage leaves the queue and takes off.
* `Progress.takeNext`: takes the completion that a schedule chooses.
* `Progress.complete`: records a payload and counts down the stages that wait for it.
-/

namespace SignalPipeline

/-- A dispatched stage. Times are in milliseconds from the start of the run. -/
structure Flight where
  stage : StageDefinition
  input : Json
  answer : Answer
  startedAt : Nat
  dueAt : Nat

/-- The duration of a flight in milliseconds. -/
def Flight.duration (f : Flight) : Float :=
  Float.ofNat (f.dueAt - f.startedAt)

/-- A stage whose payload was taken. -/
structure Completion where
  flight : Flight
  output : Json

/-- The state of a run. -/
structure Progress where
  /-- How many dependencies of each stage have not completed. -/
  pending : Entries Nat
  /-- The queue of ready stages. -/
  ready : List String
  /-- Stages in flight, in the order of their dispatch. -/
  inFlight : List Flight
  /-- Completed stages, in the order in which their payloads were taken. -/
  completed : List Completion
  /-- The time of the last completion taken. -/
  clock : Nat
  /-- Everything that was dispatched, in order. -/
  dispatched : List Flight
  /-- Everything that was said. -/
  journal : Journal

/-- The choice of the next completion: a position among the stages in flight. -/
abbrev Schedule := List Flight → Nat

/-- The schedule of a clock: the stage due first, of several the one dispatched first. -/
def Schedule.earliest : Schedule := fun fs =>
  fs.findIdx fun f => fs.all fun g => f.dueAt ≤ g.dueAt

/-- What a stage gets: the payload of the run if it has no dependency, the output of its only
dependency, or else all outputs by id with the ids in declared order. -/
def stageInput (initial : Json) (output? : String → Option Json) (s : StageDefinition) : Json :=
  match s.dependsOn with
  | [] => initial
  | [parent] => (output? parent).getD .null
  | parents =>
    .ofMembers [("parents", .ofStrings parents),
      ("inputs", .ofMembers (parents.map fun p => (p, (output? p).getD .null)))]

/-- Counts down the pending dependencies of stages: the stages that wait for no further one, and
the counters afterwards. -/
def countDown : List String → Entries Nat → List String × Entries Nat
  | [], pending => ([], pending)
  | id :: ids, pending =>
    match pending.get? id with
    | none => countDown ids pending
    | some n =>
      let (ready, after) := countDown ids (pending.put id (n - 1))
      (if n - 1 = 0 then id :: ready else ready, after)

namespace Progress

/-- What is said when a stage is dispatched. -/
def dispatchEntries (f : Flight) : Journal :=
  [.event (.stageStarted f.stage.id),
    Journal.record .debug "Dispatching stage" [("stage", .string f.stage.id)]]

/-- What is said when a payload is taken. -/
def completionEntries (f : Flight) : Journal :=
  [.event (.stageCompleted f.stage.id f.duration)]

/-- A run that has not begun. -/
def initial (g : StageGraph) : Progress where
  pending := g.inDegree
  ready := g.roots
  inFlight := []
  completed := []
  clock := 0
  dispatched := []
  journal := []

/-- The run after something was said. -/
def say (p : Progress) (entries : Journal) : Progress :=
  { p with journal := p.journal ++ entries }

/-- The ids of stages in flight. -/
def inFlightIds (p : Progress) : List String :=
  p.inFlight.map fun f => f.stage.id

/-- The ids of completed stages, in the order of completion. -/
def completedIds (p : Progress) : List String :=
  p.completed.map fun c => c.flight.stage.id

/-- The output of a completed stage. -/
def output? (p : Progress) (id : String) : Option Json :=
  (p.completed.find? fun c => c.flight.stage.id == id).map Completion.output

/-- Whether the cap admits one more stage in flight. -/
def hasRoom (cap : Option Nat) (p : Progress) : Bool :=
  match cap with
  | none => true
  | some limit => p.inFlight.length < limit

/-- A stage taking off now. -/
def flight (p : Progress) (h : Handler) (payload : Json) (ctx : RunContext) (s : StageDefinition) :
    Flight :=
  let input := stageInput payload p.output? s
  ⟨s, input, h.answer input ctx, p.clock, p.clock + h.delay⟩

/-- The run after a flight took off, with the rest of the queue. -/
def dispatch (p : Progress) (rest : List String) (f : Flight) : Progress :=
  { p with
    ready := rest
    inFlight := p.inFlight ++ [f]
    dispatched := p.dispatched ++ [f]
    journal := p.journal ++ dispatchEntries f }

/-- Takes the completion that the schedule chooses: the stage, and the run without it. -/
def takeNext (schedule : Schedule) (p : Progress) : Option (Flight × Progress) :=
  let i := schedule p.inFlight % p.inFlight.length
  p.inFlight[i]?.map fun f =>
    (f, { p with inFlight := p.inFlight.eraseIdx i, clock := max p.clock f.dueAt })

/-- Records the payload of a stage; its dependents that wait for nothing else become ready. -/
def complete (p : Progress) (g : StageGraph) (f : Flight) (output : Json) : Progress :=
  let (ready, pending) := countDown (g.dependents f.stage.id) p.pending
  { p with
    pending
    ready := p.ready ++ ready
    completed := p.completed ++ [⟨f, output⟩]
    journal := p.journal ++ completionEntries f }

/-- A completion is taken from among the stages in flight, at the position that the schedule
chooses. -/
theorem takeNext_index {schedule : Schedule} {p q : Progress} {f : Flight}
    (h : p.takeNext schedule = some (f, q)) :
    ∃ before after, p.inFlight = before ++ f :: after ∧
      schedule p.inFlight % p.inFlight.length = before.length ∧
      q = { p with inFlight := before ++ after, clock := max p.clock f.dueAt } := by
  simp only [takeNext, Option.map_eq_some_iff, Prod.mk.injEq] at h
  generalize schedule p.inFlight % p.inFlight.length = i at h ⊢
  obtain ⟨_, hg, rfl, rfl⟩ := h
  obtain ⟨hi, rfl⟩ := List.getElem?_eq_some_iff.1 hg
  refine ⟨p.inFlight.take i, p.inFlight.drop (i + 1), ?_, ?_, ?_⟩
  · rw [← List.drop_eq_getElem_cons hi, List.take_append_drop]
  · rw [List.length_take, Nat.min_eq_left (Nat.le_of_lt hi)]
  · rw [List.eraseIdx_eq_take_drop_succ]

theorem takeNext_eq_some {schedule : Schedule} {p q : Progress} {f : Flight}
    (h : p.takeNext schedule = some (f, q)) :
    ∃ before after, p.inFlight = before ++ f :: after ∧
      q = { p with inFlight := before ++ after, clock := max p.clock f.dueAt } := by
  obtain ⟨before, after, hp, -, hq⟩ := takeNext_index h
  exact ⟨before, after, hp, hq⟩

theorem takeNext_mem {schedule : Schedule} {p q : Progress} {f : Flight}
    (h : p.takeNext schedule = some (f, q)) : f ∈ p.inFlight := by
  obtain ⟨before, after, hp, -⟩ := takeNext_eq_some h
  simp [hp]

/-- A completion that was taken is recorded at the end. -/
theorem completedIds_complete {schedule : Schedule} {p q : Progress} {f : Flight}
    (h : p.takeNext schedule = some (f, q)) (g : StageGraph) (output : Json) :
    (q.complete g f output).completedIds = p.completedIds ++ [f.stage.id] := by
  obtain ⟨before, after, -, rfl⟩ := takeNext_eq_some h
  simp [completedIds, complete]

/-- A completion is found as long as a stage is in flight. -/
theorem takeNext_eq_none {schedule : Schedule} {p : Progress} (h : p.takeNext schedule = none) :
    p.inFlight = [] := by
  rw [takeNext, Option.map_eq_none_iff, List.getElem?_eq_none_iff] at h
  by_cases hp : 0 < p.inFlight.length
  · exact absurd (Nat.mod_lt _ hp) (Nat.not_lt.2 h)
  · exact List.length_eq_zero_iff.1 (Nat.eq_zero_of_not_pos hp)

end Progress

end SignalPipeline
