import SignalPipeline.Fixture
import SignalPipeline.Run.Executor

/-!
# The states of a run

A run is a sequence of moves from the state in which it begins to the move that ends it. What
holds of every state in between is proved by induction over the moves.

* `Executor.Reach`: the states that a run gets to, with the number of moves made.
* `Executor.Reach.invariant`: a property that the run begins with and that every move keeps.
* `Executor.Reach.exists_end`: a run gets to the state whose move ends it with its report.
* `Executor.Reach.exists_schedule`: schedules give every order of completions.
-/

namespace SignalPipeline
namespace Executor

/-- The states that a run gets to with so many moves. -/
inductive Reach (e : Executor) (schedule : Schedule) (start : Timestamp) (payload : Json)
    (ctx : RunContext) : Nat → Progress → Prop
  | begin : Reach e schedule start payload ctx 0 e.begin
  | move {n : Nat} {p q : Progress} (reached : Reach e schedule start payload ctx n p)
      (goes : e.step schedule start payload ctx p = .goes q) :
      Reach e schedule start payload ctx (n + 1) q

variable {e : Executor} {schedule : Schedule} {start : Timestamp} {payload : Json}
  {ctx : RunContext} {n : Nat} {p q : Progress}

namespace Reach

/-- The books are right in every state of a run. -/
theorem accounted (h : e.Reach schedule start payload ctx n p) : p.Accounted e.graph := by
  induction h with
  | begin => exact e.begin_accounted
  | move _ goes ih => exact (goes_of_step goes).accounted ih

/-- What a run begins with and every move keeps holds of every state. The move may be taken to
start from right books. -/
theorem invariant {I : Progress → Prop} (hbegin : I e.begin)
    (hmove : ∀ p q, p.Accounted e.graph → I p → e.Goes schedule payload ctx p q → I q)
    (h : e.Reach schedule start payload ctx n p) : I p := by
  induction h with
  | begin => exact hbegin
  | move reached goes ih => exact hmove _ _ reached.accounted ih (goes_of_step goes)

theorem moves (h : e.Reach schedule start payload ctx n p) : p.moves = n := by
  induction h with
  | begin => rfl
  | move _ goes ih => rw [(goes_of_step goes).moves, ih]

/-- A run makes at most two moves for each stage. -/
theorem le_size (h : e.Reach schedule start payload ctx n p) : n ≤ 2 * e.graph.size :=
  h.moves ▸ h.accounted.moves_le

/-- From every state that a run gets to it goes on to the state whose move ends it. -/
theorem exists_end_turns (h : e.Reach schedule start payload ctx n p)
    (ha : p.Accounted e.graph) :
    ∃ m q, e.Reach schedule start payload ctx m q ∧
      e.step schedule start payload ctx q =
        .ends (e.turns schedule start payload ctx p ha) := by
  -- by induction on the number of moves that are left
  induction hk : 2 * e.graph.size - p.moves using Nat.strongRecOn generalizing n p with
  | ind k ih =>
    rw [turns]
    split
    · next q hgo =>
      have hq := Reach.move h hgo
      refine ih _ ?_ hq _ rfl
      have := (goes_of_step hgo).moves
      have := hq.accounted.moves_le
      omega
    · next r hend => exact ⟨n, p, h, hend⟩

/-- A run gets to the state whose move ends it with its report. -/
theorem exists_end (e : Executor) (schedule : Schedule) (start : Timestamp) (payload : Json)
    (ctx : RunContext) :
    ∃ n p, e.Reach schedule start payload ctx n p ∧
      e.step schedule start payload ctx p = .ends (e.run schedule start payload ctx) :=
  exists_end_turns .begin e.begin_accounted

/-! ## Every order of completions -/

/-- A move looks at the choice of the schedule among the stages in flight only. -/
theorem step_congr {schedule' : Schedule} (h : schedule' p.inFlight = schedule p.inFlight) :
    e.step schedule' start payload ctx p = e.step schedule start payload ctx p := by
  unfold step take Progress.takeNext
  rw [h]

/-- A schedule takes a run to the same state if it chooses the same wherever a stage was in flight
that has completed by then. -/
theorem reschedule (h : e.Reach schedule start payload ctx n p) {schedule' : Schedule}
    (hs : ∀ fs : List Flight, (∃ f ∈ fs, f.stage.id ∈ p.completedIds) →
      schedule' fs = schedule fs) : e.Reach schedule' start payload ctx n p := by
  induction h with
  | begin => exact .begin
  | @move n p q reached goes ih =>
    cases goes_of_step goes with
    | @dispatch id rest h ready room bound =>
      refine .move (ih hs) ?_
      unfold step
      rw [ready, room]
      dsimp only
      rw [bound]
    | @complete f rest output waits taken answered =>
      have hdone := Progress.completedIds_complete taken e.graph output
      refine .move (ih fun fs ⟨f', hf', hid⟩ => hs fs ⟨f', hf', ?_⟩) ?_
      · rw [hdone]
        exact List.mem_append_left _ hid
      · rw [step_congr (hs p.inFlight ⟨f, Progress.takeNext_mem taken, by simp [hdone]⟩), goes]

/-- **Every order is that of a schedule.** In every state that some schedule takes a run to, each of
the stages in flight is the next to complete under a schedule that takes the run to the same
state. -/
theorem exists_schedule (h : e.Reach schedule start payload ctx n p) {f : Flight}
    (hf : f ∈ p.inFlight) : ∃ schedule', e.Reach schedule' start payload ctx n p ∧
      ∃ rest, p.takeNext schedule' = some (f, rest) := by
  classical
  obtain ⟨i, hi, hget⟩ := List.getElem_of_mem hf
  refine ⟨fun fs => if fs = p.inFlight then i else schedule fs, h.reschedule ?_, ?_⟩
  · -- nothing that is in flight now has completed, so the choices made so far stay
    rintro fs ⟨f', hf', hid⟩
    refine if_neg fun he => ?_
    subst he
    exact h.accounted.not_completed hf' hid
  · simp only [Progress.takeNext, if_true, Nat.mod_eq_of_lt hi, List.getElem?_eq_getElem hi, hget]
    exact ⟨_, rfl⟩

end Reach

/-! ## The executor that runs -/

variable {g : StageGraph} {b : Binding}

/-- An executor of a binding has the graph and the handlers that it was made of. -/
theorem ofBinding_ok (h : ofBinding g b = .ok e) : e.graph = g ∧ e.binding = b := by
  unfold ofBinding at h
  split at h
  · cases h
  · cases h
    exact ⟨rfl, rfl⟩

/-- An executor is made where every stage has a handler. -/
theorem exists_ofBinding (h : ∀ s ∈ g.stages, (b.get? s.id).isSome) :
    ∃ e, ofBinding g b = .ok e := by
  unfold ofBinding
  split
  · next s hs =>
    have hn := List.find?_some hs
    have hsome := h s (List.mem_of_find?_eq_some hs)
    rw [Option.isNone_iff_eq_none.1 hn] at hsome
    cases hsome
  · exact ⟨_, rfl⟩

/-- Stages that make a graph and have handlers give an executor. -/
theorem exists_executor {stages : List StageDefinition}
    (hok : (StageGraph.build stages).isOk = true)
    (h : (stages.all fun s => (b.get? s.id).isSome) = true) :
    ∃ g e, StageGraph.build stages = .ok g ∧ ofBinding g b = .ok e := by
  cases hg : StageGraph.build stages with
  | error issues =>
    rw [hg] at hok
    cases hok
  | ok g =>
    obtain ⟨e, he⟩ := exists_ofBinding (g := g) (b := b) fun s hs => by
      rw [StageGraph.stages_of_build hg] at hs
      obtain ⟨t, ht, rfl⟩ := List.mem_map.1 hs
      exact List.all_eq_true.1 h t ht
    exact ⟨g, e, rfl, he⟩

/-- Handlers for all stages of the diamond give an executor over it. -/
theorem exists_executor_diamond
    (h : (Fixture.diamond.all fun s => (b.get? s.id).isSome) = true) :
    ∃ g e, StageGraph.build Fixture.diamond = .ok g ∧ ofBinding g b = .ok e :=
  exists_executor (by decide +kernel) h

@[simp] theorem withOptionalCap_graph (e : Executor) (limit : Option Nat) :
    (e.withOptionalCap limit).graph = e.graph := by
  cases limit <;> rfl

@[simp] theorem withOptionalCap_binding (e : Executor) (limit : Option Nat) :
    (e.withOptionalCap limit).binding = e.binding := by
  cases limit <;> rfl

/-- With any cap an executor over a graph runs the stages that the graph was built from. -/
theorem build_withOptionalCap {stages : List StageDefinition}
    (hg : StageGraph.build stages = .ok g) (he : ofBinding g b = .ok e) (limit : Option Nat) :
    StageGraph.build stages = .ok (e.withOptionalCap limit).graph := by
  rw [withOptionalCap_graph, (ofBinding_ok he).1, hg]

/-- A cap of zero counts as one. -/
@[simp] theorem withOptionalCap_cap (e : Executor) (limit : Option Nat) :
    (e.withOptionalCap limit).cap = limit.map (max · 1) := by
  cases limit <;> rfl

end Executor
end SignalPipeline
