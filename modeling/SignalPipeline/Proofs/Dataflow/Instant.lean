import SignalPipeline.Proofs.Dataflow.Confluence
import SignalPipeline.Proofs.Dataflow.FailFast
import SignalPipeline.Proofs.Run.BreadthFirst
import SignalPipeline.Proofs.Run.Stream

/-!
# Without delays a cap is not observable

Where no handler takes time, all runs over a list complete the same stages in breadth-first order
and come to the same end, with any cap: they succeed with the same output, or break off at the first
stage of that order that fails.

* `RunOutput.untimed`: what a run gives, without its times.
* `Dataflow.Stopped`: what is behind a run without delays that fails; there is one such end
  (`Stopped.unique`).
* `StageGraph.perm_breadthFirst`: all stages are in breadth-first order.
* `Executor.cap_unobservable`: runs with any two caps.
-/

namespace SignalPipeline

open Dataflow

/-- The output of a run without its times. -/
@[ext] structure UntimedOutput where
  payload : Json
  /-- The outputs of all stages, by ascending id. -/
  outputs : List Member
  /-- The stages in the order of their execution records. -/
  order : List String

/-- What a run gives, without its times. -/
def RunOutput.untimed (out : RunOutput) : UntimedOutput :=
  ⟨out.payload, out.outputs, out.stageMeta.map StageMeta.id⟩

namespace Dataflow

/-- The end of a run without delays that fails: of the stages in breadth-first order some give
payloads, and the next one fails. -/
structure Stopped (D : Dataflow) (g : StageGraph) (done : List String) (id : String)
    (failure : Failure) : Prop where
  next : ∃ n < g.size, ∃ queue, g.frontier n = ⟨done, id :: queue⟩
  yields : ∀ d ∈ done, ∃ v, D.Yields d v
  breaks : D.Breaks id failure

namespace Stopped

variable {D : Dataflow} {g : StageGraph} {done done' : List String} {id id' : String}
  {failure failure' : Failure}

/-- The stage that fails is the next one in breadth-first order. -/
theorem in_front (h : D.Stopped g done id failure) : done ++ [id] <+: g.breadthFirst := by
  obtain ⟨n, hn, queue, hfrontier⟩ := h.next
  have hdone := StageGraph.done_prefix_of_le (g := g) (Nat.succ_le_of_lt hn)
  rwa [StageGraph.frontier_succ hfrontier] at hdone

/-- No more stages are done at another end: the one that fails is not. -/
theorem le (hd : (D.stages.map StageDefinition.id).Nodup) (h : D.Stopped g done id failure)
    (h' : D.Stopped g done' id' failure') {n n' : Nat} {queue queue' : List String}
    (hfrontier : g.frontier n = ⟨done, id :: queue⟩)
    (hfrontier' : g.frontier n' = ⟨done', id' :: queue'⟩) : n' ≤ n := by
  refine Nat.not_lt.1 fun hlt => ?_
  have hgrown := StageGraph.done_prefix_of_le (g := g) (Nat.succ_le_of_lt hlt)
  rw [StageGraph.frontier_succ hfrontier, hfrontier'] at hgrown
  obtain ⟨v, hv⟩ := h'.yields id (hgrown.subset (by simp))
  exact h.breaks.not_yields hd hv

/-- There is one such end. -/
theorem unique (hd : (D.stages.map StageDefinition.id).Nodup) (h : D.Stopped g done id failure)
    (h' : D.Stopped g done' id' failure') : done = done' ∧ id = id' ∧ failure = failure' := by
  obtain ⟨n, -, queue, hfrontier⟩ := h.next
  obtain ⟨n', -, queue', hfrontier'⟩ := h'.next
  obtain rfl : n = n' :=
    Nat.le_antisymm (h'.le hd h hfrontier' hfrontier) (h.le hd h' hfrontier hfrontier')
  cases hfrontier.symm.trans hfrontier'
  exact ⟨rfl, rfl, h.breaks.unique hd h'.breaks⟩

end Stopped
end Dataflow

namespace Executor

variable {stages : List StageDefinition} {g : StageGraph} {b : Binding} {e : Executor}
  {payload : Json} {ctx : RunContext} {schedule : Schedule} {start : Timestamp}

/-! ## One run -/

/-- A run without delays that succeeds has completed all stages in breadth-first order. -/
theorem order_of_ok (hi : e.Instant) (hs : schedule.InOrder) {out : RunOutput}
    (h : (e.run schedule start payload ctx).result = .ok out) :
    Event.completedIds (e.run schedule start payload ctx).journal.events = e.graph.breadthFirst ∧
      out.untimed.order = e.graph.breadthFirst := by
  have hfin := e.finishes schedule start payload ctx
  generalize e.run schedule start payload ctx = r at hfin h
  cases hfin with
  | failure => cases h
  | @success n p reached idle all =>
    cases h
    have hsize : p.completed.length = e.graph.size := by
      rw [← StageGraph.length_ids, ← all.length_eq]
      exact (List.length_map _).symm
    have horder : e.graph.breadthFirst = p.completedIds := by
      rw [StageGraph.breadthFirst, ← hsize, (reached.queued hi hs).queue]
    rw [horder]
    exact ⟨reached.completedIds_append rfl, List.map_map⟩

/-- A run without delays that fails has completed the stages in front of the one that fails. -/
theorem stopped_of_error (hg : StageGraph.build stages = .ok e.graph) (hi : e.Instant)
    (hs : schedule.InOrder) {error : EngineError}
    (h : (e.run schedule start payload ctx).result = .error error) :
    ∃ id failure, error = .stage id failure ∧
      (Dataflow.of stages e.binding payload ctx).Stopped e.graph
        (Event.completedIds (e.run schedule start payload ctx).journal.events) id failure := by
  obtain ⟨n, p, f, rest, failure, reached, taken, answered, rfl, -, hjournal⟩ := taken_of_error h
  have hcompleted : Event.completedIds (e.run schedule start payload ctx).journal.events =
      p.completedIds := by
    rw [hjournal]
    exact reached.completedIds_append rfl
  obtain ⟨hsize, hnext⟩ := reached.frontier_of_taken hi hs taken
  refine ⟨f.stage.id, failure, rfl, ?_⟩
  rw [hcompleted]
  refine ⟨⟨_, hsize, hnext⟩, fun d hd => ?_, reached.breaks_of_taken hg taken answered⟩
  obtain ⟨c, hc, rfl⟩ := Progress.mem_completedIds.1 hd
  exact ⟨c.output, (reached.fed hg).yields c hc⟩

/-! ## All runs -/

/-- Two runs over a list without delays come to the same end. -/
theorem same_end {e e' : Executor} (hg : StageGraph.build stages = .ok e.graph)
    (hg' : e'.graph = e.graph) (hb : e'.binding = e.binding) (hi : e.Instant)
    {schedule schedule' : Schedule} (hs : schedule.InOrder) (hs' : schedule'.InOrder)
    (start start' : Timestamp) :
    Event.completedIds (e'.run schedule' start' payload ctx).journal.events =
        Event.completedIds (e.run schedule start payload ctx).journal.events ∧
      (e'.run schedule' start' payload ctx).result.map RunOutput.untimed =
        (e.run schedule start payload ctx).result.map RunOutput.untimed := by
  have hd := StageGraph.distinct_of_build hg
  have hi' : e'.Instant := by
    unfold Instant
    rw [hg', hb]
    exact hi
  have hsame : Dataflow.of stages e'.binding payload ctx =
      Dataflow.of stages e.binding payload ctx := by rw [hb]
  cases h : (e.run schedule start payload ctx).result with
  | ok out =>
    obtain ⟨outputs, hout⟩ := exists_outputs (D := .of stages e.binding payload ctx)
      (yields_of_ok hg h)
    obtain ⟨r, hr, hfinal, hnamed⟩ := succeeds hg hout schedule start
    obtain ⟨r', hr', hfinal', hnamed'⟩ :=
      succeeds (hg'.symm ▸ hg) (hsame.symm ▸ hout) schedule' start'
    cases hr.symm.trans h
    obtain ⟨hdone, horder⟩ := order_of_ok hi hs h
    obtain ⟨hdone', horder'⟩ := order_of_ok hi' hs' hr'
    rw [hg'] at hdone' horder'
    refine ⟨hdone'.trans hdone.symm, ?_⟩
    rw [hr']
    exact congrArg Except.ok (UntimedOutput.ext (hfinal'.unique hfinal) (hnamed'.unique hnamed)
      (horder'.trans horder.symm))
  | error error =>
    obtain ⟨id, failure, rfl, hstopped⟩ := stopped_of_error hg hi hs h
    obtain ⟨error', herror'⟩ := (failed_iff (hg'.symm ▸ hg) schedule' start').2
      ⟨id, failure, hsame.symm ▸ hstopped.breaks⟩
    obtain ⟨id', failure', rfl, hstopped'⟩ := stopped_of_error (hg'.symm ▸ hg) hi' hs' herror'
    rw [hg', hsame] at hstopped'
    obtain ⟨hdone, rfl, rfl⟩ := hstopped'.unique hd hstopped
    exact ⟨hdone, by rw [herror']⟩

end Executor

/-- All stages are in breadth-first order: a run whose handlers all answer completes them in it. -/
theorem StageGraph.perm_breadthFirst {stages : List StageDefinition} {g : StageGraph}
    (hg : build stages = .ok g) : g.breadthFirst.Perm (stages.map StageDefinition.id) := by
  let b : Binding := g.stages.map fun s => (s.id, Handler.echo)
  have hecho : ∀ id h, b.get? id = some h → h = Handler.echo := by
    intro id h hget
    obtain ⟨s, -, he⟩ := List.mem_map.1 (mem_of_lookup hget)
    exact (Prod.mk.inj he).2.symm
  obtain ⟨e, he⟩ : ∃ e, Executor.ofBinding g b = .ok e := by
    refine Executor.exists_ofBinding fun s hs => ?_
    have hkeys : (b.map Prod.fst).Nodup := by
      rw [List.map_map]
      exact g.distinct
    exact Option.isSome_iff_exists.2 ⟨_, lookup_eq_some_of_mem hkeys (List.mem_map_of_mem hs)⟩
  obtain ⟨rfl, hbinding⟩ := Executor.ofBinding_ok he
  have hi : e.Instant := by
    intro s _ h hb
    rw [hbinding] at hb
    rw [hecho _ h hb]
    rfl
  cases h : (e.run .earliest default .null {}).result with
  | error error =>
    obtain ⟨n, p, f, rest, failure, reached, taken, answered, -⟩ := Executor.taken_of_error h
    obtain ⟨input, answer, -, bound, fails⟩ := reached.breaks_of_taken hg taken answered
    obtain ⟨handler, hget, rfl⟩ := Option.map_eq_some_iff.1 bound
    rw [hbinding] at hget
    rw [hecho _ handler hget] at fails
    rcases fails with hfails | ⟨message, hpanics, -⟩
    · cases hfails
    · cases hpanics
  | ok out =>
    obtain ⟨-, horder⟩ := Executor.order_of_ok hi Schedule.inOrder_earliest h
    obtain ⟨n, p, reached, all, rfl⟩ := Executor.completed_of_ok h
    have hcompleted : (Executor.output e.graph default p).untimed.order = p.completedIds :=
      List.map_map
    rw [← horder, hcompleted, ← ids_of_build hg]
    exact all

namespace Executor

/-- **Without delays the cap is not observable in what a run comes to.** The handlers take no time
and fail, break off or answer as they like; completions that are due at the same time are taken in
the order of dispatch.

With any two caps a run over a list completes the same stages in the same order and ends with the
same payload, the same outputs and execution records in the same order, or with the failure of the
same stage. The order is breadth-first: a run that succeeds has completed all stages in it, and one
that fails those in front of the stage that failed. -/
theorem cap_unobservable {stages : List StageDefinition} {g : StageGraph} {b : Binding}
    {e : Executor} (hg : StageGraph.build stages = .ok g) (he : ofBinding g b = .ok e)
    (hinstant : ∀ s ∈ stages, ∀ h, b.get? s.id = some h → h.delay = 0) (payload : Json)
    (ctx : RunContext) :
    g.breadthFirst.Perm (stages.map StageDefinition.id) ∧
    ∃ (done : List String) (result : Except EngineError UntimedOutput),
      (∀ (limit : Option Nat) (schedule : Schedule) (start : Timestamp), schedule.InOrder →
        let r := (e.withOptionalCap limit).run schedule start payload ctx
        Event.completedIds r.journal.events = done ∧ r.result.map RunOutput.untimed = result) ∧
      (∀ out, result = .ok out → done = g.breadthFirst ∧ out.order = g.breadthFirst) ∧
      ∀ error, result = .error error → ∃ id failure, error = .stage id failure ∧
        done ++ [id] <+: g.breadthFirst := by
  obtain ⟨rfl, rfl⟩ := ofBinding_ok he
  have hi : e.Instant := by
    intro s hs h hb
    rw [StageGraph.stages_of_build hg] at hs
    obtain ⟨t, ht, rfl⟩ := List.mem_map.1 hs
    exact hinstant t ht h hb
  let r := e.run .earliest default payload ctx
  refine ⟨StageGraph.perm_breadthFirst hg, Event.completedIds r.journal.events,
    r.result.map RunOutput.untimed, fun limit schedule start hs => ?_, fun out hout => ?_,
    fun error herror => ?_⟩
  · exact same_end hg (withOptionalCap_graph e limit) (withOptionalCap_binding e limit) hi
      Schedule.inOrder_earliest hs default start
  · cases h : r.result with
    | error error =>
      rw [h] at hout
      cases hout
    | ok out' =>
      rw [h] at hout
      cases hout
      exact order_of_ok hi Schedule.inOrder_earliest h
  · cases h : r.result with
    | ok out =>
      rw [h] at herror
      cases herror
    | error error' =>
      rw [h] at herror
      cases herror
      obtain ⟨id, failure, rfl, hstopped⟩ := stopped_of_error hg hi Schedule.inOrder_earliest h
      exact ⟨id, failure, rfl, hstopped.in_front⟩

/-- A diamond of which one parent fails at once: with one stage at a time and with any number of
them, the clock takes the run to the same end. -/
theorem cap_unobservable_diamond :
    let b : Binding := [("source", .echo), ("left", .failing "left is down"),
      ("right", .constant (.string "r")), ("join", .echo)]
    ∃ g e, StageGraph.build Fixture.diamond = .ok g ∧ ofBinding g b = .ok e ∧
      g.breadthFirst = ["source", "left", "right", "join"] ∧
      let r := (e.withOptionalCap (some 1)).run .earliest default .null {}
      let r' := (e.withOptionalCap none).run .earliest default .null {}
      Event.completedIds r.journal.events = Event.completedIds r'.journal.events ∧
        r.result.map RunOutput.untimed = r'.result.map RunOutput.untimed := by
  intro b
  obtain ⟨g, e, hg, he⟩ := exists_executor_diamond (b := b) (by decide)
  have hinstant : ∀ s ∈ Fixture.diamond, ∀ h, b.get? s.id = some h → h.delay = 0 := by
    intro s hs h hb
    simp only [Fixture.diamond, List.mem_cons, List.not_mem_nil, or_false] at hs
    rcases hs with rfl | rfl | rfl | rfl <;> cases hb <;> rfl
  have horder : (StageGraph.build Fixture.diamond).toOption.map StageGraph.breadthFirst =
      some ["source", "left", "right", "join"] := by decide +kernel
  rw [hg] at horder
  obtain ⟨-, done, result, hsame, -⟩ := cap_unobservable hg he hinstant .null {}
  obtain ⟨hdone, hresult⟩ := hsame (some 1) .earliest default Schedule.inOrder_earliest
  obtain ⟨hdone', hresult'⟩ := hsame none .earliest default Schedule.inOrder_earliest
  exact ⟨g, e, hg, he, Option.some_inj.1 horder, hdone.trans hdone'.symm,
    hresult.trans hresult'.symm⟩

end Executor
end SignalPipeline
