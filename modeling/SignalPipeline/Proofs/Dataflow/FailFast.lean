import SignalPipeline.Proofs.Dataflow.Run

/-!
# Runs fail with their stages

Whether a run fails is a matter of its stages, not of the order in which they complete: it fails
exactly when some stage fails on its dataflow input. Which of several such stages it reports does
depend on the order, but it is always one of them, and nothing is dispatched once its completion
is taken.

* `Executor.taken_of_error`: how a run comes to fail.
* `Executor.failed_iff`: when a run fails.
* `Executor.fail_fast`: with which error, and what was dispatched until then.
-/

namespace SignalPipeline

open Dataflow

/-- A run that ended with an error. -/
def RunReport.Failed (r : RunReport) : Prop :=
  ∃ error, r.result = .error error

namespace Executor

variable {stages : List StageDefinition} {g : StageGraph} {b : Binding} {e : Executor}
  {payload : Json} {ctx : RunContext}

/-- A run that fails took a completion with a failure, and after that it dispatched nothing and
spoke of nothing but the failure. -/
theorem taken_of_error {schedule : Schedule} {start : Timestamp} {error : EngineError}
    (h : (e.run schedule start payload ctx).result = .error error) :
    ∃ n p f rest failure, e.Reach schedule start payload ctx n p ∧
      p.takeNext schedule = some (f, rest) ∧ f.answer.result = .error failure ∧
      error = .stage f.stage.id failure ∧
      (e.run schedule start payload ctx).flights = p.dispatched ∧
      (e.run schedule start payload ctx).journal = p.journal ++ failureEntries f failure := by
  have hfin := e.finishes schedule start payload ctx
  generalize e.run schedule start payload ctx = r at hfin h
  cases hfin with
  | success => cases h
  | @failure n p rest f failure reached taken answered =>
    cases h
    refine ⟨n, p, f, rest, failure, reached, taken, answered, rfl, ?_⟩
    obtain ⟨before, after, -, rfl⟩ := Progress.takeNext_eq_some taken
    exact ⟨rfl, rfl⟩

/-- A run fails exactly when a stage fails on its dataflow input. -/
theorem failed_iff (hg : StageGraph.build stages = .ok e.graph) (schedule : Schedule)
    (start : Timestamp) : (e.run schedule start payload ctx).Failed ↔
      ∃ id failure, (Dataflow.of stages e.binding payload ctx).Breaks id failure := by
  have hfin := e.finishes schedule start payload ctx
  generalize e.run schedule start payload ctx = r at hfin
  cases hfin with
  | failure reached taken answered =>
    exact ⟨fun _ => ⟨_, _, reached.breaks_of_taken hg taken answered⟩, fun _ => ⟨_, rfl⟩⟩
  | success reached idle all =>
    refine ⟨fun ⟨_, h⟩ => (by cases h), fun ⟨id, failure, hb⟩ => ?_⟩
    -- every stage has completed, so none fails
    have hid : id ∈ e.graph.ids := by
      obtain ⟨_, _, ⟨s, hs, rfl, -⟩, -⟩ := hb
      rw [StageGraph.ids_of_build hg]
      exact List.mem_map_of_mem hs
    obtain ⟨c, hc, rfl⟩ := Progress.mem_completedIds.1 (all.mem_iff.2 hid)
    exact absurd ((reached.fed hg).yields c hc) (hb.not_yields (StageGraph.distinct_of_build hg))

/-- No stage behind one that fails is dispatched. -/
theorem not_dispatched_of_breaks (hg : StageGraph.build stages = .ok e.graph) {id : String}
    {failure : Failure} (hb : (Dataflow.of stages e.binding payload ctx).Breaks id failure)
    (schedule : Schedule) (start : Timestamp) :
    ∀ f ∈ (e.run schedule start payload ctx).flights,
      ¬ (Dataflow.of stages e.binding payload ctx).Ancestor id f.stage.id := by
  obtain ⟨n, p, reached, hflights⟩ := e.exists_flights schedule start payload ctx
  rw [hflights]
  exact fun f hf ha =>
    hb.no_input (StageGraph.distinct_of_build hg) ha ((reached.fed hg).takes f hf).1

/-- **A run fails fast, and exactly when a stage fails.** A run over a list fails if and only if
some stage fails on its dataflow input, so all runs over the list do or none does, whatever the cap
and the schedule, hence the order of completions (`Reach.exists_schedule`). No stage behind one that
fails is ever dispatched. The error is that of a stage which fails while all its ancestors give
payloads, with the failure as the handler gave it, and a run that took this failure dispatched and
said nothing more of other stages. -/
theorem fail_fast (hg : StageGraph.build stages = .ok g) (he : ofBinding g b = .ok e)
    (payload : Json) (ctx : RunContext) (limit : Option Nat) (schedule : Schedule)
    (start : Timestamp) :
    let D := Dataflow.of stages b payload ctx
    let capped := e.withOptionalCap limit
    let r := capped.run schedule start payload ctx
    (r.Failed ↔ ∃ id failure, D.Breaks id failure) ∧
    (∀ limit' schedule' start',
      ((e.withOptionalCap limit').run schedule' start' payload ctx).Failed ↔ r.Failed) ∧
    (∀ id failure, D.Breaks id failure → ∀ f ∈ r.flights, ¬ D.Ancestor id f.stage.id) ∧
    ∀ error, r.result = .error error → ∃ id failure, error = .stage id failure ∧
      D.Breaks id failure ∧ (∀ a, D.Ancestor a id → ∃ v, D.Yields a v) ∧
      ∃ n p f rest, capped.Reach schedule start payload ctx n p ∧
        p.takeNext schedule = some (f, rest) ∧ f.stage.id = id ∧
        f.answer.result = .error failure ∧ r.flights = p.dispatched ∧
        r.journal = p.journal ++ failureEntries f failure := by
  intro D capped r
  have hgraph := build_withOptionalCap hg he
  have hD : ∀ limit', Dataflow.of stages (e.withOptionalCap limit').binding payload ctx = D :=
    fun limit' => by rw [withOptionalCap_binding, (ofBinding_ok he).2]
  have hiff : ∀ limit' schedule' start',
      ((e.withOptionalCap limit').run schedule' start' payload ctx).Failed ↔
        ∃ id failure, D.Breaks id failure :=
    fun limit' schedule' start' => hD limit' ▸ failed_iff (hgraph limit') schedule' start'
  refine ⟨hiff limit schedule start, fun limit' schedule' start' => ?_, fun id failure hb => ?_,
    fun error herror => ?_⟩
  · exact (hiff limit' schedule' start').trans (hiff limit schedule start).symm
  · rw [← hD limit] at hb ⊢
    exact not_dispatched_of_breaks (hgraph limit) hb schedule start
  · obtain ⟨n, p, f, rest, failure, reached, taken, answered, rfl, hflights, hjournal⟩ :=
      taken_of_error herror
    have hb := reached.breaks_of_taken (hgraph limit) taken answered
    have htakes := ((reached.fed (hgraph limit)).takes f (reached.orderly.taken_mem taken)).1
    rw [hD limit] at hb htakes
    exact ⟨f.stage.id, failure, rfl, hb,
      fun a ha => htakes.ancestors (StageGraph.distinct_of_build hg) ha,
      n, p, f, rest, reached, taken, rfl, answered, hflights, hjournal⟩

/-- A diamond in which one stage fails: all its runs do. -/
theorem fail_fast_diamond :
    ∃ g e, StageGraph.build Fixture.diamond = .ok g ∧ ofBinding g Fixture.faulty = .ok e ∧
      ∀ limit schedule start, ((e.withOptionalCap limit).run schedule start .null {}).Failed := by
  obtain ⟨g, e, hg, he⟩ := exists_executor_diamond (b := Fixture.faulty) (by decide)
  refine ⟨g, e, hg, he, fun limit schedule start => ?_⟩
  refine (fail_fast hg he .null {} limit schedule start).1.2 ⟨"left", .message "left is down", ?_⟩
  let D := Dataflow.of Fixture.diamond Fixture.faulty .null {}
  let out : String → Json := fun _ => .null
  have hnone : ∀ d ∈ (StageDefinition.internal "source").dependsOn, D.Yields d (out d) := nofun
  have hsource : D.Yields "source" (out "source") :=
    .answer (s := .internal "source") (by decide) hnone .root rfl rfl
  refine ⟨.null, fun _ => .failure (.message "left is down"), ?_, rfl, .inl rfl⟩
  refine ⟨(StageDefinition.internal "left").withDependencies ["source", "source"], by decide, rfl,
    out, fun d hd => ?_, .only "source"⟩
  obtain rfl : d = "source" := by simpa [StageDefinition.withDependencies] using hd
  exact hsource

end Executor
end SignalPipeline
