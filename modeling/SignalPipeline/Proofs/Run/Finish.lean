import SignalPipeline.Proofs.Run.Reach

/-!
# Runs finish

As long as a stage has not completed, one is in flight or ready to be dispatched, and every cap
admits a stage. So a run is never stuck: it ends when all stages have completed, or with the first
failure that is taken.

* `Executor.Reach.all_completed`: where nothing is in flight and the queue was served, every stage
  has completed.
* `Executor.Finishes`: the two ways in which a run over a graph finishes.
* `Executor.completed_of_ok`: what is behind a run that succeeds.
* `Executor.never_stuck`: every run is finite and finishes in one of them.
-/

namespace SignalPipeline
namespace Executor

variable {e : Executor} {schedule : Schedule} {start : Timestamp} {payload : Json}
  {ctx : RunContext} {n : Nat} {p : Progress} {r : RunReport}

namespace Reach

/-- As long as a stage has not completed, one is ready or in flight. -/
theorem exists_open (h : e.Reach schedule start payload ctx n p)
    (hopen : ∃ id ∈ e.graph.ids, id ∉ p.completedIds) : p.ready ≠ [] ∨ p.inFlight ≠ [] := by
  obtain ⟨s, hs, hn, hd⟩ := StageGraph.exists_due hopen
  have hr := (h.accounted.due s hs).2 hd
  rcases Progress.Accounted.mem_released.1 hr with h | h | h
  · exact .inl (List.ne_nil_of_mem h)
  · obtain ⟨f, hf, -⟩ := List.mem_map.1 h
    exact .inr (List.ne_nil_of_mem hf)
  · exact absurd h hn

/-- Where nothing is in flight there is room for a stage. -/
theorem hasRoom_of_idle (idle : p.inFlight = []) : p.hasRoom e.cap = true := by
  unfold Progress.hasRoom
  split
  · rfl
  · next limit h =>
    rw [idle]
    exact decide_eq_true (e.admits limit h)

/-- **Progress.** Where nothing is in flight and no stage can be dispatched, every stage has
completed. -/
theorem all_completed (h : e.Reach schedule start payload ctx n p)
    (waits : p.ready = [] ∨ p.hasRoom e.cap = false) (idle : p.inFlight = []) :
    p.completedIds.Perm e.graph.ids := by
  have hready : p.ready = [] := by
    rcases waits with h | h
    · exact h
    · rw [hasRoom_of_idle idle] at h
      cases h
  have hdone := h.accounted.nodup_completedIds
  refine (List.perm_ext_iff_of_nodup hdone e.graph.distinct).2 fun id => ⟨fun hid => ?_, ?_⟩
  · exact h.accounted.known id (Progress.Accounted.mem_released.2 (.inr (.inr hid)))
  · refine fun hid => Classical.byContradiction fun hn => ?_
    rcases h.exists_open ⟨id, hid, hn⟩ with h | h
    · exact h hready
    · exact h idle

/-- A stage in the queue has a handler. -/
theorem ready_bound (h : e.Reach schedule start payload ctx n p) {id : String}
    (hid : id ∈ p.ready) : ∃ handler, e.binding.get? id = some handler := by
  obtain ⟨s, hs, rfl, -⟩ := h.accounted.of_ready hid
  exact e.bound s hs

end Reach

/-- The two ways in which a run finishes. -/
inductive Finishes (e : Executor) (schedule : Schedule) (start : Timestamp) (payload : Json)
    (ctx : RunContext) : RunReport → Prop
  /-- Nothing is in flight, and every stage has completed. -/
  | success {n : Nat} {p : Progress} (reached : e.Reach schedule start payload ctx n p)
      (idle : p.inFlight = []) (all : p.completedIds.Perm e.graph.ids) :
      Finishes e schedule start payload ctx
        ((p.say (successEntries p.completed.length p.clock)).report
          (.ok (output e.graph start p)))
  /-- A completion with a failure is taken. -/
  | failure {n : Nat} {p rest : Progress} {f : Flight} {failure : Failure}
      (reached : e.Reach schedule start payload ctx n p)
      (taken : p.takeNext schedule = some (f, rest))
      (answered : f.answer.result = .error failure) :
      Finishes e schedule start payload ctx
        ((rest.say (failureEntries f failure)).report (.error (.stage f.stage.id failure)))

/-- The move that ends a run finishes it in one of the two ways. -/
theorem Reach.finishes (h : e.Reach schedule start payload ctx n p)
    (hend : e.Ends schedule start p r) : e.Finishes schedule start payload ctx r := by
  cases hend with
  | unbound ready room unbound =>
    obtain ⟨handler, hb⟩ := h.ready_bound (ready ▸ List.mem_cons_self)
    rw [unbound] at hb
    cases hb
  | fail waits taken answered => exact .failure h taken answered
  | conclude waits idle =>
    have hall := h.all_completed waits idle
    have hlength : p.completed.length = e.graph.size := by
      rw [← StageGraph.length_ids, ← hall.length_eq]
      simp [Progress.completedIds]
    unfold conclude
    rw [if_pos (beq_iff_eq.2 hlength)]
    exact .success h idle hall

/-- Every run finishes. -/
theorem finishes (e : Executor) (schedule : Schedule) (start : Timestamp) (payload : Json)
    (ctx : RunContext) :
    e.Finishes schedule start payload ctx (e.run schedule start payload ctx) := by
  obtain ⟨n, p, hp, hend⟩ := Reach.exists_end e schedule start payload ctx
  exact hp.finishes (ends_of_step hend)

/-- What a run has dispatched in the end is what it had dispatched in the last of its states. -/
theorem exists_flights (e : Executor) (schedule : Schedule) (start : Timestamp) (payload : Json)
    (ctx : RunContext) : ∃ n p, e.Reach schedule start payload ctx n p ∧
      (e.run schedule start payload ctx).flights = p.dispatched := by
  have hfin := e.finishes schedule start payload ctx
  generalize e.run schedule start payload ctx = r at hfin
  cases hfin with
  | success reached idle all => exact ⟨_, _, reached, rfl⟩
  | failure reached taken answered =>
    obtain ⟨before, after, -, rfl⟩ := Progress.takeNext_eq_some taken
    exact ⟨_, _, reached, rfl⟩

/-- A run that succeeds gets to a state in which every stage has completed, and gives its output. -/
theorem completed_of_ok {out : RunOutput}
    (h : (e.run schedule start payload ctx).result = .ok out) :
    ∃ n p, e.Reach schedule start payload ctx n p ∧ p.completedIds.Perm e.graph.ids ∧
      out = output e.graph start p := by
  have hfin := e.finishes schedule start payload ctx
  generalize e.run schedule start payload ctx = r at hfin h
  cases hfin with
  | failure => cases h
  | success reached idle all =>
    cases h
    exact ⟨_, _, reached, all, rfl⟩

/-- **A run over a graph that was built never gets stuck.** Whatever the cap and the schedule, hence
the order of completions (`Reach.exists_schedule`), it makes at most two moves for each stage and
then ends; wherever it waits with nothing in flight every stage has completed; and its result is an
output or the failure of a stage. -/
theorem never_stuck {stages : List StageDefinition} {g : StageGraph} {b : Binding}
    (hg : StageGraph.build stages = .ok g) (he : ofBinding g b = .ok e) (limit : Option Nat)
    (schedule : Schedule) (start : Timestamp) (payload : Json) (ctx : RunContext) :
    let capped := e.withOptionalCap limit
    (∀ n p, capped.Reach schedule start payload ctx n p → n ≤ 2 * stages.length ∧
      ((p.ready = [] ∨ p.hasRoom capped.cap = false) → p.inFlight = [] →
        p.completedIds.Perm (stages.map StageDefinition.id))) ∧
    (∃ n p, capped.Reach schedule start payload ctx n p ∧
      capped.step schedule start payload ctx p =
        .ends (capped.run schedule start payload ctx)) ∧
    ((∃ out, (capped.run schedule start payload ctx).result = .ok out) ∨
      ∃ id failure,
        (capped.run schedule start payload ctx).result = .error (.stage id failure)) := by
  intro capped
  have hg := build_withOptionalCap hg he limit
  refine ⟨fun n p hp => ⟨?_, fun waits idle => ?_⟩, Reach.exists_end capped _ _ _ _, ?_⟩
  · rw [← StageGraph.size_of_build hg]
    exact hp.le_size
  · rw [← StageGraph.ids_of_build hg]
    exact hp.all_completed waits idle
  · generalize hr : capped.run schedule start payload ctx = r
    have hfin := hr ▸ capped.finishes schedule start payload ctx
    cases hfin with
    | success reached idle all => exact .inl ⟨_, rfl⟩
    | failure reached taken answered => exact .inr ⟨_, _, rfl⟩

/-- A diamond whose handlers fail, with a cap of zero. -/
theorem never_stuck_diamond :
    ∃ g e, StageGraph.build Fixture.diamond = .ok g ∧ ofBinding g Fixture.faulty = .ok e ∧
      let capped := e.withOptionalCap (some 0)
      (∃ out, (capped.run .earliest default .null {}).result = .ok out) ∨
        ∃ id failure, (capped.run .earliest default .null {}).result =
          .error (.stage id failure) := by
  obtain ⟨g, e, hg, he⟩ := exists_executor_diamond (b := Fixture.faulty) (by decide)
  exact ⟨g, e, hg, he, (never_stuck hg he (some 0) .earliest default .null {}).2.2⟩

end Executor
end SignalPipeline
