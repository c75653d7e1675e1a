import SignalPipeline.Proofs.Run.BreadthFirst
import SignalPipeline.Proofs.Run.Dispatch

/-!
# What a run waits for

The queue is served first come, first served: stages are dispatched in the order in which the last
of their dependencies completed. So a run waits for a completion only where it has to: the cap
admits no further stage, or every stage whose dependencies have completed was dispatched.

* `StageGraph.readyOrder`: the order in which completions make stages ready.
* `Executor.Reach.dispatched_append_ready`: what was dispatched, and behind it the queue, is in that
  order.
* `Executor.Waits`: the next move of the run takes a completion.
* `Executor.Reach.full_or_served`: why a run waits.
-/

namespace SignalPipeline

namespace StageGraph

/-- The stages that are released while those of a list are done one after the other, behind some
that were done before. -/
def freedAlong (g : StageGraph) : List String → List String → List String
  | _, [] => []
  | done, id :: ids => g.freed done id ++ g.freedAlong (done ++ [id]) ids

/-- The order in which stages become ready while those of a list complete: the roots, and then with
each completion the stages that it releases. -/
def readyOrder (g : StageGraph) (done : List String) : List String :=
  g.roots ++ g.freedAlong [] done

theorem freedAlong_concat (g : StageGraph) (done ids : List String) (id : String) :
    g.freedAlong done (ids ++ [id]) = g.freedAlong done ids ++ g.freed (done ++ ids) id := by
  induction ids generalizing done with
  | nil => simp [freedAlong]
  | cons x ids ih => simp [freedAlong, ih]

/-- The stages that a completion releases become ready behind all others. -/
theorem readyOrder_concat (g : StageGraph) (done : List String) (id : String) :
    g.readyOrder (done ++ [id]) = g.readyOrder done ++ g.freed done id := by
  rw [readyOrder, freedAlong_concat, List.nil_append, ← List.append_assoc, ← readyOrder]

end StageGraph

/-- A ready id is that of a stage of the graph. -/
theorem Progress.Accounted.stageAt_of_ready {g : StageGraph} {p : Progress} (ha : p.Accounted g)
    {id : String} (h : id ∈ p.ready) : g.stageAt id ∈ g.stages ∧ (g.stageAt id).id = id :=
  StageGraph.stageAt_mem (ha.known id (mem_released.2 (.inl h)))

namespace Executor

/-- The next move of a run takes a completion. -/
def Waits (e : Executor) (schedule : Schedule) (start : Timestamp) (payload : Json)
    (ctx : RunContext) (p : Progress) : Prop :=
  e.step schedule start payload ctx p = e.take schedule start p

variable {e : Executor} {schedule : Schedule} {start : Timestamp} {payload : Json}
  {ctx : RunContext} {n : Nat} {p q : Progress}

/-- A move that takes a completion dispatches nothing. -/
theorem dispatched_of_take (h : e.take schedule start p = .goes q) :
    q.dispatched = p.dispatched := by
  unfold take at h
  split at h
  · cases h
  · next f rest taken =>
    split at h
    · cases h
    · cases h
      obtain ⟨before, after, -, rfl⟩ := Progress.takeNext_eq_some taken
      rfl

namespace Reach

/-- A run waits exactly where the queue is empty or the cap admits nothing more. -/
theorem waits_iff (h : e.Reach schedule start payload ctx n p) :
    e.Waits schedule start payload ctx p ↔ p.ready = [] ∨ p.hasRoom e.cap = false := by
  constructor
  · refine fun hw => waits_of_not fun id rest hr room => ?_
    obtain ⟨handler, hb⟩ := h.ready_bound (hr ▸ List.mem_cons_self)
    -- the stage at the front would have been dispatched instead
    have hstep : e.step schedule start payload ctx p =
        .goes (p.dispatch rest (p.flight handler payload ctx (e.graph.stageAt id))) := by
      simp only [step, hr, room, hb]
    have hd := dispatched_of_take (hw.symm.trans hstep)
    simp [Progress.dispatch] at hd
  · unfold Waits step
    rintro (hr | room)
    · rw [hr]
    · rw [room]
      cases p.ready <;> rfl

/-- **First come, first served.** What was dispatched, and behind it the queue, is in the order in
which the stages became ready. -/
theorem dispatched_append_ready (h : e.Reach schedule start payload ctx n p) :
    (p.dispatched.map fun f => f.stage.id) ++ p.ready = e.graph.readyOrder p.completedIds := by
  refine h.invariant (I := fun p => (p.dispatched.map fun f => f.stage.id) ++ p.ready =
    e.graph.readyOrder p.completedIds) ?_ fun p q ha hp goes => ?_
  · exact (List.append_nil _).symm
  cases goes with
  | @dispatch id rest handler ready room bound =>
    have hid := (ha.stageAt_of_ready (ready ▸ List.mem_cons_self)).2
    show ((p.dispatched ++ [_]).map fun f : Flight => f.stage.id) ++ rest =
      e.graph.readyOrder p.completedIds
    rw [← hp, ready, List.map_append, List.append_assoc]
    exact congrArg (fun x => _ ++ x :: rest) hid
  | @complete f rest output waits taken answered =>
    rw [Progress.completedIds_complete taken, StageGraph.readyOrder_concat, ← hp,
      ← ha.countDown_eq_freed taken, List.append_assoc]
    obtain ⟨before, after, -, rfl⟩ := Progress.takeNext_eq_some taken
    rfl

/-- **A run waits only where it has to.** Either as many stages are in flight as the cap admits, or
every stage whose dependencies have completed was dispatched. -/
theorem full_or_served (h : e.Reach schedule start payload ctx n p)
    (hw : e.Waits schedule start payload ctx p) :
    (∃ limit, e.cap = some limit ∧ p.inFlight.length = limit) ∨
      ∀ s ∈ e.graph.stages, (∀ d ∈ s.dependsOn, d ∈ p.completedIds) →
        ∃ f ∈ p.dispatched, f.stage.id = s.id := by
  rcases h.waits_iff.1 hw with hempty | hfull
  · refine .inr fun s hs hd => ?_
    have hreleased := Progress.Accounted.mem_released.1 ((h.accounted.due s hs).2 hd)
    rw [hempty] at hreleased
    rcases hreleased with hready | hflies | hdone
    · cases hready
    · obtain ⟨f, hf, hid⟩ := List.mem_map.1 hflies
      exact ⟨f, h.orderly.whole.mem_iff.2 (List.mem_append_right _ hf), hid⟩
    · obtain ⟨c, hc, hid⟩ := Progress.mem_completedIds.1 hdone
      exact ⟨c.flight,
        h.orderly.whole.mem_iff.2 (List.mem_append_left _ (List.mem_map_of_mem hc)), hid⟩
  · left
    unfold Progress.hasRoom at hfull
    split at hfull
    · cases hfull
    · next limit hcap =>
      have hfits := h.orderly.fits limit hcap
      have hreached := of_decide_eq_false hfull
      exact ⟨limit, hcap, by omega⟩

end Reach
end Executor
end SignalPipeline
