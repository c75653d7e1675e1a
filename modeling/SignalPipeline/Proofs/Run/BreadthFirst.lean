import SignalPipeline.Proofs.Run.Finish

/-!
# Runs without delays are breadth-first

Where no handler takes time, everything in flight is due now. If completions that are due at the
same time are taken in the order of their dispatch, the stages in flight, and behind them those in
the queue, are one queue: a stage leaves it at the front, and those that it releases join it at the
end. Where a cap cuts that queue in two makes no difference.

* `StageGraph.Frontier`, `StageGraph.frontier`: what is done and what is queued after so many
  completions.
* `StageGraph.breadthFirst`: the order in which stages leave the queue.
* `Schedule.InOrder`: schedules that take completions due at the same time in the order of dispatch.
* `Executor.Instant`: executors whose handlers take no time.
* `Executor.Reach.queued`: in every state of such a run the stages in flight and the ready ones are
  that queue.
-/

namespace SignalPipeline

/-! ## The order -/

namespace StageGraph

/-- The stages that are released when one more stage is done: those that depend on it and on nothing
that is not done, in declared order. -/
def freed (g : StageGraph) (done : List String) (id : String) : List String :=
  (g.dependents id).filter fun c => (g.stageAt c).dependsOn.all (done ++ [id]).contains

/-- The stages that are done, and those whose dependencies are, in the order in which they were
released. -/
structure Frontier where
  done : List String
  queue : List String

/-- The stage at the front of the queue is done, and those that it releases join the queue. -/
def Frontier.next (g : StageGraph) (s : Frontier) : Frontier :=
  match s.queue with
  | [] => s
  | id :: rest => ⟨s.done ++ [id], rest ++ g.freed s.done id⟩

/-- The frontier after so many stages; it begins with the roots. -/
def frontier (g : StageGraph) : Nat → Frontier
  | 0 => ⟨[], g.roots⟩
  | n + 1 => (g.frontier n).next g

/-- The stages in breadth-first order. -/
def breadthFirst (g : StageGraph) : List String :=
  (g.frontier g.size).done

variable {g : StageGraph} {n m : Nat}

theorem Frontier.done_prefix_next (s : Frontier) : s.done <+: (s.next g).done := by
  unfold next
  split
  · exact List.prefix_rfl
  · exact List.prefix_append _ _

theorem done_prefix_of_le (h : n ≤ m) : (g.frontier n).done <+: (g.frontier m).done := by
  induction h with
  | refl => exact List.prefix_rfl
  | step _ ih => exact ih.trans (Frontier.done_prefix_next _)

/-- The stage at the front of the queue is the next one that is done. -/
theorem frontier_succ {done queue : List String} {id : String}
    (h : g.frontier n = ⟨done, id :: queue⟩) :
    g.frontier (n + 1) = ⟨done ++ [id], queue ++ g.freed done id⟩ := by
  rw [frontier, h]
  rfl

end StageGraph

/-! ## Completions due at the same time -/

/-- Completions that are due at the same time are taken in the order of dispatch: what is chosen is
never due at the same time as something dispatched before it. -/
def Schedule.InOrder (schedule : Schedule) : Prop :=
  ∀ before f after,
    schedule (before ++ f :: after) % (before ++ f :: after).length = before.length →
      ∀ g ∈ before, g.dueAt ≠ f.dueAt

/-- Among stages in flight there is one that nothing is due before. -/
theorem exists_due_first {fs : List Flight} (h : fs ≠ []) :
    ∃ f ∈ fs, ∀ g ∈ fs, f.dueAt ≤ g.dueAt := by
  obtain ⟨t, ht⟩ := Option.ne_none_iff_exists'.1 fun hn : (fs.map Flight.dueAt).min? = none =>
    h (List.map_eq_nil_iff.1 (List.min?_eq_none_iff.1 hn))
  obtain ⟨hmem, hle⟩ := List.min?_eq_some_iff.1 ht
  obtain ⟨f, hf, rfl⟩ := List.mem_map.1 hmem
  exact ⟨f, hf, fun g hg => hle _ (List.mem_map_of_mem hg)⟩

/-- The schedule of a clock chooses the first of the stages in flight that nothing is due before. -/
theorem Schedule.earliest_choice {before after : List Flight} {f : Flight}
    (h : Schedule.earliest (before ++ f :: after) % (before ++ f :: after).length =
      before.length) :
    (∀ g ∈ before ++ f :: after, f.dueAt ≤ g.dueAt) ∧
      ∀ g ∈ before, ∃ g' ∈ before ++ f :: after, g'.dueAt < g.dueAt := by
  generalize hfs : before ++ f :: after = fs at h ⊢
  let first : Flight → Bool := fun f => fs.all fun g => f.dueAt ≤ g.dueAt
  have hne : fs ≠ [] := by simp [← hfs]
  obtain ⟨m, hm, hmin⟩ := exists_due_first hne
  have hlt : fs.findIdx first < fs.length :=
    List.findIdx_lt_length_of_exists ⟨m, hm, by simpa [first] using hmin⟩
  have hindex : fs.findIdx first = before.length := (Nat.mod_eq_of_lt hlt).symm.trans h
  constructor
  · have hget := List.findIdx_getElem (w := hlt)
    simp only [hindex] at hget
    have hchosen : first f = true := by simpa [← hfs] using hget
    simpa [first] using hchosen
  · intro g hg
    obtain ⟨i, hi, rfl⟩ := List.getElem_of_mem hg
    have hearlier := List.not_of_lt_findIdx (hindex ▸ hi)
    simp only [← hfs, List.getElem_append_left hi] at hearlier
    simpa [first] using hearlier

/-- The schedule of a clock does so. -/
theorem Schedule.inOrder_earliest : Schedule.earliest.InOrder := by
  intro before f after h g hg hdue
  obtain ⟨hleast, hlater⟩ := earliest_choice h
  obtain ⟨g', hg', hlt⟩ := hlater g hg
  exact absurd (hleast g' hg') (Nat.not_le.2 (hdue ▸ hlt))

/-- An executor whose handlers take no time. -/
def Executor.Instant (e : Executor) : Prop :=
  ∀ s ∈ e.graph.stages, ∀ h, e.binding.get? s.id = some h → h.delay = 0

/-! ## The queue of a run -/

/-- A sublist of a list without repetition is what a property filters if it has just the elements
with the property. -/
theorem sublist_eq_filter {α : Type} {p : α → Bool} {xs ys : List α} (hs : xs.Sublist ys)
    (hd : ys.Nodup) (h : ∀ y ∈ ys, y ∈ xs ↔ p y = true) : xs = ys.filter p := by
  have hfilter : xs.filter p = xs :=
    List.filter_eq_self.2 fun x hx => (h x (hs.subset hx)).1 hx
  have hsub := hs.filter p
  rw [hfilter] at hsub
  refine hsub.eq_of_length (List.Perm.length_eq ?_)
  refine (List.perm_ext_iff_of_nodup (hs.nodup hd) (hd.filter p)).2 fun y => ?_
  rw [List.mem_filter]
  exact ⟨fun hy => ⟨hs.subset hy, (h y (hs.subset hy)).1 hy⟩, fun hy => (h y hy.1).2 hy.2⟩

namespace Progress

variable {g : StageGraph} {schedule : Schedule} {p q : Progress} {f : Flight}

/-- What a completion counts down to zero is what it releases, in declared order. -/
theorem Accounted.countDown_eq_freed (ha : p.Accounted g)
    (ht : p.takeNext schedule = some (f, q)) :
    (countDown (g.dependents f.stage.id) p.pending).1 = g.freed p.completedIds f.stage.id := by
  refine sublist_eq_filter (countDown_sublist _ _) (g.nodup_dependents _) fun c hc => ?_
  obtain ⟨s, hs, hdep, rfl⟩ := StageGraph.mem_dependents.1 hc
  rw [ha.mem_released_by ht hs, StageGraph.stageAt_of_mem hs, List.all_eq_true]
  simp only [List.contains_iff_mem]
  exact and_iff_right hdep

/-- Everything in flight is due now, and together with the ready stages it is what is queued in
breadth-first order. -/
structure Queued (g : StageGraph) (p : Progress) : Prop where
  due : ∀ f ∈ p.inFlight, f.dueAt = p.clock
  queue : g.frontier p.completed.length = ⟨p.completedIds, p.inFlightIds ++ p.ready⟩

namespace Queued

theorem begin (e : Executor) : e.begin.Queued e.graph where
  due f hf := by cases hf
  queue := rfl

/-- The completion that is taken is that of the stage dispatched first, and no time passes. -/
theorem takeNext_first (hq : p.Queued g) (hs : schedule.InOrder)
    (ht : p.takeNext schedule = some (f, q)) :
    ∃ after, p.inFlight = f :: after ∧ q = { p with inFlight := after } := by
  obtain ⟨before, after, hp, hindex, rfl⟩ := takeNext_index ht
  have hnow : f.dueAt = p.clock := hq.due f (by simp [hp])
  cases before with
  | nil => exact ⟨after, hp, by rw [hnow, Nat.max_self, List.nil_append]⟩
  | cons first before =>
    -- what was dispatched first is due now as well, so it would have been taken
    rw [hp] at hindex
    refine absurd ?_ (hs _ f after hindex first List.mem_cons_self)
    rw [hnow, hq.due first (by simp [hp])]

/-- A stage that takes off stays where it is in the queue. -/
theorem dispatch (hq : p.Queued g) {rest : List String} (hr : p.ready = f.stage.id :: rest)
    (hf : f.dueAt = p.clock) : (p.dispatch rest f).Queued g where
  due f' hf' := by
    rcases List.mem_append.1 hf' with h | h
    · exact hq.due f' h
    · rw [List.mem_singleton.1 h]
      exact hf
  queue := by
    have hids : (p.dispatch rest f).inFlightIds = p.inFlightIds ++ [f.stage.id] := List.map_append
    show g.frontier p.completed.length =
      ⟨p.completedIds, (p.dispatch rest f).inFlightIds ++ rest⟩
    rw [hids, List.append_assoc, List.singleton_append, ← hr]
    exact hq.queue

/-- A stage that completes leaves the queue at the front. -/
theorem complete (hq : p.Queued g) (ha : p.Accounted g) (hs : schedule.InOrder)
    (ht : p.takeNext schedule = some (f, q)) (output : Json) :
    (q.complete g f output).Queued g := by
  have hfreed := ha.countDown_eq_freed ht
  have hdone := completedIds_complete ht g output
  obtain ⟨after, hp, rfl⟩ := hq.takeNext_first hs ht
  refine ⟨fun f' hf' => ?_, ?_⟩
  · exact hq.due f' (hp ▸ List.mem_cons_of_mem f hf')
  · have hqueue : g.frontier p.completed.length =
        ⟨p.completedIds, f.stage.id :: (after.map (fun f => f.stage.id) ++ p.ready)⟩ := by
      rw [hq.queue, inFlightIds, hp]
      rfl
    have hlength : (Progress.complete { p with inFlight := after } g f output).completed.length =
        p.completed.length + 1 := List.length_append
    rw [hlength, hdone, StageGraph.frontier_succ hqueue, ← hfreed]
    exact congrArg _ (List.append_assoc _ _ _)

end Queued
end Progress

namespace Executor.Reach

variable {e : Executor} {schedule : Schedule} {start : Timestamp} {payload : Json}
  {ctx : RunContext} {n : Nat} {p rest : Progress} {f : Flight}

/-- **One queue.** In every state of a run without delays the stages in flight, and behind them the
ready ones, are the queue that the stages completed so far leave in breadth-first order. -/
theorem queued (h : e.Reach schedule start payload ctx n p) (hi : e.Instant)
    (hs : schedule.InOrder) : p.Queued e.graph := by
  refine h.invariant (.begin e) fun p q ha hq goes => ?_
  cases goes with
  | @dispatch id rest h ready room bound =>
    obtain ⟨s, hmem, rfl, -⟩ := ha.of_ready (ready ▸ List.mem_cons_self)
    refine hq.dispatch ?_ ?_
    · rw [ready, Progress.flight, StageGraph.stageAt_of_mem hmem]
    · rw [Progress.flight, hi s hmem h bound, Nat.add_zero]
  | complete waits taken answered => exact hq.complete ha hs taken _

/-- The stage whose completion is taken is at the front of the queue. -/
theorem frontier_of_taken (h : e.Reach schedule start payload ctx n p) (hi : e.Instant)
    (hs : schedule.InOrder) (taken : p.takeNext schedule = some (f, rest)) :
    p.completed.length < e.graph.size ∧
      ∃ queue, e.graph.frontier p.completed.length = ⟨p.completedIds, f.stage.id :: queue⟩ := by
  have hq := h.queued hi hs
  obtain ⟨after, hp, -⟩ := hq.takeNext_first hs taken
  have hlength := h.accounted.length_le
  rw [hp, List.length_cons] at hlength
  refine ⟨by omega, after.map (fun f => f.stage.id) ++ p.ready, ?_⟩
  rw [hq.queue, Progress.inFlightIds, hp]
  rfl

end Executor.Reach
end SignalPipeline
