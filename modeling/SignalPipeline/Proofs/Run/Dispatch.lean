import SignalPipeline.Proofs.Run.Finish

/-!
# What a run dispatches, and when

In every state of a run a stage was dispatched only if all its dependencies had completed, none
was dispatched twice, and no more stages are in flight than the cap admits.

* `Progress.Orderly`: the invariant, kept by every move (`Orderly.move`).
* `Executor.dispatch_safe`: what it says of the states of a run and of its execution records.
-/

namespace SignalPipeline

namespace Progress

/-- What a run has dispatched and completed under a cap. -/
structure Orderly (cap : Option Nat) (p : Progress) : Prop where
  /-- What was dispatched has completed or is in flight. -/
  whole : p.dispatched.Perm (p.completed.map Completion.flight ++ p.inFlight)
  /-- A stage is dispatched behind its dependencies. -/
  behind : ∀ f ∈ p.dispatched, ∀ d ∈ f.stage.dependsOn, d ∈ p.completedIds
  /-- A stage completes with a payload. -/
  answered : ∀ c ∈ p.completed, c.flight.answer = .payload c.output
  /-- Stages complete behind their dependencies. -/
  ordered : ∀ before c after, p.completed = before ++ c :: after →
    ∀ d ∈ c.flight.stage.dependsOn, d ∈ before.map fun c => c.flight.stage.id
  fits : ∀ limit, cap = some limit → p.inFlight.length ≤ limit

theorem mem_completedIds {p : Progress} {id : String} :
    id ∈ p.completedIds ↔ ∃ c ∈ p.completed, c.flight.stage.id = id := List.mem_map

namespace Orderly

variable {e : Executor} {cap : Option Nat} {schedule : Schedule} {payload : Json}
  {ctx : RunContext} {p q rest : Progress} {f : Flight} {output : Json}

theorem begin (e : Executor) : e.begin.Orderly cap where
  whole := .refl _
  behind f hf := by cases hf
  answered c hc := by cases hc
  ordered before c after h := by cases before <;> cases h
  fits limit _ := Nat.zero_le limit

/-- A completion that is taken is that of a stage which was dispatched. -/
theorem taken_mem (ho : p.Orderly cap) (taken : p.takeNext schedule = some (f, rest)) :
    f ∈ p.dispatched :=
  ho.whole.mem_iff.2 (List.mem_append_right _ (takeNext_mem taken))

/-- A stage of the queue takes off, and there is room for it. -/
theorem dispatch (ho : p.Orderly cap) {ready : List String} (room : p.hasRoom cap = true)
    (hf : ∀ d ∈ f.stage.dependsOn, d ∈ p.completedIds) : (p.dispatch ready f).Orderly cap where
  whole := by
    show (p.dispatched ++ [f]).Perm (p.completed.map Completion.flight ++ (p.inFlight ++ [f]))
    rw [← List.append_assoc]
    exact ho.whole.append_right [f]
  behind f' hf' := by
    rcases List.mem_append.1 hf' with h | h
    · exact ho.behind f' h
    · rw [List.mem_singleton.1 h]
      exact hf
  answered := ho.answered
  ordered := ho.ordered
  fits limit h := by
    subst h
    show (p.inFlight ++ [f]).length ≤ limit
    unfold hasRoom at room
    simp only [decide_eq_true_eq] at room
    simp only [List.length_append, List.length_singleton]
    omega

/-- A stage in flight completes. -/
theorem complete (ho : p.Orderly cap) (g : StageGraph)
    (taken : p.takeNext schedule = some (f, rest)) (answered : f.answer = .payload output) :
    (rest.complete g f output).Orderly cap := by
  have hdone := completedIds_complete taken g output
  have hf := ho.taken_mem taken
  obtain ⟨before, after, hp, rfl⟩ := takeNext_eq_some taken
  refine ⟨?_, ?_, ?_, ?_, ?_⟩
  · show p.dispatched.Perm
      ((p.completed ++ [Completion.mk f output]).map Completion.flight ++ (before ++ after))
    refine ho.whole.trans ?_
    rw [hp, List.map_append, List.append_assoc]
    exact List.perm_middle.append_left _
  · intro f' hf' d hd
    rw [hdone]
    exact List.mem_append_left _ (ho.behind f' hf' d hd)
  · intro c hc
    rcases List.mem_append.1 hc with h | h
    · exact ho.answered c h
    · rw [List.mem_singleton.1 h]
      exact answered
  · intro front c back h d hd
    rcases split_snoc h with ⟨rfl, rfl⟩ | ⟨back, h⟩
    · exact ho.behind f hf d hd
    · exact ho.ordered front c back h d hd
  · intro limit h
    show (before ++ after).length ≤ limit
    have := ho.fits limit h
    simp only [hp, List.length_append, List.length_cons] at this ⊢
    omega

/-- Every move with which a run goes on keeps the order. -/
theorem move (ha : p.Accounted e.graph) (ho : p.Orderly e.cap)
    (h : e.Goes schedule payload ctx p q) : q.Orderly e.cap := by
  cases h with
  | @dispatch id ready h hr room bound =>
    refine ho.dispatch room ?_
    obtain ⟨s, hs, rfl, hd⟩ := ha.of_ready (hr ▸ List.mem_cons_self)
    show ∀ d ∈ (e.graph.stageAt s.id).dependsOn, d ∈ p.completedIds
    rw [StageGraph.stageAt_of_mem hs]
    exact hd
  | complete waits taken answered =>
    exact ho.complete e.graph taken (Answer.result_eq_ok.1 answered)

end Orderly
end Progress

namespace Executor.Reach

variable {e : Executor} {schedule : Schedule} {start : Timestamp} {payload : Json}
  {ctx : RunContext} {n : Nat} {p : Progress}

theorem orderly (h : e.Reach schedule start payload ctx n p) : p.Orderly e.cap :=
  h.invariant (.begin e) fun _ _ => .move

/-- No stage is dispatched twice. -/
theorem dispatched_nodup (h : e.Reach schedule start payload ctx n p) :
    (p.dispatched.map fun f => f.stage.id).Nodup := by
  have hp := (h.orderly.whole.map fun f => f.stage.id).nodup_iff
  rw [hp, List.map_append, List.map_map, List.perm_append_comm.nodup_iff]
  exact h.accounted.nodup_taken_off

/-- A stage that was dispatched is one of those that the graph was built from, with each dependency
once. -/
theorem dispatched_declared {stages : List StageDefinition}
    (hg : StageGraph.build stages = .ok e.graph) (h : e.Reach schedule start payload ctx n p)
    {f : Flight} (hf : f ∈ p.dispatched) : ∃ s ∈ stages, f.stage = StageGraph.collapse s := by
  have hs := h.accounted.flights f
    (List.perm_append_comm.mem_iff.1 (h.orderly.whole.mem_iff.1 hf))
  rw [StageGraph.stages_of_build hg] at hs
  obtain ⟨s, hs, hfs⟩ := List.mem_map.1 hs
  exact ⟨s, hs, hfs.symm⟩

end Executor.Reach

namespace Executor

/-- **Dispatch is safe.** Whatever the handlers, the cap and the schedule, hence the order of
completions (`Reach.exists_schedule`), in every state of a run over a graph that was built no stage
was dispatched twice, what was dispatched and has not completed is in flight, a stage was dispatched
only if each of its dependencies had completed with a payload, and the stages in flight are no more
than the cap admits. The execution records of a run that succeeds are one for each stage, behind
those of its dependencies, with each dependency once. -/
theorem dispatch_safe {stages : List StageDefinition} {g : StageGraph} {b : Binding} {e : Executor}
    (hg : StageGraph.build stages = .ok g) (he : ofBinding g b = .ok e) (limit : Option Nat)
    (schedule : Schedule) (start : Timestamp) (payload : Json) (ctx : RunContext) :
    let capped := e.withOptionalCap limit
    (∀ n p, capped.Reach schedule start payload ctx n p →
      (p.dispatched.map fun f => f.stage.id).Nodup ∧
      p.dispatched.Perm (p.completed.map Completion.flight ++ p.inFlight) ∧
      (∀ f ∈ p.dispatched, ∃ s ∈ stages, s.id = f.stage.id ∧ ∀ d ∈ s.dependsOn,
        ∃ c ∈ p.completed, c.flight.stage.id = d ∧ c.flight.answer = .payload c.output) ∧
      ∀ k, limit = some k → p.inFlight.length ≤ max k 1) ∧
    ∀ out, (capped.run schedule start payload ctx).result = .ok out →
      (out.stageMeta.map StageMeta.id).Perm (stages.map StageDefinition.id) ∧
      (∀ before m after, out.stageMeta = before ++ m :: after →
        ∀ d ∈ m.dependsOn, d ∈ before.map StageMeta.id) ∧
      ∀ m ∈ out.stageMeta, ∃ s ∈ stages,
        s.id = m.id ∧ m.dependsOn = firstOccurrences s.dependsOn := by
  intro capped
  have hg := build_withOptionalCap hg he limit
  refine ⟨fun n p hp => ⟨hp.dispatched_nodup, hp.orderly.whole, fun f hf => ?_, fun k hk => ?_⟩,
    fun out hout => ?_⟩
  · obtain ⟨s, hs, hfs⟩ := hp.dispatched_declared hg hf
    refine ⟨s, hs, by rw [hfs]; rfl, fun d hd => ?_⟩
    have hdone := hp.orderly.behind f hf d (by rw [hfs]; exact mem_firstOccurrences.2 hd)
    obtain ⟨c, hc, hid⟩ := Progress.mem_completedIds.1 hdone
    exact ⟨c, hc, hid, hp.orderly.answered c hc⟩
  · refine hp.orderly.fits _ ?_
    rw [withOptionalCap_cap, hk]
    rfl
  · have hfin := capped.finishes schedule start payload ctx
    generalize capped.run schedule start payload ctx = r at hfin hout
    cases hfin with
    | failure => cases hout
    | success reached idle all =>
      cases hout
      refine ⟨?_, ?_, ?_⟩
      · rw [← StageGraph.ids_of_build hg, output, List.map_map]
        exact all
      · intro before m after h d hd
        obtain ⟨front, tail, hsplit, rfl, htail⟩ := List.map_eq_append_iff.1 h
        obtain ⟨c, back, rfl, rfl, -⟩ := List.map_eq_cons_iff.1 htail
        rw [List.map_map]
        exact reached.orderly.ordered front c back hsplit d hd
      · intro m hm
        obtain ⟨c, hc, rfl⟩ := List.mem_map.1 hm
        have hf := reached.orderly.whole.mem_iff.2 (List.mem_append_left _ (List.mem_map_of_mem hc))
        obtain ⟨s, hs, hfs⟩ := reached.dispatched_declared hg hf
        exact ⟨s, hs, by rw [stageMeta, hfs]; rfl, by rw [stageMeta, hfs]; rfl⟩

/-- A diamond in which one stage may fly at a time: its shared source is dispatched once. -/
theorem dispatch_safe_diamond :
    ∃ g e, StageGraph.build Fixture.diamond = .ok g ∧ ofBinding g Fixture.relays = .ok e ∧
      let capped := e.withOptionalCap (some 0)
      ∀ n p, capped.Reach .earliest default .null {} n p →
        (p.dispatched.map fun f => f.stage.id).Nodup ∧ p.inFlight.length ≤ 1 := by
  obtain ⟨g, e, hg, he⟩ := exists_executor_diamond (b := Fixture.relays) (by decide)
  refine ⟨g, e, hg, he, fun n p hp => ?_⟩
  obtain ⟨hd, -, -, hf⟩ := (dispatch_safe hg he (some 0) .earliest default .null {}).1 n p hp
  exact ⟨hd, hf 0 rfl⟩

end Executor
end SignalPipeline
