import SignalPipeline.Proofs.Dataflow.Run

/-!
# Every order gives the same result

Where every stage of a list gives a payload, a run succeeds under every cap and every order of
completions, and its result is the dataflow meaning of the list: the order decides only when stages
run.

* `Executor.succeeds`: a run over stages that all give payloads succeeds with their outputs.
* `Executor.repeats`: a run repeats the payload of another one.
* `Executor.run_confluent`: all runs have the same payload and the same outputs.
-/

namespace SignalPipeline

open Dataflow

/-- The sinks of a graph are the stages of the list that no stage depends on. -/
theorem StageGraph.sinks_of_build {stages : List StageDefinition} {g : StageGraph}
    (hg : build stages = .ok g) : g.sinks = terminals stages := by
  unfold sinks terminals
  rw [ids_of_build hg]
  refine List.filter_congr fun id _ => ?_
  rw [Bool.eq_iff_iff, List.isEmpty_iff, List.eq_nil_iff_forall_not_mem, List.all_eq_true]
  have hdep : ∀ s : StageDefinition, id ∈ (collapse s).dependsOn ↔ id ∈ s.dependsOn :=
    fun s => mem_firstOccurrences
  refine ⟨fun h s hs => ?_, fun h c hc => ?_⟩
  · rw [Bool.not_eq_true', ← Bool.not_eq_true, List.contains_iff_mem, ← hdep]
    intro hid
    refine h s.id (mem_dependents.2 ⟨collapse s, ?_, hid, rfl⟩)
    rw [stages_of_build hg]
    exact List.mem_map_of_mem hs
  · obtain ⟨s, hs, hid, -⟩ := mem_dependents.1 hc
    rw [stages_of_build hg] at hs
    obtain ⟨t, ht, rfl⟩ := List.mem_map.1 hs
    have hn := h t ht
    rw [Bool.not_eq_true', ← Bool.not_eq_true, List.contains_iff_mem, ← hdep] at hn
    exact hn hid

namespace Executor

variable {stages : List StageDefinition} {g : StageGraph} {b : Binding} {e : Executor}
  {payload : Json} {ctx : RunContext}

/-- A run over stages that all give payloads succeeds with their outputs. -/
theorem succeeds (hg : StageGraph.build stages = .ok e.graph) {out : String → Json}
    (hy : ∀ s ∈ stages, (Dataflow.of stages e.binding payload ctx).Yields s.id (out s.id))
    (schedule : Schedule) (start : Timestamp) :
    ∃ r, (e.run schedule start payload ctx).result = .ok r ∧
      Final out (terminals stages) r.payload ∧
      Named out (stages.map StageDefinition.id) r.outputs := by
  have hd := StageGraph.distinct_of_build hg
  have hids := StageGraph.ids_of_build hg
  have hfin := e.finishes schedule start payload ctx
  generalize e.run schedule start payload ctx = r at hfin
  cases hfin with
  | failure reached taken answered =>
    -- the stage that fails is one of the list, so it gives a payload
    have hb := reached.breaks_of_taken hg taken answered
    obtain ⟨s, hs, hf⟩ := reached.dispatched_declared hg (reached.orderly.taken_mem taken)
    rw [hf] at hb
    exact absurd (hy s hs) (hb.not_yields hd)
  | @success n p reached idle all =>
    have hout : ∀ c ∈ p.completed, c.output = out c.flight.stage.id := by
      intro c hc
      have hid := hids ▸ all.mem_iff.1 (List.mem_map_of_mem hc)
      obtain ⟨s, hs, hid⟩ := List.mem_map.1 hid
      exact ((reached.fed hg).yields c hc).unique hd (hid ▸ hy s hs)
    refine ⟨_, rfl, ?_, ?_⟩
    · rw [← StageGraph.sinks_of_build hg]
      refine final_sinkPayload (StageGraph.stages_ne_nil_of_build hg) fun id hid => ?_
      have hmem := all.mem_iff.2 (StageGraph.mem_sinks.1 hid).1
      obtain ⟨c, hc, rfl, hfound⟩ := Progress.output?_of_mem hmem
      rw [hfound, hout c hc]
    · have hkeys : (p.completed.map fun c => (c.flight.stage.id, c.output)) =
          p.completedIds.map fun id => (id, out id) := by
        rw [Progress.completedIds, List.map_map]
        exact List.map_congr_left fun c hc => by rw [hout c hc]; rfl
      have hnodup : p.completedIds.Nodup := all.nodup_iff.2 e.graph.distinct
      have hnamed := named_sortMembers hnodup out
      rw [← hkeys] at hnamed
      exact ⟨hnamed.perm.trans (hids ▸ all.map _), hnamed.ascending⟩

/-- All stages of a run that succeeds give payloads. -/
theorem yields_of_ok (hg : StageGraph.build stages = .ok e.graph) {schedule : Schedule}
    {start : Timestamp} {r : RunOutput} (h : (e.run schedule start payload ctx).result = .ok r) :
    ∀ s ∈ stages, ∃ v, (Dataflow.of stages e.binding payload ctx).Yields s.id v := by
  intro s hs
  obtain ⟨n, p, reached, all, -⟩ := completed_of_ok h
  have hid : s.id ∈ e.graph.ids := StageGraph.ids_of_build hg ▸ List.mem_map_of_mem hs
  obtain ⟨c, hc, hcid⟩ := Progress.mem_completedIds.1 (all.mem_iff.2 hid)
  exact ⟨c.output, hcid ▸ (reached.fed hg).yields c hc⟩

/-- A run over the same stages repeats the payload of one that succeeded if the handlers answer
alike, with any caps and any orders of completions. -/
theorem repeats {e' : Executor} {ctx' : RunContext} (hg : StageGraph.build stages = .ok e.graph)
    (hg' : StageGraph.build stages = .ok e'.graph)
    (hsame : Dataflow.of stages e'.binding payload ctx' = Dataflow.of stages e.binding payload ctx)
    {schedule : Schedule} {start : Timestamp} {r : RunOutput}
    (h : (e.run schedule start payload ctx).result = .ok r) (schedule' : Schedule)
    (start' : Timestamp) :
    ∃ r', (e'.run schedule' start' payload ctx').result = .ok r' ∧ r'.payload = r.payload := by
  -- the outputs of both runs are the payloads that the stages give
  obtain ⟨out, hout⟩ := exists_outputs (D := .of stages e.binding payload ctx) (yields_of_ok hg h)
  obtain ⟨r₀, hr₀, hfinal, -⟩ := succeeds hg hout schedule start
  obtain ⟨r', hr', hfinal', -⟩ := succeeds hg' (hsame ▸ hout) schedule' start'
  cases hr₀.symm.trans h
  exact ⟨r', hr', hfinal'.unique hfinal⟩

/-- **A run computes the dataflow meaning of its stages, whatever the order.** Where every stage of
a list gives a payload for its input, there are outputs that satisfy the equations of all stages,
and every run over the list succeeds with them: with any cap, any schedule, hence any order of
completions (`Reach.exists_schedule`), and any delays of the handlers. Its outputs are one for each
stage, and its payload is that of the stages which no stage depends on. -/
theorem run_confluent (hg : StageGraph.build stages = .ok g) (he : ofBinding g b = .ok e)
    (payload : Json) (ctx : RunContext)
    (hy : ∀ s ∈ stages, ∃ v, (Dataflow.of stages b payload ctx).Yields s.id v) :
    ∃ (out : String → Json) (final : Json) (outputs : List Member),
      (Dataflow.of stages b payload ctx).Solves out ∧
      Final out (terminals stages) final ∧
      Named out (stages.map StageDefinition.id) outputs ∧
      ∀ (b' : Binding) (e' : Executor) (ctx' : RunContext), ofBinding g b' = .ok e' →
        Dataflow.of stages b' payload ctx' = Dataflow.of stages b payload ctx →
        ∀ (limit : Option Nat) (schedule : Schedule) (start : Timestamp),
          ∃ r, ((e'.withOptionalCap limit).run schedule start payload ctx').result = .ok r ∧
            r.payload = final ∧ r.outputs = outputs := by
  have hd := StageGraph.distinct_of_build hg
  -- the outputs are the payloads that the stages give
  obtain ⟨out, hout⟩ := exists_outputs (D := .of stages b payload ctx) hy
  -- every run over them succeeds with these outputs
  have hrun : ∀ (b' : Binding) (e' : Executor) (ctx' : RunContext), ofBinding g b' = .ok e' →
      Dataflow.of stages b' payload ctx' = Dataflow.of stages b payload ctx →
      ∀ (limit : Option Nat) (schedule : Schedule) (start : Timestamp),
        ∃ r, ((e'.withOptionalCap limit).run schedule start payload ctx').result = .ok r ∧
          Final out (terminals stages) r.payload ∧
          Named out (stages.map StageDefinition.id) r.outputs := by
    intro b' e' ctx' he' hsame limit schedule start
    refine succeeds (build_withOptionalCap hg he' limit) ?_ schedule start
    rw [withOptionalCap_binding, (ofBinding_ok he').2, hsame]
    exact hout
  obtain ⟨r₀, -, hfinal, hnamed⟩ := hrun b e ctx he rfl none .earliest default
  refine ⟨out, r₀.payload, r₀.outputs, solves_of_yields hd hout, hfinal, hnamed, ?_⟩
  intro b' e' ctx' he' hsame limit schedule start
  obtain ⟨r, hr, hf, hn⟩ := hrun b' e' ctx' he' hsame limit schedule start
  exact ⟨r, hr, hf.unique hfinal, hn.unique hnamed⟩

/-- A diamond whose handlers give payloads: all its runs give the same. -/
theorem run_confluent_diamond :
    ∃ g e, StageGraph.build Fixture.diamond = .ok g ∧ ofBinding g Fixture.relays = .ok e ∧
      ∃ final outputs, ∀ limit schedule start,
        ∃ r, ((e.withOptionalCap limit).run schedule start .null {}).result = .ok r ∧
          r.payload = final ∧ r.outputs = outputs := by
  obtain ⟨g, e, hg, he⟩ := exists_executor_diamond (b := Fixture.relays) (by decide)
  let D := Dataflow.of Fixture.diamond Fixture.relays .null {}
  let out : String → Json := fun id => if id = "right" then .string "r" else .null
  have hnone : ∀ d ∈ (StageDefinition.internal "source").dependsOn, D.Yields d (out d) := nofun
  have hsource : D.Yields "source" (out "source") :=
    .answer (s := .internal "source") (by decide) hnone .root rfl rfl
  have hparent : ∀ d ∈ ["source"], D.Yields d (out d) :=
    fun d hd => List.mem_singleton.1 hd ▸ hsource
  have hleft : D.Yields "left" (out "left") :=
    .answer (s := (StageDefinition.internal "left").withDependencies ["source", "source"])
      (by decide) (fun d hd => hparent d (by simpa [StageDefinition.withDependencies] using hd))
      (.only "source") rfl rfl
  have hright : D.Yields "right" (out "right") :=
    .answer (s := (StageDefinition.internal "right").withDependencies ["source"])
      (by decide) hparent (.only "source") rfl rfl
  have hparents : ∀ d ∈ ["right", "left", "right"], D.Yields d (out d) := by
    intro d hd
    simp only [List.mem_cons, List.not_mem_nil, or_false] at hd
    rcases hd with rfl | rfl | rfl
    · exact hright
    · exact hleft
    · exact hright
  have hjoin : ∃ v, D.Yields "join" v :=
    ⟨_, .answer
      (s := (StageDefinition.internal "join").withDependencies ["right", "left", "right"])
      (by decide) hparents (.join (by decide) (named_sortMembers (by decide) out)) rfl rfl⟩
  obtain ⟨-, final, outputs, -, -, -, h⟩ := run_confluent hg he .null {} fun s hs => by
      simp only [Fixture.diamond, List.mem_cons, List.not_mem_nil, or_false] at hs
      rcases hs with rfl | rfl | rfl | rfl
      · exact ⟨_, hsource⟩
      · exact ⟨_, hleft⟩
      · exact ⟨_, hright⟩
      · exact hjoin
  exact ⟨g, e, hg, he, final, outputs, h Fixture.relays e {} he rfl⟩

end Executor
end SignalPipeline
