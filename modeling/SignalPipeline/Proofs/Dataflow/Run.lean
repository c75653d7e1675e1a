import SignalPipeline.Json.MemberLemmas
import SignalPipeline.Proofs.Dataflow.Meaning
import SignalPipeline.Proofs.Run.Dispatch

/-!
# Runs compute the dataflow meaning

In every state of a run each stage that was dispatched got its dataflow input, and each stage that
completed gave what it yields, whatever else was in flight and whenever its parents completed.

* `Progress.Fed`: the invariant.
* `Executor.Reach.fed`: it holds of every state of a run.
* `Executor.Reach.breaks_of_taken`: a completion with a failure is that of a stage that fails.
-/

namespace SignalPipeline

open Dataflow

namespace Progress

/-- What went in and out of the stages of a run. -/
structure Fed (D : Dataflow) (p : Progress) : Prop where
  /-- A stage is dispatched with its input, and answers it. -/
  takes : ∀ f ∈ p.dispatched, D.Takes f.stage.id f.input ∧
    ∃ answer, D.answer? f.stage.id = some answer ∧ f.answer = answer f.input
  yields : ∀ c ∈ p.completed, D.Yields c.flight.stage.id c.output

variable {p : Progress} {id : String}

/-- The output of a completed stage is found. -/
theorem output?_of_mem (h : id ∈ p.completedIds) :
    ∃ c ∈ p.completed, c.flight.stage.id = id ∧ p.output? id = some c.output := by
  obtain ⟨c, hc, hid⟩ := mem_completedIds.1 h
  have hf : (p.completed.find? fun c => c.flight.stage.id == id).isSome :=
    List.find?_isSome.2 ⟨c, hc, beq_iff_eq.2 hid⟩
  obtain ⟨d, hd⟩ := Option.isSome_iff_exists.1 hf
  have hid := List.find?_some hd
  refine ⟨d, List.mem_of_find?_eq_some hd, beq_iff_eq.1 hid, ?_⟩
  unfold output?
  rw [hd]
  rfl

end Progress

/-- Members sorted by id name the outputs of distinct stages. -/
theorem Dataflow.named_sortMembers {ids : List String} (hd : ids.Nodup) (out : String → Json) :
    Named out ids (sortMembers (ids.map fun id => (id, out id))) := by
  refine ⟨perm_sortMembers ?_, ascending_sortMembers _⟩
  rw [List.map_map]
  exact (List.map_id ids).symm ▸ hd

theorem two_le_length {α : Type} {xs : List α} (hnil : xs ≠ []) (hone : ∀ x, xs ≠ [x]) :
    2 ≤ xs.length := by
  rcases xs with _ | ⟨x, _ | ⟨y, xs⟩⟩
  · exact absurd rfl hnil
  · exact absurd rfl (hone x)
  · simp

/-- What a stage gets is its input, given the outputs that were found. -/
theorem input_stageInput {s : StageDefinition} (hd : s.dependsOn.Nodup) (payload : Json)
    (out? : String → Option Json) :
    Input payload (fun id => (out? id).getD .null) s.dependsOn (stageInput payload out? s) := by
  unfold stageInput
  split
  · next h =>
    rw [h]
    exact .root
  · next parent h =>
    rw [h]
    exact .only parent
  · next hnil hone =>
    have hsorted : ∀ ps is : Json,
        sortMembers [("parents", ps), ("inputs", is)] = [("inputs", is), ("parents", ps)] :=
      fun _ _ => rfl
    unfold Json.ofMembers
    rw [hsorted]
    exact .join (two_le_length hnil hone) (named_sortMembers hd _)

/-- The payload of a run, given outputs that were found for all sinks. -/
theorem final_sinkPayload {g : StageGraph} (hg : g.stages ≠ []) {out? : String → Option Json}
    {out : String → Json} (h : ∀ id ∈ g.sinks, out? id = some (out id)) :
    Final out g.sinks (Executor.sinkPayload g out?) := by
  unfold Executor.sinkPayload
  split
  · next last hs =>
    rw [hs, h last (hs ▸ List.mem_singleton.2 rfl)]
    exact .only last
  · next hone =>
    rw [List.map_congr_left fun id hid => by rw [h id hid, Option.getD_some], Json.ofMembers]
    exact .several (two_le_length (StageGraph.sinks_ne_nil hg) hone)
      (named_sortMembers g.nodup_sinks _)

namespace Progress.Fed

variable {D : Dataflow} {e : Executor} {schedule : Schedule} {payload : Json} {ctx : RunContext}
  {p rest : Progress} {f : Flight} {output : Json}

theorem begin (D : Dataflow) (e : Executor) : e.begin.Fed D where
  takes f hf := by cases hf
  yields c hc := by cases hc

/-- A stage whose dependencies have completed is dispatched with its input. -/
theorem dispatch (hp : p.Fed D) {ready : List String} (takes : D.Takes f.stage.id f.input)
    (answers : ∃ answer, D.answer? f.stage.id = some answer ∧ f.answer = answer f.input) :
    (p.dispatch ready f).Fed D where
  takes f' hf' := by
    rcases List.mem_append.1 hf' with h | h
    · exact hp.takes f' h
    · rw [List.mem_singleton.1 h]
      exact ⟨takes, answers⟩
  yields := hp.yields

/-- A stage that completes gives what it yields. -/
theorem complete (hp : p.Fed D) (ho : p.Orderly e.cap) (g : StageGraph)
    (taken : p.takeNext schedule = some (f, rest)) (answered : f.answer = .payload output) :
    (rest.complete g f output).Fed D := by
  obtain ⟨takes, answer, bound, ha⟩ := hp.takes f (ho.taken_mem taken)
  obtain ⟨before, after, -, rfl⟩ := takeNext_eq_some taken
  refine ⟨hp.takes, fun c hc => ?_⟩
  rcases List.mem_append.1 hc with h | h
  · exact hp.yields c h
  · rw [List.mem_singleton.1 h]
    exact yields_iff.2 ⟨f.input, answer, takes, bound, ha.symm.trans answered⟩

/-- The dataflow input of a stage whose dependencies have completed is what it gets. -/
theorem takes_stageInput {stages : List StageDefinition} {g : StageGraph}
    (hg : StageGraph.build stages = .ok g) {b : Binding} (hp : p.Fed (.of stages b payload ctx))
    {s : StageDefinition} (hs : s ∈ g.stages) (hd : ∀ d ∈ s.dependsOn, d ∈ p.completedIds) :
    (Dataflow.of stages b payload ctx).Takes s.id (stageInput payload p.output? s) := by
  have hinput := input_stageInput (g.collapsed s hs) payload p.output?
  rw [StageGraph.stages_of_build hg] at hs
  obtain ⟨t, ht, rfl⟩ := List.mem_map.1 hs
  refine ⟨t, ht, rfl, _, fun d hdep => ?_, hinput⟩
  obtain ⟨c, hc, hid, hout⟩ := Progress.output?_of_mem (hd d (mem_firstOccurrences.2 hdep))
  rw [hout, ← hid]
  exact hp.yields c hc

end Progress.Fed

namespace Executor.Reach

variable {stages : List StageDefinition} {e : Executor} {schedule : Schedule} {start : Timestamp}
  {payload : Json} {ctx : RunContext} {n : Nat} {p rest : Progress} {f : Flight}
  {failure : Failure}

/-- In every state of a run the stages got their inputs and gave what they yield. -/
theorem fed (hg : StageGraph.build stages = .ok e.graph)
    (h : e.Reach schedule start payload ctx n p) :
    p.Fed (.of stages e.binding payload ctx) := by
  induction h with
  | begin => exact .begin _ e
  | move reached goes ih =>
    cases goes_of_step goes with
    | @dispatch id rest h ready room bound =>
      obtain ⟨s, hs, rfl, hd⟩ := reached.accounted.of_ready (ready ▸ List.mem_cons_self)
      rw [StageGraph.stageAt_of_mem hs]
      exact ih.dispatch (ih.takes_stageInput hg hs hd) ⟨_, of_answer? bound, rfl⟩
    | complete waits taken answered =>
      exact ih.complete reached.orderly e.graph taken (Answer.result_eq_ok.1 answered)

/-- A completion with a failure is that of a stage that fails on its input. -/
theorem breaks_of_taken (hg : StageGraph.build stages = .ok e.graph)
    (h : e.Reach schedule start payload ctx n p) (taken : p.takeNext schedule = some (f, rest))
    (answered : f.answer.result = .error failure) :
    (Dataflow.of stages e.binding payload ctx).Breaks f.stage.id failure := by
  obtain ⟨takes, answer, bound, ha⟩ := (h.fed hg).takes f (h.orderly.taken_mem taken)
  refine ⟨f.input, answer, takes, bound, ?_⟩
  rw [← ha]
  exact Answer.result_eq_error.1 answered

end Executor.Reach

end SignalPipeline
