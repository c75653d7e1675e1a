import Mathlib.Logic.Relation
import SignalPipeline.Graph.StageGraphLemmas
import SignalPipeline.Run.Handler

/-!
# The dataflow meaning of a list of stages

What the stages of a list give for a payload, without any run: a stage answers its input, and its
input is made of what its dependencies give. There are no queues, counters or clocks here.

* `Dataflow.Yields`: the payload that a stage gives, by recursion over its dependencies.
* `Dataflow.Breaks`: a stage whose dependencies give payloads and that fails on its input.
* `Dataflow.Solves`: outputs that satisfy the equations of all stages.
* `Dataflow.Yields.unique`: stages with distinct ids give one payload each.
* `Dataflow.Takes.ancestors`: all ancestors of a stage that has an input give payloads.
-/

namespace SignalPipeline

/-- Stages, the payload that they are run on, and what the handlers bound to them answer. -/
structure Dataflow where
  stages : List StageDefinition
  payload : Json
  answer? : String → Option (Json → Answer)

namespace Dataflow

/-- The dataflow of a list of stages in a context. The delays of handlers play no part in it. -/
def of (stages : List StageDefinition) (b : Binding) (payload : Json) (ctx : RunContext) :
    Dataflow where
  stages := stages
  payload := payload
  answer? id := (b.get? id).map fun h input => h.answer input ctx

theorem of_answer? {stages : List StageDefinition} {b : Binding} {payload : Json}
    {ctx : RunContext} {id : String} {h : Handler} (hb : b.get? id = some h) :
    (of stages b payload ctx).answer? id = some fun input => h.answer input ctx := by
  show (b.get? id).map _ = _
  rw [hb]
  rfl

/-- Members that name the outputs of stages: one for each id, by ascending id. -/
structure Named (out : String → Json) (ids : List String) (members : List Member) : Prop where
  perm : members.Perm (ids.map fun id => (id, out id))
  ascending : Ascending members

/-- The input of a stage with these dependencies, given the outputs of stages. -/
inductive Input (payload : Json) (out : String → Json) : List String → Json → Prop
  /-- Without dependencies, the payload of the run. -/
  | root : Input payload out [] payload
  /-- The output of the only dependency. -/
  | only (parent : String) : Input payload out [parent] (out parent)
  /-- Otherwise the dependencies as declared, and their outputs by id. -/
  | join {parents : List String} {members : List Member} (several : 2 ≤ parents.length)
      (named : Named out parents members) :
      Input payload out parents
        (.object [("inputs", .object members), ("parents", .ofStrings parents)])

/-- The payload of a run that ends in these stages, given the outputs of stages. -/
inductive Final (out : String → Json) : List String → Json → Prop
  /-- The output of the only stage. -/
  | only (last : String) : Final out [last] (out last)
  /-- Otherwise the outputs by id. -/
  | several {ids : List String} {members : List Member} (several : 2 ≤ ids.length)
      (named : Named out ids members) : Final out ids (.object members)

/-- The stages that no stage depends on, in declared order. -/
def terminals (stages : List StageDefinition) : List String :=
  (stages.map StageDefinition.id).filter fun id => stages.all fun s => !s.dependsOn.contains id

/-- The payload that a stage gives: the answer to its input, where all its dependencies give
payloads. -/
inductive Yields (D : Dataflow) : String → Json → Prop
  | answer {s : StageDefinition} {out : String → Json} {input v : Json} {answer : Json → Answer}
      (declared : s ∈ D.stages) (parents : ∀ d ∈ s.dependsOn, Yields D d (out d))
      (takes : Input D.payload out (firstOccurrences s.dependsOn) input)
      (bound : D.answer? s.id = some answer) (gives : answer input = .payload v) :
      Yields D s.id v

variable (D : Dataflow)

/-- The input of a stage whose dependencies all give payloads. -/
def Takes (id : String) (input : Json) : Prop :=
  ∃ s ∈ D.stages, s.id = id ∧ ∃ out : String → Json,
    (∀ d ∈ s.dependsOn, D.Yields d (out d)) ∧
      Input D.payload out (firstOccurrences s.dependsOn) input

/-- A stage fails on its input, or breaks off with a message. -/
def Breaks (id : String) (failure : Failure) : Prop :=
  ∃ input answer, D.Takes id input ∧ D.answer? id = some answer ∧
    (answer input = .failure failure ∨
      ∃ message, answer input = .panic message ∧ failure = .panic message)

/-- Outputs that satisfy the equations of all stages. -/
def Solves (out : String → Json) : Prop :=
  ∀ s ∈ D.stages, ∃ input answer, Input D.payload out (firstOccurrences s.dependsOn) input ∧
    D.answer? s.id = some answer ∧ answer input = .payload (out s.id)

/-- A dependency of a stage. -/
def Parent (d id : String) : Prop :=
  ∃ s ∈ D.stages, s.id = id ∧ d ∈ s.dependsOn

/-- A stage on which another one depends, directly or through others. -/
def Ancestor : String → String → Prop :=
  Relation.TransGen D.Parent

variable {D} {out out' : String → Json} {ids : List String} {id a : String} {v w input : Json}
  {failure : Failure}

/-! ## One meaning -/

theorem Named.unique {ms ns : List Member} (hm : Named out ids ms) (hn : Named out ids ns) :
    ms = ns :=
  hm.ascending.eq_of_perm hn.ascending (hm.perm.trans hn.perm.symm)

theorem Named.congr {ms : List Member} (h : ∀ id ∈ ids, out id = out' id)
    (hm : Named out ids ms) : Named out' ids ms where
  perm := by
    rw [List.map_congr_left fun id hid => by rw [← h id hid]]
    exact hm.perm
  ascending := hm.ascending

theorem Input.congr {payload : Json} (h : ∀ d ∈ ids, out d = out' d)
    (hi : Input payload out ids v) : Input payload out' ids v := by
  cases hi with
  | root => exact .root
  | only parent =>
    rw [h parent (List.mem_singleton.2 rfl)]
    exact .only parent
  | join several named => exact .join several (named.congr h)

theorem Input.unique {payload : Json} (hv : Input payload out ids v)
    (hw : Input payload out ids w) : v = w := by
  cases hv with
  | root =>
    cases hw with
    | root => rfl
    | join several => cases several
  | only parent =>
    cases hw with
    | only => rfl
    | join several => exact absurd several (by simp)
  | join several named =>
    cases hw with
    | root => cases several
    | only => exact absurd several (by simp)
    | join _ named' => rw [named.unique named']

theorem Final.unique (hv : Final out ids v) (hw : Final out ids w) : v = w := by
  cases hv with
  | only last =>
    cases hw with
    | only => rfl
    | several several => exact absurd several (by simp)
  | several several named =>
    cases hw with
    | only => exact absurd several (by simp)
    | several _ named' => rw [named.unique named']

theorem yields_iff : D.Yields id v ↔
    ∃ input answer, D.Takes id input ∧ D.answer? id = some answer ∧ answer input = .payload v := by
  refine ⟨fun h => ?_, fun ⟨input, answer, ⟨s, hs, hid, out, parents, takes⟩, bound, gives⟩ => ?_⟩
  · cases h with
    | answer declared parents takes bound gives =>
      exact ⟨_, _, ⟨_, declared, rfl, _, parents, takes⟩, bound, gives⟩
  · subst hid
    exact .answer hs parents takes bound gives

/-- Stages with distinct ids give one payload each. -/
theorem Yields.unique (hd : (D.stages.map StageDefinition.id).Nodup) (hv : D.Yields id v)
    (hw : D.Yields id w) : v = w := by
  -- by recursion over the dependencies, which have one payload each
  induction hv generalizing w with
  | @answer s out input v answer declared parents takes bound gives ih =>
    obtain ⟨input', answer', ⟨t, ht, hid, out', parents', takes'⟩, bound', gives'⟩ :=
      yields_iff.1 hw
    obtain rfl := StageDefinition.eq_of_id hd ht declared hid
    obtain rfl := Option.some_inj.1 (bound.symm.trans bound')
    have hout : ∀ d ∈ firstOccurrences t.dependsOn, out' d = out d := fun d hdep =>
      have hm := mem_firstOccurrences.1 hdep
      (ih d hm (parents' d hm)).symm
    rw [takes.unique (takes'.congr hout), gives'] at gives
    exact (Answer.payload.inj gives).symm

/-- Stages with distinct ids have one input each. -/
theorem Takes.unique (hd : (D.stages.map StageDefinition.id).Nodup) (hv : D.Takes id v)
    (hw : D.Takes id w) : v = w := by
  obtain ⟨s, hs, rfl, out, parents, takes⟩ := hv
  obtain ⟨t, ht, hid, out', parents', takes'⟩ := hw
  obtain rfl := StageDefinition.eq_of_id hd ht hs hid
  refine takes.unique (takes'.congr fun d hdep => ?_)
  have hm := mem_firstOccurrences.1 hdep
  exact (parents' d hm).unique hd (parents d hm)

/-- A stage that fails gives no payload. -/
theorem Breaks.not_yields (hd : (D.stages.map StageDefinition.id).Nodup)
    (hb : D.Breaks id failure) : ¬ D.Yields id v := by
  intro hy
  obtain ⟨input, answer, takes, bound, fails⟩ := hb
  obtain ⟨input', answer', takes', bound', gives⟩ := yields_iff.1 hy
  obtain rfl := Option.some_inj.1 (bound.symm.trans bound')
  rw [takes'.unique hd takes] at gives
  rcases fails with h | ⟨message, h, -⟩
  · rw [gives] at h
    cases h
  · rw [gives] at h
    cases h

/-- What fails a stage is determined by its input. -/
theorem Breaks.unique {failure' : Failure} (hd : (D.stages.map StageDefinition.id).Nodup)
    (hb : D.Breaks id failure) (hb' : D.Breaks id failure') : failure = failure' := by
  obtain ⟨input, answer, takes, bound, fails⟩ := hb
  obtain ⟨input', answer', takes', bound', fails'⟩ := hb'
  obtain rfl := Option.some_inj.1 (bound.symm.trans bound')
  obtain rfl := takes.unique hd takes'
  rw [← Answer.result_eq_error] at fails fails'
  exact Except.error.inj (fails.symm.trans fails')

/-- Where all stages give payloads, these are outputs of all stages. -/
theorem exists_outputs (h : ∀ s ∈ D.stages, ∃ v, D.Yields s.id v) :
    ∃ out : String → Json, ∀ s ∈ D.stages, D.Yields s.id (out s.id) :=
  ⟨fun id => Classical.epsilon fun v => D.Yields id v, fun s hs => Classical.epsilon_spec (h s hs)⟩

/-- Payloads that all stages give satisfy the equations. -/
theorem solves_of_yields (hd : (D.stages.map StageDefinition.id).Nodup)
    (h : ∀ s ∈ D.stages, D.Yields s.id (out s.id)) : D.Solves out := by
  intro s hs
  obtain ⟨input, answer, ⟨t, ht, hid, out', parents, takes⟩, bound, gives⟩ := yields_iff.1 (h s hs)
  obtain rfl := StageDefinition.eq_of_id hd ht hs hid
  refine ⟨input, answer, takes.congr fun d hdep => ?_, bound, gives⟩
  have hy := parents d (mem_firstOccurrences.1 hdep)
  obtain ⟨_, _, ⟨u, hu, rfl, _⟩, _⟩ := yields_iff.1 hy
  exact hy.unique hd (h u hu)

/-! ## Ancestors -/

/-- Where a stage has an input, all its ancestors give payloads. -/
theorem Takes.ancestors (hd : (D.stages.map StageDefinition.id).Nodup) (ht : D.Takes id input)
    (ha : D.Ancestor a id) : ∃ v, D.Yields a v := by
  have parent : ∀ {d id input}, D.Takes id input → D.Parent d id → ∃ v, D.Yields d v := by
    rintro d _ input ⟨s, hs, rfl, out, parents, -⟩ ⟨t, ht, hid, hdep⟩
    rw [StageDefinition.eq_of_id hd ht hs hid] at hdep
    exact ⟨out d, parents d hdep⟩
  induction ha generalizing input with
  | single h => exact parent ht h
  | tail _ h ih =>
    obtain ⟨v, hv⟩ := parent ht h
    obtain ⟨input', -, ht', -⟩ := yields_iff.1 hv
    exact ih ht'

/-- No stage behind one that fails has an input. -/
theorem Breaks.no_input (hd : (D.stages.map StageDefinition.id).Nodup) (hb : D.Breaks a failure)
    (ha : D.Ancestor a id) : ¬ D.Takes id input := by
  intro ht
  obtain ⟨v, hv⟩ := ht.ancestors hd ha
  exact hb.not_yields hd hv

end Dataflow
end SignalPipeline
