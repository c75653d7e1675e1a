import SignalPipeline.Proofs.Node.Consultation

/-!
# Runs with unreliable providers

A run of nodes in front of providers and of nodes that do without any can only be broken off by
the latter: whatever the providers do, from call to call, a run in which no other node fails goes
through its whole plan. The summary names the calls that got no answer, and the result of every
call stays until some other node stores one in its place.

* `ProviderBehaviour`, `PipelineNode.fronting`: a provider that changes from call to call.
* `PipelineNode.FailHard`: nodes that have their result or fail.
* `NodeRegistry.Staffed`: registries of these two sorts of nodes.
* `NodeRun.Chain.result?_of_keeps`: results that calls leave alone.
* `NodeRun.providers_fail_soft`: what providers do to a run.
-/

namespace SignalPipeline

/-- How a provider behaves, call by call: it may go down and come back, and change its mind. -/
abbrev ProviderBehaviour := NodeConfig → PipelineState → RunContext → PredictionProvider

namespace PipelineNode

/-- The node in front of a provider with some behaviour. -/
def fronting (b : ProviderBehaviour) : PipelineNode where
  execute config s ctx := (ofProvider (b config s ctx)).execute config s ctx

/-- A node that has its result or fails: it never does without a service. -/
def FailHard (node : PipelineNode) : Prop :=
  ∀ config s ctx, (node.execute config s ctx).outcome.isUnavailable = false

theorem computed_failHard (f : PipelineState → Except Failure Json) : (computed f).FailHard := by
  intro config s ctx
  unfold computed
  dsimp only
  split <;> rfl

end PipelineNode

/-- The nodes that declarations ask for are known: those with a provider stand in front of it, and
all others fail hard. -/
structure NodeRegistry.Staffed (r : NodeRegistry) (configs : List NodeConfig)
    (providers : String → Option ProviderBehaviour) : Prop where
  soft : ∀ c ∈ configs, ∀ b, providers c.plugin = some b →
    ∀ node, r.get? c.plugin = some node → node = .fronting b
  hard : ∀ c ∈ configs, providers c.plugin = none →
    ∀ node, r.get? c.plugin = some node → node.FailHard

namespace NodeCall

/-- The provider that a call turns to, as it is at that time. -/
def provider? (providers : String → Option ProviderBehaviour) (ctx : RunContext) (c : NodeCall) :
    Option PredictionProvider :=
  (providers c.planned.config.plugin).map fun b => b c.planned.config c.given ctx

/-- What a provider is asked in a call. -/
def question (c : NodeCall) : Json :=
  PredictionProvider.request c.planned.config c.given

/-- A call that leaves the result with a key as it finds it. -/
def Keeps (ctx : RunContext) (key : String) (c : NodeCall) : Prop :=
  (c.effect ctx).state.result? key = c.given.result? key

end NodeCall

namespace NodeRun

variable {r : NodeRegistry} {clock : Clock} {ctx : RunContext} {n : Nat} {s t : PipelineState}
  {plan : NodePlan} {calls front back : List NodeCall} {c : NodeCall} {key : String}
  {providers : String → Option ProviderBehaviour} {p : PredictionProvider}

/-! ## Chains -/

/-- Calls in two parts are chained through the state between them. -/
theorem Chain.split (h : Chain clock ctx n s (front ++ back) t) :
    ∃ m u, Chain clock ctx n s front u ∧ Chain clock ctx m u back t := by
  induction front generalizing n s with
  | nil => exact ⟨n, s, .done n s, h⟩
  | cons c front ih =>
    cases h with
    | call _ _ _ _ _ given start stop rest =>
      obtain ⟨m, u, hfront, hback⟩ := ih rest
      exact ⟨m, u, .call n s c front u given start stop hfront, hback⟩

/-- A result that every call leaves alone is found in the end. -/
theorem Chain.result?_of_keeps (h : Chain clock ctx n s calls t)
    (hkeeps : ∀ c ∈ calls, c.Keeps ctx key) : t.result? key = s.result? key := by
  induction h with
  | done n s => rfl
  | call n s c cs t given start stop rest ih =>
    obtain ⟨hc, hcs⟩ := List.forall_mem_cons.1 hkeeps
    rw [ih hcs]
    show (c.effect ctx).state.result? key = s.result? key
    rw [hc, given]
    rfl

/-- The first call is given the results that are there. -/
theorem Chain.result?_head (h : Chain clock ctx n s calls t) :
    ∀ c ∈ calls.head?, c.given.result? key = s.result? key := by
  cases h with
  | done => exact nofun
  | call _ _ _ _ _ given start stop rest =>
    rintro _ ⟨⟩
    rw [given]
    rfl

/-! ## Calls that turn to a provider -/

/-- A call that turns to a provider stores what comes of its question, and nothing else. -/
theorem consulted (hstaffed : r.Staffed s.nodes providers)
    (hserves : NodePlan.Serves r s.nodes plan) (hc : c.planned ∈ plan)
    (hp : c.provider? providers ctx = some p) :
    ∃ value, p.Consulted c.question (c.outcome ctx) value ∧
      c.given.Stored c.id value (c.effect ctx).state := by
  obtain ⟨b, hb, rfl⟩ := Option.map_eq_some_iff.1 hp
  have hnode := hstaffed.soft _ (hserves.declared _ hc) b hb _ (hserves.node _ hc)
  have heffect : c.effect ctx =
      (PipelineNode.ofProvider (b c.planned.config c.given ctx)).execute c.planned.config c.given
        ctx := by
    rw [NodeCall.effect, hnode]
    rfl
  rw [NodeCall.outcome, heffect]
  exact PipelineNode.ofProvider_consulted _ _ _ _

/-- A call does without a provider exactly if its question got no answer. -/
theorem isUnavailable_eq (hstaffed : r.Staffed s.nodes providers)
    (hserves : NodePlan.Serves r s.nodes plan) (hc : c.planned ∈ plan) :
    (c.outcome ctx).isUnavailable =
      (c.provider? providers ctx).any fun p => p.leavesOpen c.question := by
  cases hp : c.provider? providers ctx with
  | none =>
    have hnone : providers c.planned.config.plugin = none := Option.map_eq_none_iff.1 hp
    exact hstaffed.hard _ (hserves.declared _ hc) hnone _ (hserves.node _ hc) _ _ _
  | some p =>
    obtain ⟨value, hvalue, -⟩ := consulted hstaffed hserves hc hp
    exact hvalue.isUnavailable

/-- The nodes of a plan have different ids. -/
theorem nodup_ids (hserves : NodePlan.Serves r s.nodes plan)
    (hplanned : calls.map NodeCall.planned <+: plan) : (calls.map NodeCall.id).Nodup := by
  obtain ⟨-, -, hperm⟩ := NodePlan.executionOrder_ok hserves.sound.distinct hserves.order
  have hplan : (plan.map fun p => p.config.id).Nodup :=
    hperm.nodup_iff.2 (((List.filter_sublist).map _).nodup hserves.sound.distinct)
  have hsub := (hplanned.map fun p => p.config.id).sublist.nodup hplan
  rwa [List.map_map] at hsub

/-- **A result stays.** What a call to a provider stored is there until a node that fails hard
stores something in its place. -/
theorem result?_of_split (hstaffed : r.Staffed s.nodes providers)
    (hserves : NodePlan.Serves r s.nodes plan) (hplanned : calls.map NodeCall.planned <+: plan)
    (hchain : Chain clock ctx n s calls t) {between : List NodeCall}
    (hsplit : calls = front ++ c :: (between ++ back)) (hp : c.provider? providers ctx = some p)
    (hkeeps : ∀ d ∈ between, d.provider? providers ctx = none → d.Keeps ctx c.id) :
    ∃ value, p.Consulted c.question (c.outcome ctx) value ∧
      (∀ d ∈ back.head?, d.given.result? c.id = some value) ∧
      (back = [] → t.result? c.id = some value) := by
  have hmem : ∀ d ∈ calls, d.planned ∈ plan := fun d hd =>
    hplanned.subset (List.mem_map_of_mem hd)
  have hids := nodup_ids hserves hplanned
  subst hsplit
  obtain ⟨value, hvalue, hstored⟩ := consulted hstaffed hserves (hmem c (by simp)) hp
  obtain ⟨_, _, -, hrest⟩ := hchain.split
  cases hrest with
  | call _ _ _ _ _ given start stop hrest =>
    obtain ⟨_, u, hbetween, hback⟩ := hrest.split
    -- calls to other providers store their results under other ids
    have hkept : ∀ d ∈ between, d.Keeps ctx c.id := by
      intro d hd
      cases hp' : d.provider? providers ctx with
      | none => exact hkeeps d hd hp'
      | some p' =>
        obtain ⟨_, -, hstored'⟩ := consulted hstaffed hserves (hmem d (by simp [hd])) hp'
        refine hstored'.others c.id fun he => ?_
        rw [List.map_append, List.map_cons, List.nodup_append, List.nodup_cons] at hids
        refine hids.2.1.1 ?_
        rw [he]
        exact List.mem_map_of_mem (List.mem_append_left _ hd)
    have hu : u.result? c.id = some value :=
      (hbetween.result?_of_keeps hkept).trans hstored.stored
    refine ⟨value, hvalue, fun d hd => (hback.result?_head d hd).trans hu, fun hnil => ?_⟩
    subst hnil
    cases hback
    exact hu

/-- **Providers fail soft.** The node in front of a provider never fails; it asks its provider only
while that is up, with a document of the signal and of exactly those dependencies that have a
result; and it changes nothing of a state but the result under its own id.

So where every node stands in front of a provider, whose behaviour may change from call to call, or
fails hard, a run that is not refused goes through its whole plan unless a node of the second sort
fails, and names those calls whose questions got no answer, in order. What became of a question is
the result of its node for every later call and in the end, as long as no node of the second sort
stores something in its place. -/
theorem providers_fail_soft (r : NodeRegistry) (clock : Clock) (ctx : RunContext)
    (s : PipelineState) (providers : String → Option ProviderBehaviour)
    (hstaffed : r.Staffed s.nodes providers)
    (haccepted : ∀ e, (runNodes r clock ctx s).result ≠ .error (.configuration e)) :
    (∀ (p : PredictionProvider) (config : NodeConfig) (s : PipelineState) (ctx : RunContext),
      let input := PredictionProvider.request config s
      let effect := (PipelineNode.ofProvider p).execute config s ctx
      (∀ failure, effect.outcome ≠ .failed failure) ∧
      (∃ value, p.Consulted input effect.outcome value ∧ s.Stored config.id value effect.state) ∧
      PredictionProvider.Asks config s input ∧
      ∀ q : PredictionProvider, q.name = p.name → q.available = p.available →
        (p.available = true → q.predict input = p.predict input) →
        (PipelineNode.ofProvider q).execute config s ctx = effect) ∧
    ∃ plan calls t, NodePlan.Serves r s.nodes plan ∧ calls.map NodeCall.planned <+: plan ∧
      Chain clock ctx 0 s calls t ∧ (runNodes r clock ctx s).state = t.atRest ∧
      ((∀ c ∈ calls, c.provider? providers ctx = none →
          ∀ failure, c.outcome ctx ≠ .failed failure) →
        calls.map NodeCall.planned = plan ∧
        (runNodes r clock ctx s).result = .ok {
          executed := calls.map NodeCall.id
          unavailable := (calls.filter fun c =>
            (c.provider? providers ctx).any fun p => p.leavesOpen c.question).map NodeCall.id
          skipped := (s.nodes.filter fun c => !c.isEnabled).map NodeConfig.id }) ∧
      ∀ front c between back p, calls = front ++ c :: (between ++ back) →
        c.provider? providers ctx = some p →
        (∀ d ∈ between, d.provider? providers ctx = none → d.Keeps ctx c.id) →
        ∃ value, p.Consulted c.question (c.outcome ctx) value ∧
          (∀ d ∈ back.head?, d.given.result? c.id = some value) ∧
          (back = [] → (runNodes r clock ctx s).state.result? c.id = some value) := by
  refine ⟨fun p config s ctx => ?_, ?_⟩
  · obtain ⟨value, hvalue, hstored⟩ := PipelineNode.ofProvider_consulted p config s ctx
    exact ⟨hvalue.ne_failed, ⟨value, hvalue, hstored⟩, PredictionProvider.asks_request config s,
      fun q => PipelineNode.ofProvider_congr⟩
  cases hplan : NodePlan.ofConfigs r s.nodes with
  | error e => exact absurd (runNodes_refused_iff.2 hplan) (haccepted e)
  | ok plan =>
    have hserves := NodePlan.ofConfigs_ok hplan
    obtain ⟨calls, t, hchain, hstate, hplanned, -, hending⟩ := runPlan_chain clock 0 ctx s plan
    obtain ⟨hstate', -, hresult⟩ := @runNodes_of_ok clock ctx s plan r hplan
    have hmem : ∀ c ∈ calls, c.planned ∈ plan := fun c hc =>
      hplanned.subset (List.mem_map_of_mem hc)
    rw [hresult, hstate', hstate]
    refine ⟨plan, calls, t, hserves, hplanned, hchain, rfl, fun hhard => ?_,
      fun front c between back p => result?_of_split hstaffed hserves hplanned hchain⟩
    generalize (runPlan clock 0 ctx s plan).result = result at hending
    cases hending with
    | completed whole all =>
      refine ⟨whole, ?_⟩
      rw [List.filter_congr fun c hc => isUnavailable_eq hstaffed hserves (hmem c hc)]
      rfl
    | failed front c split all failure fails =>
      have hc : c ∈ calls := by simp [split]
      cases hp : c.provider? providers ctx with
      | none => exact absurd fails (hhard c hc hp failure)
      | some p =>
        obtain ⟨_, hvalue, -⟩ := consulted hstaffed hserves (hmem c hc) hp
        exact absurd fails (hvalue.ne_failed failure)

/-- Of the fixture's nodes the second has a provider that is down until the third has its result:
the run completes, and names the calls that got no answer. -/
theorem providers_fail_soft_fixture :
    let flaky : ProviderBehaviour := fun _ s _ =>
      if (s.result? "ml").isSome then .constant "patterns" .null else .offline "patterns"
    let steady : ProviderBehaviour := fun _ _ _ => .constant "ml" (.bool true)
    let providers : String → Option ProviderBehaviour :=
      Entries.get? [("pattern-recognition", flaky), ("ai-ml", steady)]
    let r : NodeRegistry := [("technical-indicators", .computed fun _ => .ok .null),
      ("pattern-recognition", .fronting flaky), ("ai-ml", .fronting steady)]
    let clock : Clock := fun _ => Fixture.scoredAt
    let s := Fixture.state "s" Fixture.scoredAt
    r.Staffed s.nodes providers ∧
      (∀ e, (runNodes r clock {} s).result ≠ .error (.configuration e)) ∧
      ∃ (plan : NodePlan) (calls : List NodeCall), NodePlan.Serves r s.nodes plan ∧
        calls.map NodeCall.planned = plan ∧
        (runNodes r clock {} s).result = .ok {
          executed := calls.map NodeCall.id
          unavailable := (calls.filter fun c =>
            (c.provider? providers {}).any fun p => p.leavesOpen c.question).map NodeCall.id
          skipped := [] } := by
  intro flaky steady providers r clock s
  have hplugin : ∀ c ∈ s.nodes, c.plugin = "technical-indicators" ∨
      c.plugin = "pattern-recognition" ∨ c.plugin = "ai-ml" := by decide +kernel
  have hcomputed : ∀ c ∈ s.nodes, providers c.plugin = none → ∀ node,
      r.get? c.plugin = some node → node = .computed fun _ => .ok .null := by
    intro c hc hnone node hnode
    rcases hplugin c hc with h | h | h <;> rw [h] at hnone hnode
    · exact (Option.some_inj.1 hnode).symm
    · cases hnone
    · cases hnone
  have hstaffed : r.Staffed s.nodes providers := by
    refine ⟨fun c hc b hb node hnode => ?_, fun c hc hnone node hnode => ?_⟩
    · rcases hplugin c hc with h | h | h <;> rw [h] at hb hnode
      · cases hb
      · cases hb
        exact (Option.some_inj.1 hnode).symm
      · cases hb
        exact (Option.some_inj.1 hnode).symm
    · rw [hcomputed c hc hnone node hnode]
      exact PipelineNode.computed_failHard _
  have hplan : (NodePlan.ofConfigs r s.nodes).isOk = true := by decide +kernel
  have haccepted : ∀ e, (runNodes r clock {} s).result ≠ .error (.configuration e) := by
    intro e he
    rw [runNodes_refused_iff.1 he] at hplan
    cases hplan
  obtain ⟨plan, calls, t, hserves, hplanned, -, -, hcompleted, -⟩ :=
    (providers_fail_soft r clock {} s providers hstaffed haccepted).2
  obtain ⟨hwhole, hresult⟩ := hcompleted fun c hc hnone failure => by
    have hmem := hplanned.subset (List.mem_map_of_mem hc)
    have hnode := hcomputed _ (hserves.declared _ hmem) (Option.map_eq_none_iff.1 hnone) _
      (hserves.node _ hmem)
    rw [NodeCall.outcome, NodeCall.effect, hnode]
    intro h
    cases h
  exact ⟨hstaffed, haccepted, plan, calls, hserves, hwhole, hresult⟩

end NodeRun
end SignalPipeline
