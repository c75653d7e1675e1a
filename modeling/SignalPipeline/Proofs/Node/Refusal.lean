import SignalPipeline.Fixture
import SignalPipeline.Proofs.Node.Plan

/-!
# Runs of nodes that are refused

A run of nodes is refused with a configuration error exactly when its declarations have no plan, and
then nothing has happened.

* `runNodes_refused_iff`: a run is refused for the reason for which there is no plan.
* `runNodes_refused`: which runs are refused, for which reason, and that nothing else comes of them.
-/

namespace SignalPipeline

variable {r : NodeRegistry} {clock : Clock} {ctx : RunContext} {s : PipelineState}
  {e : ConfigurationError}

/-- The nodes of a plan give no configuration error. -/
theorem runPlan_not_refused (clock : Clock) (readings : Nat) (ctx : RunContext) (s : PipelineState)
    (plan : NodePlan) :
    (runPlan clock readings ctx s plan).result ≠ .error (.configuration e) := by
  induction plan generalizing readings s with
  | nil => exact nofun
  | cons p ps ih =>
    rw [runPlan]
    dsimp only
    split
    · exact nofun
    · intro h
      dsimp only at h
      cases hrest : (runPlan clock (readings + 2) ctx
          (p.execute ctx (clock readings) (clock (readings + 1)) s).state ps).result with
      | ok summary =>
        rw [hrest] at h
        cases h
      | error e' =>
        rw [hrest] at h
        cases h
        exact ih _ _ hrest

/-- A run without a plan leaves everything as it is. -/
theorem runNodes_of_error (h : NodePlan.ofConfigs r s.nodes = .error e) :
    runNodes r clock ctx s = ⟨.error (.configuration e), s, []⟩ := by
  unfold runNodes
  rw [h]

/-- A run is refused for the reason for which there is no plan. -/
theorem runNodes_refused_iff :
    (runNodes r clock ctx s).result = .error (.configuration e) ↔
      NodePlan.ofConfigs r s.nodes = .error e := by
  constructor
  · intro h
    unfold runNodes at h
    split at h
    · next e' he =>
      cases h
      exact he
    · next plan _ =>
      dsimp only at h
      split at h
      · next e' hrun =>
        cases h
        exact absurd hrun (runPlan_not_refused clock 0 ctx s plan)
      · cases h
  · intro h
    rw [runNodes_of_error h]

/-- Why there is no plan depends on the names in the registry alone. -/
theorem NodePlan.ofConfigs_congr {r' : NodeRegistry} {configs : List NodeConfig}
    (hr : ∀ plugin, r'.get? plugin = none ↔ r.get? plugin = none)
    (h : ofConfigs r configs = .error e) : ofConfigs r' configs = .error e := by
  unfold ofConfigs at h ⊢
  cases hc : checkConfigs [] configs with
  | error e' =>
    rw [hc] at h
    exact h
  | ok checked =>
    rw [hc] at h
    cases ho : executionOrder configs with
    | error e' =>
      rw [ho] at h
      exact h
    | ok order =>
      rw [ho] at h
      obtain ⟨before, p, after, hsplit, hbefore, hp, he⟩ := locate_error_iff.1 h
      exact locate_error_iff.2 ⟨before, p, after, hsplit,
        fun b hb => mt (hr _).1 (hbefore b hb), (hr _).2 hp, he⟩

/-- **A run is refused exactly when its declarations have a fault.** The fault that comes first is
the one that is reported. The state is as it was, nothing has been said, and no node had a part in
it: with any other nodes under the same names the run is the same, whatever the time and the
context. -/
theorem runNodes_refused (r : NodeRegistry) (clock : Clock) (ctx : RunContext)
    (s : PipelineState) :
    ((∃ e, (runNodes r clock ctx s).result = .error (.configuration e)) ↔
        NodePlan.Faulty r s.nodes) ∧
      ∀ e, (runNodes r clock ctx s).result = .error (.configuration e) →
        NodePlan.FirstFault r s.nodes e ∧ (runNodes r clock ctx s).state = s ∧
        (runNodes r clock ctx s).journal = [] ∧
        ∀ r' : NodeRegistry, (∀ plugin, r'.get? plugin = none ↔ r.get? plugin = none) →
          ∀ clock' ctx', runNodes r' clock' ctx' s = runNodes r clock ctx s := by
  refine ⟨⟨fun ⟨e, he⟩ => ?_, fun hfault => ?_⟩, fun e he => ?_⟩
  · exact (NodePlan.ofConfigs_error (runNodes_refused_iff.1 he)).faulty
  · cases h : NodePlan.ofConfigs r s.nodes with
    | ok plan => exact absurd hfault (NodePlan.ofConfigs_ok h).not_faulty
    | error e => exact ⟨e, runNodes_refused_iff.2 h⟩
  · have h := runNodes_refused_iff.1 he
    refine ⟨NodePlan.ofConfigs_error h, ?_, ?_, fun r' hr clock' ctx' => ?_⟩
    · rw [runNodes_of_error h]
    · rw [runNodes_of_error h]
    · rw [runNodes_of_error h, runNodes_of_error (NodePlan.ofConfigs_congr hr h)]

/-- Of the fixture's nodes one alone is registered: the run is refused, and does not change when
that node fails. -/
theorem runNodes_refused_fixture :
    ∃ e, NodePlan.FirstFault [("technical-indicators", .constant .null)]
        (Fixture.state "s" Fixture.scoredAt).nodes e ∧
      (runNodes [("technical-indicators", .failing "down")] (fun _ => Fixture.scoredAt) {}
        (Fixture.state "s" Fixture.scoredAt)).result = .error (.configuration e) := by
  obtain ⟨hiff, hrefused⟩ :=
    runNodes_refused [("technical-indicators", .constant .null)] (fun _ => Fixture.scoredAt) {}
      (Fixture.state "s" Fixture.scoredAt)
  obtain ⟨e, he⟩ := hiff.2 (.unregistered
    ((NodeConfig.ofType "patterns" .enrichment "pattern-recognition").addDependency "ta")
    (by simp [Fixture.state, PipelineState.fresh]) rfl rfl)
  obtain ⟨hfirst, -, -, hsame⟩ := hrefused e he
  refine ⟨e, hfirst, ?_⟩
  rw [hsame [("technical-indicators", .failing "down")] _ (fun _ => Fixture.scoredAt) {}, he]
  intro plugin
  simp only [Entries.get?, List.lookup_cons]
  cases plugin == "technical-indicators" <;> simp

end SignalPipeline
