import SignalPipeline.Proofs.Dataflow.Confluence
import SignalPipeline.Proofs.Decimal.Difference
import SignalPipeline.Proofs.Replay.Recomputation
import SignalPipeline.Replay.Report

/-!
# A replay of what was recorded finds no change

A snapshot that holds a run is replayed to the same result: the run of the replay has the same
input, its handlers see the same signal at the same time, and its order decides nothing. Compared
with itself a result changes along no axis, because the numbers of a payload are finite.

* `Comparison.Unchanged`: comparisons that find no change, line by line.
* `Comparison.unchanged_ofResults_self`: the comparison of a result with itself.
* `StoredSnapshot.Records`: snapshots that hold a run and its result.
* `Comparator.replay_unchanged`: the replay of such a snapshot.
-/

namespace SignalPipeline

/-! ## Comparisons of a result with itself -/

/-- The axes in the order of the lines. -/
def Axis.all : List Axis :=
  [.score, .decision, .confidence, .reasonCodes, .configHash, .logicVersion, .novelty]

/-- What is said of an axis along which a result does not change. -/
def ScoredResult.detail (r : ScoredResult) : Axis → String
  | .score => fixed 4 r.score
  | .decision => r.decision
  | .confidence => fixed 4 r.confidence
  | .reasonCodes => Finding.bracketed (Finding.codeSet r.reasonCodes)
  | .configHash => r.configHash.getD Finding.absent
  | .logicVersion => r.logicVersion.getD Finding.absent
  | .novelty => r.novelty.elim Finding.absent NoveltyInfo.stableText

/-- A comparison that finds no change: each axis has one finding that says so. -/
structure Comparison.Unchanged (c : Comparison) : Prop where
  decision : c.decisionChanged = false
  findings : ∃ detail : Axis → String,
    c.findings = Axis.all.map fun axis => ⟨axis, false, detail axis⟩

namespace Finding

theorem ofNumbers_self (axis : Axis) {epsilon x : Float} (hx : x.isFinite = true)
    (h : 0 ≤ epsilon) : ofNumbers axis epsilon x x = ⟨axis, false, fixed 4 x⟩ :=
  if_neg (Binary64.not_lt_abs_sub_self hx h)

theorem ofTexts_self (axis : Axis) (text : String) :
    ofTexts axis text text = ⟨axis, false, text⟩ :=
  if_pos rfl

theorem ofTags_self (axis : Axis) (tag : Option String) :
    ofTags axis tag tag = ⟨axis, false, tag.getD absent⟩ :=
  if_pos rfl

theorem ofCodes_self (codes : List String) :
    ofCodes codes codes = ⟨.reasonCodes, false, bracketed (codeSet codes)⟩ :=
  if_pos rfl

theorem ofNovelty_self (novelty : Option NoveltyInfo) :
    ofNovelty novelty novelty = ⟨.novelty, false, novelty.elim absent NoveltyInfo.stableText⟩ :=
  ofTexts_self _ _

end Finding

namespace Comparison

/-- A result with finite numbers, compared with itself. -/
theorem unchanged_ofResults_self {r : ScoredResult} {epsilon : Float}
    (hscore : r.score.isFinite = true) (hconfidence : r.confidence.isFinite = true)
    (h : 0 ≤ epsilon) : (ofResults r r epsilon).Unchanged where
  decision := decide_eq_false fun hne => hne rfl
  findings := by
    refine ⟨r.detail, ?_⟩
    simp only [ofResults, Finding.ofNumbers_self _ hscore h, Finding.ofNumbers_self _ hconfidence h,
      Finding.ofTexts_self, Finding.ofCodes_self, Finding.ofTags_self, Finding.ofNovelty_self]
    rfl

namespace Unchanged

variable {c : Comparison}

theorem hasChanges (h : c.Unchanged) : c.hasChanges = false := by
  obtain ⟨detail, hfindings⟩ := h.findings
  unfold Comparison.hasChanges
  rw [hfindings, List.any_map]
  exact List.any_eq_false.2 fun axis _ => Bool.false_ne_true

theorem lines (h : c.Unchanged) : ∃ detail : Axis → String,
    c.lines = Axis.all.map fun axis => "unchanged: " ++ axis.name ++ " " ++ detail axis := by
  obtain ⟨detail, hfindings⟩ := h.findings
  refine ⟨detail, ?_⟩
  unfold Comparison.lines
  rw [hfindings, List.map_map]
  rfl

end Unchanged
end Comparison

/-! ## Reports -/

theorem textOfLines_concat (lines : List String) (line : String) :
    textOfLines (lines ++ [line]) = textOfLines lines ++ (line ++ "\n") := by
  unfold textOfLines
  rw [List.map_append, String.join_append]
  rfl

/-- A report ends with its verdict. -/
theorem ReplayResult.report_eq (r : ReplayResult) :
    ∃ front, ReplayOutcome.report (.replayed r) = front ++ ("Result: " ++ r.verdict ++ "\n") :=
  ⟨_, textOfLines_concat _ _⟩

/-! ## Numbers of payloads -/

/-- The numbers of a result that is read are finite. -/
theorem ScoredResult.ensures_read (n : Nat) : Read.Ensures (n + 1) ScoredResult.read fun r =>
    r.score.isFinite = true ∧ r.confidence.isFinite = true := by
  intro d r hd h
  obtain ⟨slots, hslots, h⟩ := except_bind_eq_ok.1 h
  have hs := Read.record_within hd hslots
  obtain ⟨score, hscore, h⟩ := except_bind_eq_ok.1 h
  obtain ⟨decision, -, h⟩ := except_bind_eq_ok.1 h
  obtain ⟨confidence, hconfidence, h⟩ := except_bind_eq_ok.1 h
  obtain ⟨codes, -, h⟩ := except_bind_eq_ok.1 h
  obtain ⟨hash, -, h⟩ := except_bind_eq_ok.1 h
  obtain ⟨version, -, h⟩ := except_bind_eq_ok.1 h
  obtain ⟨novelty, -, h⟩ := except_bind_eq_ok.1 h
  cases h
  exact ⟨Slots.required_ensures hs Read.ensures_float hscore,
    Slots.defaulted_ensures hs Read.ensures_float (by decide) hconfidence⟩

theorem ScoredResult.finite_of_read {v : Json} {r : ScoredResult} (hv : v.Canonical)
    (h : read.value v = .ok r) : r.score.isFinite = true ∧ r.confidence.isFinite = true :=
  ensures_read v.depth _ r (hv.within_toDocument (Nat.le_succ _)) h

/-! ## Recorded runs -/

/-- Handlers that answer by their payload and by what a context says of the signal, of
demonstrations and of the time to score by. -/
def Handler.Reproducible (h : Handler) : Prop :=
  ∀ (v : Json) (ctx ctx' : RunContext), ctx.signalId = ctx'.signalId → ctx.isDemo = ctx'.isDemo →
    ctx.scoringTime = ctx'.scoringTime → h.answer v ctx = h.answer v ctx'

/-- A snapshot that holds a run: its signal and the time of its scoring, its input, and its result
in the records of the scoring and of the decision. -/
structure StoredSnapshot.Records (s : StoredSnapshot) (payload : Json) (ctx : RunContext)
    (r : ScoredResult) : Prop where
  pinned : ctx.Pinned s
  kept : s.rawInput = some payload
  scoring : s.scoring = ⟨r.score, s.scoring.scoredAt, r.configHash, r.logicVersion, r.novelty⟩
  decision : s.decision = ⟨r.decision, r.confidence, r.reasonCodes⟩

theorem StoredSnapshot.Records.scoredResult {s : StoredSnapshot} {payload : Json}
    {ctx : RunContext} {r : ScoredResult} (h : s.Records payload ctx r) : s.scoredResult = r := by
  unfold StoredSnapshot.scoredResult
  rw [h.scoring, h.decision]

/-- Snapshots are found under the ids of their signals. -/
theorem Snapshots.signalId_of_get? {snapshots : List StoredSnapshot} {id : String}
    {s : StoredSnapshot} (h : (ofList snapshots).get? id = some s) : s.signalId = id := by
  rcases Entries.of_get?_putAll h with hmem | hnone
  · obtain ⟨t, -, ht⟩ := List.mem_map.1 hmem
    cases ht
    rfl
  · cases hnone

/-- Two contexts in which a snapshot is replayed give reproducible handlers the same dataflow. -/
theorem Dataflow.of_pinned {stages : List StageDefinition} {b : Binding}
    (hb : ∀ id h, b.get? id = some h → h.Reproducible) (payload : Json) {s : StoredSnapshot}
    {ctx ctx' : RunContext} (hctx : ctx.Pinned s) (hctx' : ctx'.Pinned s) :
    Dataflow.of stages b payload ctx = Dataflow.of stages b payload ctx' := by
  have hanswer : ∀ id h, b.get? id = some h →
      (fun input => h.answer input ctx) = fun input => h.answer input ctx' := fun id h hget =>
    funext fun input => hb id h hget input ctx ctx' (hctx.signal.trans hctx'.signal.symm)
      (hctx.genuine.trans hctx'.genuine.symm) (hctx.time.trans hctx'.time.symm)
  unfold Dataflow.of
  congr 1
  funext id
  cases hget : b.get? id with
  | none => rfl
  | some h => exact congrArg some (hanswer id h hget)

namespace Fixture

theorem canonical_scored : scored.Canonical := by
  have hnovelty : ∀ m ∈ [("classification", Json.string "novel"), ("isDuplicate", .bool false),
      ("computedAt", scoredAt.toJson)], m.2.Canonical := by
    simp only [List.forall_mem_cons]
    exact ⟨.string _, .bool _, .string _, List.forall_mem_nil _⟩
  refine Json.canonical_ofMembers ?_
  simp only [List.forall_mem_cons]
  exact ⟨Json.canonical_ofFloat _, .string _, Json.canonical_ofFloat _, Json.canonical_ofStrings _,
    .string _, .string _, Json.canonical_ofMembers hnovelty, List.forall_mem_nil _⟩

theorem reproducible_scorers : ∀ id h, scorers.get? id = some h → h.Reproducible := by
  intro id h hget v ctx ctx' _ _ htime
  have hmem := mem_of_lookup hget
  simp only [scorers, List.mem_cons, List.not_mem_nil, or_false, Prod.mk.injEq] at hmem
  rcases hmem with ⟨-, rfl⟩ | ⟨-, rfl⟩
  · rfl
  · simp only [htime]

/-- A run over the intake gives the outcome for every signal that is scored at its time. -/
theorem run_intake {e : Executor} (hg : StageGraph.build intake = .ok e.graph)
    (hb : e.binding = scorers) {ctx : RunContext} (htime : ctx.scoringTime = some scoredAt)
    (schedule : Schedule) (start : Timestamp) (payload : Json) :
    ∃ r, (e.run schedule start payload ctx).result = .ok r ∧ r.payload = scored := by
  let D := Dataflow.of intake scorers payload ctx
  let out : String → Json := fun id => if id = "score" then scored else payload
  have hnone : ∀ d ∈ (StageDefinition.internal "ingest").dependsOn, D.Yields d (out d) := nofun
  have hingest : D.Yields "ingest" (out "ingest") :=
    .answer (s := .internal "ingest") (.head _) hnone .root rfl rfl
  have hparent : ∀ d ∈ ["ingest"], D.Yields d (out d) :=
    fun d hd => List.mem_singleton.1 hd ▸ hingest
  have hscore : D.Yields "score" (out "score") :=
    .answer (s := (StageDefinition.internal "score").withDependencies ["ingest"])
      (.tail _ (.head _)) hparent (.only "ingest") rfl (if_pos htime)
  have hyields : ∀ s ∈ intake,
      (Dataflow.of intake e.binding payload ctx).Yields s.id (out s.id) := by
    rw [hb]
    exact List.forall_mem_cons.2 ⟨hingest, List.forall_mem_singleton.2 hscore⟩
  obtain ⟨r, hran, hfinal, -⟩ := Executor.succeeds hg hyields schedule start
  have hends : Dataflow.terminals intake = ["score"] := by decide
  have hpayload : r.payload = out "score" := (hends ▸ hfinal).unique (.only "score")
  exact ⟨r, hran, hpayload⟩

end Fixture

namespace Comparator

/-- **Replays of recorded runs find no change.** A run over stages with reproducible handlers
succeeded, its payload is a canonical value and says a scored result, and the store has a snapshot
that holds the run. Then the replay of the signal runs the pipeline on the recorded input and
succeeds with the same result, under any tolerance from zero up, with any caps and any orders of
completions in both runs. All lines say that nothing changed, no input is lost, and the report ends
with the verdict that there is no drift. -/
theorem replay_unchanged {stages : List StageDefinition} {g : StageGraph} {b : Binding}
    {e : Executor} (hg : StageGraph.build stages = .ok g) (he : Executor.ofBinding g b = .ok e)
    (hb : ∀ id h, b.get? id = some h → h.Reproducible) {limit : Option Nat} {schedule : Schedule}
    {start : Timestamp} {payload : Json} {ctx : RunContext} {out : RunOutput}
    {result : ScoredResult}
    (hran : ((e.withOptionalCap limit).run schedule start payload ctx).result = .ok out)
    (hvalue : out.payload.Canonical) (hread : ScoredResult.read.value out.payload = .ok result)
    {c : Comparator} {limit' : Option Nat} {schedule' : Schedule} {start' : Timestamp}
    {sink : EventSink}
    (hc : c.pipeline = .ofExecutor (e.withOptionalCap limit') schedule' start' sink)
    (hepsilon : 0 ≤ c.epsilon) {snapshots : List StoredSnapshot}
    (hstore : c.store = some (.ofSnapshots (.ofList snapshots))) {id : String}
    {s : StoredSnapshot} (hfound : (Snapshots.ofList snapshots).get? id = some s)
    (hrecords : s.Records payload ctx result) (now : Timestamp) :
    ∃ r, (c.replay now id).result = .ok (.replayed r) ∧
      r.signalId = id ∧ r.stored = result ∧ r.recomputed = result ∧
      (∃ detail : Axis → String, r.comparison.lines =
        [.score, .decision, .confidence, .reasonCodes, .configHash, .logicVersion, .novelty].map
          fun axis : Axis => "unchanged: " ++ axis.name ++ " " ++ detail axis) ∧
      r.comparison.decisionChanged = false ∧ r.replayMeta.lossyInput = false ∧
      (∃ front, ReplayOutcome.report (.replayed r) = front ++ "Result: NO DRIFT\n") ∧
      (c.replay now id).request = some (payload, c.options s) := by
  have hanswer : c.answer? id = some (.ok (some s)) := by
    rw [answer?, hstore, Option.map_some]
    exact congrArg (fun found => some (Except.ok found)) hfound
  have hinput : s.input = ⟨payload, false, [StoredSnapshot.verbatimNote]⟩ := by
    unfold StoredSnapshot.input
    rw [hrecords.kept]
  -- the run of the replay gives the payload of the recorded run
  have hsame : Dataflow.of stages (e.withOptionalCap limit').binding payload (c.contextOf sink s) =
      Dataflow.of stages (e.withOptionalCap limit).binding payload ctx := by
    rw [Executor.withOptionalCap_binding, Executor.withOptionalCap_binding,
      (Executor.ofBinding_ok he).2]
    exact Dataflow.of_pinned hb payload (c.pinned_contextOf sink s) hrecords.pinned
  obtain ⟨out', hran', hpayload⟩ := Executor.repeats (Executor.build_withOptionalCap hg he limit)
    (Executor.build_withOptionalCap hg he limit') hsame hran schedule' start'
  have hread' : ScoredResult.read.value out'.payload = .ok result := hpayload ▸ hread
  -- so the replay compares the recorded result with itself
  have hresult := recomputes_replaySnapshot hc now id s
  have hrequest := c.request_replaySnapshot now id s
  rw [c.replay_of_found now hanswer]
  rw [hinput] at hresult hrequest
  generalize (c.replaySnapshot now id s).result = final at hresult ⊢
  cases hresult with
  | failed stage failure broke => cases hran'.symm.trans broke
  | undecodable out'' error ran unread =>
    cases hran'.symm.trans ran
    cases hread'.symm.trans unread
  | replayed out'' result' r ran decoded signal stored recomputed compared lost =>
    cases hran'.symm.trans ran
    cases hread'.symm.trans decoded
    rw [hrecords.scoredResult] at stored compared
    obtain ⟨hscore, hconfidence⟩ := ScoredResult.finite_of_read hvalue hread
    have hnone : r.comparison.Unchanged :=
      compared ▸ Comparison.unchanged_ofResults_self hscore hconfidence hepsilon
    refine ⟨r, rfl, signal.trans (Snapshots.signalId_of_get? hfound), stored, recomputed,
      hnone.lines, hnone.decision, lost, ?_⟩
    obtain ⟨front, hreport⟩ := r.report_eq
    have hverdict : r.verdict = "NO DRIFT" := by
      rw [ReplayResult.verdict, hnone.hasChanges]
      rfl
    rw [hverdict] at hreport
    exact ⟨⟨front, hreport⟩, hrequest⟩

/-- A run over two stages gave the outcome. Its replay, with a cap and with the stage that was
dispatched last always the first to complete, finds no change. -/
theorem replay_unchanged_intake :
    ∃ (g : StageGraph) (e : Executor), StageGraph.build Fixture.intake = .ok g ∧
      Executor.ofBinding g Fixture.scorers = .ok e ∧
      let c : Comparator :=
        { pipeline :=
            .ofExecutor (e.withOptionalCap (some 0)) (fun fs => fs.length - 1) default .discard
          store := some (.ofSnapshots (.ofList [Fixture.snapshot "sig-1"])) }
      ∃ r, (c.replay default "sig-1").result = .ok (.replayed r) ∧
        r.stored = Fixture.outcome.result ∧ r.recomputed = Fixture.outcome.result ∧
          (c.replay default "sig-1").request =
            some ((Fixture.snapshot "sig-1").rawInput.getD .null,
              c.options (Fixture.snapshot "sig-1")) := by
  have hok : (StageGraph.build Fixture.intake).isOk = true := by decide +kernel
  obtain ⟨g, e, hg, he⟩ := Executor.exists_executor (b := Fixture.scorers) hok (by decide)
  refine ⟨g, e, hg, he, ?_⟩
  intro c
  have hc : c.pipeline =
      .ofExecutor (e.withOptionalCap (some 0)) (fun fs => fs.length - 1) default .discard := rfl
  have hstore : c.store = some (.ofSnapshots (.ofList [Fixture.snapshot "sig-1"])) := rfl
  have hfound : (Snapshots.ofList [Fixture.snapshot "sig-1"]).get? "sig-1" =
      some (Fixture.snapshot "sig-1") := rfl
  have hepsilon : 0 ≤ defaultEpsilon := by decide
  -- the recorded run
  let payload : Json := (Fixture.snapshot "sig-1").rawInput.getD .null
  let ctx : RunContext := { signalId := some "sig-1", scoringTime := some Fixture.scoredAt }
  have hbinding : (e.withOptionalCap none).binding = Fixture.scorers :=
    (Executor.ofBinding_ok he).2
  have htime : ctx.scoringTime = some Fixture.scoredAt := rfl
  obtain ⟨out, hran, hpayload⟩ := Fixture.run_intake (Executor.build_withOptionalCap hg he none)
    hbinding htime .earliest default payload
  have hvalue : out.payload.Canonical := hpayload ▸ Fixture.canonical_scored
  have hread : ScoredResult.read.value out.payload = .ok Fixture.outcome.result := by
    rw [hpayload]
    rfl
  have hrecords : (Fixture.snapshot "sig-1").Records payload ctx Fixture.outcome.result :=
    ⟨⟨rfl, rfl, rfl⟩, rfl, rfl, rfl⟩
  obtain ⟨r, hr, -, hstored, hrecomputed, -, -, -, -, hrequest⟩ :=
    replay_unchanged hg he Fixture.reproducible_scorers hran hvalue hread hc hepsilon hstore hfound
      hrecords default
  exact ⟨r, hr, hstored, hrecomputed, hrequest⟩

end Comparator

end SignalPipeline
