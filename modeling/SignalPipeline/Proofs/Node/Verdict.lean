import SignalPipeline.Fixture
import SignalPipeline.Proofs.Node.Valid

/-!
# The verdict on a state

Validation accepts exactly the sound states: those with a signal id, no running execution that has
an end, and all executions in the order of their starts. The checks look at neighbours only, which
is enough, because the order of time is transitive. What is found is listed by position, with
nothing left out and nothing added.

* `Listed`: what has a property, by position.
* `PipelineState.Sound`: the states that are accepted.
* `PipelineState.Verdict`: what validation says of a state.
* `TraceEntry.SameStart`: executions that soundness cannot tell apart.
* `PipelineState.validate_exact`: the verdict of a validation, and what cannot change it.
-/

namespace SignalPipeline

/-! ## Findings by position -/

/-- What has a property, with its positions: in ascending order, nothing twice, and nothing else. -/
structure Listed {α : Type} (P : Nat → α → Prop) (hits : List (Nat × α)) : Prop where
  ascending : hits.Pairwise fun a b => a.1 < b.1
  exact : ∀ i x, (i, x) ∈ hits ↔ P i x

variable {α β : Type}

namespace Listed

variable {P Q : Nat → α → Prop} {hits : List (Nat × α)}

theorem congr (h : Listed P hits) (hpq : ∀ i x, P i x ↔ Q i x) : Listed Q hits :=
  ⟨h.ascending, fun i x => (h.exact i x).trans (hpq i x)⟩

theorem eq_nil_iff (h : Listed P hits) : hits = [] ↔ ∀ i x, ¬ P i x := by
  rw [List.eq_nil_iff_forall_not_mem, Prod.forall]
  exact forall₂_congr fun i x => not_congr (h.exact i x)

/-- There is one such list. -/
theorem unique {hits' : List (Nat × α)} (h : Listed P hits) (h' : Listed P hits') :
    hits = hits' := by
  have hnodup : ∀ {l : List (Nat × α)}, (l.Pairwise fun a b => a.1 < b.1) → l.Nodup :=
    fun hl => hl.imp fun hlt => mt (congrArg Prod.fst) (Nat.ne_of_lt hlt)
  have hperm : hits.Perm hits' :=
    (List.perm_ext_iff_of_nodup (hnodup h.ascending) (hnodup h'.ascending)).2 fun x =>
      (h.exact x.1 x.2).trans (h'.exact x.1 x.2).symm
  exact hperm.eq_of_pairwise (fun a b _ _ hab hba => absurd hab (Nat.lt_asymm hba)) h.ascending
    h'.ascending

end Listed

/-- What a test finds in a list. -/
theorem exists_listed (xs : List α) (test : α → Bool) :
    ∃ hits, Listed (fun i x => xs[i]? = some x ∧ test x = true) hits ∧
      (xs.zipIdx.filter fun p => test p.1) = hits.map Prod.swap := by
  refine ⟨(xs.zipIdx.filter fun p => test p.1).map Prod.swap, ⟨?_, fun i x => ?_⟩, ?_⟩
  · have hpositions : (xs.zipIdx.map Prod.snd).Pairwise (· < ·) := by
      rw [List.zipIdx_map_snd]
      exact List.pairwise_lt_range' 1
    exact List.pairwise_map.2 ((List.pairwise_map.1 hpositions).sublist List.filter_sublist)
  · rw [List.mem_map]
    constructor
    · rintro ⟨p, hp, he⟩
      obtain ⟨hmem, htest⟩ := List.mem_filter.1 hp
      obtain ⟨rfl, rfl⟩ := Prod.mk.inj he
      exact ⟨List.mem_zipIdx_iff_getElem?.1 hmem, htest⟩
    · rintro ⟨hget, htest⟩
      exact ⟨(x, i), List.mem_filter.2 ⟨List.mem_zipIdx_iff_getElem?.2 hget, htest⟩, rfl⟩
  · simp

/-- What a test finds, each with a remark about it. -/
theorem exists_listed_filterMap (xs : List α) (test : α → Bool) (remark : Nat → α → β) :
    ∃ hits, Listed (fun i x => xs[i]? = some x ∧ test x = true) hits ∧
      (xs.zipIdx.filterMap fun p => if test p.1 then some (remark p.2 p.1) else none) =
        hits.map fun h => remark h.1 h.2 := by
  obtain ⟨hits, hlisted, hfilter⟩ := exists_listed xs test
  refine ⟨hits, hlisted, ?_⟩
  have hsplit : (xs.zipIdx.filterMap fun p => if test p.1 then some (remark p.2 p.1) else none) =
      (xs.zipIdx.filter fun p => test p.1).map fun p => remark p.2 p.1 := by
    rw [← List.filterMap_eq_map, List.filterMap_filter]
    rfl
  rw [hsplit, hfilter, List.map_map]
  rfl

/-- What a test keeps of a list. -/
theorem exists_listed_filter (xs : List α) (test : α → Bool) :
    ∃ hits, Listed (fun i x => xs[i]? = some x ∧ test x = true) hits ∧
      xs.filter test = hits.map Prod.snd := by
  obtain ⟨hits, hlisted, hfilter⟩ := exists_listed xs test
  refine ⟨hits, hlisted, ?_⟩
  have hsplit : xs.filter test = (xs.zipIdx.filter fun p => test p.1).map Prod.fst := by
    conv_lhs => rw [← List.zipIdx_map_fst 0 xs, List.filter_map]
    rfl
  rw [hsplit, hfilter, List.map_map]
  rfl

/-! ## Sound states -/

namespace TraceEntry

/-- A running execution that has an end. -/
def RunningWithEnd (e : TraceEntry) : Prop :=
  e.status = .running ∧ ¬ (e.endTime = none ∧ e.duration = none)

/-- An execution that is over, without a full record of its end. -/
def FinishedWithoutEnd (e : TraceEntry) : Prop :=
  (e.status = .completed ∨ e.status = .failed) ∧ (e.endTime = none ∨ e.duration = none)

/-- An execution that soundness cannot tell from another one: it has the same start and status, and
while it is running the same end. -/
structure SameStart (e f : TraceEntry) : Prop where
  startTime : f.startTime = e.startTime
  status : f.status = e.status
  openEnd : e.status = .running → f.endTime = e.endTime ∧ f.duration = e.duration

end TraceEntry

namespace PipelineState

/-- The signal id has a character that is not blank. -/
def Named (s : PipelineState) : Prop :=
  ∃ c ∈ s.signalId.toList, Text.isBlank c = false

/-- States that break no rule. -/
structure Sound (s : PipelineState) : Prop where
  named : s.Named
  running : ∀ e ∈ s.trace, ¬ e.RunningWithEnd
  /-- No execution starts before one that stands anywhere in front of it. -/
  chronological : ∀ (i j : Nat) (a b : TraceEntry), i < j →
    s.trace[i]? = some a → s.trace[j]? = some b →
    b.startTime.before a.startTime = false

/-- A result that belongs to no execution, though its key does not begin with an underscore. -/
def Untraced (s : PipelineState) (key : String) : Prop :=
  ¬ ['_'] <+: key.toList ∧ ∀ e ∈ s.trace, e.nodeId ≠ key

/-- What validation says of a state. -/
inductive Verdict (s : PipelineState) (limit : Nat) :
    Except InvariantError ValidationReport → Prop
  | accepted (sound : s.Sound) {long : List StateWarning} {openEnded : List (Nat × TraceEntry)}
      {untraced : List (Nat × String × Json)}
      (id : limit < s.signalId.length ∧ long = [.longSignalId s.signalId.length limit] ∨
        s.signalId.length ≤ limit ∧ long = [])
      (finished : Listed (fun i e => s.trace[i]? = some e ∧ e.FinishedWithoutEnd) openEnded)
      (results : Listed (fun i r => s.results[i]? = some r ∧ s.Untraced r.1) untraced) :
      Verdict s limit (.ok {
        warnings := long ++
          openEnded.map (fun h => .finishedWithoutEnd h.1 h.2.nodeId h.2.status) ++
          untraced.map fun h => .untracedResult h.2.1
        traceEntries := s.trace.length })
  | refused (unsound : ¬ s.Sound) {blank : List StateViolation} {ended : List (Nat × TraceEntry)}
      {backward : List (Nat × TraceEntry × TraceEntry)}
      (id : s.Named ∧ blank = [] ∨ ¬ s.Named ∧ blank = [.blankSignalId])
      (running : Listed (fun i e => s.trace[i]? = some e ∧ e.RunningWithEnd) ended)
      (neighbours : Listed (fun i p => s.trace[i]? = some p.1 ∧ s.trace[i + 1]? = some p.2 ∧
        p.2.startTime.before p.1.startTime = true) backward) :
      Verdict s limit (.error ⟨(blank ++
        ended.map (fun h => StateViolation.runningWithEnd h.1 h.2.nodeId) ++
        backward.map fun h => StateViolation.startsBefore (h.1 + 1) h.2.2.nodeId h.2.1.nodeId).map
          StateViolation.text⟩)

/-! ## The checks -/

variable {s : PipelineState}

theorem named_iff : s.Named ↔ Text.isBlankText s.signalId = false := by
  unfold Named Text.isBlankText
  rw [List.all_eq_false]
  simp only [Bool.not_eq_true]

theorem untraced_iff {key : String} :
    s.Untraced key ↔ (!isBookkeeping key && !(s.trace.any fun e => e.nodeId == key)) = true := by
  have hmark : ['_'] <+: key.toList ↔ isBookkeeping key = true := by
    unfold isBookkeeping
    cases key.toList with
    | nil => simp
    | cons c cs =>
      rw [List.cons_prefix_cons, List.head?_cons, beq_iff_eq, Option.some_inj, bookkeepingMark,
        eq_comm, and_iff_left List.nil_prefix]
  simp [Untraced, hmark]

end PipelineState

namespace TraceEntry

theorem runningWithEnd_iff {e : TraceEntry} :
    e.RunningWithEnd ↔ e.status = .running ∧ (e.endTime.isSome || e.duration.isSome) = true := by
  unfold RunningWithEnd
  cases e.endTime <;> cases e.duration <;> simp

theorem finishedWithoutEnd_iff {e : TraceEntry} :
    e.FinishedWithoutEnd ↔ (e.isFinished && (e.endTime.isNone || e.duration.isNone)) = true := by
  unfold FinishedWithoutEnd isFinished
  cases e.status <;> simp [TraceStatus.isFinished]

/-- The neighbours that are not in order, by position. -/
theorem disorder_eq_filterMap (position : Nat) (es : List TraceEntry) :
    disorder position es = ((es.zip es.tail).zipIdx position).filterMap fun p =>
      if p.1.2.startTime.before p.1.1.startTime then
        some (.startsBefore (p.2 + 1) p.1.2.nodeId p.1.1.nodeId) else none := by
  induction es generalizing position with
  | nil => rfl
  | cons a es ih =>
    cases es with
    | nil => rfl
    | cons b es =>
      rw [disorder, ih]
      simp only [List.tail_cons, List.zip_cons_cons, List.zipIdx_cons, List.filterMap_cons]
      split <;> rfl

end TraceEntry

namespace PipelineState

variable {s : PipelineState}

/-- The running executions that have an end. -/
theorem exists_ended (s : PipelineState) :
    ∃ ended, Listed (fun i e => s.trace[i]? = some e ∧ e.RunningWithEnd) ended ∧
      s.findings TraceEntry.violation? =
        ended.map fun h => StateViolation.runningWithEnd h.1 h.2.nodeId := by
  obtain ⟨ended, hlisted, hfound⟩ := exists_listed_filterMap s.trace
    (fun e => decide (e.status = .running ∧ (e.endTime.isSome || e.duration.isSome) = true))
    fun i e => StateViolation.runningWithEnd i e.nodeId
  refine ⟨ended, hlisted.congr fun i e => ?_, ?_⟩
  · rw [decide_eq_true_eq, TraceEntry.runningWithEnd_iff]
  · simp only [decide_eq_true_eq] at hfound
    exact hfound

/-- The executions that are over without a full record of their end. -/
theorem exists_openEnded (s : PipelineState) :
    ∃ openEnded, Listed (fun i e => s.trace[i]? = some e ∧ e.FinishedWithoutEnd) openEnded ∧
      s.findings TraceEntry.warning? =
        openEnded.map fun h => StateWarning.finishedWithoutEnd h.1 h.2.nodeId h.2.status := by
  obtain ⟨openEnded, hlisted, hfound⟩ := exists_listed_filterMap s.trace
    (fun e => e.isFinished && (e.endTime.isNone || e.duration.isNone))
    fun i e => StateWarning.finishedWithoutEnd i e.nodeId e.status
  refine ⟨openEnded, hlisted.congr fun i e => ?_, hfound⟩
  rw [TraceEntry.finishedWithoutEnd_iff]

/-- The neighbours in the trace that go backward. -/
theorem exists_backward (s : PipelineState) :
    ∃ backward, Listed (fun i (p : TraceEntry × TraceEntry) => s.trace[i]? = some p.1 ∧
        s.trace[i + 1]? = some p.2 ∧ p.2.startTime.before p.1.startTime = true) backward ∧
      TraceEntry.disorder 0 s.trace =
        backward.map fun h => StateViolation.startsBefore (h.1 + 1) h.2.2.nodeId h.2.1.nodeId := by
  obtain ⟨backward, hlisted, hfound⟩ := exists_listed_filterMap (s.trace.zip s.trace.tail)
    (fun p => p.2.startTime.before p.1.startTime)
    fun i p => StateViolation.startsBefore (i + 1) p.2.nodeId p.1.nodeId
  refine ⟨backward, hlisted.congr fun i p => ?_, ?_⟩
  · rw [List.getElem?_zip_eq_some, List.getElem?_tail, and_assoc]
  · rw [TraceEntry.disorder_eq_filterMap, hfound]

/-- The results that belong to no execution. -/
theorem exists_untraced (s : PipelineState) :
    ∃ untraced, Listed (fun i r => s.results[i]? = some r ∧ s.Untraced r.1) untraced ∧
      s.untracedKeys.map StateWarning.untracedResult =
        untraced.map fun h => StateWarning.untracedResult h.2.1 := by
  obtain ⟨untraced, hlisted, hkept⟩ := exists_listed_filter s.results fun r =>
    !isBookkeeping r.1 && !(s.trace.any fun e => e.nodeId == r.1)
  refine ⟨untraced, hlisted.congr fun i r => by rw [untraced_iff], ?_⟩
  rw [untracedKeys, Entries.keys, List.filter_map, List.map_map]
  show (s.results.filter fun r => !isBookkeeping r.1 && !(s.trace.any fun e => e.nodeId == r.1)).map
    _ = _
  rw [hkept, List.map_map]
  rfl

/-- Where all neighbours are in order, so are all executions. -/
theorem disorder_eq_nil_iff_chronological :
    TraceEntry.disorder 0 s.trace = [] ↔ ∀ (i j : Nat) (a b : TraceEntry), i < j →
      s.trace[i]? = some a → s.trace[j]? = some b → b.startTime.before a.startTime = false := by
  let R : TraceEntry → TraceEntry → Prop := fun a b => b.startTime.before a.startTime = false
  have htrans : Trans R R R := ⟨Timestamp.not_before_trans⟩
  rw [TraceEntry.disorder_eq_nil_iff, List.isChain_iff_pairwise (R := R),
    List.pairwise_iff_getElem]
  constructor
  · intro h i j a b hij ha hb
    obtain ⟨hi, rfl⟩ := List.getElem?_eq_some_iff.1 ha
    obtain ⟨hj, rfl⟩ := List.getElem?_eq_some_iff.1 hb
    exact h i j hi hj hij
  · exact fun h i j hi hj hij => h i j _ _ hij (List.getElem?_eq_getElem hi)
      (List.getElem?_eq_getElem hj)

/-- Nothing is found exactly in sound states. -/
theorem violations_eq_nil_iff : s.violations = [] ↔ s.Sound := by
  obtain ⟨ended, hlisted, hended⟩ := s.exists_ended
  rw [violations, List.append_eq_nil_iff, List.append_eq_nil_iff, hended, List.map_eq_nil_iff,
    hlisted.eq_nil_iff, disorder_eq_nil_iff_chronological]
  constructor
  · rintro ⟨⟨hid, hrunning⟩, hchronological⟩
    refine ⟨named_iff.2 ?_, fun e he hended => ?_, hchronological⟩
    · simpa using hid
    · obtain ⟨i, hi⟩ := List.mem_iff_getElem?.1 he
      exact hrunning i e ⟨hi, hended⟩
  · intro h
    refine ⟨⟨?_, fun i e he => ?_⟩, h.chronological⟩
    · rw [named_iff.1 h.named]
      rfl
    · exact h.running e (List.mem_of_getElem? he.1) he.2

/-- A validation gives the verdict. -/
theorem verdict_validate (s : PipelineState) (limit : Nat) :
    s.Verdict limit (s.validate limit) := by
  unfold validate
  split
  · next hnone =>
    have hsound := violations_eq_nil_iff.1 (List.isEmpty_iff.1 hnone)
    obtain ⟨openEnded, hfinished, hopen⟩ := s.exists_openEnded
    obtain ⟨untraced, hresults, huntraced⟩ := s.exists_untraced
    rw [warnings, hopen, huntraced, named_iff.1 hsound.named]
    refine .accepted hsound ?_ hfinished hresults
    by_cases hlong : limit < s.signalId.length
    · exact .inl ⟨hlong, by simp [hlong]⟩
    · exact .inr ⟨Nat.not_lt.1 hlong, by simp [hlong]⟩
  · next hsome =>
    have hunsound := fun h => hsome (List.isEmpty_iff.2 (violations_eq_nil_iff.2 h))
    obtain ⟨ended, hrunning, hended⟩ := s.exists_ended
    obtain ⟨backward, hneighbours, hbackward⟩ := s.exists_backward
    rw [violations, hended, hbackward]
    refine .refused hunsound ?_ hrunning hneighbours
    cases hid : Text.isBlankText s.signalId with
    | false => exact .inl ⟨named_iff.2 hid, rfl⟩
    | true => exact .inr ⟨fun h => by simp [named_iff.1 h] at hid, rfl⟩

/-- There is one verdict on a state. -/
theorem Verdict.unique {limit : Nat} {v w : Except InvariantError ValidationReport}
    (hv : s.Verdict limit v) (hw : s.Verdict limit w) : v = w := by
  cases hv with
  | accepted sound id finished results =>
    cases hw with
    | refused unsound => exact absurd sound unsound
    | accepted _ id' finished' results' =>
      rw [finished.unique finished', results.unique results']
      rcases id with ⟨hlt, rfl⟩ | ⟨hle, rfl⟩ <;> rcases id' with ⟨hlt', rfl⟩ | ⟨hle', rfl⟩
      · rfl
      · exact absurd hlt (Nat.not_lt.2 hle')
      · exact absurd hlt' (Nat.not_lt.2 hle)
      · rfl
  | refused unsound id running neighbours =>
    cases hw with
    | accepted sound => exact absurd sound unsound
    | refused _ id' running' neighbours' =>
      rw [running.unique running', neighbours.unique neighbours']
      rcases id with ⟨hn, rfl⟩ | ⟨hn, rfl⟩ <;> rcases id' with ⟨hn', rfl⟩ | ⟨hn', rfl⟩
      · rfl
      · exact absurd hn hn'
      · exact absurd hn' hn
      · rfl

/-- Exactly the sound states are accepted. -/
theorem exists_report_iff {limit : Nat} :
    (∃ report, s.validate limit = .ok report) ↔ s.Sound := by
  have hverdict := s.verdict_validate limit
  generalize s.validate limit = v at hverdict
  cases hverdict with
  | accepted sound => exact ⟨fun _ => sound, fun _ => ⟨_, rfl⟩⟩
  | refused unsound => exact ⟨fun ⟨_, h⟩ => (by cases h), fun h => absurd h unsound⟩

/-- What soundness cannot tell apart is sound alike. -/
theorem Sound.of_sameStart {t : PipelineState} (h : s.Sound) (hid : t.signalId = s.signalId)
    (htrace : List.Forall₂ TraceEntry.SameStart s.trace t.trace) : t.Sound := by
  have hget : ∀ (i : Nat) (f : TraceEntry), t.trace[i]? = some f →
      ∃ e, s.trace[i]? = some e ∧ e.SameStart f := by
    intro i f hf
    obtain ⟨hlength, hsame⟩ := List.forall₂_iff_get.1 htrace
    obtain ⟨hi, rfl⟩ := List.getElem?_eq_some_iff.1 hf
    have hi' : i < s.trace.length := hlength ▸ hi
    exact ⟨s.trace[i], List.getElem?_eq_getElem hi', hsame i hi' hi⟩
  refine ⟨?_, fun f hf hended => ?_, fun i j a b hij ha hb => ?_⟩
  · rw [Named, hid]
    exact h.named
  · obtain ⟨i, hi⟩ := List.mem_iff_getElem?.1 hf
    obtain ⟨e, he, hsame⟩ := hget i f hi
    refine h.running e (List.mem_of_getElem? he) ?_
    obtain ⟨hend, hduration⟩ := hsame.openEnd (hsame.status ▸ hended.1)
    rw [TraceEntry.RunningWithEnd, ← hsame.status, ← hend, ← hduration]
    exact hended
  · obtain ⟨a', ha', hsamea⟩ := hget i a ha
    obtain ⟨b', hb', hsameb⟩ := hget j b hb
    rw [hsamea.startTime, hsameb.startTime]
    exact h.chronological i j a' b' hij ha' hb'

/-- **Validation accepts exactly the sound states and loses no finding.** Its verdict on a state is
the one that its specification gives, whatever the limit; it accepts a state if and only if that is
sound. So nothing that soundness does not see makes it refuse a state that it accepted: no other
results, no other ends of executions that are over, and no other limit. -/
theorem validate_exact (s : PipelineState) (limit : Nat) :
    (∀ v, s.validate limit = v ↔ s.Verdict limit v) ∧
    ((∃ report, s.validate limit = .ok report) ↔ s.Sound) ∧
    ∀ (t : PipelineState) (limit' : Nat), (∃ report, s.validate limit = .ok report) →
      t.signalId = s.signalId → List.Forall₂ TraceEntry.SameStart s.trace t.trace →
      ∃ report, t.validate limit' = .ok report := by
  refine ⟨fun v => ⟨?_, (s.verdict_validate limit).unique⟩, exists_report_iff,
    fun t limit' hok hid htrace => ?_⟩
  · rintro rfl
    exact s.verdict_validate limit
  · exact exists_report_iff.2 ((exists_report_iff.1 hok).of_sameStart hid htrace)

/-- The state in the middle of a run is accepted under a limit that its signal id exceeds. It still
is where the end of the first execution is lost and a result belongs to none. -/
theorem validate_exact_underway :
    (∃ report, Fixture.underway.validate 3 = .ok report) ∧ Fixture.underway.Sound ∧
      ∃ report, PipelineState.validate { Fixture.underway with
        results := [("stray", .null)]
        trace := Fixture.underway.trace.map fun e =>
          if e.isFinished then { e with endTime := none } else e } 0 = .ok report := by
  have hok : ∃ report, Fixture.underway.validate 3 = .ok report := ⟨_, rfl⟩
  obtain ⟨-, hsound, hstable⟩ := validate_exact Fixture.underway 3
  refine ⟨hok, hsound.1 hok, hstable _ 0 hok rfl ?_⟩
  refine List.forall₂_map_right_iff.2 (List.forall₂_same.2 fun e he => ?_)
  by_cases hfinished : e.isFinished = true
  · rw [if_pos hfinished]
    refine ⟨rfl, rfl, fun hrunning => ?_⟩
    rw [TraceEntry.isFinished, hrunning] at hfinished
    cases hfinished
  · rw [if_neg hfinished]
    exact ⟨rfl, rfl, fun _ => ⟨rfl, rfl⟩⟩

end PipelineState
end SignalPipeline
