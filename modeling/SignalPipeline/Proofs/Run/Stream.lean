import Mathlib.Data.List.Nodup
import SignalPipeline.Proofs.Run.Dispatch

/-!
# The events of a run

A run says of every stage when it starts and when it ends, and at its own end how it went. Read as
a log, the events tell the same as the report: which stages ran, in which order they completed, and
where the run broke off. Stages that are given up with a run that fails stay without an end.

* `Event.startedIds`, `Event.completedIds`, `Event.endedIds`, `Event.openIds`: what a stream of
  events says about stages.
* `Event.Faithful`: streams in which stages start once, end behind their start, and are open within
  a cap; `Faithful.start` and `Faithful.proceed` add one event.
* `Progress.Told`: what the stream of a run says in each of its states.
* `Executor.events_faithful`: what it says at the end of a run.
-/

namespace SignalPipeline

namespace Event

/-- The stage that an event says has started. -/
def starts? : Event → Option String
  | stageStarted id => some id
  | _ => none

/-- The stage that an event says has completed. -/
def completes? : Event → Option String
  | stageCompleted id _ => some id
  | _ => none

/-- The stage that an event says has completed or failed. -/
def ends? : Event → Option String
  | stageCompleted id _ => some id
  | stageFailed id _ _ => some id
  | _ => none

/-- The stages that have started, in order. -/
def startedIds (es : List Event) : List String :=
  es.filterMap starts?

/-- The stages that have completed, in order. -/
def completedIds (es : List Event) : List String :=
  es.filterMap completes?

/-- The stages that have completed or failed, in order. -/
def endedIds (es : List Event) : List String :=
  es.filterMap ends?

/-- The stages that have started and have not ended. -/
def openIds (es : List Event) : List String :=
  (startedIds es).filter fun id => !(endedIds es).contains id

/-- Streams in which no stage starts twice, a stage ends behind its start, and no more stages are
open at any time than a cap admits. -/
structure Faithful (cap : Option Nat) (es : List Event) : Prop where
  once : (startedIds es).Nodup
  behind : ∀ before e after, es = before ++ e :: after → ∀ id, e.ends? = some id →
    id ∈ startedIds before
  within : ∀ limit, cap = some limit → ∀ front, front <+: es → (openIds front).length ≤ limit

/-- The start or the completion of a stage. -/
def IsMove (e : Event) : Prop :=
  (∃ id, e = stageStarted id) ∨ ∃ id duration, e = stageCompleted id duration

variable {cap : Option Nat} {es : List Event} {e : Event} {id : String}

/-- A stage that starts is open unless it has ended before. -/
theorem length_openIds_start_le (es : List Event) (id : String) :
    (openIds (es ++ [stageStarted id])).length ≤ (openIds es).length + 1 := by
  have hstarted : startedIds (es ++ [stageStarted id]) = startedIds es ++ [id] :=
    List.filterMap_append
  have hended : endedIds (es ++ [stageStarted id]) = endedIds es := by
    rw [endedIds, List.filterMap_append]
    exact List.append_nil _
  rw [openIds, hstarted, hended, List.filter_append, List.length_append]
  exact Nat.add_le_add_left (List.length_filter_le _ [id]) _

/-- An event with which no stage starts opens none. -/
theorem length_openIds_le (h : e.starts? = none) :
    (openIds (es ++ [e])).length ≤ (openIds es).length := by
  have hstarted : startedIds (es ++ [e]) = startedIds es := by
    simp [startedIds, h]
  have hended : endedIds (es ++ [e]) = endedIds es ++ endedIds [e] := List.filterMap_append
  rw [openIds, hstarted, hended, openIds, ← List.countP_eq_length_filter,
    ← List.countP_eq_length_filter]
  refine List.countP_mono_left fun id _ hid => ?_
  simp only [Bool.not_eq_true', ← Bool.not_eq_true, List.contains_iff_mem] at hid ⊢
  exact fun hmem => hid (List.mem_append_left _ hmem)

namespace Faithful

theorem nil : Faithful cap [] where
  once := List.nodup_nil
  behind before e after h := by cases before <;> cases h
  within limit _ front hfront := by
    rw [List.prefix_nil.1 hfront]
    exact Nat.zero_le limit

/-- A stage starts for the first time, and the cap admits it. -/
theorem start (h : Faithful cap es) (hnew : id ∉ startedIds es)
    (hroom : ∀ limit, cap = some limit → (openIds es).length < limit) :
    Faithful cap (es ++ [stageStarted id]) where
  once := by
    rw [startedIds, List.filterMap_append]
    exact List.nodup_append.2 ⟨h.once, List.nodup_singleton id, fun a ha b hb hab =>
      hnew (List.mem_singleton.1 hb ▸ hab ▸ ha)⟩
  behind before e after hsplit i hi := by
    rcases split_snoc hsplit with ⟨rfl, rfl⟩ | ⟨back, hsplit⟩
    · cases hi
    · exact h.behind before e back hsplit i hi
  within limit hcap front hfront := by
    rcases List.prefix_concat_iff.1 hfront with rfl | hfront
    · exact Nat.le_trans (length_openIds_start_le es id) (hroom limit hcap)
    · exact h.within limit hcap front hfront

/-- Any other event, which ends a stage only if it has started. -/
theorem proceed (h : Faithful cap es) (hstart : e.starts? = none)
    (hend : ∀ id, e.ends? = some id → id ∈ startedIds es) : Faithful cap (es ++ [e]) where
  once := by
    have hstarted : startedIds (es ++ [e]) = startedIds es := by simp [startedIds, hstart]
    rw [hstarted]
    exact h.once
  behind before e' after hsplit i hi := by
    rcases split_snoc hsplit with ⟨rfl, rfl⟩ | ⟨back, hsplit⟩
    · exact hend i hi
    · exact h.behind before e' back hsplit i hi
  within limit hcap front hfront := by
    rcases List.prefix_concat_iff.1 hfront with rfl | hfront
    · exact Nat.le_trans (length_openIds_le hstart) (h.within limit hcap es List.prefix_rfl)
    · exact h.within limit hcap front hfront

end Faithful

end Event

open Event (startedIds endedIds openIds)

/-! ## The states of a run -/

namespace Progress

/-- What the stream of a run says in a state of it: what was dispatched has started, what has
completed has completed, and nothing else is said. -/
structure Told (cap : Option Nat) (p : Progress) : Prop where
  faithful : Event.Faithful cap p.journal.events
  started : startedIds p.journal.events = p.dispatched.map fun f => f.stage.id
  completed : Event.completedIds p.journal.events = p.completedIds
  moves : ∀ e ∈ p.journal.events, e.IsMove

namespace Told

variable {e : Executor} {cap : Option Nat} {schedule : Schedule} {payload : Json}
  {ctx : RunContext} {p q rest : Progress} {f : Flight} {output : Json}

theorem begin (e : Executor) : e.begin.Told cap where
  faithful := .nil
  started := rfl
  completed := rfl
  moves e he := by cases he

/-- As long as no stage has failed, the stages that have ended are those that have completed. -/
theorem endedIds_eq (h : p.Told cap) : endedIds p.journal.events = p.completedIds := by
  rw [← h.completed]
  refine List.filterMap_congr fun e he => ?_
  rcases h.moves e he with ⟨id, rfl⟩ | ⟨id, duration, rfl⟩ <;> rfl

/-- The stages that are open are those in flight. -/
theorem openIds_perm (h : p.Told cap) {g : StageGraph} (ha : p.Accounted g)
    (ho : p.Orderly cap) : (openIds p.journal.events).Perm p.inFlightIds := by
  have hwhole : (p.dispatched.map fun f => f.stage.id).Perm (p.completedIds ++ p.inFlightIds) := by
    have := ho.whole.map fun f => f.stage.id
    rwa [List.map_append, List.map_map] at this
  rw [openIds, h.started, h.endedIds_eq]
  refine (hwhole.filter _).trans (.of_eq ?_)
  have hcompleted : (p.completedIds.filter fun id => !p.completedIds.contains id) = [] :=
    List.filter_eq_nil_iff.2 fun id hid => by simp [hid]
  have hflying : (p.inFlightIds.filter fun id => !p.completedIds.contains id) = p.inFlightIds := by
    refine List.filter_eq_self.2 fun id hid => ?_
    obtain ⟨f, hf, rfl⟩ := List.mem_map.1 hid
    simpa using ha.not_completed hf
  rw [List.filter_append, hcompleted, hflying]
  rfl

/-- A stage takes off for the first time, and there is room for it. -/
theorem dispatch (h : p.Told cap) {g : StageGraph} (ha : p.Accounted g) (ho : p.Orderly cap)
    {ready : List String} (room : p.hasRoom cap = true)
    (hnew : f.stage.id ∉ p.dispatched.map fun f => f.stage.id) :
    (p.dispatch ready f).Told cap := by
  have hevents : (p.dispatch ready f).journal.events =
      p.journal.events ++ [.stageStarted f.stage.id] := Journal.events_append _ _
  refine ⟨?_, ?_, ?_, ?_⟩
  · rw [hevents]
    refine h.faithful.start (h.started ▸ hnew) fun limit hcap => ?_
    subst hcap
    rw [(h.openIds_perm ha ho).length_eq, inFlightIds, List.length_map]
    exact of_decide_eq_true room
  · rw [hevents, startedIds, List.filterMap_append, ← startedIds, h.started, Progress.dispatch,
      List.map_append]
    rfl
  · rw [hevents, Event.completedIds, List.filterMap_append, ← Event.completedIds, h.completed]
    exact List.append_nil _
  · rw [hevents]
    exact List.forall_mem_append.2 ⟨h.moves, List.forall_mem_singleton.2 (.inl ⟨_, rfl⟩)⟩

/-- A stage in flight completes. -/
theorem complete (h : p.Told cap) (ho : p.Orderly cap) (g : StageGraph)
    (taken : p.takeNext schedule = some (f, rest)) : (rest.complete g f output).Told cap := by
  have hdone := completedIds_complete taken g output
  have hf : f.stage.id ∈ startedIds p.journal.events := by
    rw [h.started]
    exact List.mem_map_of_mem (ho.taken_mem taken)
  obtain ⟨before, after, -, rfl⟩ := takeNext_eq_some taken
  have hevents : ∀ q : Progress, (q.complete g f output).journal.events =
      q.journal.events ++ [.stageCompleted f.stage.id f.duration] :=
    fun q => Journal.events_append _ _
  refine ⟨?_, ?_, ?_, ?_⟩
  · rw [hevents]
    exact h.faithful.proceed rfl fun id hid => Option.some_inj.1 hid ▸ hf
  · rw [hevents, startedIds, List.filterMap_append]
    exact (List.append_nil _).trans h.started
  · rw [hevents, hdone, Event.completedIds, List.filterMap_append]
    exact congrArg (· ++ [f.stage.id]) h.completed
  · rw [hevents]
    exact List.forall_mem_append.2 ⟨h.moves, List.forall_mem_singleton.2 (.inr ⟨_, _, rfl⟩)⟩

end Told
end Progress

namespace Executor.Reach

variable {e : Executor} {schedule : Schedule} {start : Timestamp} {payload : Json}
  {ctx : RunContext} {n : Nat} {p : Progress}

/-- The stream of a run in each of its states. -/
theorem told (h : e.Reach schedule start payload ctx n p) : p.Told e.cap := by
  induction h with
  | begin => exact .begin e
  | @move n p q reached goes ih =>
    have hnext := (Reach.move reached goes).dispatched_nodup
    cases goes_of_step goes with
    | dispatch ready room bound =>
      refine ih.dispatch reached.accounted reached.orderly room ?_
      rw [Progress.dispatch, List.map_append, List.nodup_append] at hnext
      exact fun hmem => hnext.2.2 _ hmem _ List.mem_cons_self rfl
    | complete waits taken answered => exact ih.complete reached.orderly e.graph taken

/-- What is said behind a state without a completion leaves the completed stages as they are. -/
theorem completedIds_append (h : e.Reach schedule start payload ctx n p) {entries : Journal}
    (hnone : Event.completedIds entries.events = []) :
    Event.completedIds (Journal.events (p.journal ++ entries)) = p.completedIds := by
  rw [Journal.events_append, Event.completedIds, List.filterMap_append, ← Event.completedIds,
    ← Event.completedIds, hnone, List.append_nil, h.told.completed]

end Executor.Reach

/-! ## Whole runs -/

namespace Event

/-- What the stream of a run over a list of stages says where the run succeeds: every stage starts
and completes, in the order of the execution records, and the end of the run comes last. -/
structure Succeeded (stages : List StageDefinition) (records : List StageMeta)
    (es : List Event) : Prop where
  started : (startedIds es).Perm (stages.map StageDefinition.id)
  completed : (completedIds es).Perm (stages.map StageDefinition.id)
  recorded : completedIds es = records.map StageMeta.id
  last : ∃ front duration, es = front ++ [runCompleted stages.length duration] ∧
    ∀ e ∈ front, e.IsMove

/-- What it says where the run breaks off at a stage: what has completed has completed behind its
dependencies, and the failure comes last, with its text. -/
structure BrokenOff (stages : List StageDefinition) (id text : String) (es : List Event) :
    Prop where
  known : ∀ i ∈ completedIds es, i ∈ stages.map StageDefinition.id
  closed : ∀ s ∈ stages, s.id ∈ completedIds es → ∀ d ∈ s.dependsOn, d ∈ completedIds es
  last : ∃ front duration, es = front ++ [stageFailed id text duration, runFailed (some id) text] ∧
    ∀ e ∈ front, e.IsMove

end Event

namespace Executor

variable {stages : List StageDefinition} {e : Executor} {schedule : Schedule}
  {start : Timestamp} {payload : Json} {ctx : RunContext} {n : Nat} {p : Progress}

/-- Completed stages are stages of the list, and their dependencies have completed. -/
theorem Reach.completed_closed (hg : StageGraph.build stages = .ok e.graph)
    (h : e.Reach schedule start payload ctx n p) :
    (∀ id ∈ p.completedIds, id ∈ stages.map StageDefinition.id) ∧
      ∀ s ∈ stages, s.id ∈ p.completedIds → ∀ d ∈ s.dependsOn, d ∈ p.completedIds := by
  have hknown : ∀ id ∈ p.completedIds, id ∈ stages.map StageDefinition.id := by
    rw [← StageGraph.ids_of_build hg]
    exact fun id hid =>
      h.accounted.known id (Progress.Accounted.mem_released.2 (.inr (.inr hid)))
  refine ⟨hknown, fun s hs hid d hd => ?_⟩
  obtain ⟨c, hc, hcid⟩ := Progress.mem_completedIds.1 hid
  have hf := h.orderly.whole.mem_iff.2 (List.mem_append_left _ (List.mem_map_of_mem hc))
  obtain ⟨t, ht, hft⟩ := h.dispatched_declared hg hf
  have hsame : t = s := by
    refine StageDefinition.eq_of_id (StageGraph.distinct_of_build hg) ht hs ?_
    rw [← hcid, hft]
    rfl
  refine h.orderly.behind _ hf d ?_
  rw [hft, hsame]
  exact mem_firstOccurrences.2 hd

/-- What the stream of a run says where every stage has completed. -/
theorem Reach.succeeded (hg : StageGraph.build stages = .ok e.graph)
    (h : e.Reach schedule start payload ctx n p) (idle : p.inFlight = [])
    (all : p.completedIds.Perm e.graph.ids) :
    let es := (p.say (successEntries p.completed.length p.clock)).journal.events
    Event.Faithful e.cap es ∧ Event.Succeeded stages (p.completed.map (stageMeta start)) es := by
  intro es
  have htold := h.told
  have hes : es = p.journal.events ++ [.runCompleted p.completed.length (.ofNat p.clock)] :=
    Journal.events_append _ _
  have hstarted : startedIds es = p.dispatched.map fun f => f.stage.id := by
    rw [hes, startedIds, List.filterMap_append]
    exact (List.append_nil _).trans htold.started
  have hcompleted : Event.completedIds es = p.completedIds := h.completedIds_append rfl
  have hall : p.completedIds.Perm (stages.map StageDefinition.id) :=
    StageGraph.ids_of_build hg ▸ all
  have hlength : p.completed.length = stages.length := by
    simpa [Progress.completedIds] using hall.length_eq
  have hends : ∀ id, (Event.runCompleted p.completed.length (.ofNat p.clock)).ends? = some id →
      id ∈ startedIds p.journal.events := by
    intro id h
    cases h
  refine ⟨hes ▸ htold.faithful.proceed rfl hends, ?_, ?_, ?_, ?_⟩
  · have hwhole := h.orderly.whole.map fun f => f.stage.id
    rw [idle, List.append_nil, List.map_map] at hwhole
    exact hstarted ▸ hwhole.trans hall
  · exact hcompleted ▸ hall
  · rw [hcompleted, List.map_map]
    rfl
  · exact ⟨_, _, hlength ▸ hes, htold.moves⟩

/-- What the stream of a run says where a completion with a failure is taken. -/
theorem Reach.brokenOff (hg : StageGraph.build stages = .ok e.graph)
    (h : e.Reach schedule start payload ctx n p) {f : Flight} {rest : Progress}
    (taken : p.takeNext schedule = some (f, rest)) (failure : Failure) :
    let es := (rest.say (failureEntries f failure)).journal.events
    Event.Faithful e.cap es ∧ Event.BrokenOff stages f.stage.id failure.text es := by
  intro es
  have htold := h.told
  have hf : f.stage.id ∈ startedIds p.journal.events := by
    rw [htold.started]
    exact List.mem_map_of_mem (h.orderly.taken_mem taken)
  have hes : es = p.journal.events ++ [.stageFailed f.stage.id failure.text f.duration] ++
      [.runFailed (some f.stage.id) failure.text] := by
    obtain ⟨before, after, -, rfl⟩ := Progress.takeNext_eq_some taken
    exact (Journal.events_append _ _).trans (List.append_cons _ _ _)
  have hcompleted : Event.completedIds es = p.completedIds := by
    obtain ⟨before, after, -, rfl⟩ := Progress.takeNext_eq_some taken
    exact h.completedIds_append rfl
  have hfailed := htold.faithful.proceed (e := .stageFailed f.stage.id failure.text f.duration) rfl
    fun id hid => Option.some_inj.1 hid ▸ hf
  obtain ⟨hknown, hclosed⟩ := h.completed_closed hg
  refine ⟨hes ▸ hfailed.proceed rfl nofun, hcompleted ▸ hknown, hcompleted ▸ hclosed,
    p.journal.events, f.duration, ?_, htold.moves⟩
  rw [hes, List.append_assoc]
  rfl

/-- **The events are a faithful log of the run.** Under every cap and every schedule, hence in every
order of completions (`Reach.exists_schedule`), no stage starts twice, every stage ends behind its
start, and no more stages are open at any time than the cap admits. Where the run succeeds, each
stage starts and completes once, in the order of the execution records, and the stream ends with the
one event that the run has completed. Where it fails, the stages that have completed are closed
under dependencies, and the stream ends with the failure of the stage that the error names and that
of the run, both with the text of the error. -/
theorem events_faithful {g : StageGraph} {b : Binding} (hg : StageGraph.build stages = .ok g)
    (he : ofBinding g b = .ok e) (limit : Option Nat) (schedule : Schedule) (start : Timestamp)
    (payload : Json) (ctx : RunContext) :
    let r := (e.withOptionalCap limit).run schedule start payload ctx
    Event.Faithful (limit.map (max · 1)) r.journal.events ∧
    (∀ out, r.result = .ok out → Event.Succeeded stages out.stageMeta r.journal.events) ∧
    ∀ error, r.result = .error error → ∃ id failure, error = .stage id failure ∧
      Event.BrokenOff stages id error.message r.journal.events := by
  intro r
  have hg := build_withOptionalCap hg he limit
  have hfin := (e.withOptionalCap limit).finishes schedule start payload ctx
  rw [← withOptionalCap_cap e limit]
  change (e.withOptionalCap limit).Finishes schedule start payload ctx r at hfin
  generalize r = r at hfin
  cases hfin with
  | success reached idle all =>
    obtain ⟨hfaithful, hsucceeded⟩ := reached.succeeded hg idle all
    refine ⟨hfaithful, fun out hout => ?_, nofun⟩
    cases hout
    exact hsucceeded
  | failure reached taken answered =>
    obtain ⟨hfaithful, hbroken⟩ := reached.brokenOff hg taken _
    refine ⟨hfaithful, nofun, fun error herror => ?_⟩
    cases herror
    exact ⟨_, _, rfl, hbroken⟩

/-- A diamond whose handlers fail, with a cap of zero: one stage is open at a time. -/
theorem events_faithful_diamond :
    ∃ g e, StageGraph.build Fixture.diamond = .ok g ∧ ofBinding g Fixture.faulty = .ok e ∧
      let r := (e.withOptionalCap (some 0)).run .earliest default .null {}
      Event.Faithful (some 1) r.journal.events ∧
        ∀ error, r.result = .error error → ∃ id failure, error = .stage id failure ∧
          Event.BrokenOff Fixture.diamond id error.message r.journal.events := by
  obtain ⟨g, e, hg, he⟩ := exists_executor_diamond (b := Fixture.faulty) (by decide)
  obtain ⟨hfaithful, -, hbroken⟩ := events_faithful hg he (some 0) .earliest default .null {}
  exact ⟨g, e, hg, he, hfaithful, hbroken⟩

end Executor

end SignalPipeline
