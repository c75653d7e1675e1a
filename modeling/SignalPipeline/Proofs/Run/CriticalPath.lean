import Mathlib
import SignalPipeline.Proofs.Graph.Build
import SignalPipeline.Proofs.Run.Waiting

/-!
# The time that a run takes

Time passes only in handlers, and without a cap nothing waits for a slot. If completions are taken
in the order of time, a stage takes off at the moment in which the last of its dependencies
completes, and so it completes after the longest of the dependency paths that end in it.

* `StageGraph.Path`: the dependency paths of a list of stages.
* `Schedule.Timely`: schedules that take completions in the order of time.
* `Progress.LastDue`: the latest of the times at which certain stages are due.
* `Progress.Prompt`: no stage waited for anything but its dependencies, kept by every move
  (`Prompt.move`).
* `Progress.Prompt.isGreatest_path`: a stage is due when the longest path to it has been flown.
* `Executor.no_slot_wasted`: runs with a cap and without one.
-/

namespace SignalPipeline

/-- The ids along a dependency path to a stage: each stage depends on the one in front of it. -/
inductive StageGraph.Path (stages : List StageDefinition) : List String → String → Prop
  | only {s : StageDefinition} (declared : s ∈ stages) : Path stages [s.id] s.id
  | snoc {ids : List String} {d id : String} (path : Path stages ids d)
      (depends : DependsOn stages id d) : Path stages (ids ++ [id]) id

/-- How long the handler of a stage takes. -/
def Binding.delay (b : Binding) (id : String) : Nat :=
  (b.get? id).elim 0 Handler.delay

/-- Completions are taken in the order of time: nothing in flight is due before what is chosen. -/
def Schedule.Timely (schedule : Schedule) : Prop :=
  ∀ before f after,
    schedule (before ++ f :: after) % (before ++ f :: after).length = before.length →
      ∀ g ∈ before ++ f :: after, f.dueAt ≤ g.dueAt

/-- The schedule of a clock does so. -/
theorem Schedule.timely_earliest : Schedule.earliest.Timely :=
  fun _ _ _ h => (earliest_choice h).1

namespace Progress

/-- A time is the latest at which the flights of some stages are due; it is 0 for no stage. -/
structure LastDue (flights : List Flight) (ids : List String) (t : Nat) : Prop where
  each : ∀ id ∈ ids, ∃ f ∈ flights, f.stage.id = id ∧ f.dueAt ≤ t
  last : ids = [] ∧ t = 0 ∨ ∃ f ∈ flights, f.stage.id ∈ ids ∧ f.dueAt = t

namespace LastDue

variable {flights more : List Flight} {ids : List String} {t : Nat}

theorem append (h : LastDue flights ids t) : LastDue (flights ++ more) ids t where
  each id hid := by
    obtain ⟨f, hf, hdue⟩ := h.each id hid
    exact ⟨f, List.mem_append_left _ hf, hdue⟩
  last := h.last.imp_right fun ⟨f, hf, hdue⟩ => ⟨f, List.mem_append_left _ hf, hdue⟩

theorem congr {ids' : List String} (h : LastDue flights ids t) (hids : ∀ d, d ∈ ids ↔ d ∈ ids') :
    LastDue flights ids' t where
  each id hid := h.each id ((hids id).2 hid)
  last := by
    refine h.last.imp (fun ⟨hnil, ht⟩ => ⟨?_, ht⟩) fun ⟨f, hf, hid, hdue⟩ =>
      ⟨f, hf, (hids _).1 hid, hdue⟩
    exact List.eq_nil_iff_forall_not_mem.2 fun d hd => by simpa [hnil] using (hids d).2 hd

theorem eq_zero (h : LastDue flights ids t) (hnil : ids = []) : t = 0 := by
  rcases h.last with ⟨-, ht⟩ | ⟨f, -, hid, -⟩
  · exact ht
  · rw [hnil] at hid
    cases hid

/-- Where every stage has one flight, it is the greatest of their due times. -/
theorem isGreatest (h : LastDue flights ids t)
    (hd : (flights.map fun f => f.stage.id).Nodup) (hne : ids ≠ []) :
    IsGreatest {t | ∃ f ∈ flights, f.stage.id ∈ ids ∧ f.dueAt = t} t := by
  refine ⟨h.last.resolve_left fun hnil => hne hnil.1, ?_⟩
  rintro _ ⟨f, hf, hid, rfl⟩
  obtain ⟨f', hf', heq, hle⟩ := h.each _ hid
  rwa [List.inj_on_of_nodup_map hd hf' hf heq] at hle

end LastDue

/-- No stage waited for anything but its dependencies. -/
structure Prompt (stages : List StageDefinition) (g : StageGraph) (b : Binding) (p : Progress) :
    Prop where
  ahead : ∀ f ∈ p.inFlight, p.clock ≤ f.dueAt
  past : ∀ c ∈ p.completed, c.flight.dueAt ≤ p.clock
  /-- A ready stage has become ready just now. -/
  ready : ∀ id ∈ p.ready, LastDue p.dispatched (g.stageAt id).dependsOn p.clock
  started : ∀ f ∈ p.dispatched, LastDue p.dispatched f.stage.dependsOn f.startedAt
  lasts : ∀ f ∈ p.dispatched, f.dueAt = f.startedAt + b.delay f.stage.id
  /-- Some path to the stage takes up the whole time. -/
  path : ∀ f ∈ p.dispatched, ∃ ids, StageGraph.Path stages ids f.stage.id ∧
    (ids.map b.delay).sum = f.dueAt

namespace Prompt

variable {stages : List StageDefinition} {g : StageGraph} {b : Binding} {schedule : Schedule}
  {payload : Json} {ctx : RunContext} {p q rest : Progress} {f : Flight} {output : Json}

theorem begin (e : Executor) : e.begin.Prompt stages e.graph b where
  ahead f hf := by cases hf
  past c hc := by cases hc
  ready id hid := by
    obtain ⟨s, hs, hroot, rfl⟩ := StageGraph.mem_roots.1 hid
    rw [StageGraph.stageAt_of_mem hs, hroot]
    exact ⟨fun d hd => (by cases hd), .inl ⟨rfl, rfl⟩⟩
  started f hf := by cases hf
  lasts f hf := by cases hf
  path f hf := by cases hf

/-- A longest path to a stage that takes off now goes through the dependency that completed last. -/
theorem exists_path (hp : p.Prompt stages g b) (hg : StageGraph.build stages = .ok g)
    {s : StageDefinition} (hs : s ∈ g.stages) (hlast : LastDue p.dispatched s.dependsOn p.clock) :
    ∃ ids, StageGraph.Path stages ids s.id ∧
      (ids.map b.delay).sum = p.clock + b.delay s.id := by
  rw [StageGraph.stages_of_build hg] at hs
  obtain ⟨t, ht, rfl⟩ := List.mem_map.1 hs
  show ∃ ids, StageGraph.Path stages ids t.id ∧ (ids.map b.delay).sum = p.clock + b.delay t.id
  rcases hlast.last with ⟨-, hclock⟩ | ⟨f, hf, hid, hdue⟩
  · exact ⟨[t.id], .only ht, by simp [hclock]⟩
  · obtain ⟨ids, hpath, hsum⟩ := hp.path f hf
    exact ⟨ids ++ [t.id], hpath.snoc ⟨t, ht, rfl, mem_firstOccurrences.1 hid⟩,
      by simp [hsum, hdue]⟩

/-- A ready stage takes off. -/
theorem dispatch (hp : p.Prompt stages g b) (ha : p.Accounted g)
    (hg : StageGraph.build stages = .ok g) {id : String} {rest : List String} {h : Handler}
    (hr : p.ready = id :: rest) (hb : b.get? id = some h) :
    (p.dispatch rest (p.flight h payload ctx (g.stageAt id))).Prompt stages g b := by
  obtain ⟨hs, hid⟩ := ha.stageAt_of_ready (hr ▸ List.mem_cons_self)
  have hlast := hp.ready id (hr ▸ List.mem_cons_self)
  have hdelay : b.delay id = h.delay := by rw [Binding.delay, hb]; rfl
  refine ⟨?_, hp.past, fun x hx => ?_, ?_, ?_, ?_⟩
  · refine List.forall_mem_append.2 ⟨hp.ahead, List.forall_mem_singleton.2 ?_⟩
    exact Nat.le_add_right _ _
  · exact (hp.ready x (hr ▸ List.mem_cons_of_mem id hx)).append
  · exact List.forall_mem_append.2
      ⟨fun f hf => (hp.started f hf).append, List.forall_mem_singleton.2 hlast.append⟩
  · refine List.forall_mem_append.2 ⟨hp.lasts, List.forall_mem_singleton.2 ?_⟩
    show p.clock + h.delay = p.clock + b.delay (g.stageAt id).id
    rw [hid, hdelay]
  · refine List.forall_mem_append.2 ⟨hp.path, List.forall_mem_singleton.2 ?_⟩
    obtain ⟨ids, hpath, hsum⟩ := hp.exists_path hg hs hlast
    exact ⟨ids, hpath, by rw [hsum, hid, hdelay]; rfl⟩

/-- The clock moves on to the time at which the completion is due that is taken. -/
theorem clock_takeNext (hp : p.Prompt stages g b) (ht : p.takeNext schedule = some (f, rest)) :
    rest.clock = f.dueAt := by
  have hf := hp.ahead f (takeNext_mem ht)
  obtain ⟨before, after, -, rfl⟩ := takeNext_eq_some ht
  exact Nat.max_eq_right hf

/-- A stage that a completion releases becomes ready at the time of that completion. -/
theorem lastDue_freed (hp : p.Prompt stages g b) (ha : p.Accounted g) {cap : Option Nat}
    (ho : p.Orderly cap) (ht : p.takeNext schedule = some (f, rest)) :
    ∀ id ∈ (countDown (g.dependents f.stage.id) p.pending).1,
      LastDue p.dispatched (g.stageAt id).dependsOn f.dueAt := by
  intro id hfreed
  obtain ⟨s, hs, -, rfl⟩ := StageGraph.mem_dependents.1 ((countDown_sublist _ _).subset hfreed)
  obtain ⟨hdep, hdone⟩ := (ha.mem_released_by ht hs).1 hfreed
  have hf := ho.taken_mem ht
  rw [StageGraph.stageAt_of_mem hs]
  refine ⟨fun d hd => ?_, .inr ⟨f, hf, hdep, rfl⟩⟩
  rcases List.mem_append.1 (hdone d hd) with hd | hd
  · obtain ⟨c, hc, hid⟩ := mem_completedIds.1 hd
    refine ⟨c.flight, ?_, hid, (hp.past c hc).trans (hp.ahead f (takeNext_mem ht))⟩
    exact ho.whole.mem_iff.2 (List.mem_append_left _ (List.mem_map_of_mem hc))
  · exact ⟨f, hf, (List.mem_singleton.1 hd).symm, Nat.le_refl _⟩

/-- A completion is taken when the queue is empty, so what is ready then has become so by it. -/
theorem complete (hp : p.Prompt stages g b) (ha : p.Accounted g) {cap : Option Nat}
    (ho : p.Orderly cap) (hs : schedule.Timely) (hempty : p.ready = [])
    (ht : p.takeNext schedule = some (f, rest)) :
    (rest.complete g f output).Prompt stages g b := by
  have hnow : p.clock ≤ f.dueAt := hp.ahead f (takeNext_mem ht)
  have hfreed := hp.lastDue_freed ha ho ht
  obtain ⟨before, after, hflies, hindex, rfl⟩ := takeNext_index ht
  rw [hflies] at hindex
  have hleast := hs before f after hindex
  have hclock : max p.clock f.dueAt = f.dueAt := Nat.max_eq_right hnow
  refine ⟨fun f' hf' => ?_, ?_, fun id hid => ?_, hp.started, hp.lasts, hp.path⟩
  · show max p.clock f.dueAt ≤ f'.dueAt
    rw [hclock]
    exact hleast f' (((List.sublist_cons_self f after).append_left before).subset hf')
  · refine List.forall_mem_append.2 ⟨fun c hc => ?_, List.forall_mem_singleton.2 ?_⟩
    · exact (hp.past c hc).trans (Nat.le_max_left _ _)
    · exact Nat.le_max_right _ _
  · have hid : id ∈ p.ready ++ (countDown (g.dependents f.stage.id) p.pending).1 := hid
    rw [hempty, List.nil_append] at hid
    show LastDue p.dispatched (g.stageAt id).dependsOn (max p.clock f.dueAt)
    rw [hclock]
    exact hfreed id hid

/-- Without a cap, every move with which a run goes on leaves no stage waiting. -/
theorem move {e : Executor} (hg : StageGraph.build stages = .ok e.graph) (hcap : e.cap = none)
    (hs : schedule.Timely) (ha : p.Accounted e.graph) (ho : p.Orderly e.cap)
    (hp : p.Prompt stages e.graph e.binding) (h : e.Goes schedule payload ctx p q) :
    q.Prompt stages e.graph e.binding := by
  cases h with
  | dispatch ready room bound => exact hp.dispatch ha hg ready bound
  | complete waits taken answered =>
    have hroom : p.hasRoom e.cap = true := by rw [hcap]; rfl
    have hempty := waits.resolve_right fun h => Bool.false_ne_true (h.symm.trans hroom)
    exact hp.complete ha ho hs hempty taken

end Prompt
end Progress

namespace Executor

variable {e : Executor} {stages : List StageDefinition} {schedule : Schedule} {start : Timestamp}
  {payload : Json} {ctx : RunContext} {n : Nat} {p : Progress} {f : Flight}

namespace Reach

/-- In every state of a run without a cap no stage has waited for anything but its dependencies. -/
theorem prompt (h : e.Reach schedule start payload ctx n p)
    (hg : StageGraph.build stages = .ok e.graph) (hcap : e.cap = none) (hs : schedule.Timely) :
    p.Prompt stages e.graph e.binding := by
  refine (h.invariant (I := fun p => p.Orderly e.cap ∧ p.Prompt stages e.graph e.binding)
    ⟨.begin e, .begin e⟩ fun p q ha hp goes => ?_).2
  exact ⟨.move ha hp.1 goes, .move hg hcap hs ha hp.1 hp.2 goes⟩

/-- What was dispatched under the id of a declared stage has the dependencies of that stage. -/
theorem mem_dependsOn (h : e.Reach schedule start payload ctx n p)
    (hg : StageGraph.build stages = .ok e.graph) (hf : f ∈ p.dispatched) {s : StageDefinition}
    (hs : s ∈ stages) (hid : f.stage.id = s.id) {d : String} :
    d ∈ f.stage.dependsOn ↔ d ∈ s.dependsOn := by
  obtain ⟨t, ht, hft⟩ := h.dispatched_declared hg hf
  have hst : t = s :=
    StageDefinition.eq_of_id (StageGraph.distinct_of_build hg) ht hs (by rw [← hid, hft]; rfl)
  rw [hft, hst]
  exact mem_firstOccurrences

/-- Every path to a stage was flown by the time at which the stage is due. -/
theorem path_le (h : e.Reach schedule start payload ctx n p)
    (hg : StageGraph.build stages = .ok e.graph) (hp : p.Prompt stages e.graph e.binding)
    {ids : List String} {id : String} (path : StageGraph.Path stages ids id) :
    ∀ f ∈ p.dispatched, f.stage.id = id → (ids.map e.binding.delay).sum ≤ f.dueAt := by
  induction path with
  | only declared =>
    intro f hf hid
    rw [hp.lasts f hf, hid]
    simp
  | @snoc ids d id path depends ih =>
    rintro f hf rfl
    obtain ⟨s, hs, hid, hd⟩ := depends
    have hdep := (h.mem_dependsOn hg hf hs hid.symm).2 hd
    obtain ⟨f', hf', hid', hle⟩ := (hp.started f hf).each d hdep
    have hpath := ih f' hf' hid'
    have hlasts := hp.lasts f hf
    simp only [List.map_append, List.map_cons, List.map_nil, List.sum_append, List.sum_singleton]
    omega

/-- **A stage completes at the end of the longest path to it.** -/
theorem isGreatest_path (h : e.Reach schedule start payload ctx n p)
    (hg : StageGraph.build stages = .ok e.graph) (hp : p.Prompt stages e.graph e.binding)
    (hf : f ∈ p.dispatched) :
    IsGreatest {t | ∃ ids, StageGraph.Path stages ids f.stage.id ∧
      (ids.map e.binding.delay).sum = t} f.dueAt := by
  refine ⟨hp.path f hf, ?_⟩
  rintro _ ⟨ids, path, rfl⟩
  exact h.path_le hg hp path f hf rfl

end Reach

/-- A run that succeeds has dispatched every stage once. -/
theorem flights_of_ok {out : RunOutput} (h : (e.run schedule start payload ctx).result = .ok out) :
    ((e.run schedule start payload ctx).flights.map fun f => f.stage.id).Perm e.graph.ids := by
  have hfin := e.finishes schedule start payload ctx
  generalize e.run schedule start payload ctx = r at hfin h
  cases hfin with
  | failure => cases h
  | @success n p reached idle all =>
    refine ((reached.orderly.whole.map fun f => f.stage.id).trans ?_).trans all
    rw [idle, List.append_nil, List.map_map]
    rfl

/-- **No free slot is wasted.** Whatever the handlers, the cap and the schedule, hence the order of
completions (`Reach.exists_schedule`), a run over a graph that was built dispatches stages in the
order in which they became ready; and where it waits for a completion, as many stages are in flight
as the cap admits, or every stage whose dependencies have completed was dispatched.

Without a cap, if completions are taken in the order of time, the clock shows the time at which a
stage is due when its completion is taken. A root takes off at 0 and every other stage at the
latest of the times at which its dependencies are due, so that a stage is due after the longest
dependency path that ends in it. A run that succeeds has one flight for each stage. -/
theorem no_slot_wasted {g : StageGraph} {b : Binding} (hg : StageGraph.build stages = .ok g)
    (he : ofBinding g b = .ok e) (limit : Option Nat) (schedule : Schedule) (start : Timestamp)
    (payload : Json) (ctx : RunContext) :
    let capped := e.withOptionalCap limit
    let r := capped.run schedule start payload ctx
    (∀ n p, capped.Reach schedule start payload ctx n p →
      (p.dispatched.map fun f => f.stage.id) ++ p.ready = g.readyOrder p.completedIds ∧
      (capped.Waits schedule start payload ctx p →
        (∃ k, limit = some k ∧ p.inFlight.length = max k 1) ∨
          ∀ s ∈ stages, (∀ d ∈ s.dependsOn, d ∈ p.completedIds) →
            ∃ f ∈ p.dispatched, f.stage.id = s.id)) ∧
    (limit = none → schedule.Timely →
      (∀ n p f rest, capped.Reach schedule start payload ctx n p →
        p.takeNext schedule = some (f, rest) → rest.clock = f.dueAt) ∧
      (∀ s ∈ stages, ∀ f ∈ r.flights, f.stage.id = s.id →
        (s.dependsOn = [] → f.startedAt = 0) ∧
        (s.dependsOn ≠ [] →
          IsGreatest {t | ∃ d ∈ r.flights, d.stage.id ∈ s.dependsOn ∧ d.dueAt = t} f.startedAt) ∧
        IsGreatest {t | ∃ ids, StageGraph.Path stages ids s.id ∧ (ids.map b.delay).sum = t}
          f.dueAt) ∧
      ∀ out, r.result = .ok out →
        (r.flights.map fun f => f.stage.id).Perm (stages.map StageDefinition.id)) := by
  intro capped r
  have hgraph : capped.graph = g := by rw [withOptionalCap_graph, (ofBinding_ok he).1]
  have hbinding : capped.binding = b := by rw [withOptionalCap_binding, (ofBinding_ok he).2]
  have hbuild := build_withOptionalCap hg he limit
  have hcap : capped.cap = limit.map (max · 1) := withOptionalCap_cap e limit
  refine ⟨fun n p hp => ⟨hgraph ▸ hp.dispatched_append_ready, fun hw => ?_⟩, fun hnone hs => ?_⟩
  · rcases hp.full_or_served hw with ⟨m, hm, hfull⟩ | hserved
    · obtain ⟨k, hk, rfl⟩ := Option.map_eq_some_iff.1 (hcap.symm.trans hm)
      exact .inl ⟨k, hk, hfull⟩
    · rw [StageGraph.stages_of_build hbuild] at hserved
      exact .inr fun s hs hd => hserved (StageGraph.collapse s) (List.mem_map_of_mem hs)
        fun d hd' => hd d (mem_firstOccurrences.1 hd')
  · subst hnone
    refine ⟨fun n p f rest hp ht => (hp.prompt hbuild hcap hs).clock_takeNext ht,
      fun s hmem f hf hid => ?_, fun out h => ?_⟩
    · obtain ⟨n, p, reached, hflights⟩ := capped.exists_flights schedule start payload ctx
      have hprompt := reached.prompt hbuild hcap hs
      rw [hflights] at hf ⊢
      have hstarted := (hprompt.started f hf).congr fun d =>
        reached.mem_dependsOn hbuild hf hmem hid
      refine ⟨hstarted.eq_zero, hstarted.isGreatest reached.dispatched_nodup, ?_⟩
      rw [← hid, ← hbinding]
      exact reached.isGreatest_path hbuild hprompt hf
    · rw [← StageGraph.ids_of_build hbuild]
      exact flights_of_ok h

/-- A diamond whose left side takes 30 ms: where one stage may fly at a time a run waits for that
one alone, or has dispatched all it could; without a cap the stage that joins both sides is due at
the end of the longest path to it. -/
theorem no_slot_wasted_diamond :
    ∃ g e, StageGraph.build Fixture.diamond = .ok g ∧ ofBinding g Fixture.relays = .ok e ∧
      (∀ n p, (e.withOptionalCap (some 0)).Reach .earliest default .null {} n p →
        (e.withOptionalCap (some 0)).Waits .earliest default .null {} p →
          p.inFlight.length = 1 ∨ ∃ f ∈ p.dispatched, f.stage.id = "source") ∧
      Schedule.earliest.Timely ∧
      ∃ f ∈ ((e.withOptionalCap none).run .earliest default .null {}).flights,
        f.stage.id = "join" ∧
          IsGreatest {t | ∃ ids, StageGraph.Path Fixture.diamond ids "join" ∧
            (ids.map (Binding.delay Fixture.relays)).sum = t} f.dueAt := by
  obtain ⟨g, e, hg, he⟩ := exists_executor_diamond (b := Fixture.relays) (by decide)
  refine ⟨g, e, hg, he, fun n p hp hw => ?_, Schedule.timely_earliest, ?_⟩
  · have hwait := ((no_slot_wasted hg he (some 0) .earliest default .null {}).1 n p hp).2 hw
    rcases hwait with ⟨k, hk, hfull⟩ | hserved
    · cases hk
      exact .inl hfull
    · exact .inr (hserved (.internal "source") (by decide) fun d hd => by cases hd)
  · have hjoin : ((StageGraph.build Fixture.diamond).toOption.bind fun g =>
        (ofBinding g Fixture.relays).toOption.map fun e =>
          ((e.withOptionalCap none).run .earliest default .null {}).flights.any
            fun f => f.stage.id == "join") = some true := by
      decide +kernel
    rw [hg, Except.toOption, Option.bind_some, he, Except.toOption, Option.map_some,
      Option.some_inj, List.any_eq_true] at hjoin
    obtain ⟨f, hf, hid⟩ := hjoin
    have hid := beq_iff_eq.1 hid
    have hrun := (no_slot_wasted hg he none .earliest default .null {}).2 rfl
      Schedule.timely_earliest
    refine ⟨f, hf, hid, ?_⟩
    exact (hrun.2.1 ((StageDefinition.internal "join").withDependencies ["right", "left", "right"])
      (by decide) f hf hid).2.2

end Executor
end SignalPipeline
