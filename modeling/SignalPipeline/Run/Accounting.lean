import SignalPipeline.Graph.StageGraphLemmas
import SignalPipeline.Run.Progress

/-!
# The books of a run

What the counters, the queue and the stages under way say about each other in every state of a run
over a graph.

* `Progress.Accounted`: a counter is the number of dependencies that have not completed, a stage
  is released exactly when there are none, and no stage is released twice.
* `Accounted.initial`, `Accounted.dispatch`, `Accounted.complete`: a run begins so, and every turn
  keeps it so.
* `Accounted.moves_le`: a run has two moves for each stage, its dispatch and its completion.
-/

namespace SignalPipeline

/-! ## Counting down -/

theorem countDown_sublist (ids : List String) (pending : Entries Nat) :
    (countDown ids pending).1.Sublist ids := by
  induction ids generalizing pending with
  | nil => exact .slnil
  | cons id ids ih =>
    rw [countDown]
    split
    · exact (ih _).cons _
    · dsimp only
      split
      · exact (ih _).cons_cons _
      · exact (ih _).cons _

/-- The counters afterwards: those of the listed ids are one less. -/
theorem countDown_get? {ids : List String} (hd : ids.Nodup) (pending : Entries Nat) (id : String) :
    (countDown ids pending).2.get? id =
      if id ∈ ids then (pending.get? id).map (· - 1) else pending.get? id := by
  induction ids generalizing pending with
  | nil => rfl
  | cons x ids ih =>
    obtain ⟨hx, hd⟩ := List.nodup_cons.1 hd
    rw [countDown]
    split
    · next hn =>
      rw [ih hd]
      by_cases h : id = x
      · subst h; simp [hx, hn]
      · simp [h]
    · next n hn =>
      dsimp only
      rw [ih hd, Entries.get?_put]
      by_cases h : id = x
      · subst h; simp [hx, hn]
      · simp [h]

/-- The stages that become ready: the listed ids whose counters come to zero. -/
theorem mem_countDown {ids : List String} (hd : ids.Nodup) (pending : Entries Nat) (id : String) :
    id ∈ (countDown ids pending).1 ↔ id ∈ ids ∧ (countDown ids pending).2.get? id = some 0 := by
  induction ids generalizing pending with
  | nil => simp [countDown]
  | cons x ids ih =>
    rw [countDown_get? hd]
    obtain ⟨hx, hd⟩ := List.nodup_cons.1 hd
    have hx' : ∀ pending, x ∉ (countDown ids pending).1 :=
      fun pending hm => hx ((countDown_sublist ids pending).subset hm)
    rw [countDown]
    split
    · next hn =>
      rw [ih hd, countDown_get? hd]
      by_cases h : id = x
      · subst h; simp [hx, hn]
      · simp [h]
    · next n hn =>
      dsimp only
      have := ih hd (pending.put x (n - 1))
      rw [countDown_get? hd, Entries.get?_put] at this
      by_cases h : id = x
      · subst h
        by_cases h0 : n - 1 = 0
        · simp [h0, hn]
        · simp [h0, hn, hx']
      · split <;> simp_all

namespace Progress

/-- The ids of stages that were released: ready, in flight or completed. -/
def released (p : Progress) : List String :=
  p.ready ++ (p.inFlightIds ++ p.completedIds)

/-- How many moves a run has made: one for each stage in flight, its dispatch, and two for each
completed stage. -/
def moves (p : Progress) : Nat :=
  p.inFlight.length + 2 * p.completed.length

/-- The books of a run over a graph. -/
structure Accounted (g : StageGraph) (p : Progress) : Prop where
  /-- No stage is released twice. -/
  distinct : p.released.Nodup
  known : ∀ id ∈ p.released, id ∈ g.ids
  /-- What flies or has landed are stages of the graph. -/
  flights : ∀ f ∈ p.inFlight ++ p.completed.map Completion.flight, f.stage ∈ g.stages
  /-- A counter is the number of dependencies that have not completed. -/
  counted : ∀ s ∈ g.stages,
    p.pending.get? s.id = some (s.dependsOn.countP fun d => !p.completedIds.contains d)
  /-- A stage is released when all its dependencies have completed. -/
  due : ∀ s ∈ g.stages, s.id ∈ p.released ↔ ∀ d ∈ s.dependsOn, d ∈ p.completedIds

namespace Accounted

variable {g : StageGraph} {p q : Progress} {f : Flight} {schedule : Schedule}

theorem initial (g : StageGraph) : (Progress.initial g).Accounted g where
  distinct := by simpa [released, inFlightIds, completedIds, Progress.initial] using g.nodup_roots
  known id h := by
    simp only [released, inFlightIds, completedIds, Progress.initial, List.map_nil,
      List.append_nil] at h
    obtain ⟨s, hs, -, rfl⟩ := StageGraph.mem_roots.1 h
    exact List.mem_map_of_mem hs
  flights f h := by cases h
  counted s hs := by
    show g.inDegree.lookup s.id = _
    rw [StageGraph.inDegree_lookup hs]
    simp [completedIds, Progress.initial]
  due s hs := by
    simp only [released, inFlightIds, completedIds, Progress.initial, List.map_nil,
      List.append_nil, List.not_mem_nil, StageGraph.id_mem_roots hs]
    exact ⟨fun h => by simp [h], List.eq_nil_iff_forall_not_mem.2⟩

theorem mem_released {id : String} :
    id ∈ p.released ↔ id ∈ p.ready ∨ id ∈ p.inFlightIds ∨ id ∈ p.completedIds := by
  rw [released, List.mem_append, List.mem_append]

/-- A stage in the queue has all its dependencies completed. -/
theorem of_ready (ha : p.Accounted g) {id : String} (h : id ∈ p.ready) :
    ∃ s ∈ g.stages, s.id = id ∧ ∀ d ∈ s.dependsOn, d ∈ p.completedIds := by
  have hr := mem_released.2 (.inl h)
  obtain ⟨s, hs, rfl⟩ := StageGraph.mem_ids.1 (ha.known id hr)
  exact ⟨s, hs, rfl, (ha.due s hs).1 hr⟩

/-- A dispatch moves a stage from the queue into flight. -/
theorem released_dispatch {rest : List String} (hr : p.ready = f.stage.id :: rest) :
    (p.dispatch rest f).released.Perm p.released := by
  have he : (p.dispatch rest f).released =
      rest ++ p.inFlightIds ++ f.stage.id :: p.completedIds := by
    simp [released, inFlightIds, completedIds, Progress.dispatch]
  rw [he, released, hr, List.cons_append, ← List.append_assoc]
  exact List.perm_middle

theorem dispatch (ha : p.Accounted g) {rest : List String} (hr : p.ready = f.stage.id :: rest)
    (hf : f.stage ∈ g.stages) : (p.dispatch rest f).Accounted g := by
  have hp := released_dispatch hr
  refine ⟨hp.nodup_iff.2 ha.distinct, fun id h => ha.known id (hp.mem_iff.1 h), ?_, ha.counted,
    fun s hs => hp.mem_iff.trans (ha.due s hs)⟩
  intro f' hf'
  simp only [Progress.dispatch, List.mem_append, List.mem_singleton] at hf'
  rcases hf' with (h | rfl) | h
  · exact ha.flights f' (List.mem_append_left _ h)
  · exact hf
  · exact ha.flights f' (List.mem_append_right _ h)

/-- A completion moves a stage out of flight, and releases the stages that it was the last
dependency of. -/
theorem released_complete (ht : p.takeNext schedule = some (f, q)) (output : Json) :
    (q.complete g f output).released.Perm
      (p.released ++ (countDown (g.dependents f.stage.id) p.pending).1) := by
  obtain ⟨before, after, hp, rfl⟩ := takeNext_eq_some ht
  have hi : p.inFlightIds = before.map (fun f => f.stage.id) ++ f.stage.id ::
      after.map fun f => f.stage.id := by
    rw [inFlightIds, hp, List.map_append, List.map_cons]
  rw [released, released, hi, List.perm_iff_count]
  intro id
  simp only [Progress.complete, inFlightIds, completedIds, List.map_append, List.map_cons,
    List.map_nil, List.count_append, List.count_cons, List.count_nil]
  omega

/-- The counter of a stage when one of its dependencies completes. -/
theorem countP_complete {done ds : List String} {id : String} (hd : ds.Nodup) (hid : id ∉ done) :
    (ds.countP fun d => !(done ++ [id]).contains d) =
      (ds.countP fun d => !done.contains d) - if id ∈ ds then 1 else 0 := by
  have h := countP_eq_add_count (p := fun d => !done.contains d)
    (q := fun d => !(done ++ [id]).contains d) (x := id) (fun d => ?_) (by simp) ds
  · rw [h, hd.count, Nat.add_sub_cancel]
  · by_cases h : d = id
    · subst h; simp [hid]
    · simp [h]

theorem takeNext_pending (ht : p.takeNext schedule = some (f, q)) : q.pending = p.pending := by
  obtain ⟨before, after, -, rfl⟩ := takeNext_eq_some ht
  rfl

/-- Stages in flight and completed stages are distinct. -/
theorem nodup_taken_off (ha : p.Accounted g) : (p.inFlightIds ++ p.completedIds).Nodup :=
  (List.nodup_append.1 ha.distinct).2.1

theorem nodup_completedIds (ha : p.Accounted g) : p.completedIds.Nodup :=
  (List.nodup_append.1 ha.nodup_taken_off).2.1

/-- A stage in flight has not completed. -/
theorem not_completed (ha : p.Accounted g) (hf : f ∈ p.inFlight) :
    f.stage.id ∉ p.completedIds := by
  have hd := (List.nodup_append.1 ha.nodup_taken_off).2.2
  exact fun h => hd _ (List.mem_map_of_mem hf) _ h rfl

/-- The counters after a completion. -/
theorem counted_complete (ha : p.Accounted g) (ht : p.takeNext schedule = some (f, q))
    {s : StageDefinition} (hs : s ∈ g.stages) :
    (countDown (g.dependents f.stage.id) p.pending).2.get? s.id =
      some (s.dependsOn.countP fun d => !(p.completedIds ++ [f.stage.id]).contains d) := by
  rw [countDown_get? (g.nodup_dependents _), ha.counted s hs,
    countP_complete (g.collapsed s hs) (ha.not_completed (takeNext_mem ht))]
  by_cases h : f.stage.id ∈ s.dependsOn
  · rw [if_pos h, if_pos ((StageGraph.id_mem_dependents hs).2 h), Option.map_some]
  · rw [if_neg h, if_neg (mt (StageGraph.id_mem_dependents hs).1 h), Nat.sub_zero]

/-- The stages that a completion releases: those that depend on it and on nothing that has not
completed. -/
theorem mem_released_by (ha : p.Accounted g) (ht : p.takeNext schedule = some (f, q))
    {s : StageDefinition} (hs : s ∈ g.stages) :
    s.id ∈ (countDown (g.dependents f.stage.id) p.pending).1 ↔
      f.stage.id ∈ s.dependsOn ∧ ∀ d ∈ s.dependsOn, d ∈ p.completedIds ++ [f.stage.id] := by
  rw [mem_countDown (g.nodup_dependents _), StageGraph.id_mem_dependents hs,
    ha.counted_complete ht hs, Option.some_inj, List.countP_eq_zero]
  simp only [Bool.not_eq_true, Bool.not_eq_false', List.contains_iff_mem]

/-- Taking a completion keeps the books. -/
theorem complete (ha : p.Accounted g) (ht : p.takeNext schedule = some (f, q)) (output : Json) :
    (q.complete g f output).Accounted g := by
  have hp := released_complete (g := g) ht output
  have hsub := countDown_sublist (g.dependents f.stage.id) p.pending
  have hdone := completedIds_complete ht g output
  refine ⟨hp.nodup_iff.2 ?_, ?_, ?_, ?_, ?_⟩
  · refine List.nodup_append.2 ⟨ha.distinct, hsub.nodup (g.nodup_dependents _), ?_⟩
    rintro id hold _ hnew rfl
    obtain ⟨s, hs, rfl⟩ := StageGraph.mem_ids.1 (ha.known id hold)
    have hdep := ((ha.mem_released_by ht hs).1 hnew).1
    exact ha.not_completed (takeNext_mem ht) ((ha.due s hs).1 hold _ hdep)
  · intro id hid
    rcases List.mem_append.1 (hp.mem_iff.1 hid) with h | h
    · exact ha.known id h
    · obtain ⟨s, hs, -, rfl⟩ := StageGraph.mem_dependents.1 (hsub.subset h)
      exact List.mem_map_of_mem hs
  · intro f' hf'
    obtain ⟨before, after, hf, rfl⟩ := takeNext_eq_some ht
    refine ha.flights f' ?_
    simp only [Progress.complete, List.map_append, List.map_cons, List.map_nil, List.mem_append,
      hf, List.mem_cons] at hf' ⊢
    grind
  · intro s hs
    rw [hdone, ← ha.counted_complete ht hs, ← takeNext_pending ht]
    rfl
  · intro s hs
    rw [hp.mem_iff, List.mem_append, ha.due s hs, ha.mem_released_by ht hs, hdone]
    refine ⟨?_, fun h => ?_⟩
    · rintro (h | ⟨-, h⟩)
      · exact fun d hd => List.mem_append_left _ (h d hd)
      · exact h
    · by_cases hdep : f.stage.id ∈ s.dependsOn
      · exact .inr ⟨hdep, h⟩
      · refine .inl fun d hd => ?_
        rcases List.mem_append.1 (h d hd) with h | h
        · exact h
        · exact absurd (List.mem_singleton.1 h ▸ hd) hdep

/-- Stages in flight and completed stages are distinct stages of the graph. -/
theorem length_le (ha : p.Accounted g) : p.inFlight.length + p.completed.length ≤ g.size := by
  have h := List.Nodup.length_le_of_subset ha.nodup_taken_off
    fun id h => ha.known id (List.mem_append_right _ h)
  rwa [StageGraph.length_ids, List.length_append, inFlightIds, completedIds, List.length_map,
    List.length_map] at h

/-- A run has two moves for each stage, so it never has made more. -/
theorem moves_le (ha : p.Accounted g) : p.moves ≤ 2 * g.size := by
  have := ha.length_le
  rw [moves]
  omega

theorem moves_dispatch (p : Progress) (rest : List String) (f : Flight) :
    (p.dispatch rest f).moves = p.moves + 1 := by
  simp only [moves, Progress.dispatch, List.length_append, List.length_singleton]
  omega

theorem moves_complete (ht : p.takeNext schedule = some (f, q)) (output : Json) :
    (q.complete g f output).moves = p.moves + 1 := by
  obtain ⟨before, after, hf, rfl⟩ := takeNext_eq_some ht
  simp only [moves, Progress.complete, hf, List.length_append, List.length_cons, List.length_nil]
  omega

end Accounted
end Progress

end SignalPipeline
