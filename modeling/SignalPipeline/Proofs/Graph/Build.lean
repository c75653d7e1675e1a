import SignalPipeline.Fixture
import SignalPipeline.Graph.StageGraphLemmas
import SignalPipeline.Proofs.Graph.Cycle
import SignalPipeline.Proofs.Graph.Occurrence

/-!
# Which lists of stages have a graph

A list of stages has a graph exactly when it is fit to run, and every other list is refused with
all issues of the first kind that it has.

* `StageGraph.Fit`: the lists that are fit to run.
* `StageGraph.Refusal`: the issues for which a list is refused.
* `StageGraph.build_exact`: both halves.
-/

namespace SignalPipeline
namespace StageGraph

/-- A stage of the list depends on an id. -/
def DependsOn (stages : List StageDefinition) (a b : String) : Prop :=
  ∃ s ∈ stages, s.id = a ∧ b ∈ s.dependsOn

/-- Every dependency is the id of a stage. -/
def Closed (stages : List StageDefinition) : Prop :=
  ∀ s ∈ stages, ∀ d ∈ s.dependsOn, d ∈ stages.map StageDefinition.id

/-- Lists of stages that are fit to run. -/
structure Fit (stages : List StageDefinition) : Prop where
  nonempty : stages ≠ []
  distinct : (stages.map StageDefinition.id).Nodup
  closed : Closed stages
  /-- No stage depends on itself, directly or through others. -/
  acyclic : ∀ id, ¬ Relation.TransGen (DependsOn stages) id id

/-- The dependencies on ids that no stage has, with the ids of the stages that declare them, in
declared order. -/
def undeclared (stages : List StageDefinition) : List (String × String) :=
  stages.flatMap fun s =>
    (s.dependsOn.filter fun d => d ∉ stages.map StageDefinition.id).map fun d => (s.id, d)

/-- The issues for which a list of stages is refused. -/
inductive Refusal (stages : List StageDefinition) : List GraphIssue → Prop
  | empty (none : stages = []) : Refusal stages [.empty]
  /-- One issue for each id that occurs several times, in the order of the second occurrences. -/
  | duplicates (repeats : ¬ (stages.map StageDefinition.id).Nodup) (ids : List String)
      (each : Occurring 2 (stages.map StageDefinition.id) ids) :
      Refusal stages (ids.map .duplicateStage)
  /-- One issue for each stage and each undeclared id it depends on, in declared order. -/
  | unknowns (distinct : (stages.map StageDefinition.id).Nodup) (opens : ¬ Closed stages)
      (pairs : List (String × String)) (each : Occurring 1 (undeclared stages) pairs) :
      Refusal stages (pairs.map fun p => .unknownDependency p.1 p.2)
  /-- A cycle of stages, each of which depends on the next. -/
  | cycle (distinct : (stages.map StageDefinition.id).Nodup) (closed : Closed stages)
      (path : List String) (walk : IsCycle (DependsOn stages) path) :
      Refusal stages [.cycle path]

variable {stages : List StageDefinition}

/-- A list that is refused is not fit to run. -/
theorem Refusal.not_fit {issues : List GraphIssue} (h : Refusal stages issues) : ¬ Fit stages := by
  intro hfit
  cases h with
  | empty none => exact hfit.nonempty none
  | duplicates repeats => exact repeats hfit.distinct
  | unknowns distinct opens => exact opens hfit.closed
  | cycle distinct closed path walk =>
    obtain ⟨id, hid⟩ := walk.transGen
    exact hfit.acyclic id hid

/-! ## The checks one by one -/

/-- Where all dependencies are declared, the vertices need what the stages depend on. -/
theorem needs_vertices (h : Closed stages) :
    Vertex.Needs ((stages.map collapse).map vertex) = DependsOn stages := by
  funext a b
  refine propext ⟨fun ⟨v, hv, ha, hb, _⟩ => ?_, fun ⟨s, hs, ha, hb⟩ => ?_⟩
  · obtain ⟨t, ht, rfl⟩ := List.mem_map.1 hv
    obtain ⟨s, hs, rfl⟩ := List.mem_map.1 ht
    exact ⟨s, hs, ha, mem_firstOccurrences.1 hb⟩
  · refine ⟨vertex (collapse s), List.mem_map_of_mem (List.mem_map_of_mem hs), ha,
      mem_firstOccurrences.2 hb, ?_⟩
    rw [map_vertex_id, map_collapse_id]
    exact h s hs b hb

theorem duplicates_eq_nil_iff :
    duplicates stages = [] ↔ (stages.map StageDefinition.id).Nodup := by
  refine ⟨nodup_of_duplicates, fun h => List.map_eq_nil_iff.2 ?_⟩
  refine List.eq_nil_iff_forall_not_mem.2 fun id hid => ?_
  have := ((occurring_repeated _).mem id).1 hid
  have := List.nodup_iff_count.1 h id
  omega

theorem closed_collapse_iff : Closed (stages.map collapse) ↔ Closed stages := by
  unfold Closed
  rw [map_collapse_id, List.forall_mem_map]
  exact forall₂_congr fun s _ => forall_congr' fun d => by
    rw [collapse, StageDefinition.withDependencies, mem_firstOccurrences]

theorem undeclared_eq_nil_iff : undeclared stages = [] ↔ Closed stages := by
  unfold undeclared Closed
  simp only [List.flatMap_eq_nil_iff, List.map_eq_nil_iff, List.filter_eq_nil_iff,
    decide_eq_true_eq, Decidable.not_not]

/-- Of stages with distinct ids, first occurrences are those among the dependencies of each. -/
theorem firstOccurrences_dependencies (p : String → Bool) {ss : List StageDefinition}
    (hd : (ss.map StageDefinition.id).Nodup) :
    firstOccurrences (ss.flatMap fun s => (s.dependsOn.filter p).map fun d => (s.id, d)) =
      ss.flatMap fun s => ((firstOccurrences s.dependsOn).filter p).map fun d => (s.id, d) := by
  induction ss with
  | nil => rfl
  | cons s ss ih =>
    obtain ⟨hs, hd⟩ := List.nodup_cons.1 hd
    rw [List.flatMap_cons, List.flatMap_cons, firstOccurrences_append, ih hd,
      firstOccurrences_map (fun d d' h => (Prod.mk.inj h).2), firstOccurrences_filter]
    intro pair hpair hother
    obtain ⟨d, -, rfl⟩ := List.mem_map.1 hpair
    obtain ⟨t, ht, hmem⟩ := List.mem_flatMap.1 hother
    obtain ⟨d', -, he⟩ := List.mem_map.1 hmem
    exact hs ((Prod.mk.inj he).1 ▸ List.mem_map_of_mem ht)

/-- The issues with undeclared dependencies: one for each stage and each id it depends on. -/
theorem unknowns_collapse (hd : (stages.map StageDefinition.id).Nodup) :
    unknowns (stages.map collapse) =
      (firstOccurrences (undeclared stages)).map fun p => .unknownDependency p.1 p.2 := by
  have hany : ∀ d, (!(stages.map collapse).any fun t => t.id == d) =
      decide (d ∉ stages.map StageDefinition.id) := by
    intro d
    rw [Bool.eq_iff_iff, Bool.not_eq_true', ← Bool.not_eq_true, List.any_eq_true,
      decide_eq_true_eq, ← map_collapse_id, List.mem_map]
    simp only [beq_iff_eq]
  unfold unknowns undeclared
  rw [firstOccurrences_dependencies _ hd, List.flatMap_map, List.map_flatMap]
  simp only [hany, List.map_map]
  rfl

/-! ## All checks -/

theorem fit_of_build {g : StageGraph} (h : build stages = .ok g) : Fit stages := by
  have hs := stages_of_build h
  have hclosed : Closed stages := closed_collapse_iff.1 (hs ▸ g.declared)
  refine ⟨?_, distinct_of_build h, hclosed, ?_⟩
  · rintro rfl
    cases h
  · obtain ⟨hp, ho⟩ := g.ordered
    rw [← map_vertex_id] at hp
    have ha := ho.acyclic hp
    rw [hs] at ha
    unfold Vertex.Acyclic at ha
    rwa [needs_vertices hclosed] at ha

theorem refusal_of_build {e : GraphError} (h : build stages = .error e) :
    Refusal stages e.issues := by
  unfold build at h
  split at h
  · next hempty =>
    cases h
    exact .empty (List.isEmpty_iff.1 hempty)
  · split at h
    · next hdup =>
      cases h
      exact .duplicates (mt duplicates_eq_nil_iff.2 hdup) _ (occurring_repeated _)
    · next hdup =>
      have hd := duplicates_eq_nil_iff.1 (Decidable.not_not.1 hdup)
      split at h
      · next hunknown =>
        cases h
        rw [unknowns_collapse hd] at hunknown ⊢
        refine .unknowns hd (fun hclosed => hunknown ?_) _ (occurring_firstOccurrences _)
        rw [undeclared_eq_nil_iff.2 hclosed]
        rfl
      · next hunknown =>
        have hclosed : Closed stages :=
          closed_collapse_iff.1 (declared_of_unknowns (Decidable.not_not.1 hunknown))
        dsimp only at h
        split at h
        · cases h
        · next left hleft =>
          cases h
          have hids : (((stages.map collapse).map vertex).map Vertex.id).Nodup := by
            rwa [map_vertex_id, map_collapse_id]
          obtain ⟨path, hpath, hcycle⟩ := Vertex.exists_findCycle? hids hleft
          rw [hpath]
          rw [needs_vertices hclosed] at hcycle
          exact .cycle hd hclosed path hcycle

/-- **A list has a graph exactly when it is fit to run,** and for every other list the refusal tells
why: that it is empty, or else every id that occurs several times, or else every undeclared
dependency, or else a cycle. -/
theorem build_exact (stages : List StageDefinition) :
    ((∃ g, build stages = .ok g) ↔ Fit stages) ∧
      ∀ e, build stages = .error e → Refusal stages e.issues := by
  refine ⟨⟨fun ⟨g, h⟩ => fit_of_build h, fun hfit => ?_⟩, fun e h => refusal_of_build h⟩
  cases h : build stages with
  | ok g => exact ⟨g, rfl⟩
  | error e => exact absurd hfit (refusal_of_build h).not_fit

/-- Of three stages that wait for each other behind a source none is fit to run. -/
theorem build_exact_knot :
    ¬ Fit Fixture.knot ∧
      ∃ e, build Fixture.knot = .error e ∧ Refusal Fixture.knot e.issues := by
  obtain ⟨hiff, hrefusal⟩ := build_exact Fixture.knot
  have hrefused : (build Fixture.knot).isOk = false := by decide +kernel
  cases h : build Fixture.knot with
  | ok g =>
    rw [h] at hrefused
    cases hrefused
  | error e =>
    rw [h] at hiff
    refine ⟨fun hfit => ?_, e, rfl, hrefusal e h⟩
    obtain ⟨g, hg⟩ := hiff.2 hfit
    cases hg

end StageGraph
end SignalPipeline
