import SignalPipeline.Graph.Cycle
import SignalPipeline.Graph.Issue
import SignalPipeline.Graph.OrderLemmas
import SignalPipeline.Graph.Repetition
import SignalPipeline.Stage.Definition

/-!
# Stage graphs

A list of stages that is fit to run: not empty, with distinct ids, every dependency declared, and
without a cycle. The checks come one after the other; each collects all its issues, and the first
that finds one refuses the list.

* `StageGraph.build`: the graph of a list of stages, or the issues.
* `StageGraph.dependents`, `StageGraph.inDegree`, `StageGraph.roots`, `StageGraph.sinks`: the
  relation of dependency, read off the stages.
-/

namespace SignalPipeline

namespace StageGraph

/-- A stage with each dependency once. -/
def collapse (s : StageDefinition) : StageDefinition :=
  s.withDependencies (firstOccurrences s.dependsOn)

/-- A stage as a vertex. -/
def vertex (s : StageDefinition) : Vertex :=
  ⟨s.id, s.dependsOn⟩

/-- The issues with ids that occur several times. -/
def duplicates (stages : List StageDefinition) : List GraphIssue :=
  (repeated [] [] (stages.map StageDefinition.id)).map .duplicateStage

/-- The issues with dependencies on ids that no stage has. -/
def unknowns (stages : List StageDefinition) : List GraphIssue :=
  stages.flatMap fun s =>
    (s.dependsOn.filter fun d => !(stages.any fun t => t.id == d)).map (.unknownDependency s.id)

theorem map_collapse_id (stages : List StageDefinition) :
    (stages.map collapse).map StageDefinition.id = stages.map StageDefinition.id := by
  rw [List.map_map]; rfl

theorem map_vertex_id (stages : List StageDefinition) :
    (stages.map vertex).map Vertex.id = stages.map StageDefinition.id := by
  rw [List.map_map]; rfl

theorem nodup_of_duplicates {stages : List StageDefinition} (h : duplicates stages = []) :
    (stages.map StageDefinition.id).Nodup :=
  (nodup_of_repeated (List.map_eq_nil_iff.1 h)).1

theorem declared_of_unknowns {stages : List StageDefinition} (h : unknowns stages = []) :
    ∀ s ∈ stages, ∀ d ∈ s.dependsOn, d ∈ stages.map StageDefinition.id := by
  intro s hs d hd
  have hs := List.map_eq_nil_iff.1 (List.flatMap_eq_nil_iff.1 h s hs)
  have hf := List.filter_eq_nil_iff.1 hs d hd
  rw [Bool.not_eq_true, Bool.not_eq_false', List.any_eq_true] at hf
  obtain ⟨t, ht, he⟩ := hf
  exact List.mem_map.2 ⟨t, ht, beq_iff_eq.1 he⟩

end StageGraph

/-- A list of stages that was found fit to run, with its order. -/
structure StageGraph where
  /-- The stages in declared order, each dependency once. -/
  stages : List StageDefinition
  /-- The ids in stable topological order. -/
  order : List String
  distinct : (stages.map StageDefinition.id).Nodup
  collapsed : ∀ s ∈ stages, s.dependsOn.Nodup
  declared : ∀ s ∈ stages, ∀ d ∈ s.dependsOn, d ∈ stages.map StageDefinition.id
  /-- The order lists each id once, behind the dependencies of its stage. -/
  ordered : order.Perm (stages.map StageDefinition.id) ∧
    Vertex.Respected (stages.map StageGraph.vertex) order
  deriving DecidableEq

namespace StageGraph

/-- The graph of a list of stages. -/
def build (stages : List StageDefinition) : Except GraphError StageGraph :=
  if stages.isEmpty then .error ⟨[.empty]⟩
  else if hd : duplicates stages ≠ [] then .error ⟨duplicates stages⟩
  else if hu : unknowns (stages.map collapse) ≠ [] then .error ⟨unknowns (stages.map collapse)⟩
  else
    let vertices := (stages.map collapse).map vertex
    have distinct : ((stages.map collapse).map StageDefinition.id).Nodup := by
      rw [map_collapse_id]
      exact nodup_of_duplicates (Decidable.not_not.1 hd)
    match ho : stableOrder? vertices with
    | .ok order => .ok {
        stages := stages.map collapse
        order
        distinct
        collapsed := fun s hs => by
          obtain ⟨s, -, rfl⟩ := List.mem_map.1 hs
          exact nodup_firstOccurrences s.dependsOn
        declared := declared_of_unknowns (Decidable.not_not.1 hu)
        ordered := by
          rw [← map_vertex_id] at distinct ⊢
          exact stableOrder?_ok distinct ho }
    | .error left => .error ⟨[.cycle ((findCycle? vertices left).getD left)]⟩

/-- The stages of a graph are those that it was built from, each dependency once. -/
theorem stages_of_build {stages : List StageDefinition} {g : StageGraph}
    (h : build stages = .ok g) : g.stages = stages.map collapse := by
  unfold build at h
  split at h
  · cases h
  · split at h
    · cases h
    · split at h
      · cases h
      · dsimp only at h
        split at h
        · cases h; rfl
        · cases h

/-! ## Looking at a graph -/

/-- The ids in declared order. -/
def ids (g : StageGraph) : List String :=
  g.stages.map StageDefinition.id

/-- The stage with an id. -/
def stage? (g : StageGraph) (id : String) : Option StageDefinition :=
  g.stages.find? fun s => s.id == id

/-- The stage with an id; an id that no stage has stands for a stage without dependencies. -/
def stageAt (g : StageGraph) (id : String) : StageDefinition :=
  (g.stage? id).getD (.internal id)

/-- The number of stages. -/
def size (g : StageGraph) : Nat :=
  g.stages.length

/-- The stages that depend on an id, in declared order. -/
def dependents (g : StageGraph) (id : String) : List String :=
  (g.stages.filter fun s => s.dependsOn.contains id).map StageDefinition.id

/-- Each id with the stages that depend on it, by ascending id. -/
def adjacency (g : StageGraph) : List (String × List String) :=
  sortMembers (g.ids.map fun id => (id, g.dependents id))

/-- Each id with its number of dependencies, by ascending id. -/
def inDegree (g : StageGraph) : List (String × Nat) :=
  sortMembers (g.stages.map fun s => (s.id, s.dependsOn.length))

/-- The stages without dependencies, in declared order. -/
def roots (g : StageGraph) : List String :=
  (g.stages.filter StageDefinition.isRoot).map StageDefinition.id

/-- The stages that no stage depends on, in declared order. -/
def sinks (g : StageGraph) : List String :=
  g.ids.filter fun id => (g.dependents id).isEmpty

/-- The record of a graph. -/
def toJson (g : StageGraph) : Json :=
  .object [("stages", .array (g.stages.map StageDefinition.toJson)),
    ("dependents", .object (g.adjacency.map fun (id, ds) => (id, .ofStrings ds))),
    ("inDegree", .object (g.inDegree.map fun (id, n) => (id, .ofNat n))),
    ("topologicalOrder", .ofStrings g.order),
    ("sinks", .ofStrings g.sinks)]

end StageGraph

end SignalPipeline
