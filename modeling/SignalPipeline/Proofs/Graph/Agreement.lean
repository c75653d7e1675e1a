import SignalPipeline.Node.Order
import SignalPipeline.Proofs.Graph.Build
import SignalPipeline.Proofs.Graph.Search
import SignalPipeline.Proofs.Graph.Thinning

/-!
# Stages and nodes are put in order alike

The same ids with the same dependencies can be declared as stages and as nodes. Stages are put in
order with each dependency once, nodes with their dependencies as they were written; orders,
undeclared ids and cycles come out the same.

* `DeclaredAlike`: a stage and an enabled node that declare the same.
* `StageGraph.order_of_build`, `executionOrder_of_closed`: both orders in terms of the same
  vertices.
* `StageGraph.build_of_not_closed`, `executionOrder_of_not_closed`: what both are refused for first.
* `layers_agree`: orders and refusals of both.
-/

namespace SignalPipeline

/-- A stage and an enabled node with the same id and the same dependencies. -/
structure DeclaredAlike (s : StageDefinition) (c : NodeConfig) : Prop where
  id : s.id = c.id
  dependencies : s.dependsOn = c.dependencies
  enabled : c.isEnabled = true

variable {stages : List StageDefinition} {configs : List NodeConfig}

/-! ## Stages -/

namespace StageGraph

theorem map_collapse_vertex (stages : List StageDefinition) :
    (stages.map collapse).map vertex = (stages.map vertex).map Vertex.thin := by
  rw [List.map_map, List.map_map]
  rfl

/-- The order of stages that are checked as far as cycles is that of vertices that keep repeated
dependencies. -/
theorem order_of_build (hne : stages ≠ []) (hd : (stages.map StageDefinition.id).Nodup)
    (hc : Closed stages) :
    (build stages).map order = (stableOrder? (stages.map vertex)).mapError fun left =>
      ⟨[.cycle ((findCycle? (stages.map vertex) left).getD left)]⟩ := by
  have hids : ((stages.map vertex).map Vertex.id).Nodup := by rwa [map_vertex_id]
  have hunknowns : unknowns (stages.map collapse) = [] := by
    rw [unknowns_collapse hd, undeclared_eq_nil_iff.2 hc]
    rfl
  rw [← Vertex.stableOrder?_thin hids, ← map_collapse_vertex]
  unfold build
  rw [if_neg (by simpa using hne), dif_neg (by simpa using duplicates_eq_nil_iff.2 hd),
    dif_neg (by simpa using hunknowns)]
  dsimp only
  split
  · next order ho =>
    show Except.ok order = _
    rw [ho]
    rfl
  · next left ho =>
    rw [ho, map_collapse_vertex, Vertex.findCycle?_thin hids]
    rfl

/-- Stages with an undeclared dependency are refused for the first one first. -/
theorem build_of_not_closed (hne : stages ≠ []) (hd : (stages.map StageDefinition.id).Nodup)
    {pair : String × String} {pairs : List (String × String)}
    (hu : undeclared stages = pair :: pairs) :
    ∃ rest, build stages = .error ⟨.unknownDependency pair.1 pair.2 :: rest⟩ := by
  have hunknowns := unknowns_collapse hd
  rw [hu, firstOccurrences, List.map_cons] at hunknowns
  have hb : build stages = .error ⟨unknowns (stages.map collapse)⟩ := by
    unfold build
    rw [if_neg (by simpa using hne), dif_neg (by simpa using duplicates_eq_nil_iff.2 hd),
      dif_pos (by simp [hunknowns])]
  rw [hunknowns] at hb
  exact ⟨_, hb⟩

end StageGraph

/-! ## Nodes -/

theorem map_id_alike (h : List.Forall₂ DeclaredAlike stages configs) :
    configs.map NodeConfig.id = stages.map StageDefinition.id := by
  induction h with
  | nil => rfl
  | cons hs _ ih => rw [List.map_cons, List.map_cons, hs.id, ih]

theorem map_vertex_alike (h : List.Forall₂ DeclaredAlike stages configs) :
    (configs.filter NodeConfig.isEnabled).map NodeConfig.vertex =
      stages.map StageGraph.vertex := by
  induction h with
  | nil => rfl
  | cons hs _ ih =>
    rw [List.filter_cons_of_pos hs.enabled, List.map_cons, List.map_cons, ih, NodeConfig.vertex,
      StageGraph.vertex, hs.id, hs.dependencies]

/-- The first dependency of nodes that is not declared is that of stages that declare the same. -/
theorem findSome?_unknown? (h : List.Forall₂ DeclaredAlike stages configs)
    (declared : List String) :
    configs.findSome? (NodeConfig.unknown? declared) =
      (stages.flatMap fun s => (s.dependsOn.filter fun d => d ∉ declared).map
        fun d => (s.id, d)).head?.map fun p => .unknownNode p.1 p.2 := by
  induction h with
  | nil => rfl
  | @cons s c stages configs hs _ ih =>
    have hunknown : c.unknown? declared =
        ((s.dependsOn.filter fun d => d ∉ declared).map fun d => (s.id, d)).head?.map
          fun p => .unknownNode p.1 p.2 := by
      rw [NodeConfig.unknown?, List.head?_map, List.head?_filter, Option.map_map, hs.id,
        hs.dependencies]
      congr 2
      funext d
      simp
    rw [List.findSome?_cons, List.flatMap_cons, List.head?_append, ih, hunknown, Option.map_or]
    cases ((s.dependsOn.filter fun d => d ∉ declared).map fun d => (s.id, d)).head? <;> rfl

/-- Nodes with an undeclared dependency are refused for the first one. -/
theorem executionOrder_of_not_closed (h : List.Forall₂ DeclaredAlike stages configs)
    {pair : String × String} {pairs : List (String × String)}
    (hu : StageGraph.undeclared stages = pair :: pairs) :
    executionOrder configs = .error (.unknownNode pair.1 pair.2) := by
  have hunknown := findSome?_unknown? h (stages.map StageDefinition.id)
  rw [← StageGraph.undeclared, hu, ← map_id_alike h] at hunknown
  unfold executionOrder
  rw [hunknown]
  rfl

/-- The order of nodes whose dependencies are declared. -/
theorem executionOrder_of_closed (h : List.Forall₂ DeclaredAlike stages configs)
    (hc : StageGraph.Closed stages) :
    executionOrder configs = (stableOrder? (stages.map StageGraph.vertex)).mapError fun left =>
      .nodeCycle ((findCycle? (stages.map StageGraph.vertex) left).getD left) := by
  have hunknown := findSome?_unknown? h (stages.map StageDefinition.id)
  rw [← StageGraph.undeclared, StageGraph.undeclared_eq_nil_iff.2 hc, ← map_id_alike h] at hunknown
  unfold executionOrder
  rw [hunknown, map_vertex_alike h]
  dsimp only [List.head?_nil, Option.map_none]
  cases stableOrder? (stages.map StageGraph.vertex) <;> rfl

/-! ## Both -/

open StageGraph

/-- Where the vertices have an order, stages and nodes have it. -/
theorem agree_on_order (h : List.Forall₂ DeclaredAlike stages configs) (hne : stages ≠ [])
    (hd : (stages.map StageDefinition.id).Nodup) (hc : Closed stages) {order : List String}
    (hs : stableOrder? (stages.map vertex) = .ok order) :
    ∃ g, build stages = .ok g ∧ executionOrder configs = .ok g.order := by
  have hbuild := order_of_build hne hd hc
  have horder := executionOrder_of_closed h hc
  rw [hs] at hbuild horder
  cases hg : build stages with
  | error e =>
    rw [hg] at hbuild
    cases hbuild
  | ok g =>
    rw [hg] at hbuild
    obtain rfl : g.order = order := Except.ok.inj hbuild
    exact ⟨g, rfl, horder⟩

/-- Where vertices are left over, stages and nodes are refused for the cycle that the depth-first
search ends in, whether or not dependencies are repeated. -/
theorem agree_on_cycle (h : List.Forall₂ DeclaredAlike stages configs) (hne : stages ≠ [])
    (hd : (stages.map StageDefinition.id).Nodup) (hc : Closed stages) {left : List String}
    (hs : stableOrder? (stages.map vertex) = .error left) :
    ∃ path, IsCycle (DependsOn stages) path ∧
      (∀ out, Vertex.Scans (stages.map vertex) [] [] left out ↔ out = .found path) ∧
      (∀ out, Vertex.Scans ((stages.map collapse).map vertex) [] [] left out ↔
        out = .found path) ∧
      build stages = .error ⟨[.cycle path]⟩ ∧
      executionOrder configs = .error (.nodeCycle path) := by
  have hids : ((stages.map vertex).map Vertex.id).Nodup := by rwa [map_vertex_id]
  have hcollapsed : (((stages.map collapse).map vertex).map Vertex.id).Nodup := by
    rwa [map_vertex_id, map_collapse_id]
  have hs' := hs
  rw [← Vertex.stableOrder?_thin hids, ← map_collapse_vertex] at hs'
  obtain ⟨path, hthin, hcycle⟩ := Vertex.exists_findCycle? hcollapsed hs'
  rw [needs_vertices hc] at hcycle
  have hpath := hthin
  rw [map_collapse_vertex, Vertex.findCycle?_thin hids] at hpath
  have hbuild := order_of_build hne hd hc
  have horder := executionOrder_of_closed h hc
  rw [hs] at hbuild horder
  refine ⟨path, hcycle, fun out => Vertex.scans_iff_of_findCycle? hids hpath,
    fun out => Vertex.scans_iff_of_findCycle? hcollapsed hthin, ?_, ?_⟩
  · cases hg : build stages with
    | ok g =>
      rw [hg] at hbuild
      cases hbuild
    | error e =>
      rw [hg] at hbuild
      obtain rfl : e = ⟨[.cycle ((findCycle? (stages.map vertex) left).getD left)]⟩ :=
        Except.error.inj hbuild
      rw [hpath]
      rfl
  · rw [horder]
    dsimp only [Except.mapError]
    rw [hpath]
    rfl

/-- **Stages and nodes are put in order alike.** Of the same ids with the same dependencies, stages
have a graph exactly when nodes have an order, and the orders are equal. Where a dependency is
undeclared, the first issue with the stages names the same one as the error with the nodes. Where
all are declared and there is a cycle, both name the same one: the only thing in which a depth-first
search ends, of the dependencies as written and of each dependency once. -/
theorem layers_agree (h : List.Forall₂ DeclaredAlike stages configs) (hne : stages ≠ [])
    (hd : (stages.map StageDefinition.id).Nodup) :
    ((∃ g, build stages = .ok g) ↔ ∃ order, executionOrder configs = .ok order) ∧
      (∀ g, build stages = .ok g → executionOrder configs = .ok g.order) ∧
      (¬ Closed stages → ∃ node unknown rest,
        build stages = .error ⟨.unknownDependency node unknown :: rest⟩ ∧
          executionOrder configs = .error (.unknownNode node unknown)) ∧
      (Closed stages → (∃ id, Relation.TransGen (DependsOn stages) id id) → ∃ left path,
        stableOrder? (stages.map vertex) = .error left ∧ IsCycle (DependsOn stages) path ∧
          (∀ out, Vertex.Scans (stages.map vertex) [] [] left out ↔ out = .found path) ∧
          (∀ out, Vertex.Scans ((stages.map collapse).map vertex) [] [] left out ↔
            out = .found path) ∧
          build stages = .error ⟨[.cycle path]⟩ ∧
          executionOrder configs = .error (.nodeCycle path) ∧
          (ConfigurationError.nodeCycle path).detail =
            "Circular dependency detected: " ++ " -> ".intercalate path) := by
  by_cases hc : Closed stages
  · cases hs : stableOrder? (stages.map vertex) with
    | ok order =>
      obtain ⟨g, hg, horder⟩ := agree_on_order h hne hd hc hs
      refine ⟨⟨fun _ => ⟨g.order, horder⟩, fun _ => ⟨g, hg⟩⟩, fun g' hg' => ?_,
        fun hopen => absurd hc hopen, fun _ ⟨id, hid⟩ => ?_⟩
      · rwa [← Except.ok.inj (hg.symm.trans hg')]
      · exact absurd hid ((fit_of_build hg).acyclic id)
    | error left =>
      obtain ⟨path, hcycle, hscan, hscan', hbuild, horder⟩ := agree_on_cycle h hne hd hc hs
      refine ⟨⟨fun ⟨g, hg⟩ => ?_, fun ⟨order, ho⟩ => ?_⟩, fun g hg => ?_,
        fun hopen => absurd hc hopen,
        fun _ _ => ⟨left, path, rfl, hcycle, hscan, hscan', hbuild, horder, rfl⟩⟩
      · cases hbuild.symm.trans hg
      · cases horder.symm.trans ho
      · cases hbuild.symm.trans hg
  · obtain ⟨pair, pairs, hu⟩ := List.exists_cons_of_ne_nil (mt undeclared_eq_nil_iff.1 hc)
    obtain ⟨rest, hbuild⟩ := build_of_not_closed hne hd hu
    have horder := executionOrder_of_not_closed h hu
    refine ⟨⟨fun ⟨g, hg⟩ => ?_, fun ⟨order, ho⟩ => ?_⟩, fun g hg => ?_,
      fun _ => ⟨pair.1, pair.2, rest, hbuild, horder⟩, fun hclosed => absurd hclosed hc⟩
    · cases hbuild.symm.trans hg
    · cases horder.symm.trans ho
    · cases hbuild.symm.trans hg

/-- Three stages that wait for each other and three nodes that do so are refused for the same
cycle. -/
theorem layers_agree_knot :
    List.Forall₂ DeclaredAlike Fixture.knot
        (Fixture.knot.map fun s => ⟨s.id, "enrichment", s.id, false, some true, s.dependsOn⟩) ∧
      Fixture.knot ≠ [] ∧ (Fixture.knot.map StageDefinition.id).Nodup ∧
      ∃ path, IsCycle (DependsOn Fixture.knot) path ∧
        build Fixture.knot = .error ⟨[.cycle path]⟩ ∧
        executionOrder
          (Fixture.knot.map fun s => ⟨s.id, "enrichment", s.id, false, some true, s.dependsOn⟩) =
            .error (.nodeCycle path) := by
  have halike : List.Forall₂ DeclaredAlike Fixture.knot
      (Fixture.knot.map fun s => ⟨s.id, "enrichment", s.id, false, some true, s.dependsOn⟩) :=
    List.forall₂_map_right_iff.2 (List.forall₂_same.2 fun s _ => ⟨rfl, rfl, rfl⟩)
  have hne : Fixture.knot ≠ [] := by decide
  have hd : (Fixture.knot.map StageDefinition.id).Nodup := by decide
  obtain ⟨-, -, -, hcycle⟩ := layers_agree halike hne hd
  have hneeds : ∀ a b, (∃ s ∈ Fixture.knot, s.id = a ∧ b ∈ s.dependsOn) →
      DependsOn Fixture.knot a b := fun a b h => h
  obtain ⟨left, path, -, hpath, -, -, hbuild, horder, -⟩ := hcycle
    (by unfold Closed; decide)
    ⟨"x", .head (hneeds "x" "z" (by decide)) (.head (hneeds "z" "y" (by decide))
      (.single (hneeds "y" "x" (by decide))))⟩
  exact ⟨halike, hne, hd, path, hpath, hbuild, horder⟩

end SignalPipeline
