import SignalPipeline.Proofs.Graph.DepthFirst
import SignalPipeline.Proofs.Graph.Thinning
import SignalPipeline.Proofs.Node.Plan

/-!
# A disabled node counts as a node that is not there

Disabled nodes have no place in the order, but other nodes may still depend on them. Nobody waits
for them: the order, or the cycle that is reported in its place, is that of the declarations without
the disabled nodes and without the dependencies on them.

* `NodePlan.withoutDisabled`: the declarations without the disabled nodes.
* `NodePlan.map_vertex_withoutDisabled`: what is left of a node needs what is enabled.
* `NodePlan.executionOrder_withoutDisabled`: both have the same order, or the same cycle.
-/

namespace SignalPipeline
namespace NodePlan

variable {configs : List NodeConfig}

/-- The ids of the enabled nodes, in declared order. -/
def enabledIds (configs : List NodeConfig) : List String :=
  (configs.filter NodeConfig.isEnabled).map NodeConfig.id

/-- The ids of the disabled nodes, in declared order. -/
def disabledIds (configs : List NodeConfig) : List String :=
  (configs.filter fun c => !c.isEnabled).map NodeConfig.id

/-- The declarations without the disabled nodes and without the dependencies on them. -/
def withoutDisabled (configs : List NodeConfig) : List NodeConfig :=
  (configs.filter NodeConfig.isEnabled).map fun c =>
    { c with dependencies := c.dependencies.filter fun d => !(disabledIds configs).contains d }

theorem mem_enabledIds {id : String} :
    id ∈ enabledIds configs ↔ ∃ c ∈ configs, c.isEnabled = true ∧ c.id = id := by
  simp only [enabledIds, List.mem_map, List.mem_filter, and_assoc]

/-- With distinct ids every declared id is that of an enabled or that of a disabled node. -/
theorem not_mem_disabledIds (hd : (configs.map NodeConfig.id).Nodup) {id : String}
    (h : id ∈ configs.map NodeConfig.id) : id ∉ disabledIds configs ↔ id ∈ enabledIds configs := by
  obtain ⟨c, hc, rfl⟩ := List.mem_map.1 h
  have hsame : ∀ c' ∈ configs, c'.id = c.id → c' = c := fun c' hc' he =>
    List.inj_on_of_nodup_map hd hc' hc he
  constructor
  · intro hn
    refine mem_enabledIds.2 ⟨c, hc, ?_, rfl⟩
    by_contra hoff
    exact hn (List.mem_map_of_mem (List.mem_filter.2 ⟨hc, by simpa using hoff⟩))
  · intro hon hoff
    obtain ⟨c', hc', hon, he⟩ := mem_enabledIds.1 hon
    obtain ⟨c'', hc'', he'⟩ := List.mem_map.1 hoff
    obtain ⟨hc'', hoff⟩ := List.mem_filter.1 hc''
    rw [hsame c' hc' he] at hon
    rw [hsame c'' hc'' he', hon] at hoff
    cases hoff

theorem map_id_withoutDisabled (configs : List NodeConfig) :
    (withoutDisabled configs).map NodeConfig.id = enabledIds configs := by
  rw [withoutDisabled, List.map_map]
  rfl

theorem filter_withoutDisabled (configs : List NodeConfig) :
    (withoutDisabled configs).filter NodeConfig.isEnabled = withoutDisabled configs := by
  refine List.filter_eq_self.2 fun kept hkept => ?_
  obtain ⟨c, hc, rfl⟩ := List.mem_map.1 hkept
  exact (List.mem_filter.1 hc).2

/-- What is left of a node needs what is enabled. -/
theorem map_vertex_withoutDisabled (hd : (configs.map NodeConfig.id).Nodup)
    (hc : Closed configs) :
    (withoutDisabled configs).map NodeConfig.vertex =
      ((configs.filter NodeConfig.isEnabled).map NodeConfig.vertex).map
        (Vertex.trim (enabledIds configs)) := by
  rw [withoutDisabled, List.map_map, List.map_map]
  refine List.map_congr_left fun c hcs => ?_
  have hkept : ∀ d ∈ c.dependencies,
      (!(disabledIds configs).contains d) = (enabledIds configs).contains d := by
    intro d hdep
    have hdeclared := hc c (List.mem_of_mem_filter hcs) d hdep
    rw [Bool.eq_iff_iff, Bool.not_eq_true', ← Bool.not_eq_true, List.contains_iff_mem,
      List.contains_iff_mem]
    exact not_mem_disabledIds hd hdeclared
  simp only [Function.comp_apply, NodeConfig.vertex, Vertex.trim, List.filter_congr hkept]

theorem closed_withoutDisabled (hd : (configs.map NodeConfig.id).Nodup) (hc : Closed configs) :
    Closed (withoutDisabled configs) := by
  intro kept hkept d hd'
  obtain ⟨c, hcs, rfl⟩ := List.mem_map.1 hkept
  obtain ⟨hdep, hon⟩ := List.mem_filter.1 hd'
  rw [map_id_withoutDisabled]
  refine (not_mem_disabledIds hd (hc c (List.mem_of_mem_filter hcs) d hdep)).1 ?_
  simpa using hon

/-- Where every dependency is declared the order is that of the enabled nodes. -/
theorem executionOrder_eq (hc : Closed configs) :
    executionOrder configs =
      (stableOrder? ((configs.filter NodeConfig.isEnabled).map NodeConfig.vertex)).mapError
        fun left => .nodeCycle ((findCycle?
          ((configs.filter NodeConfig.isEnabled).map NodeConfig.vertex) left).getD left) := by
  have hnone : configs.findSome? (NodeConfig.unknown? (configs.map NodeConfig.id)) = none :=
    List.findSome?_eq_none_iff.2 fun c hcs => unknown?_eq_none_iff.2 (hc c hcs)
  unfold executionOrder
  rw [hnone]
  dsimp only
  cases stableOrder? ((configs.filter NodeConfig.isEnabled).map NodeConfig.vertex) <;> rfl

/-- The order does not depend on disabled nodes, nor does a cycle that is reported. -/
theorem executionOrder_kept (hd : (configs.map NodeConfig.id).Nodup) (hc : Closed configs) :
    executionOrder (withoutDisabled configs) = executionOrder configs := by
  have hids := nodup_enabled hd
  have hspares := Vertex.spares_trim
    (((configs.filter NodeConfig.isEnabled).map NodeConfig.vertex).map Vertex.id)
  have hvertices := map_vertex_withoutDisabled hd hc
  rw [enabledIds, ← map_vertex_id] at hvertices
  rw [executionOrder_eq hc, executionOrder_eq (closed_withoutDisabled hd hc),
    filter_withoutDisabled, hvertices, hspares.stableOrder?_map hids]
  congr 1
  funext left
  rw [hspares.findCycle?_map hids]

/-- Every enabled node stands behind the enabled nodes that it depends on. -/
theorem before_of_order (hd : (configs.map NodeConfig.id).Nodup) (hc : Closed configs)
    {order : List String} (h : executionOrder configs = .ok order) {a b : String}
    (hab : Awaits configs a b) {before after : List String}
    (hsplit : order = before ++ a :: after) : b ∈ before := by
  rw [executionOrder_eq hc] at h
  cases hfound : stableOrder? ((configs.filter NodeConfig.isEnabled).map NodeConfig.vertex) with
  | error left =>
    rw [hfound] at h
    cases h
  | ok found =>
    rw [hfound] at h
    cases h
    rw [← needs_enabled] at hab
    obtain ⟨v, hv, rfl, hb, hdeclared⟩ := hab
    exact (stableOrder?_ok (nodup_enabled hd) hfound).2 v hv before after hsplit b hb hdeclared

/-- A cycle that is reported in place of an order is one of enabled nodes. -/
theorem cycle_of_order (hd : (configs.map NodeConfig.id).Nodup) (hc : Closed configs)
    {e : ConfigurationError} (h : executionOrder configs = .error e) :
    ∃ path, e = .nodeCycle path ∧ IsCycle (Awaits configs) path ∧
      ∀ id ∈ path, id ∈ enabledIds configs := by
  rw [executionOrder_eq hc] at h
  cases hleft : stableOrder? ((configs.filter NodeConfig.isEnabled).map NodeConfig.vertex) with
  | ok found =>
    rw [hleft] at h
    cases h
  | error left =>
    rw [hleft] at h
    cases h
    obtain ⟨path, hpath, hcycle⟩ := Vertex.exists_findCycle? (nodup_enabled hd) hleft
    have henabled := Vertex.mem_of_isCycle (nodup_enabled hd) hcycle
    rw [map_vertex_id] at henabled
    rw [needs_enabled] at hcycle
    dsimp only
    rw [hpath]
    exact ⟨path, rfl, hcycle, fun id hid => (henabled id hid).1⟩

/-- **A disabled node counts as a node that is not there.** Ids are distinct and every dependency is
declared.

The order, or the cycle reported in its place, is that of the declarations without the disabled
nodes and the dependencies on them. So there is an order unless enabled nodes wait for each other in
a circle. It lists the enabled nodes, each behind the enabled ones that it depends on; a cycle is
one of enabled nodes; and no disabled node is in either. -/
theorem executionOrder_withoutDisabled (hd : (configs.map NodeConfig.id).Nodup)
    (hc : Closed configs) :
    executionOrder configs = executionOrder (withoutDisabled configs) ∧
      ((∃ order, executionOrder configs = .ok order) ↔ Acyclic configs) ∧
      (∀ order, executionOrder configs = .ok order → order.Perm (enabledIds configs) ∧
        (∀ a b, Awaits configs a b → ∀ before after, order = before ++ a :: after → b ∈ before) ∧
        ∀ id ∈ order, id ∉ disabledIds configs) ∧
      ∀ e, executionOrder configs = .error e → ∃ path, e = .nodeCycle path ∧
        IsCycle (Awaits configs) path ∧ ∀ id ∈ path, id ∉ disabledIds configs := by
  have hoff : ∀ id ∈ enabledIds configs, id ∉ disabledIds configs := by
    intro id hid
    obtain ⟨c, hcs, -, rfl⟩ := mem_enabledIds.1 hid
    exact (not_mem_disabledIds hd (List.mem_map_of_mem hcs)).2 hid
  refine ⟨(executionOrder_kept hd hc).symm, ⟨?_, ?_⟩, fun order h => ?_, fun e h => ?_⟩
  · rintro ⟨order, h⟩
    exact (executionOrder_ok hd h).2.1
  · intro ha
    cases h : executionOrder configs with
    | ok order => exact ⟨order, rfl⟩
    | error e =>
      obtain ⟨path, -, hcycle, -⟩ := cycle_of_order hd hc h
      obtain ⟨id, hid⟩ := hcycle.transGen
      exact absurd hid (ha id)
  · have hp := (executionOrder_ok hd h).2.2
    exact ⟨hp, fun a b hab before after hsplit => before_of_order hd hc h hab hsplit,
      fun id hid => hoff id (hp.mem_iff.1 hid)⟩
  · obtain ⟨path, he, hcycle, henabled⟩ := cycle_of_order hd hc h
    exact ⟨path, he, hcycle, fun id hid => hoff id (henabled id hid)⟩

/-- Two nodes wait for each other, and one of them is disabled: what is left has the order that all
have, and nobody waits in a circle. -/
theorem executionOrder_withoutDisabled_news :
    let nodes : List NodeConfig :=
      [((NodeConfig.ofType "alert" .enrichment "alerts").addDependency "score").addDependency
          "news",
        (NodeConfig.ofType "score" .required "scoring").addDependency "news",
        ((NodeConfig.ofType "news" .enrichment "feeds").addDependency "score").withEnabled false]
    (nodes.map NodeConfig.id).Nodup ∧ Closed nodes ∧
      executionOrder (withoutDisabled nodes) = .ok ["score", "alert"] ∧ Acyclic nodes := by
  intro nodes
  have hd : (nodes.map NodeConfig.id).Nodup := by decide
  have hc : Closed nodes := by
    unfold Closed
    decide
  have horder : executionOrder nodes = .ok ["score", "alert"] := by decide +kernel
  obtain ⟨hsame, hiff, -⟩ := executionOrder_withoutDisabled hd hc
  exact ⟨hd, hc, hsame ▸ horder, hiff.1 ⟨_, horder⟩⟩

end NodePlan
end SignalPipeline
