import SignalPipeline.Graph.StageGraph
import SignalPipeline.Json.MemberLemmas

/-!
# The relation of dependency in a stage graph

Ids tell stages apart, and the views of a graph that a run starts from agree with each other: the
stages that depend on an id, the number of dependencies of a stage, and the stages without any.

* `StageGraph.mem_dependents`, `StageGraph.inDegree_lookup`, `StageGraph.mem_roots`: each view in
  terms of the stages.
* `StageGraph.sinks_ne_nil`: some stage is one that no stage depends on.
* `StageGraph.exists_due`: there is no cycle. As long as a stage is not done, one is not done whose
  dependencies all are.
-/

namespace SignalPipeline

/-- Distinct ids tell stages apart. -/
theorem StageDefinition.eq_of_id {ss : List StageDefinition} {s t : StageDefinition}
    (hd : (ss.map StageDefinition.id).Nodup) (hs : s ∈ ss) (ht : t ∈ ss) (h : s.id = t.id) :
    s = t := by
  induction ss with
  | nil => cases hs
  | cons u ss ih =>
    obtain ⟨hn, hd⟩ := List.nodup_cons.1 hd
    rcases List.mem_cons.1 hs with rfl | hs'
    · rcases List.mem_cons.1 ht with rfl | ht'
      · rfl
      · exact absurd (List.mem_map.2 ⟨t, ht', h.symm⟩) hn
    · rcases List.mem_cons.1 ht with rfl | ht'
      · exact absurd (List.mem_map.2 ⟨s, hs', h⟩) hn
      · exact ih hd hs' ht'

namespace StageGraph

variable {g : StageGraph} {s t : StageDefinition} {id d : String}

theorem mem_ids : id ∈ g.ids ↔ ∃ s ∈ g.stages, s.id = id := List.mem_map

theorem length_ids (g : StageGraph) : g.ids.length = g.size := List.length_map _

theorem ids_of_build {stages : List StageDefinition} (h : build stages = .ok g) :
    g.ids = stages.map StageDefinition.id := by
  rw [ids, stages_of_build h, map_collapse_id]

theorem distinct_of_build {stages : List StageDefinition} (h : build stages = .ok g) :
    (stages.map StageDefinition.id).Nodup :=
  ids_of_build h ▸ g.distinct

theorem size_of_build {stages : List StageDefinition} (h : build stages = .ok g) :
    g.size = stages.length := by
  rw [size, stages_of_build h, List.length_map]

/-- Ids tell stages apart. -/
theorem eq_of_id (hs : s ∈ g.stages) (ht : t ∈ g.stages) (h : s.id = t.id) : s = t :=
  StageDefinition.eq_of_id g.distinct hs ht h

theorem stages_ne_nil_of_build {stages : List StageDefinition} (h : build stages = .ok g) :
    g.stages ≠ [] := by
  rw [stages_of_build h, ne_eq, List.map_eq_nil_iff]
  rintro rfl
  cases h

theorem stage?_of_mem (hs : s ∈ g.stages) : g.stage? s.id = some s := by
  unfold stage?
  cases h : g.stages.find? fun t => t.id == s.id with
  | none => exact absurd (beq_self_eq_true s.id) (List.find?_eq_none.1 h s hs)
  | some t =>
    have he := List.find?_some h
    rw [eq_of_id (List.mem_of_find?_eq_some h) hs (beq_iff_eq.1 he)]

theorem stageAt_of_mem (hs : s ∈ g.stages) : g.stageAt s.id = s := by
  unfold stageAt
  rw [stage?_of_mem hs]
  rfl

/-- A declared id belongs to the stage that stands at it. -/
theorem stageAt_mem (h : id ∈ g.ids) : g.stageAt id ∈ g.stages ∧ (g.stageAt id).id = id := by
  obtain ⟨s, hs, rfl⟩ := mem_ids.1 h
  rw [stageAt_of_mem hs]
  exact ⟨hs, rfl⟩

theorem mem_dependents : id ∈ g.dependents d ↔ ∃ s ∈ g.stages, d ∈ s.dependsOn ∧ s.id = id := by
  simp only [dependents, List.mem_map, List.mem_filter, List.contains_iff_mem, and_assoc]

theorem id_mem_dependents (hs : s ∈ g.stages) : s.id ∈ g.dependents d ↔ d ∈ s.dependsOn := by
  rw [mem_dependents]
  refine ⟨fun ⟨t, ht, hd, he⟩ => ?_, fun h => ⟨s, hs, h, rfl⟩⟩
  rwa [← eq_of_id ht hs he]

theorem nodup_dependents (g : StageGraph) (d : String) : (g.dependents d).Nodup :=
  (List.filter_sublist.map _).nodup g.distinct

theorem inDegree_lookup (hs : s ∈ g.stages) :
    g.inDegree.lookup s.id = some s.dependsOn.length := by
  have hd : ((g.stages.map fun s => (s.id, s.dependsOn.length)).map Prod.fst).Nodup := by
    rw [List.map_map]; exact g.distinct
  unfold inDegree
  rw [lookup_sortMembers hd]
  exact lookup_eq_some_of_mem hd (List.mem_map.2 ⟨s, hs, rfl⟩)

theorem mem_roots : id ∈ g.roots ↔ ∃ s ∈ g.stages, s.dependsOn = [] ∧ s.id = id := by
  simp only [roots, List.mem_map, List.mem_filter, StageDefinition.isRoot, List.isEmpty_iff,
    and_assoc]

theorem id_mem_roots (hs : s ∈ g.stages) : s.id ∈ g.roots ↔ s.dependsOn = [] := by
  rw [mem_roots]
  refine ⟨fun ⟨t, ht, hd, he⟩ => ?_, fun h => ⟨s, hs, h, rfl⟩⟩
  rwa [← eq_of_id ht hs he]

theorem nodup_roots (g : StageGraph) : g.roots.Nodup :=
  (List.filter_sublist.map _).nodup g.distinct

/-- **No cycle.** As long as a stage is not done, one is not done whose dependencies all are: the
first of them in the order. -/
theorem exists_due {done : List String} (h : ∃ id ∈ g.ids, id ∉ done) :
    ∃ s ∈ g.stages, s.id ∉ done ∧ ∀ d ∈ s.dependsOn, d ∈ done := by
  obtain ⟨id, hid, hn⟩ := h
  have hf : (g.order.find? fun id => !done.contains id).isSome := by
    rw [List.find?_isSome]
    exact ⟨id, g.ordered.1.mem_iff.2 hid, by simpa using hn⟩
  obtain ⟨first, hfirst⟩ := Option.isSome_iff_exists.1 hf
  obtain ⟨hopen, before, after, ho, hb⟩ := List.find?_eq_some_iff_append.1 hfirst
  have hmem : first ∈ g.ids := g.ordered.1.mem_iff.1 (ho ▸ by simp)
  obtain ⟨s, hs, rfl⟩ := mem_ids.1 hmem
  refine ⟨s, hs, by simpa using hopen, fun d hd => ?_⟩
  have hd' : d ∈ before :=
    g.ordered.2 (vertex s) (List.mem_map_of_mem hs) before after ho d hd
      (by rw [map_vertex_id]; exact g.declared s hs d hd)
  simpa using hb d hd'

theorem mem_sinks : id ∈ g.sinks ↔ id ∈ g.ids ∧ ∀ s ∈ g.stages, id ∉ s.dependsOn := by
  unfold sinks
  rw [List.mem_filter, List.isEmpty_iff, List.eq_nil_iff_forall_not_mem]
  refine and_congr_right fun _ => ⟨fun h s hs hd => h s.id ((id_mem_dependents hs).2 hd), ?_⟩
  intro h c hc
  obtain ⟨s, hs, hd, -⟩ := mem_dependents.1 hc
  exact h s hs hd

theorem nodup_sinks (g : StageGraph) : g.sinks.Nodup := g.distinct.filter _

/-- A graph with a stage has a sink: the last stage of the order. -/
theorem sinks_ne_nil (h : g.stages ≠ []) : g.sinks ≠ [] := by
  rcases List.eq_nil_or_concat g.order with ho | ⟨front, last, ho⟩
  · have hp := g.ordered.1
    rw [ho, List.nil_perm, List.map_eq_nil_iff] at hp
    exact absurd hp h
  rw [List.concat_eq_append] at ho
  have hd : g.order.Nodup := g.ordered.1.nodup_iff.2 g.distinct
  have hfresh : last ∉ front := by
    rw [ho, List.nodup_append] at hd
    exact fun hm => hd.2.2 last hm last (List.mem_singleton.2 rfl) rfl
  have hlast : last ∈ g.ids := g.ordered.1.mem_iff.1 (by simp [ho])
  refine List.ne_nil_of_mem (mem_sinks.2 ⟨hlast, fun s hs hdep => hfresh ?_⟩)
  -- a stage that depends on the last one stands behind it
  have hmem : s.id ∈ g.order := g.ordered.1.mem_iff.2 (List.mem_map_of_mem hs)
  obtain ⟨before, after, hsplit⟩ := List.append_of_mem hmem
  have hb : last ∈ before := g.ordered.2 (vertex s) (List.mem_map_of_mem hs) before after hsplit
    last hdep (by rw [map_vertex_id]; exact hlast)
  rcases split_snoc (ho ▸ hsplit) with ⟨rfl, -⟩ | ⟨rest, rfl⟩
  · exact hb
  · exact List.mem_append_left _ hb

end StageGraph
end SignalPipeline
