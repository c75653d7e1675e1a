import Mathlib.Data.Finset.Card
import Mathlib.Data.List.Forall2
import SignalPipeline.Proofs.Graph.Build

/-!
# The views of a graph describe one relation

A graph shows who depends on whom in several ways: the stages with their dependencies, the lists of
dependents, the numbers of dependencies, the stages without any and those that no stage depends on,
and the order. Each is computed by a pass of its own. All of them show the same relation, the one
that the stages declare.

* `StageGraph.enlistAll`: the lists of dependents as a pass over the stages fills them.
* `StageGraph.enlistAll_eq`: it fills in each stage once under each of its dependencies.
* `StageGraph.countP_adjacency`: what is counted by stage and by list is the same.
* `StageGraph.views_agree`: the views in terms of what the stages declare.
-/

namespace SignalPipeline
namespace StageGraph

variable {stages : List StageDefinition} {g : StageGraph}

/-! ## The lists of dependents -/

/-- Puts a child at the end of the list of a parent, if there is one. -/
def enlist (table : Entries (List String)) (child parent : String) : Entries (List String) :=
  match table.get? parent with
  | some children => table.put parent (children ++ [child])
  | none => table

/-- Puts each stage in the lists of its dependencies, one stage after the other. -/
def enlistAll (stages : List StageDefinition) : Entries (List String) :=
  stages.foldl (fun table s => s.dependsOn.foldl (fun table d => enlist table s.id d) table)
    (stages.map fun s => (s.id, []))

theorem enlist_eq {table : Entries (List String)} (hd : table.keys.Nodup) (child parent : String) :
    enlist table child parent =
      table.map fun e => (e.1, if e.1 = parent then e.2 ++ [child] else e.2) := by
  induction table with
  | nil => rfl
  | cons e table ih =>
    obtain ⟨key, children⟩ := e
    obtain ⟨hfresh, hd⟩ := List.nodup_cons.1 hd
    by_cases hkey : key = parent
    · subst hkey
      have hrest : ∀ e ∈ table, (e.1, if e.1 = key then e.2 ++ [child] else e.2) = e := by
        intro e he
        rw [if_neg fun h => hfresh (List.mem_map.2 ⟨e, he, h⟩)]
      simp [enlist, Entries.get?, Entries.put, List.map_congr_left hrest]
    · have hother : enlist ((key, children) :: table) child parent =
          (key, children) :: enlist table child parent := by
        simp only [enlist, Entries.get?, List.lookup_cons, beq_false_of_ne (Ne.symm hkey)]
        cases table.lookup parent with
        | none => rfl
        | some found => simp [Entries.put, hkey]
      rw [hother, ih hd, List.map_cons, if_neg hkey]

/-- A stage with distinct dependencies is put once in the list of each. -/
theorem foldl_enlist {table : Entries (List String)} (hd : table.keys.Nodup) {ds : List String}
    (hn : ds.Nodup) (child : String) :
    ds.foldl (fun table d => enlist table child d) table =
      table.map fun e => (e.1, if e.1 ∈ ds then e.2 ++ [child] else e.2) := by
  induction ds generalizing table with
  | nil => simp
  | cons d ds ih =>
    obtain ⟨hfresh, hn⟩ := List.nodup_cons.1 hn
    have hkeys : (enlist table child d).keys = table.keys := by
      rw [enlist_eq hd, Entries.keys, List.map_map]
      rfl
    rw [List.foldl_cons, ih (hkeys ▸ hd) hn, enlist_eq hd, List.map_map]
    refine List.map_congr_left fun e _ => ?_
    by_cases he : e.1 = d
    · simp [he, hfresh]
    · simp [he]

/-- The lists hold the stages that depend on each id, behind what they held before. -/
theorem foldl_enlist_stages {ids : List String} (hd : ids.Nodup)
    (hn : ∀ s ∈ stages, s.dependsOn.Nodup) (before : String → List String) :
    stages.foldl (fun table s => s.dependsOn.foldl (fun table d => enlist table s.id d) table)
        (ids.map fun id => (id, before id)) =
      ids.map fun id => (id, before id ++
        (stages.filter fun s => s.dependsOn.contains id).map StageDefinition.id) := by
  induction stages generalizing before with
  | nil => simp
  | cons s stages ih =>
    obtain ⟨hs, hn⟩ := List.forall_mem_cons.1 hn
    have hkeys : Entries.keys (ids.map fun id => (id, before id)) = ids := by
      rw [Entries.keys, List.map_map]
      exact List.map_id ids
    rw [List.foldl_cons, foldl_enlist (hkeys.symm ▸ hd) hs, List.map_map]
    refine (ih hn fun id => if id ∈ s.dependsOn then before id ++ [s.id] else before id).trans ?_
    refine List.map_congr_left fun id _ => ?_
    by_cases hid : id ∈ s.dependsOn
    · simp [hid]
    · simp [hid]

/-- The pass fills in each stage once under each of its dependencies, in declared order. -/
theorem enlistAll_eq (g : StageGraph) :
    enlistAll g.stages = g.ids.map fun id => (id, g.dependents id) := by
  have h := foldl_enlist_stages g.distinct g.collapsed fun _ => []
  rw [List.map_map] at h
  exact h

theorem map_fst_dependents (g : StageGraph) :
    (g.ids.map fun id => (id, g.dependents id)).map Prod.fst = g.ids := by
  rw [List.map_map]
  exact List.map_id g.ids

/-- The lists that are shown are those of the declared ids. -/
theorem perm_adjacency (g : StageGraph) :
    g.adjacency.Perm (g.ids.map fun id => (id, g.dependents id)) := by
  refine perm_sortMembers ?_
  rw [map_fst_dependents]
  exact g.distinct

theorem keys_adjacency (g : StageGraph) : (g.adjacency.map Prod.fst).Perm g.ids := by
  have h := g.perm_adjacency.map Prod.fst
  rwa [map_fst_dependents] at h

theorem mem_adjacency {id : String} {children : List String} :
    (id, children) ∈ g.adjacency ↔ id ∈ g.ids ∧ children = g.dependents id := by
  rw [g.perm_adjacency.mem_iff, List.mem_map]
  constructor
  · rintro ⟨id', hid, he⟩
    obtain ⟨rfl, rfl⟩ := Prod.mk.inj he
    exact ⟨hid, rfl⟩
  · rintro ⟨hid, rfl⟩
    exact ⟨id, hid, rfl⟩

theorem lookup_adjacency {id : String} (h : id ∈ g.ids) :
    g.adjacency.lookup id = some (g.dependents id) :=
  lookup_eq_some_of_mem ((keys_adjacency g).nodup_iff.2 g.distinct) (mem_adjacency.2 ⟨h, rfl⟩)

/-- No stage depends on an id that is not declared, and no list is kept for it. -/
theorem dependents_eq_lookup (g : StageGraph) (id : String) :
    g.dependents id = (g.adjacency.lookup id).getD [] := by
  by_cases h : id ∈ g.ids
  · rw [lookup_adjacency h, Option.getD_some]
  · have hnone : g.adjacency.lookup id = none := by
      rw [List.lookup_eq_none_iff]
      rintro ⟨key, children⟩ he
      refine bne_iff_ne.2 fun hkey => h ?_
      exact hkey ▸ (mem_adjacency.1 he).1
    rw [hnone, Option.getD_none, List.eq_nil_iff_forall_not_mem]
    intro c hc
    obtain ⟨s, hs, hd, -⟩ := mem_dependents.1 hc
    exact h (g.declared s hs id hd)

/-! ## Counts -/

/-- A stage stands in as many lists as it has dependencies. -/
theorem countP_adjacency {s : StageDefinition} (hs : s ∈ g.stages) :
    g.adjacency.countP (fun e => s.id ∈ e.2) = s.dependsOn.length := by
  have hlisted : ∀ id, decide (s.id ∈ g.dependents id) = decide (id ∈ s.dependsOn) :=
    fun id => decide_eq_decide.2 (id_mem_dependents hs)
  rw [g.perm_adjacency.countP_eq, List.countP_map, List.countP_eq_length_filter]
  refine List.Perm.length_eq
    ((List.perm_ext_iff_of_nodup (g.distinct.filter _) (g.collapsed s hs)).2 fun d => ?_)
  simp only [Function.comp_apply, hlisted, List.mem_filter, decide_eq_true_eq]
  exact and_iff_right_of_imp (g.declared s hs d)

theorem card_firstOccurrences (xs : List String) :
    (firstOccurrences xs).length = xs.toFinset.card := by
  rw [← List.toFinset_card_of_nodup (nodup_firstOccurrences xs)]
  congr 1
  ext x
  simp [mem_firstOccurrences]

/-! ## Roots and sinks -/

theorem roots_eq (g : StageGraph) :
    g.roots = g.ids.filter fun id => g.inDegree.lookup id = some 0 := by
  rw [roots, ids, List.filter_map]
  congr 1
  refine List.filter_congr fun s hs => ?_
  rw [Function.comp_apply, inDegree_lookup hs, StageDefinition.isRoot, Bool.eq_iff_iff,
    List.isEmpty_iff, decide_eq_true_eq, Option.some_inj, List.length_eq_zero_iff]

theorem sinks_eq (g : StageGraph) :
    g.sinks = g.ids.filter fun id => g.adjacency.lookup id = some [] := by
  refine List.filter_congr fun id hid => ?_
  rw [lookup_adjacency hid, Bool.eq_iff_iff, List.isEmpty_iff, decide_eq_true_eq, Option.some_inj]

/-- A graph with a stage has a root. -/
theorem roots_ne_nil (h : g.stages ≠ []) : g.roots ≠ [] := by
  obtain ⟨s, hs⟩ := List.exists_mem_of_ne_nil g.stages h
  have hopen : ∃ id ∈ g.ids, id ∉ ([] : List String) :=
    ⟨s.id, List.mem_map_of_mem hs, List.not_mem_nil⟩
  obtain ⟨first, hfirst, -, hnone⟩ := exists_due hopen
  have hfree : first.dependsOn = [] :=
    List.eq_nil_iff_forall_not_mem.2 fun d hd => List.not_mem_nil (hnone d hd)
  exact List.ne_nil_of_mem ((id_mem_roots hfirst).2 hfree)

/-! ## What the stages declare -/

/-- A stage depends on the same ids before and after each is kept once. -/
theorem dependents_of_build (h : build stages = .ok g) (id : String) :
    g.dependents id = (stages.filter fun s => id ∈ s.dependsOn).map StageDefinition.id := by
  have hkept : ∀ s : StageDefinition,
      (collapse s).dependsOn.contains id = decide (id ∈ s.dependsOn) := by
    intro s
    rw [Bool.eq_iff_iff, List.contains_iff_mem, decide_eq_true_eq]
    exact mem_firstOccurrences
  rw [dependents, stages_of_build h, List.filter_map, List.map_map]
  exact congrArg _ (List.filter_congr fun s _ => hkept s)

/-- In the order every dependency that a stage declares is in front of it. -/
theorem before_of_order (h : build stages = .ok g) {s : StageDefinition} (hs : s ∈ stages)
    {before after : List String} (hsplit : g.order = before ++ s.id :: after) {d : String}
    (hd : d ∈ s.dependsOn) : d ∈ before := by
  have hmem : collapse s ∈ g.stages := stages_of_build h ▸ List.mem_map_of_mem hs
  have hkept : d ∈ (collapse s).dependsOn := mem_firstOccurrences.2 hd
  refine g.ordered.2 (vertex (collapse s)) (List.mem_map_of_mem hmem) before after hsplit d hkept ?_
  rw [map_vertex_id]
  exact g.declared _ hmem d hkept

/-! ## All views -/

/-- A stage that keeps each of its dependencies once, at its first occurrence. -/
structure Collapsed (s t : StageDefinition) : Prop where
  same : t = s.withDependencies t.dependsOn
  once : Occurring 1 s.dependsOn t.dependsOn

theorem collapsed_collapse (s : StageDefinition) : Collapsed s (collapse s) :=
  ⟨rfl, occurring_firstOccurrences s.dependsOn⟩

/-- The views of a graph, in terms of what the stages of a list declare. -/
structure Shows (g : StageGraph) (stages : List StageDefinition) : Prop where
  /-- The stages keep their order, and each of their dependencies once. -/
  collapsed : List.Forall₂ Collapsed stages g.stages
  /-- The lists of dependents are those that a pass over the stages fills. -/
  filled : g.adjacency = sortMembers (enlistAll g.stages)
  /-- There is one list for each declared id. -/
  keys : (g.adjacency.map Prod.fst).Perm (stages.map StageDefinition.id)
  /-- The list of an id holds each stage that depends on it once, in declared order. -/
  lists : ∀ id children, (id, children) ∈ g.adjacency →
    children.Nodup ∧ children = (stages.filter fun s => id ∈ s.dependsOn).map StageDefinition.id
  dependents : ∀ id, g.dependents id = (g.adjacency.lookup id).getD []
  /-- A stage has as many dependencies as it has distinct ones. -/
  degrees : ∀ s ∈ stages, g.inDegree.lookup s.id = some s.dependsOn.toFinset.card
  /-- It stands in as many lists. -/
  listed : ∀ s ∈ stages, g.adjacency.countP (fun e => s.id ∈ e.2) = s.dependsOn.toFinset.card
  sinks : g.sinks =
    (stages.map StageDefinition.id).filter fun id => g.adjacency.lookup id = some []
  roots : g.roots = (stages.map StageDefinition.id).filter fun id => g.inDegree.lookup id = some 0
  nonempty : g.sinks ≠ [] ∧ g.roots ≠ []
  /-- Under a declared id its stage is found. -/
  found : ∀ s ∈ stages, ∃ t, g.stage? s.id = some t ∧ Collapsed s t
  missing : ∀ id, id ∉ stages.map StageDefinition.id → g.stage? id = none
  /-- The order lists each id once, behind the dependencies of its stage. -/
  order : g.order.Perm (stages.map StageDefinition.id) ∧ ∀ s ∈ stages, ∀ before after,
    g.order = before ++ s.id :: after → ∀ d ∈ s.dependsOn, d ∈ before

/-- **The views of a graph that was built describe one relation,** that of the dependencies which
its stages declare. -/
theorem views_agree (h : build stages = .ok g) : g.Shows stages := by
  have hstages := stages_of_build h
  have hids := ids_of_build h
  have hmem : ∀ s ∈ stages, collapse s ∈ g.stages :=
    fun s hs => hstages ▸ List.mem_map_of_mem hs
  have hne := stages_ne_nil_of_build h
  refine {
    collapsed := ?_
    filled := ?_
    keys := hids ▸ keys_adjacency g
    lists := fun id children hlist => ?_
    dependents := dependents_eq_lookup g
    degrees := fun s hs => ?_
    listed := fun s hs => ?_
    sinks := hids ▸ sinks_eq g
    roots := hids ▸ roots_eq g
    nonempty := ⟨sinks_ne_nil hne, roots_ne_nil hne⟩
    found := fun s hs => ⟨collapse s, stage?_of_mem (hmem s hs), collapsed_collapse s⟩
    missing := fun id hid => ?_
    order := ⟨hids ▸ g.ordered.1,
      fun s hs before after hsplit d hd => before_of_order h hs hsplit hd⟩ }
  · rw [hstages]
    exact List.forall₂_map_right_iff.2 (List.forall₂_same.2 fun s _ => collapsed_collapse s)
  · rw [enlistAll_eq]
    rfl
  · obtain ⟨-, rfl⟩ := mem_adjacency.1 hlist
    exact ⟨nodup_dependents g id, dependents_of_build h id⟩
  · rw [← card_firstOccurrences]
    exact inDegree_lookup (hmem s hs)
  · rw [← card_firstOccurrences]
    exact countP_adjacency (hmem s hs)
  · rw [← hids] at hid
    exact List.find?_eq_none.2 fun s hs he => hid (beq_iff_eq.1 he ▸ List.mem_map_of_mem hs)

/-- The join of the diamond names a parent twice: it has two dependencies and stands in two lists of
dependents, once in each. -/
theorem views_agree_diamond :
    ∃ g, build Fixture.diamond = .ok g ∧ g.Shows Fixture.diamond ∧
      g.inDegree.lookup "join" = some 2 ∧ g.adjacency.countP (fun e => "join" ∈ e.2) = 2 := by
  have hok : (build Fixture.diamond).isOk = true := by decide +kernel
  let join := (StageDefinition.internal "join").withDependencies ["right", "left", "right"]
  have hjoin : join ∈ Fixture.diamond := by decide
  have htwo : join.dependsOn.toFinset.card = 2 := rfl
  cases h : build Fixture.diamond with
  | error e =>
    rw [h] at hok
    cases hok
  | ok g =>
    have hshows := views_agree h
    refine ⟨g, rfl, hshows, ?_, ?_⟩
    · rw [← htwo]
      exact hshows.degrees join hjoin
    · rw [← htwo]
      exact hshows.listed join hjoin

end StageGraph
end SignalPipeline
