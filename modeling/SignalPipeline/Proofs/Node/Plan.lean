import Mathlib.Data.List.Nodup
import SignalPipeline.Node.Runner
import SignalPipeline.Proofs.Graph.Cycle

/-!
# Which declarations have a plan

Nodes are run only if there is a plan for their declarations: each of them is well formed and has an
id of its own, every dependency is declared, the enabled nodes do not wait for each other in a
circle, and each enabled node is registered.

* `NodePlan.Faulty`: the declarations that have no plan.
* `NodePlan.FirstFault`: the fault that comes first in the order of the checks.
* `NodePlan.ofConfigs_ok`, `NodePlan.ofConfigs_error`: what a plan holds, and why there is none.
-/

namespace SignalPipeline

namespace NodeConfig

/-- A declaration with all it needs. -/
structure WellFormed (c : NodeConfig) : Prop where
  id : Text.isBlankText c.id = false
  type : NodeType.ofName? c.type ≠ none
  plugin : Text.isBlankText c.plugin = false
  enabled : c.enabled ≠ none

/-- The first field of a declaration at fault. -/
inductive Flaw (c : NodeConfig) : ConfigurationError → Prop
  | id (blank : Text.isBlankText c.id = true) : Flaw c (.missingField unnamed "id")
  | type (id : Text.isBlankText c.id = false) (unknown : NodeType.ofName? c.type = none) :
      Flaw c (.invalidValue c.id "type" c.type)
  | plugin (id : Text.isBlankText c.id = false) (type : NodeType.ofName? c.type ≠ none)
      (blank : Text.isBlankText c.plugin = true) : Flaw c (.missingField c.id "plugin")
  | enabled (id : Text.isBlankText c.id = false) (type : NodeType.ofName? c.type ≠ none)
      (plugin : Text.isBlankText c.plugin = false) (unsaid : c.enabled = none) :
      Flaw c (.missingField c.id "enabled")

variable {c : NodeConfig}

theorem wellFormed_of_check {t : NodeType} (h : c.check = .ok t) :
    c.WellFormed ∧ NodeType.ofName? c.type = some t := by
  unfold check at h
  split at h
  · cases h
  · next hid =>
    split at h
    · cases h
    · next type htype =>
      split at h
      · cases h
      · next hplugin =>
        split at h
        · cases h
        · next henabled =>
          cases h
          refine ⟨⟨by simpa using hid, by simp [htype], by simpa using hplugin, ?_⟩, htype⟩
          intro hnone
          exact henabled (by rw [hnone]; rfl)

theorem flaw_of_check {e : ConfigurationError} (h : c.check = .error e) : c.Flaw e := by
  unfold check at h
  split at h
  · next hid =>
    cases h
    exact .id hid
  · next hid =>
    have hid : Text.isBlankText c.id = false := by simpa using hid
    split at h
    · next htype =>
      cases h
      exact .type hid htype
    · next type htype =>
      have htype : NodeType.ofName? c.type ≠ none := by simp [htype]
      split at h
      · next hplugin =>
        cases h
        exact .plugin hid htype hplugin
      · next hplugin =>
        have hplugin : Text.isBlankText c.plugin = false := by simpa using hplugin
        split at h
        · next henabled =>
          cases h
          exact .enabled hid htype hplugin (Option.isNone_iff_eq_none.1 henabled)
        · cases h

end NodeConfig

namespace NodePlan

/-- Declarations that are well formed, each with an id of its own. -/
structure Sound (configs : List NodeConfig) : Prop where
  wellFormed : ∀ c ∈ configs, c.WellFormed
  distinct : (configs.map NodeConfig.id).Nodup

/-- Every dependency, also of a disabled node, is the id of a node. -/
def Closed (configs : List NodeConfig) : Prop :=
  ∀ c ∈ configs, ∀ d ∈ c.dependencies, d ∈ configs.map NodeConfig.id

/-- An enabled node depends on an enabled node. -/
def Awaits (configs : List NodeConfig) (a b : String) : Prop :=
  ∃ c ∈ configs, c.isEnabled = true ∧ c.id = a ∧ b ∈ c.dependencies ∧
    ∃ other ∈ configs, other.isEnabled = true ∧ other.id = b

/-- No enabled node waits for itself, directly or through others. -/
def Acyclic (configs : List NodeConfig) : Prop :=
  ∀ id, ¬ Relation.TransGen (Awaits configs) id id

/-- Declarations from which no plan can be made. -/
inductive Faulty (r : NodeRegistry) (configs : List NodeConfig) : Prop
  | blankId (c : NodeConfig) (declared : c ∈ configs) (blank : Text.isBlankText c.id = true)
  | unknownType (c : NodeConfig) (declared : c ∈ configs)
      (unknown : NodeType.ofName? c.type = none)
  | blankPlugin (c : NodeConfig) (declared : c ∈ configs)
      (blank : Text.isBlankText c.plugin = true)
  | unsaid (c : NodeConfig) (declared : c ∈ configs) (unsaid : c.enabled = none)
  | sharedId (shared : ¬ (configs.map NodeConfig.id).Nodup)
  | undeclared (c : NodeConfig) (declared : c ∈ configs) (d : String) (depends : d ∈ c.dependencies)
      (undeclared : d ∉ configs.map NodeConfig.id)
  | cyclic (id : String) (circle : Relation.TransGen (Awaits configs) id id)
  | unregistered (c : NodeConfig) (declared : c ∈ configs) (enabled : c.isEnabled = true)
      (missing : r.get? c.plugin = none)

/-- The fault that is found first: flaws and repeated ids in the order of the declarations, then
the first dependency on an unknown id, then a cycle, then the first node in the order of execution
that is not registered. -/
inductive FirstFault (r : NodeRegistry) (configs : List NodeConfig) : ConfigurationError → Prop
  | flaw (before : List NodeConfig) (c : NodeConfig) (after : List NodeConfig)
      (split : configs = before ++ c :: after) (sound : Sound before) (e : ConfigurationError)
      (flaw : c.Flaw e) : FirstFault r configs e
  | duplicate (before : List NodeConfig) (c : NodeConfig) (after : List NodeConfig)
      (split : configs = before ++ c :: after) (sound : Sound before) (wellFormed : c.WellFormed)
      (shared : c.id ∈ before.map NodeConfig.id) :
      FirstFault r configs (.invalidValue c.id "id" "duplicate")
  | unknown (sound : Sound configs) (before : List NodeConfig) (c : NodeConfig)
      (after : List NodeConfig) (split : configs = before ++ c :: after)
      (declared : ∀ b ∈ before, ∀ d ∈ b.dependencies, d ∈ configs.map NodeConfig.id)
      (front : List String) (d : String) (back : List String)
      (dependencies : c.dependencies = front ++ d :: back)
      (known : ∀ f ∈ front, f ∈ configs.map NodeConfig.id)
      (unknown : d ∉ configs.map NodeConfig.id) : FirstFault r configs (.unknownNode c.id d)
  | cycle (sound : Sound configs) (closed : Closed configs) (path : List String)
      (circle : IsCycle (Awaits configs) path) : FirstFault r configs (.nodeCycle path)
  | unregistered (sound : Sound configs) (closed : Closed configs) (acyclic : Acyclic configs)
      (before : List NodeConfig) (c : NodeConfig) (after : List NodeConfig)
      (declared : ∀ b ∈ before ++ c :: after, b ∈ configs)
      (order : executionOrder configs = .ok ((before ++ c :: after).map NodeConfig.id))
      (enabled : c.isEnabled = true)
      (registered : ∀ b ∈ before, r.get? b.plugin ≠ none) (missing : r.get? c.plugin = none) :
      FirstFault r configs (.unregisteredNodePlugin c.id c.plugin)

variable {r : NodeRegistry} {configs : List NodeConfig} {e : ConfigurationError}

theorem FirstFault.faulty (h : FirstFault r configs e) : Faulty r configs := by
  cases h with
  | flaw before c after split sound e flaw =>
    have hc : c ∈ configs := by simp [split]
    cases flaw with
    | id blank => exact .blankId c hc blank
    | type _ unknown => exact .unknownType c hc unknown
    | plugin _ _ blank => exact .blankPlugin c hc blank
    | enabled _ _ _ unsaid => exact .unsaid c hc unsaid
  | duplicate before c after split _ _ shared =>
    refine .sharedId fun hd => ?_
    rw [split, List.map_append, List.map_cons, List.nodup_append] at hd
    exact hd.2.2 c.id shared c.id List.mem_cons_self rfl
  | unknown _ before c after split _ front d back dependencies _ unknown =>
    exact .undeclared c (by simp [split]) d (by simp [dependencies]) unknown
  | cycle _ _ path circle =>
    obtain ⟨id, hid⟩ := circle.transGen
    exact .cyclic id hid
  | unregistered _ _ _ before c after declared _ enabled _ missing =>
    exact .unregistered c (declared c (by simp)) enabled missing

/-! ## The checks one by one -/

/-- What is checked and found sound: the declarations with their types. -/
theorem checkConfigs_ok {seen : List String} {checked : List (NodeConfig × NodeType)}
    (h : checkConfigs seen configs = .ok checked) :
    Sound configs ∧ (∀ c ∈ configs, c.id ∉ seen) ∧ checked.map Prod.fst = configs ∧
      ∀ p ∈ checked, NodeType.ofName? p.1.type = some p.2 := by
  induction configs generalizing seen checked with
  | nil =>
    cases h
    exact ⟨⟨by simp, List.nodup_nil⟩, by simp, rfl, by simp⟩
  | cons c cs ih =>
    rw [checkConfigs] at h
    cases hc : c.check with
    | error e =>
      rw [hc] at h
      cases h
    | ok t =>
      rw [hc] at h
      by_cases hs : seen.contains c.id = true
      · simp only [bind, Except.bind, hs, if_true] at h
        cases h
      · simp only [bind, Except.bind, hs] at h
        cases hr : checkConfigs (c.id :: seen) cs with
        | error e =>
          rw [hr] at h
          cases h
        | ok rest =>
          rw [hr] at h
          cases h
          obtain ⟨hsound, hfresh, hfst, htypes⟩ := ih hr
          obtain ⟨hw, ht⟩ := NodeConfig.wellFormed_of_check hc
          have hnew : c.id ∉ cs.map NodeConfig.id := by
            intro hm
            obtain ⟨d, hd, hid⟩ := List.mem_map.1 hm
            exact hfresh d hd (hid ▸ List.mem_cons_self)
          refine ⟨⟨List.forall_mem_cons.2 ⟨hw, hsound.wellFormed⟩,
            List.nodup_cons.2 ⟨hnew, hsound.distinct⟩⟩, List.forall_mem_cons.2 ⟨?_, ?_⟩, ?_,
            List.forall_mem_cons.2 ⟨ht, htypes⟩⟩
          · exact fun hm => hs (List.contains_iff_mem.2 hm)
          · exact fun d hd hm => hfresh d hd (List.mem_cons_of_mem _ hm)
          · rw [List.map_cons, hfst]

/-- Behind declarations that are sound the first one that is flawed or repeats an id is found. -/
theorem checkConfigs_error {before : List NodeConfig} {seen : List String}
    (hseen : ∀ id, id ∈ seen ↔ id ∈ before.map NodeConfig.id) (hb : Sound before)
    (h : checkConfigs seen configs = .error e) : FirstFault r (before ++ configs) e := by
  induction configs generalizing before seen with
  | nil => cases h
  | cons c cs ih =>
    rw [checkConfigs] at h
    cases hc : c.check with
    | error e' =>
      rw [hc] at h
      cases h
      exact .flaw before c cs rfl hb e (NodeConfig.flaw_of_check hc)
    | ok t =>
      rw [hc] at h
      have hw := (NodeConfig.wellFormed_of_check hc).1
      by_cases hs : seen.contains c.id = true
      · simp only [bind, Except.bind, hs, if_true] at h
        cases h
        exact .duplicate before c cs rfl hb hw ((hseen c.id).1 (List.contains_iff_mem.1 hs))
      · simp only [bind, Except.bind, hs] at h
        have hnew : c.id ∉ before.map NodeConfig.id := fun hm =>
          hs (List.contains_iff_mem.2 ((hseen c.id).2 hm))
        have hsound : Sound (before ++ [c]) := by
          refine ⟨?_, ?_⟩
          · rw [List.forall_mem_append]
            exact ⟨hb.wellFormed, List.forall_mem_singleton.2 hw⟩
          · rw [List.map_append, List.map_singleton, List.nodup_append]
            refine ⟨hb.distinct, List.pairwise_singleton _ _, fun a ha b hb hab => hnew ?_⟩
            rwa [← List.mem_singleton.1 hb, ← hab]
        cases hr : checkConfigs (c.id :: seen) cs with
        | ok rest =>
          rw [hr] at h
          cases h
        | error e' =>
          rw [hr] at h
          cases h
          have := @ih (before ++ [c]) (c.id :: seen) (fun id => by simp [hseen, or_comm]) hsound hr
          rwa [List.append_assoc] at this

theorem unknown?_eq_none_iff {declared : List String} {c : NodeConfig} :
    c.unknown? declared = none ↔ ∀ d ∈ c.dependencies, d ∈ declared := by
  rw [NodeConfig.unknown?, Option.map_eq_none_iff, List.find?_eq_none]
  simp

/-- The vertices of the enabled nodes need what the nodes wait for. -/
theorem needs_enabled :
    Vertex.Needs ((configs.filter NodeConfig.isEnabled).map NodeConfig.vertex) =
      Awaits configs := by
  have hid : ∀ b, b ∈ ((configs.filter NodeConfig.isEnabled).map NodeConfig.vertex).map Vertex.id ↔
      ∃ other ∈ configs, other.isEnabled = true ∧ other.id = b := by
    intro b
    simp only [List.map_map, List.mem_map, List.mem_filter, and_assoc]
    rfl
  funext a b
  refine propext ⟨fun ⟨v, hv, ha, hb, hd⟩ => ?_, fun ⟨c, hc, he, ha, hb, hd⟩ => ?_⟩
  · obtain ⟨c, hc, rfl⟩ := List.mem_map.1 hv
    obtain ⟨hc, he⟩ := List.mem_filter.1 hc
    exact ⟨c, hc, he, ha, hb, (hid b).1 hd⟩
  · exact ⟨c.vertex, List.mem_map_of_mem (List.mem_filter.2 ⟨hc, he⟩), ha, hb, (hid b).2 hd⟩

theorem map_vertex_id (cs : List NodeConfig) :
    (cs.map NodeConfig.vertex).map Vertex.id = cs.map NodeConfig.id := by
  rw [List.map_map]
  rfl

/-- The ids of the enabled nodes are distinct. -/
theorem nodup_enabled (hd : (configs.map NodeConfig.id).Nodup) :
    (((configs.filter NodeConfig.isEnabled).map NodeConfig.vertex).map Vertex.id).Nodup := by
  rw [map_vertex_id]
  exact hd.sublist ((List.filter_sublist).map _)

theorem executionOrder_ok {order : List String} (hd : (configs.map NodeConfig.id).Nodup)
    (h : executionOrder configs = .ok order) :
    Closed configs ∧ Acyclic configs ∧
      order.Perm ((configs.filter NodeConfig.isEnabled).map NodeConfig.id) := by
  unfold executionOrder at h
  split at h
  · cases h
  · next hnone =>
    dsimp only at h
    split at h
    · next found hfound =>
      cases h
      obtain ⟨hp, ho⟩ := stableOrder?_ok (nodup_enabled hd) hfound
      have ha := ho.acyclic hp
      unfold Vertex.Acyclic at ha
      rw [needs_enabled] at ha
      rw [map_vertex_id] at hp
      exact ⟨fun c hc => unknown?_eq_none_iff.1 (List.findSome?_eq_none_iff.1 hnone c hc), ha, hp⟩
    · cases h

theorem executionOrder_error (hs : Sound configs) (h : executionOrder configs = .error e) :
    FirstFault r configs e := by
  unfold executionOrder at h
  split at h
  · next e' hsome =>
    cases h
    obtain ⟨before, c, after, hsplit, hc, hbefore⟩ := List.findSome?_eq_some_iff.1 hsome
    obtain ⟨d, hd, rfl⟩ := Option.map_eq_some_iff.1 hc
    obtain ⟨hunknown, front, back, hdeps, hfront⟩ := List.find?_eq_some_iff_append.1 hd
    exact .unknown hs before c after hsplit (fun b hb => unknown?_eq_none_iff.1 (hbefore b hb))
      front d back hdeps (fun f hf => by simpa using hfront f hf) (by simpa using hunknown)
  · next hnone =>
    dsimp only at h
    split at h
    · cases h
    · next left hleft =>
      cases h
      obtain ⟨path, hpath, hcycle⟩ := Vertex.exists_findCycle? (nodup_enabled hs.distinct) hleft
      rw [hpath]
      rw [needs_enabled] at hcycle
      exact .cycle hs
        (fun c hc => unknown?_eq_none_iff.1 (List.findSome?_eq_none_iff.1 hnone c hc)) path hcycle

/-- The declarations that an order calls for, one for each of its ids. -/
theorem declared_of_order {checked : List (NodeConfig × NodeType)} {order : List String}
    (h : ∀ id ∈ order, id ∈ (checked.map Prod.fst).map NodeConfig.id) :
    (order.filterMap fun id => checked.find? fun p => p.1.id == id).map (fun p => p.1.id) = order ∧
      ∀ p ∈ order.filterMap fun id => checked.find? fun p => p.1.id == id, p ∈ checked := by
  refine ⟨?_, fun p hp => ?_⟩
  · induction order with
    | nil => rfl
    | cons id order ih =>
      obtain ⟨hid, hrest⟩ := List.forall_mem_cons.1 h
      have hfound : (checked.find? fun p => p.1.id == id).isSome := by
        rw [List.find?_isSome]
        simpa using hid
      obtain ⟨p, hp⟩ := Option.isSome_iff_exists.1 hfound
      have hnamed := List.find?_some hp
      have hpid : p.1.id = id := beq_iff_eq.1 hnamed
      rw [List.filterMap_cons, hp]
      exact List.cons_eq_cons.2 ⟨hpid, ih hrest⟩
  · obtain ⟨id, -, hp⟩ := List.mem_filterMap.1 hp
    exact List.mem_of_find?_eq_some hp

theorem locate_of_some {c : NodeConfig} {t : NodeType} {node : PipelineNode}
    (h : r.get? c.plugin = some node) : locate r c t = .ok ⟨c, t, node⟩ := by
  unfold locate
  rw [h]

theorem locate_of_none {c : NodeConfig} {t : NodeType} (h : r.get? c.plugin = none) :
    locate r c t = .error (.unregisteredNodePlugin c.id c.plugin) := by
  unfold locate
  rw [h]

/-- Where each node is found in the registry, the plan has one for each declaration. -/
theorem locate_ok {declared : List (NodeConfig × NodeType)} {plan : NodePlan}
    (h : (declared.mapM fun p => locate r p.1 p.2) = .ok plan) :
    plan.map (fun p => (p.config, p.type)) = declared ∧
      ∀ p ∈ plan, r.get? p.config.plugin = some p.node := by
  induction declared generalizing plan with
  | nil =>
    cases h
    exact ⟨rfl, by simp⟩
  | cons d declared ih =>
    rw [List.mapM_cons] at h
    cases hn : r.get? d.1.plugin with
    | none =>
      rw [locate_of_none hn] at h
      cases h
    | some node =>
      rw [locate_of_some hn] at h
      cases hr : declared.mapM fun p => locate r p.1 p.2 with
      | error e =>
        rw [hr] at h
        cases h
      | ok rest =>
        obtain ⟨hrest, hnodes⟩ := ih hr
        rw [hr] at h
        cases h
        exact ⟨by rw [List.map_cons, hrest], List.forall_mem_cons.2 ⟨hn, hnodes⟩⟩

/-- Otherwise there is a first declaration whose node is not registered. -/
theorem locate_error_iff {declared : List (NodeConfig × NodeType)} :
    (declared.mapM fun p => locate r p.1 p.2) = .error e ↔
      ∃ before p after, declared = before ++ p :: after ∧
        (∀ b ∈ before, r.get? b.1.plugin ≠ none) ∧ r.get? p.1.plugin = none ∧
        e = .unregisteredNodePlugin p.1.id p.1.plugin := by
  constructor
  · intro h
    induction declared with
    | nil => cases h
    | cons d declared ih =>
      rw [List.mapM_cons] at h
      cases hn : r.get? d.1.plugin with
      | none =>
        rw [locate_of_none hn] at h
        cases h
        exact ⟨[], d, declared, rfl, by simp, hn, rfl⟩
      | some node =>
        rw [locate_of_some hn] at h
        cases hr : declared.mapM fun p => locate r p.1 p.2 with
        | error e' =>
          rw [hr] at h
          obtain rfl : e' = e := by
            cases h
            rfl
          obtain ⟨before, p, after, rfl, hbefore, hp, he⟩ := ih hr
          refine ⟨d :: before, p, after, rfl, List.forall_mem_cons.2 ⟨?_, hbefore⟩, hp, he⟩
          rw [hn]
          exact Option.some_ne_none node
        | ok rest =>
          rw [hr] at h
          cases h
  · rintro ⟨before, p, after, rfl, hbefore, hp, rfl⟩
    induction before with
    | nil =>
      rw [List.nil_append, List.mapM_cons, locate_of_none hp]
      rfl
    | cons b before ih =>
      obtain ⟨hb, hbefore⟩ := List.forall_mem_cons.1 hbefore
      obtain ⟨node, hnode⟩ := Option.ne_none_iff_exists'.1 hb
      rw [List.cons_append, List.mapM_cons, locate_of_some hnode, ih hbefore]
      rfl

/-! ## All checks -/

/-- What a plan holds: the declarations that the order of execution calls for, each with its type
and its node. -/
structure Serves (r : NodeRegistry) (configs : List NodeConfig) (plan : NodePlan) : Prop where
  sound : Sound configs
  closed : Closed configs
  acyclic : Acyclic configs
  order : executionOrder configs = .ok (plan.map fun p => p.config.id)
  declared : ∀ p ∈ plan, p.config ∈ configs
  type : ∀ p ∈ plan, NodeType.ofName? p.config.type = some p.type
  node : ∀ p ∈ plan, r.get? p.config.plugin = some p.node

/-- Either one of the checks before the search in the registry fails, or the declarations are
called for that the order of execution lists. -/
theorem ofConfigs_called (r : NodeRegistry) (configs : List NodeConfig) :
    (∃ e, ofConfigs r configs = .error e ∧ FirstFault r configs e) ∨
      Sound configs ∧ ∃ declared : List (NodeConfig × NodeType),
        executionOrder configs = .ok (declared.map fun p => p.1.id) ∧
        (∀ p ∈ declared, p.1 ∈ configs ∧ NodeType.ofName? p.1.type = some p.2) ∧
        ofConfigs r configs = declared.mapM fun p => locate r p.1 p.2 := by
  unfold ofConfigs
  cases hc : checkConfigs [] configs with
  | error e =>
    have hfault := @checkConfigs_error r configs e [] [] (by simp) ⟨by simp, List.nodup_nil⟩ hc
    exact .inl ⟨e, rfl, hfault⟩
  | ok checked =>
    obtain ⟨hs, -, hfst, htypes⟩ := checkConfigs_ok hc
    cases ho : executionOrder configs with
    | error e => exact .inl ⟨e, rfl, executionOrder_error hs ho⟩
    | ok order =>
      obtain ⟨-, -, hperm⟩ := executionOrder_ok hs.distinct ho
      obtain ⟨hids, hmem⟩ := @declared_of_order checked order fun id hid => by
        rw [hfst]
        exact ((List.filter_sublist).map _).mem (hperm.mem_iff.1 hid)
      refine .inr ⟨hs, _, congrArg Except.ok hids.symm, fun p hp => ⟨?_, htypes p (hmem p hp)⟩, rfl⟩
      rw [← hfst]
      exact List.mem_map_of_mem (hmem p hp)

theorem ofConfigs_ok {plan : NodePlan} (h : ofConfigs r configs = .ok plan) :
    Serves r configs plan := by
  rcases ofConfigs_called r configs with ⟨e, he, -⟩ | ⟨hs, declared, ho, hdeclared, hlocate⟩
  · rw [h] at he
    cases he
  · obtain ⟨hclosed, hacyclic, -⟩ := executionOrder_ok hs.distinct ho
    obtain ⟨rfl, hnodes⟩ := locate_ok (hlocate.symm.trans h)
    rw [List.forall_mem_map] at hdeclared
    rw [List.map_map] at ho
    exact ⟨hs, hclosed, hacyclic, ho, fun p hp => (hdeclared p hp).1,
      fun p hp => (hdeclared p hp).2, hnodes⟩

/-- Of sound declarations those are enabled whose ids the order of execution lists. -/
theorem Sound.enabled_of_order (hs : Sound configs) {order : List String}
    (ho : executionOrder configs = .ok order) {c : NodeConfig} (hc : c ∈ configs) :
    c.id ∈ order ↔ c.isEnabled = true := by
  obtain ⟨-, -, hperm⟩ := executionOrder_ok hs.distinct ho
  rw [hperm.mem_iff]
  constructor
  · intro hid
    obtain ⟨d, hd, he⟩ := List.mem_map.1 hid
    obtain ⟨hd, henabled⟩ := List.mem_filter.1 hd
    rwa [List.inj_on_of_nodup_map hs.distinct hc hd he.symm]
  · exact fun henabled => List.mem_map_of_mem (List.mem_filter.2 ⟨hc, henabled⟩)

theorem ofConfigs_error (h : ofConfigs r configs = .error e) : FirstFault r configs e := by
  rcases ofConfigs_called r configs with ⟨e', he, hfault⟩ | ⟨hs, declared, ho, hdeclared, hlocate⟩
  · obtain rfl : e = e' := by
      rw [h] at he
      cases he
      rfl
    exact hfault
  · obtain ⟨hclosed, hacyclic, -⟩ := executionOrder_ok hs.distinct ho
    obtain ⟨before, p, after, rfl, hbefore, hp, rfl⟩ := locate_error_iff.1 (hlocate.symm.trans h)
    have hmem : p.1 ∈ configs := (hdeclared p (by simp)).1
    refine .unregistered hs hclosed hacyclic (before.map Prod.fst) p.1 (after.map Prod.fst) ?_ ?_ ?_
      (List.forall_mem_map.2 hbefore) hp
    · rw [← List.map_cons, ← List.map_append, List.forall_mem_map]
      exact fun q hq => (hdeclared q hq).1
    · rw [← List.map_cons, ← List.map_append, List.map_map, ho]
      rfl
    · exact (hs.enabled_of_order ho hmem).1 (List.mem_map_of_mem (by simp))

/-- Declarations that have a plan are without fault. -/
theorem Serves.not_faulty {plan : NodePlan} (h : Serves r configs plan) : ¬ Faulty r configs := by
  intro hfault
  cases hfault with
  | blankId c hc blank =>
    rw [(h.sound.wellFormed c hc).id] at blank
    cases blank
  | unknownType c hc unknown => exact (h.sound.wellFormed c hc).type unknown
  | blankPlugin c hc blank =>
    rw [(h.sound.wellFormed c hc).plugin] at blank
    cases blank
  | unsaid c hc unsaid => exact (h.sound.wellFormed c hc).enabled unsaid
  | sharedId shared => exact shared h.sound.distinct
  | undeclared c hc d hd undeclared => exact undeclared (h.closed c hc d hd)
  | cyclic id circle => exact h.acyclic id circle
  | unregistered c hc enabled missing =>
    obtain ⟨p, hp, hid⟩ := List.mem_map.1 ((h.sound.enabled_of_order h.order hc).2 enabled)
    have hnode := h.node p hp
    rw [List.inj_on_of_nodup_map h.sound.distinct (h.declared p hp) hc hid, missing] at hnode
    cases hnode

end NodePlan
end SignalPipeline
