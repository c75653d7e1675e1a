import SignalPipeline.Proofs.Dataflow.Run
import SignalPipeline.Proofs.Entries.Insertion
import SignalPipeline.Proofs.Json.Record

/-!
# Which handlers are bound to a graph

A registry is made by registrations, one after the other. An internal stage gets the handler that
was last registered under its id, a plugin stage the plugin that was last registered under its
plugin name, told the id of the stage. Handlers and plugins have names of their own kind: neither
stands in for the other. A graph is bound before anything runs, or else it does not run.

* `HandlerRegistry.Served`, `HandlerRegistry.Binds`: whether a stage has a handler, and which.
* `HandlerRegistry.bindStages_eq_ok`, `HandlerRegistry.bindStages_eq_error`: what is bound to
  stages, and the stage at which binding stops.
* `HandlerRegistry.binding_exact`: binding, executors made of a registry, and runs of definitions.
-/

namespace SignalPipeline

/-! ## Registrations -/

/-- A step in the making of a registry. -/
inductive Registration where
  /-- A handler for a stage id. -/
  | handler (stage : String) (h : Handler)
  /-- A plugin under its name. -/
  | plugin (p : Plugin)

namespace Registration

/-- The handler of a registration, with its stage id. -/
def handler? : Registration → Option (String × Handler)
  | handler stage h => some (stage, h)
  | plugin _ => none

/-- The plugin of a registration, with its name. -/
def plugin? : Registration → Option (String × Plugin)
  | handler _ _ => none
  | plugin p => some (p.name, p)

theorem handler?_eq_some {x : Registration} {stage : String} {h : Handler} :
    x.handler? = some (stage, h) ↔ x = .handler stage h := by
  cases x <;> simp [handler?]

theorem plugin?_eq_some {x : Registration} {name : String} {p : Plugin} :
    x.plugin? = some (name, p) ↔ x = .plugin p ∧ p.name = name := by
  cases x with
  | handler stage h => simp [plugin?]
  | plugin q =>
    simp only [plugin?, Option.some.injEq, Prod.mk.injEq, plugin.injEq]
    constructor
    · rintro ⟨hname, rfl⟩
      exact ⟨rfl, hname⟩
    · rintro ⟨rfl, hname⟩
      exact ⟨hname, rfl⟩

end Registration

namespace Entries

variable {α β : Type} {f : β → Option (String × α)} {xs : List β} {key : String} {value : α}

/-- Where the entries of some values are inserted one after the other, a look-up finds that of the
last value with the key. -/
theorem get?_ofPairs_filterMap :
    (ofPairs (xs.filterMap f)).get? key = some value ↔
      ∃ before x after, xs = before ++ x :: after ∧ f x = some (key, value) ∧
        ∀ y ∈ after, ∀ v, f y ≠ some (key, v) := by
  rw [ofPairs, get?_putAll_iff (show (keys ([] : Entries α)).Nodup from List.nodup_nil)]
  constructor
  · rintro (⟨before, after, hsplit, hlast⟩ | ⟨hlisted, -⟩)
    · obtain ⟨front, back, rfl, -, hback⟩ := List.filterMap_eq_append_iff.1 hsplit
      obtain ⟨middle, x, after', rfl, -, hx, rfl⟩ := List.filterMap_eq_cons_iff.1 hback
      refine ⟨front ++ middle, x, after', (List.append_assoc ..).symm, hx, fun y hy v hv => ?_⟩
      exact hlast (List.mem_map.2 ⟨(key, v), List.mem_filterMap.2 ⟨y, hy, hv⟩, rfl⟩)
    · cases hlisted
  · rintro ⟨before, x, after, rfl, hx, hlast⟩
    refine .inserted (before.filterMap f) (after.filterMap f) ?_ fun hkey => ?_
    · rw [List.filterMap_append, List.filterMap_cons_some hx]
    · obtain ⟨⟨k, v⟩, hentry, rfl⟩ := List.mem_map.1 hkey
      obtain ⟨y, hy, hv⟩ := List.mem_filterMap.1 hentry
      exact hlast y hy v hv

theorem get?_ofPairs_filterMap_eq_none :
    (ofPairs (xs.filterMap f)).get? key = none ↔ ∀ x ∈ xs, ∀ v, f x ≠ some (key, v) := by
  have hempty : key ∉ keys ([] : Entries α) := List.not_mem_nil
  rw [ofPairs, get?_eq_none_iff, keys_putAll, mem_keyOrder, or_iff_right hempty]
  constructor
  · exact fun h x hx v hv => h (List.mem_map.2 ⟨(key, v), List.mem_filterMap.2 ⟨x, hx, hv⟩, rfl⟩)
  · intro h hkey
    obtain ⟨⟨k, v⟩, hentry, rfl⟩ := List.mem_map.1 hkey
    obtain ⟨x, hx, hv⟩ := List.mem_filterMap.1 hentry
    exact h x hx v hv

end Entries

namespace HandlerRegistry

/-- The registry with one more registration. -/
def register (r : HandlerRegistry) : Registration → HandlerRegistry
  | .handler stage h => r.withHandler stage h
  | .plugin p => r.withPlugin p

/-- The registry that registrations make. -/
def ofRegistrations (rs : List Registration) : HandlerRegistry :=
  rs.foldl register empty

variable {r : HandlerRegistry} {rs : List Registration} {s : StageDefinition}
  {ss : List StageDefinition} {g : StageGraph} {b : Binding} {h : Handler} {p : Plugin}
  {id name : String} {err : ConfigurationError}

/-- Handlers and plugins are kept apart. -/
theorem foldl_register (rs : List Registration) (r : HandlerRegistry) :
    rs.foldl register r = ⟨r.handlers.putAll (rs.filterMap Registration.handler?),
      r.plugins.putAll (rs.filterMap Registration.plugin?)⟩ := by
  induction rs generalizing r with
  | nil => rfl
  | cons x rs ih =>
    rw [List.foldl_cons, ih]
    cases x <;> rfl

theorem ofRegistrations_eq (rs : List Registration) :
    ofRegistrations rs = ⟨.ofPairs (rs.filterMap Registration.handler?),
      .ofPairs (rs.filterMap Registration.plugin?)⟩ :=
  foldl_register rs empty

theorem get?_handlers : (ofRegistrations rs).handlers.get? id = some h ↔
    ∃ before after, rs = before ++ .handler id h :: after ∧ ∀ h', .handler id h' ∉ after := by
  rw [ofRegistrations_eq, Entries.get?_ofPairs_filterMap]
  simp only [ne_eq, Registration.handler?_eq_some]
  constructor
  · rintro ⟨before, x, after, hsplit, rfl, hlast⟩
    exact ⟨before, after, hsplit, fun h' hmem => hlast _ hmem h' rfl⟩
  · rintro ⟨before, after, hsplit, hlast⟩
    exact ⟨before, _, after, hsplit, rfl, fun y hy h' he => hlast h' (he ▸ hy)⟩

theorem get?_handlers_eq_none :
    (ofRegistrations rs).handlers.get? id = none ↔ ∀ h, .handler id h ∉ rs := by
  rw [ofRegistrations_eq, Entries.get?_ofPairs_filterMap_eq_none]
  simp only [ne_eq, Registration.handler?_eq_some]
  exact ⟨fun hn h hmem => hn _ hmem h rfl, fun hn x hx h he => hn h (he ▸ hx)⟩

theorem get?_plugins : (ofRegistrations rs).plugins.get? name = some p ↔
    ∃ before after, rs = before ++ .plugin p :: after ∧ p.name = name ∧
      ∀ q, .plugin q ∈ after → q.name ≠ name := by
  rw [ofRegistrations_eq, Entries.get?_ofPairs_filterMap]
  simp only [ne_eq, Registration.plugin?_eq_some]
  constructor
  · rintro ⟨before, x, after, hsplit, ⟨rfl, hname⟩, hlast⟩
    exact ⟨before, after, hsplit, hname, fun q hmem hq => hlast _ hmem q ⟨rfl, hq⟩⟩
  · rintro ⟨before, after, hsplit, hname, hlast⟩
    exact ⟨before, _, after, hsplit, ⟨rfl, hname⟩, fun y hy q hq => hlast q (hq.1 ▸ hy) hq.2⟩

theorem get?_plugins_eq_none :
    (ofRegistrations rs).plugins.get? name = none ↔ ∀ q, .plugin q ∈ rs → q.name ≠ name := by
  rw [ofRegistrations_eq, Entries.get?_ofPairs_filterMap_eq_none]
  simp only [ne_eq, Registration.plugin?_eq_some]
  exact ⟨fun hn q hmem hq => hn _ hmem q ⟨rfl, hq⟩, fun hn x hx q hq => hn q (hq.1 ▸ hx) hq.2⟩

/-! ## The handler of a stage -/

/-- The registrations serve a stage: there is a handler under its id, or a plugin under its plugin
name. -/
def Served (rs : List Registration) (s : StageDefinition) : Prop :=
  match s.kind with
  | .internal => ∃ h, .handler s.id h ∈ rs
  | .plugin => ∃ p, .plugin p ∈ rs ∧ p.name = s.pluginName

/-- The handler of a stage: the last one that was registered under its id, or the last plugin that
was registered under its plugin name, told the id of the stage. -/
inductive Binds (rs : List Registration) (s : StageDefinition) : Handler → Prop
  | internal {h : Handler} (kind : s.kind = .internal) (before after : List Registration)
    (split : rs = before ++ .handler s.id h :: after) (last : ∀ h', .handler s.id h' ∉ after) :
    Binds rs s h
  | plugin {p : Plugin} (kind : s.kind = .plugin) (before after : List Registration)
    (split : rs = before ++ .plugin p :: after) (named : p.name = s.pluginName)
    (last : ∀ q, .plugin q ∈ after → q.name ≠ s.pluginName) : Binds rs s (p.serve s.id)

/-- The error for a stage that is not served. -/
def unserved (s : StageDefinition) : ConfigurationError :=
  match s.kind with
  | .internal => .unregisteredHandler s.id
  | .plugin => .unregisteredStagePlugin s.pluginName s.id

theorem handlerFor_eq_ok : (ofRegistrations rs).handlerFor s = .ok h ↔ Binds rs s h := by
  unfold handlerFor
  constructor
  · intro hok
    split at hok
    · next kind =>
      split at hok
      · next h' hget =>
        cases hok
        obtain ⟨before, after, hsplit, hlast⟩ := get?_handlers.1 hget
        exact .internal kind before after hsplit hlast
      · cases hok
    · next kind =>
      split at hok
      · next p hget =>
        cases hok
        obtain ⟨before, after, hsplit, hname, hlast⟩ := get?_plugins.1 hget
        exact .plugin kind before after hsplit hname hlast
      · cases hok
  · rintro (⟨kind, before, after, hsplit, hlast⟩ | ⟨kind, before, after, hsplit, hname, hlast⟩)
    · rw [kind, get?_handlers.2 ⟨before, after, hsplit, hlast⟩]
    · rw [kind, get?_plugins.2 ⟨before, after, hsplit, hname, hlast⟩]

theorem handlerFor_eq_error : (ofRegistrations rs).handlerFor s = .error err ↔
    ¬ Served rs s ∧ err = unserved s := by
  unfold handlerFor Served unserved
  cases s.kind with
  | internal =>
    have hserved : (∃ h, .handler s.id h ∈ rs) ↔
        (ofRegistrations rs).handlers.get? s.id ≠ none := by
      rw [ne_eq, get?_handlers_eq_none, not_forall_not]
    simp only [hserved, not_not]
    cases (ofRegistrations rs).handlers.get? s.id <;> simp [eq_comm]
  | plugin =>
    have hserved : (∃ p, .plugin p ∈ rs ∧ p.name = s.pluginName) ↔
        (ofRegistrations rs).plugins.get? s.pluginName ≠ none := by
      rw [ne_eq, get?_plugins_eq_none]
      push Not
      rfl
    simp only [hserved, not_not]
    cases (ofRegistrations rs).plugins.get? s.pluginName <;> simp [eq_comm]

/-- A stage has a handler exactly if it is served. -/
theorem exists_handlerFor : (∃ h, (ofRegistrations rs).handlerFor s = .ok h) ↔ Served rs s := by
  cases hfor : (ofRegistrations rs).handlerFor s with
  | ok h =>
    refine ⟨fun _ => Classical.byContradiction fun hn => ?_, fun _ => ⟨h, rfl⟩⟩
    cases hfor.symm.trans (handlerFor_eq_error.2 ⟨hn, rfl⟩)
  | error err =>
    have hn := (handlerFor_eq_error.1 hfor).1
    exact ⟨nofun, fun hserved => absurd hserved hn⟩

/-- The error for a stage names it. -/
theorem names_unserved (s : StageDefinition) :
    ("stage '" ++ s.id ++ "'").toList <:+: (unserved s).message.toList := by
  unfold unserved
  cases s.kind with
  | internal =>
    show _ <:+: ("Configuration error: " ++
      ("no handler registered for internal stage '" ++ s.id ++ "'")).toList
    refine ⟨"Configuration error: no handler registered for internal ".toList, [], ?_⟩
    simp [String.toList_append]
  | plugin =>
    show _ <:+: ("Configuration error: " ++ ("plugin '" ++ s.pluginName ++
      "' required by stage '" ++ s.id ++ "' is not registered")).toList
    refine ⟨("Configuration error: plugin '" ++ s.pluginName ++ "' required by ").toList,
      " is not registered".toList, ?_⟩
    simp [String.toList_append]

/-! ## The handlers of a list of stages -/

theorem bindStages_eq_ok : r.bindStages ss = .ok b ↔
    List.Forall₂ (fun s entry => entry.1 = s.id ∧ r.handlerFor s = .ok entry.2) ss b := by
  induction ss generalizing b with
  | nil =>
    rw [bindStages, List.forall₂_nil_left_iff]
    exact ⟨fun h => by cases h; rfl, fun h => h ▸ rfl⟩
  | cons s ss ih =>
    rw [bindStages, except_bind_eq_ok, List.forall₂_cons_left_iff]
    constructor
    · rintro ⟨h, hfor, hrest⟩
      obtain ⟨rest, hbound, heq⟩ := except_bind_eq_ok.1 hrest
      cases heq
      exact ⟨_, _, ⟨rfl, hfor⟩, ih.1 hbound, rfl⟩
    · rintro ⟨⟨id, h⟩, rest, ⟨rfl, hfor⟩, hrest, rfl⟩
      exact ⟨h, hfor, except_bind_eq_ok.2 ⟨rest, ih.2 hrest, rfl⟩⟩

/-- Binding stops at the first stage that has no handler. -/
theorem bindStages_eq_error : r.bindStages ss = .error err ↔
    ∃ before s after, ss = before ++ s :: after ∧ (∀ t ∈ before, ∃ h, r.handlerFor t = .ok h) ∧
      r.handlerFor s = .error err := by
  induction ss with
  | nil => simp [bindStages]
  | cons s ss ih =>
    rw [bindStages]
    cases hfor : r.handlerFor s with
    | error err' =>
      show Except.error err' = Except.error err ↔ _
      constructor
      · intro herr
        cases herr
        exact ⟨[], s, ss, rfl, List.forall_mem_nil _, hfor⟩
      · rintro ⟨before, t, after, hsplit, hbefore, ht⟩
        rcases List.cons_eq_append_iff.1 hsplit with ⟨rfl, hrest⟩ | ⟨before, rfl, -⟩
        · cases hrest
          cases hfor.symm.trans ht
          rfl
        · obtain ⟨h, hok⟩ := hbefore s List.mem_cons_self
          cases hfor.symm.trans hok
    | ok h =>
      have hstep : (r.bindStages ss >>= fun rest => pure ((s.id, h) :: rest)) = .error err ↔
          r.bindStages ss = .error err := by
        cases r.bindStages ss with
        | error err' => rfl
        | ok rest => exact ⟨nofun, nofun⟩
      refine hstep.trans (ih.trans ⟨?_, ?_⟩)
      · rintro ⟨before, t, after, rfl, hbefore, ht⟩
        exact ⟨s :: before, t, after, rfl, List.forall_mem_cons.2 ⟨⟨h, hfor⟩, hbefore⟩, ht⟩
      · rintro ⟨before, t, after, hsplit, hbefore, ht⟩
        rcases List.cons_eq_append_iff.1 hsplit with ⟨rfl, hrest⟩ | ⟨before, rfl, hrest⟩
        · cases hrest
          cases hfor.symm.trans ht
        · exact ⟨before, t, after, hrest, (List.forall_mem_cons.1 hbefore).2, ht⟩

/-- The ids of stages are bound, in declared order. -/
theorem keys_of_bindStages (hb : r.bindStages ss = .ok b) :
    b.keys = ss.map StageDefinition.id := by
  have hids : List.Forall₂ (· = ·) b.keys (ss.map StageDefinition.id) := by
    rw [Entries.keys, List.forall₂_map_left_iff, List.forall₂_map_right_iff]
    exact ((bindStages_eq_ok.1 hb).imp fun _ _ hentry => hentry.1).flip
  rwa [List.forall₂_eq_eq_eq] at hids

/-- Every stage is bound to its handler. -/
theorem mem_of_bindStages (hb : r.bindStages ss = .ok b) (hs : s ∈ ss) :
    ∃ h, (s.id, h) ∈ b ∧ r.handlerFor s = .ok h := by
  have hall := bindStages_eq_ok.1 hb
  clear hb
  induction hall with
  | nil => cases hs
  | @cons t entry ss b hentry hrest ih =>
    obtain ⟨id, h⟩ := entry
    rcases List.mem_cons.1 hs with rfl | hs
    · obtain ⟨rfl, hfor⟩ := hentry
      exact ⟨h, List.mem_cons_self, hfor⟩
    · obtain ⟨h', hmem, hfor⟩ := ih hs
      exact ⟨h', List.mem_cons_of_mem _ hmem, hfor⟩

/-! ## The handlers of a graph -/

/-- What is bound to a graph: its stage ids, each to the handler of its stage. -/
structure Bound (rs : List Registration) (g : StageGraph) (b : Binding) : Prop where
  keys : b.keys = g.ids
  each : ∀ s ∈ g.stages, ∀ h, b.get? s.id = some h ↔ Binds rs s h

theorem get?_of_bind (hb : r.bind g = .ok b) (hs : s ∈ g.stages) :
    ∃ h, b.get? s.id = some h ∧ r.handlerFor s = .ok h := by
  obtain ⟨h, hmem, hfor⟩ := mem_of_bindStages hb hs
  have hdistinct : b.keys.Nodup := keys_of_bindStages hb ▸ g.distinct
  exact ⟨h, lookup_eq_some_of_mem hdistinct hmem, hfor⟩

theorem bound_of_bind (hb : (ofRegistrations rs).bind g = .ok b) : Bound rs g b where
  keys := keys_of_bindStages hb
  each s hs h := by
    obtain ⟨h', hget, hfor⟩ := get?_of_bind hb hs
    rw [← handlerFor_eq_ok, hfor, hget, Option.some_inj, Except.ok.injEq]

/-- The first of some stages that is not served. -/
def FirstUnserved (rs : List Registration) (ss : List StageDefinition) (s : StageDefinition) :
    Prop :=
  ∃ before after, ss = before ++ s :: after ∧ (∀ t ∈ before, Served rs t) ∧ ¬ Served rs s

theorem bind_eq_error : (ofRegistrations rs).bind g = .error err ↔
    ∃ s, FirstUnserved rs g.stages s ∧ err = unserved s := by
  simp only [bind, bindStages_eq_error, exists_handlerFor, handlerFor_eq_error]
  constructor
  · rintro ⟨before, s, after, hsplit, hserved, hn, rfl⟩
    exact ⟨s, ⟨before, after, hsplit, hserved, hn⟩, rfl⟩
  · rintro ⟨s, ⟨before, after, hsplit, hserved, hn⟩, rfl⟩
    exact ⟨before, s, after, hsplit, hserved, hn, rfl⟩

/-- A graph is bound exactly if all its stages are served. -/
theorem exists_bind :
    (∃ b, (ofRegistrations rs).bind g = .ok b) ↔ ∀ s ∈ g.stages, Served rs s := by
  constructor
  · rintro ⟨b, hb⟩ s hs
    obtain ⟨h, -, hfor⟩ := get?_of_bind hb hs
    exact exists_handlerFor.1 ⟨h, hfor⟩
  · intro hserved
    cases hb : (ofRegistrations rs).bind g with
    | ok b => exact ⟨b, rfl⟩
    | error err =>
      obtain ⟨s, ⟨before, after, hsplit, -, hn⟩, -⟩ := bind_eq_error.1 hb
      exact absurd (hserved s (by simp [hsplit])) hn

end HandlerRegistry

/-! ## Executors and runs -/

namespace Executor

variable {g : StageGraph} {r : HandlerRegistry} {e : Executor} {err : ConfigurationError}

/-- An executor that is made of a registry has what was bound. -/
theorem ofRegistry_ok (h : ofRegistry g r = .ok e) :
    e.graph = g ∧ r.bind g = .ok e.binding := by
  obtain ⟨b, hb, he⟩ := except_bind_eq_ok.1 h
  obtain ⟨hgraph, rfl⟩ := ofBinding_ok he
  exact ⟨hgraph, hb⟩

/-- Where binding fails there is no executor, for the same reason. Where it succeeds every stage is
bound, so there is one. -/
theorem ofRegistry_eq_error : ofRegistry g r = .error err ↔ r.bind g = .error err := by
  unfold ofRegistry
  cases hb : r.bind g with
  | error err' =>
    show Except.error err' = Except.error err ↔ _
    rw [Except.error.injEq, Except.error.injEq]
  | ok b =>
    obtain ⟨e, he⟩ := exists_ofBinding (g := g) (b := b) fun s hs => by
      obtain ⟨h, hget, -⟩ := HandlerRegistry.get?_of_bind hb hs
      exact Option.isSome_of_eq_some hget
    show ofBinding g b = .error err ↔ _
    rw [he]
    exact ⟨nofun, nofun⟩

theorem exists_ofRegistry : (∃ e, ofRegistry g r = .ok e) ↔ ∃ b, r.bind g = .ok b := by
  constructor
  · rintro ⟨e, he⟩
    exact ⟨e.binding, (ofRegistry_ok he).2⟩
  · rintro ⟨b, hb⟩
    cases he : ofRegistry g r with
    | ok e => exact ⟨e, rfl⟩
    | error err => cases hb.symm.trans (ofRegistry_eq_error.1 he)

variable {schedule : Schedule} {start : Timestamp} {payload : Json} {ctx : RunContext}

/-- The error of a run is that of a stage. -/
theorem failed_stage_of_run {err : EngineError}
    (h : (e.run schedule start payload ctx).result = .error err) :
    ∃ id failure, err = .stage id failure := by
  have hfin := e.finishes schedule start payload ctx
  generalize e.run schedule start payload ctx = report at hfin h
  cases hfin with
  | success reached idle all => cases h
  | failure reached taken answered =>
    cases h
    exact ⟨_, _, rfl⟩

/-- What a run dispatches is answered by the handler of its stage. -/
theorem answered_of_run {stages : List StageDefinition}
    (built : StageGraph.build stages = .ok e.graph) (bound : r.bind e.graph = .ok e.binding) :
    ∀ f ∈ (e.run schedule start payload ctx).flights,
      ∃ h, r.handlerFor f.stage = .ok h ∧ f.answer = h.answer f.input ctx := by
  intro f hf
  obtain ⟨n, p, hp, hflights⟩ := e.exists_flights schedule start payload ctx
  rw [hflights] at hf
  have hs : f.stage ∈ e.graph.stages := by
    obtain ⟨s, hs, hfs⟩ := hp.dispatched_declared built hf
    rw [hfs, StageGraph.stages_of_build built]
    exact List.mem_map_of_mem hs
  obtain ⟨h, hget, hfor⟩ := HandlerRegistry.get?_of_bind bound hs
  obtain ⟨-, answer, hanswer, hf⟩ := (hp.fed built).takes f hf
  rw [Dataflow.of_answer? hget] at hanswer
  cases hanswer
  exact ⟨h, hfor, hf⟩

end Executor

/-! ## Runs of definitions -/

section Runs

variable {stages : List StageDefinition} {schedule : Schedule} {start : Timestamp} {payload : Json}
  {ctx : RunContext} {r : HandlerRegistry} {report : RunReport}

/-- How a run of definitions comes about. -/
inductive Launched (stages : List StageDefinition) (schedule : Schedule) (start : Timestamp)
    (payload : Json) (ctx : RunContext) (r : HandlerRegistry) : RunReport → Prop
  /-- The stages are refused. -/
  | unfit {err : GraphError} (refused : StageGraph.build stages = .error err) :
    Launched stages schedule start payload ctx r (.refused (.graph err))
  /-- A stage cannot be served. -/
  | unbound {g : StageGraph} {err : ConfigurationError} (built : StageGraph.build stages = .ok g)
    (refused : r.bind g = .error err) :
    Launched stages schedule start payload ctx r (.refused (.configuration err))
  /-- Every stage is bound, and the graph is run. -/
  | run {e : Executor} (built : StageGraph.build stages = .ok e.graph)
    (bound : r.bind e.graph = .ok e.binding) :
    Launched stages schedule start payload ctx r (e.run schedule start payload ctx)

theorem launched_runDefinitions :
    Launched stages schedule start payload ctx r
      (runDefinitions stages schedule start payload ctx r) := by
  unfold runDefinitions
  split
  · next err refused => exact .unfit refused
  · next g built =>
    split
    · next err refused => exact .unbound built (Executor.ofRegistry_eq_error.1 refused)
    · next e he =>
      obtain ⟨rfl, bound⟩ := Executor.ofRegistry_ok he
      exact .run built bound

namespace Launched

theorem graph_error (h : Launched stages schedule start payload ctx r report) (err : GraphError) :
    report.result = .error (.graph err) ↔ StageGraph.build stages = .error err := by
  cases h with
  | unfit refused => simp [RunReport.refused, refused]
  | unbound built refused => simp [RunReport.refused, built]
  | run built bound =>
    rw [built]
    refine iff_of_false (fun h => ?_) nofun
    obtain ⟨id, failure, hstage⟩ := Executor.failed_stage_of_run h
    cases hstage

theorem configuration_error (h : Launched stages schedule start payload ctx r report)
    (err : ConfigurationError) : report.result = .error (.configuration err) ↔
      ∃ g, StageGraph.build stages = .ok g ∧ r.bind g = .error err := by
  cases h with
  | unfit refused => simp [RunReport.refused, refused]
  | unbound built refused => simp [RunReport.refused, built, refused]
  | run built bound =>
    refine iff_of_false (fun h => ?_) ?_
    · obtain ⟨id, failure, hstage⟩ := Executor.failed_stage_of_run h
      cases hstage
    · rintro ⟨g, hg, hn⟩
      cases built.symm.trans hg
      cases bound.symm.trans hn

/-- Nothing is dispatched and nothing said where the graph is not bound. -/
theorem idle_or_bound (h : Launched stages schedule start payload ctx r report) :
    (∃ g b, StageGraph.build stages = .ok g ∧ r.bind g = .ok b) ∨
      report.flights = [] ∧ report.journal = [] := by
  cases h with
  | unfit refused => exact .inr ⟨rfl, rfl⟩
  | unbound built refused => exact .inr ⟨rfl, rfl⟩
  | run built bound => exact .inl ⟨_, _, built, bound⟩

theorem answered (h : Launched stages schedule start payload ctx r report) :
    ∀ f ∈ report.flights, ∃ h, r.handlerFor f.stage = .ok h ∧ f.answer = h.answer f.input ctx := by
  cases h with
  | unfit refused => exact List.forall_mem_nil _
  | unbound built refused => exact List.forall_mem_nil _
  | run built bound => exact Executor.answered_of_run built bound

end Launched

end Runs

namespace HandlerRegistry

/-- **Binding is complete, goes by the kind of a stage, and comes before all work.** A registry
binds a graph exactly if every internal stage has a handler under its id and every plugin stage a
plugin under its plugin name. It then binds the ids of the graph and no others, each to what was
last registered for its stage, a plugin told the id of the stage. Otherwise the error is that of the
first stage in declared order that is not served, and names it. An executor is made exactly if the
graph is bound. A run of definitions gives the error of the graph, or else that of binding, and in
neither case is anything dispatched or said; whatever is dispatched is answered by the handler of
its stage. -/
theorem binding_exact (rs : List Registration) (g : StageGraph) :
    let r := ofRegistrations rs
    ((∃ b, r.bind g = .ok b) ↔ ∀ s ∈ g.stages, Served rs s) ∧
      (∀ b, r.bind g = .ok b → Bound rs g b) ∧
      (∀ err, r.bind g = .error err ↔ ∃ s, FirstUnserved rs g.stages s ∧ err = unserved s) ∧
      (∀ s, ("stage '" ++ s.id ++ "'").toList <:+: (unserved s).message.toList) ∧
      ((∃ e, Executor.ofRegistry g r = .ok e) ↔ ∀ s ∈ g.stages, Served rs s) ∧
      (∀ e, Executor.ofRegistry g r = .ok e → e.graph = g ∧ Bound rs g e.binding) ∧
      (∀ err, Executor.ofRegistry g r = .error err ↔ r.bind g = .error err) ∧
      ∀ stages schedule start payload ctx,
        let report := runDefinitions stages schedule start payload ctx r
        (∀ err, report.result = .error (.graph err) ↔ StageGraph.build stages = .error err) ∧
          (∀ err, report.result = .error (.configuration err) ↔
            ∃ g, StageGraph.build stages = .ok g ∧ r.bind g = .error err) ∧
          ((∃ g b, StageGraph.build stages = .ok g ∧ r.bind g = .ok b) ∨
            report.flights = [] ∧ report.journal = []) ∧
          ∀ f ∈ report.flights, ∃ h, Binds rs f.stage h ∧ f.answer = h.answer f.input ctx := by
  intro r
  refine ⟨exists_bind, fun b => bound_of_bind, fun err => bind_eq_error, names_unserved, ?_, ?_,
    fun err => Executor.ofRegistry_eq_error, ?_⟩
  · exact Executor.exists_ofRegistry.trans exists_bind
  · intro e he
    obtain ⟨rfl, hb⟩ := Executor.ofRegistry_ok he
    exact ⟨rfl, bound_of_bind hb⟩
  · intro stages schedule start payload ctx report
    have hlaunched : Launched stages schedule start payload ctx r report := launched_runDefinitions
    refine ⟨hlaunched.graph_error, hlaunched.configuration_error, hlaunched.idle_or_bound, ?_⟩
    intro f hf
    obtain ⟨h, hfor, hanswer⟩ := hlaunched.answered f hf
    exact ⟨h, handlerFor_eq_ok.1 hfor, hanswer⟩

/-- One plugin serves a stage by name and another by its id. A handler under the id of the first of
them plays no part, and what was registered first gives way. -/
theorem binding_exact_shared :
    let stages : List StageDefinition := [.internal "ingest", .ofPlugin "score" "models",
      ⟨"models", .plugin, none, ["ingest"]⟩]
    let rs : List Registration := [.handler "ingest" (.failing "old"),
      .plugin ⟨"models", fun _ => .failing "old"⟩, .handler "score" (.failing "not a plugin"),
      .plugin ⟨"models", fun id => .constant (.string id)⟩, .handler "ingest" .echo]
    ∃ g, StageGraph.build stages = .ok g ∧
      (∃ b, (ofRegistrations rs).bind g = .ok b ∧ b.keys = ["ingest", "score", "models"] ∧
        b.get? "ingest" = some .echo ∧ b.get? "score" = some (.constant (.string "score")) ∧
        b.get? "models" = some (.constant (.string "models"))) ∧
      (ofRegistrations (rs.take 1)).bind g =
        .error (.unregisteredStagePlugin "models" "score") := by
  intro stages rs
  have hok : (StageGraph.build stages).isOk = true := by decide +kernel
  cases hg : StageGraph.build stages with
  | error issues =>
    rw [hg] at hok
    cases hok
  | ok g =>
    have hstages : g.stages = stages := by
      rw [StageGraph.stages_of_build hg]
      decide
    refine ⟨g, rfl, ?_, ?_⟩
    · obtain ⟨hbind, hbound, -⟩ := binding_exact rs g
      have hserved : ∀ s ∈ g.stages, Served rs s := by
        rw [hstages]
        refine List.forall_mem_cons.2 ⟨⟨.failing "old", .head _⟩, ?_⟩
        refine List.forall_mem_cons.2 ⟨⟨_, .tail _ (.head _), rfl⟩, ?_⟩
        exact List.forall_mem_singleton.2 ⟨_, .tail _ (.head _), rfl⟩
      obtain ⟨b, hb⟩ := hbind.2 hserved
      obtain ⟨hkeys, heach⟩ := hbound b hb
      rw [StageGraph.ids, hstages] at hkeys
      rw [hstages] at heach
      refine ⟨b, hb, hkeys, (heach _ (.head _) _).2 ?_, (heach _ (.tail _ (.head _)) _).2 ?_,
        (heach _ (.tail _ (.tail _ (.head _))) _).2 ?_⟩
      · exact .internal rfl (rs.take 4) [] rfl fun _ => List.not_mem_nil
      · exact .plugin rfl (rs.take 3) (rs.drop 4) rfl rfl (by simp [rs])
      · exact .plugin rfl (rs.take 3) (rs.drop 4) rfl rfl (by simp [rs])
    · obtain ⟨-, -, herror, -⟩ := binding_exact (rs.take 1) g
      have hfirst : FirstUnserved (rs.take 1) g.stages (.ofPlugin "score" "models") := by
        refine ⟨[.internal "ingest"], _, hstages, ?_, ?_⟩
        · exact List.forall_mem_singleton.2 ⟨.failing "old", .head _⟩
        · rintro ⟨p, hp, -⟩
          simp [rs] at hp
      exact (herror _).2 ⟨_, hfirst, rfl⟩

end HandlerRegistry

end SignalPipeline
