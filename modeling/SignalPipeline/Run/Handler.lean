import SignalPipeline.Engine.Error
import SignalPipeline.Graph.StageGraph
import SignalPipeline.Run.Context

/-!
# Handlers and their binding

A handler answers a payload: with another payload, with a failure, or by breaking off. A registry
holds handlers by stage id and plugins by name; binding a graph chooses for every stage, by its
kind, where its handler comes from.

* `HandlerRegistry.bind`: the handlers of a graph, or the first stage that cannot be served.
-/

namespace SignalPipeline

/-- What a handler answers. -/
inductive Answer where
  | payload (v : Json)
  | failure (f : Failure)
  /-- The handler broke off with a message. -/
  | panic (message : String)

/-- The payload of an answer, or the failure that it amounts to. -/
def Answer.result : Answer → Except Failure Json
  | payload v => .ok v
  | failure f => .error f
  | panic message => .error (.panic message)

theorem Answer.result_eq_ok {a : Answer} {v : Json} : a.result = .ok v ↔ a = .payload v := by
  cases a <;> simp [result]

theorem Answer.result_eq_error {a : Answer} {f : Failure} :
    a.result = .error f ↔ a = .failure f ∨ ∃ message, a = .panic message ∧ f = .panic message := by
  cases a <;> simp [result, eq_comm]

/-- A unit of work: a function of payload and context that takes some milliseconds. -/
structure Handler where
  answer : Json → RunContext → Answer
  delay : Nat := 0

namespace Handler

/-- A handler that passes its payload on. -/
def echo : Handler :=
  ⟨fun v _ => .payload v, 0⟩

/-- A handler with one answer for everything. -/
def constant (v : Json) : Handler :=
  ⟨fun _ _ => .payload v, 0⟩

/-- A handler that always fails. -/
def failing (message : String) : Handler :=
  ⟨fun _ _ => .failure (.message message), 0⟩

/-- A handler that takes so many milliseconds. -/
def taking (ms : Nat) (h : Handler) : Handler :=
  { h with delay := ms }

end Handler

/-- A module outside the process that serves stages under a name; it is told the stage's id. -/
structure Plugin where
  name : String
  serve : String → Handler

/-- Handlers by stage id and plugins by name. -/
structure HandlerRegistry where
  handlers : Entries Handler := []
  plugins : Entries Plugin := []

/-- The handlers bound to stages, by stage id. -/
abbrev Binding := Entries Handler

namespace HandlerRegistry

/-- A registry without entries. -/
def empty : HandlerRegistry := {}

/-- The registry with a handler for a stage id, in place of one registered before. -/
def withHandler (r : HandlerRegistry) (stage : String) (h : Handler) : HandlerRegistry :=
  { r with handlers := r.handlers.put stage h }

/-- The registry with a plugin under its name, in place of one registered before. -/
def withPlugin (r : HandlerRegistry) (p : Plugin) : HandlerRegistry :=
  { r with plugins := r.plugins.put p.name p }

/-- The number of handlers and plugins. -/
def size (r : HandlerRegistry) : Nat :=
  r.handlers.length + r.plugins.length

/-- The handler of a stage, chosen by its kind. -/
def handlerFor (r : HandlerRegistry) (s : StageDefinition) : Except ConfigurationError Handler :=
  match s.kind with
  | .internal =>
    match r.handlers.get? s.id with
    | some h => .ok h
    | none => .error (.unregisteredHandler s.id)
  | .plugin =>
    match r.plugins.get? s.pluginName with
    | some p => .ok (p.serve s.id)
    | none => .error (.unregisteredStagePlugin s.pluginName s.id)

/-- The handlers of stages, or the error of the first stage that cannot be served. -/
def bindStages (r : HandlerRegistry) : List StageDefinition → Except ConfigurationError Binding
  | [] => .ok []
  | s :: ss => do
    let h ← r.handlerFor s
    let rest ← r.bindStages ss
    pure ((s.id, h) :: rest)

/-- The handlers of a graph, or the error of the first stage that cannot be served. -/
def bind (r : HandlerRegistry) (g : StageGraph) : Except ConfigurationError Binding :=
  r.bindStages g.stages

end HandlerRegistry

end SignalPipeline
