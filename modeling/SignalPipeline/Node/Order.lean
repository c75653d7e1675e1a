import SignalPipeline.Graph.Cycle
import SignalPipeline.Node.Config

/-!
# The order of nodes

Enabled nodes run in the stable topological order of their dependencies. A dependency on a disabled
node is no reason to wait; one on an id that no node has is an error, also of a disabled node.

* `executionOrder`: the ids of the enabled nodes in order.
-/

namespace SignalPipeline

/-- The first dependency of a node on an id that is not declared. -/
def NodeConfig.unknown? (declared : List String) (c : NodeConfig) :
    Option ConfigurationError :=
  (c.dependencies.find? fun d => !declared.contains d).map (.unknownNode c.id)

/-- A node as a vertex. -/
def NodeConfig.vertex (c : NodeConfig) : Vertex :=
  ⟨c.id, c.dependencies⟩

/-- The ids of the enabled nodes in stable topological order. -/
def executionOrder (configs : List NodeConfig) : Except ConfigurationError (List String) :=
  match configs.findSome? (NodeConfig.unknown? (configs.map NodeConfig.id)) with
  | some e => .error e
  | none =>
    let vertices := (configs.filter NodeConfig.isEnabled).map NodeConfig.vertex
    match stableOrder? vertices with
    | .ok order => .ok order
    | .error left => .error (.nodeCycle ((findCycle? vertices left).getD left))

end SignalPipeline
