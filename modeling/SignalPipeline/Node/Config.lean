import SignalPipeline.Engine.ConfigurationError
import SignalPipeline.Json.Reader
import SignalPipeline.Text.Blank

/-!
# Node configurations

A node as a pipeline state declares it. A declaration is kept as it was written, with blank or
unknown parts, so that the check can name the field at fault.

* `NodeConfig.check`: the type of a well-formed node, or the first field at fault.
* `NodeConfig.read`, `NodeConfig.toJson`: the record in documents.
-/

namespace SignalPipeline

/-- The part that a node plays for a signal. -/
inductive NodeType where
  /-- It has to succeed before a signal is scored. -/
  | required
  /-- It adds data. -/
  | enrichment
  /-- It prepares the signal as it came in. -/
  | ingress
  deriving Repr, DecidableEq

namespace NodeType

/-- The name of a type. -/
def name : NodeType → String
  | required => "required"
  | enrichment => "enrichment"
  | ingress => "ingress"

/-- The type with a name. -/
def ofName? : String → Option NodeType
  | "required" => some required
  | "enrichment" => some enrichment
  | "ingress" => some ingress
  | _ => none

/-- Reads a type. -/
def read : Reader NodeType := Read.oneOf "a node type" ofName?

theorem ofName?_name (t : NodeType) : ofName? t.name = some t := by
  cases t <;> rfl

end NodeType

/-- A declared node. -/
structure NodeConfig where
  id : String
  /-- The name of the type. -/
  type : String
  /-- The name under which the node is registered. -/
  plugin : String
  /-- A hint only: nodes run one at a time. -/
  parallel : Bool
  /-- Whether the node runs; a well-formed node says so. -/
  enabled : Option Bool
  /-- The nodes that have to come first, in declared order. -/
  dependencies : List String
  deriving Repr, DecidableEq

namespace NodeConfig

/-- An enabled node without dependencies. -/
def ofType (id : String) (type : NodeType) (plugin : String) : NodeConfig :=
  ⟨id, type.name, plugin, false, some true, []⟩

/-- The node with one more dependency. -/
def addDependency (c : NodeConfig) (dependency : String) : NodeConfig :=
  { c with dependencies := c.dependencies ++ [dependency] }

/-- The node, enabled or disabled. -/
def withEnabled (c : NodeConfig) (enabled : Bool) : NodeConfig :=
  { c with enabled := some enabled }

/-- The node with or without the hint that it may run beside others. -/
def withParallel (c : NodeConfig) (parallel : Bool) : NodeConfig :=
  { c with parallel := parallel }

/-- Whether a node runs; one that does not say so does not. -/
def isEnabled (c : NodeConfig) : Bool :=
  c.enabled.getD false

/-- The owner that an error names for a node without an id. -/
def unnamed : String := "<unnamed>"

/-- The type of a well-formed node, or the first of its fields at fault: id, type, plugin, and
whether it is enabled. -/
def check (c : NodeConfig) : Except ConfigurationError NodeType :=
  if Text.isBlankText c.id then .error (.missingField unnamed "id")
  else match NodeType.ofName? c.type with
    | none => .error (.invalidValue c.id "type" c.type)
    | some type =>
      if Text.isBlankText c.plugin then .error (.missingField c.id "plugin")
      else if c.enabled.isNone then .error (.missingField c.id "enabled")
      else .ok type

/-- The fields of the record. -/
def fields : List Field :=
  [⟨"id", []⟩, ⟨"type", []⟩, ⟨"plugin", []⟩, ⟨"parallel", []⟩, ⟨"enabled", []⟩,
    ⟨"dependencies", ["dependsOn"]⟩]

/-- Reads a node. -/
def read : Reader NodeConfig := fun d => do
  let slots ← Read.record "a node" fields d
  pure {
    id := ← slots.defaulted "id" Read.string ""
    type := ← slots.defaulted "type" Read.string ""
    plugin := ← slots.defaulted "plugin" Read.string ""
    parallel := ← slots.defaulted "parallel" Read.bool false
    enabled := ← slots.optional "enabled" Read.bool
    dependencies := ← slots.defaulted "dependencies" Read.strings [] }

/-- The record of a node. -/
def toJson (c : NodeConfig) : Json :=
  .object [("id", .string c.id), ("type", .string c.type), ("plugin", .string c.plugin),
    ("parallel", .bool c.parallel), ("enabled", c.enabled.elim .null .bool),
    ("dependencies", .ofStrings c.dependencies)]

end NodeConfig

end SignalPipeline
