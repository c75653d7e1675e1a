import SignalPipeline.Json.Reader

/-!
# Stage definitions

A stage as the author of a pipeline declares it: an id, the kind of handler that serves it, and the
stages whose output it takes.

* `StageDefinition.read`, `StageDefinition.toJson`: the record in documents.
* `StageDefinition.pluginName`: the name under which a plugin stage finds its plugin.
-/

namespace SignalPipeline

/-- What serves a stage. -/
inductive StageKind where
  /-- A handler registered under the stage id. -/
  | internal
  /-- A plugin registered under the plugin name. -/
  | plugin
  deriving Repr, DecidableEq

namespace StageKind

instance : Inhabited StageKind := ⟨.internal⟩

/-- The name of a kind. -/
def name : StageKind → String
  | internal => "internal"
  | plugin => "plugin"

/-- The kind with a name. -/
def ofName? : String → Option StageKind
  | "internal" => some internal
  | "plugin" => some plugin
  | _ => none

/-- Reads a kind. -/
def read : Reader StageKind := Read.oneOf "a stage kind" ofName?

end StageKind

/-- One declared stage. -/
structure StageDefinition where
  id : String
  kind : StageKind
  /-- The plugin name, where it is not the id. -/
  plugin : Option String
  /-- The stages whose output this stage takes, in declared order. -/
  dependsOn : List String
  deriving Repr, DecidableEq

namespace StageDefinition

/-- A stage served by a handler under its id. -/
def internal (id : String) : StageDefinition :=
  ⟨id, .internal, none, []⟩

/-- A stage served by a named plugin. -/
def ofPlugin (id plugin : String) : StageDefinition :=
  ⟨id, .plugin, some plugin, []⟩

/-- The stage with one more dependency. -/
def addDependency (s : StageDefinition) (dependency : String) : StageDefinition :=
  { s with dependsOn := s.dependsOn ++ [dependency] }

/-- The stage with other dependencies. -/
def withDependencies (s : StageDefinition) (dependencies : List String) : StageDefinition :=
  { s with dependsOn := dependencies }

/-- The plugin name; the id where none is given. -/
def pluginName (s : StageDefinition) : String :=
  s.plugin.getD s.id

/-- Whether a stage takes the payload of the run. -/
def isRoot (s : StageDefinition) : Bool :=
  s.dependsOn.isEmpty

/-- The fields of the record. -/
def fields : List Field :=
  [⟨"id", []⟩, ⟨"kind", []⟩, ⟨"plugin", []⟩, ⟨"dependsOn", ["dependencies"]⟩]

/-- Reads a stage. -/
def read : Reader StageDefinition := fun d => do
  let slots ← Read.record "a stage definition" fields d
  pure {
    id := ← slots.required "id" Read.string
    kind := ← slots.defaulted "kind" StageKind.read .internal
    plugin := ← slots.optional "plugin" Read.string
    dependsOn := ← slots.defaulted "dependsOn" Read.strings [] }

/-- The record of a stage. -/
def toJson (s : StageDefinition) : Json :=
  .object <|
    [("id", .string s.id), ("kind", .string s.kind.name)] ++
    (s.plugin.map fun p => ("plugin", Json.string p)).toList ++
    [("dependsOn", .ofStrings s.dependsOn)]

end StageDefinition

end SignalPipeline
