import SignalPipeline.Engine.Error
import SignalPipeline.Json.Printer
import SignalPipeline.Node.Enrichment
import SignalPipeline.Node.Trace

/-!
# Pipeline states

Everything known about a signal on its way through the nodes. A state can be written out as a
checkpoint and taken up again.

* `PipelineState.text`, `PipelineState.indentedText`: the checkpoint of a state.
* `PipelineState.ofText?`: the state of a checkpoint.
-/

namespace SignalPipeline

/-- The record of a signal in flight. -/
structure PipelineState where
  signalId : String
  /-- The signal as it came in. -/
  rawSignal : Json
  results : Enrichment
  /-- The declared nodes, in declared order. -/
  nodes : List NodeConfig
  /-- The node at work. -/
  currentNode : Option String
  /-- When the state was created. -/
  startTime : Timestamp
  /-- Executions of nodes, in the order of their ends. -/
  trace : List TraceEntry
  deriving BEq

namespace PipelineState

/-- The state of a signal before any node has run. -/
def fresh (signalId : String) (rawSignal : Json) (nodes : List NodeConfig)
    (startTime : Timestamp) : PipelineState :=
  ⟨signalId, rawSignal, [], nodes, none, startTime, []⟩

/-- The state with a result, new or in place of an older one. -/
def setResult (s : PipelineState) (key : String) (value : Json) : PipelineState :=
  { s with results := s.results.put key value }

/-- The result with a key. -/
def result? (s : PipelineState) (key : String) : Option Json :=
  s.results.get? key

/-- The state with one more execution. -/
def addTrace (s : PipelineState) (e : TraceEntry) : PipelineState :=
  { s with trace := s.trace ++ [e] }

/-- Whether the executions are those of given nodes with given statuses, in order. -/
def traceIs (s : PipelineState) (expected : List (String × TraceStatus)) : Bool :=
  s.trace.map (fun e => (e.nodeId, e.status)) == expected

/-! ## Checkpoints -/

/-- The record of creation time and executions. -/
def metadataJson (s : PipelineState) : Json :=
  .object [("startTime", s.startTime.toJson), ("trace", .array (s.trace.map TraceEntry.toJson))]

/-- The record of a state. -/
def toJson (s : PipelineState) : Json :=
  .object <|
    [("signalId", .string s.signalId), ("rawSignal", s.rawSignal),
      ("enrichmentResults", s.results.toJson), ("nodeConfigs", .array (s.nodes.map (·.toJson)))] ++
    (s.currentNode.map fun id => ("currentNode", Json.string id)).toList ++
    [("metadata", s.metadataJson)]

/-- Reads creation time and executions. -/
def readMetadata : Reader (Timestamp × List TraceEntry) := fun d => do
  let slots ← Read.record "state metadata" [⟨"startTime", []⟩, ⟨"trace", []⟩] d
  pure (← slots.required "startTime" Timestamp.read,
    ← slots.defaulted "trace" (Read.list TraceEntry.read) [])

/-- The fields of the record. -/
def fields : List Field :=
  [⟨"signalId", []⟩, ⟨"rawSignal", []⟩, ⟨"enrichmentResults", []⟩, ⟨"nodeConfigs", []⟩,
    ⟨"currentNode", []⟩, ⟨"metadata", []⟩]

/-- Reads a state. -/
def read : Reader PipelineState := fun d => do
  let slots ← Read.record "a pipeline state" fields d
  let signalId ← slots.required "signalId" Read.string
  let rawSignal ← slots.defaulted "rawSignal" Read.value .null
  let results ← slots.defaulted "enrichmentResults" Enrichment.read []
  let nodes ← slots.defaulted "nodeConfigs" (Read.list NodeConfig.read) []
  let currentNode ← slots.optional "currentNode" Read.string
  let (startTime, trace) ← slots.required "metadata" readMetadata
  pure ⟨signalId, rawSignal, results, nodes, currentNode, startTime, trace⟩

/-- The checkpoint of a state. -/
def text (s : PipelineState) : String :=
  s.toJson.compact

/-- The checkpoint of a state with one member a line. -/
def indentedText (s : PipelineState) : String :=
  s.toJson.indented

/-- The state of a checkpoint. -/
def ofText? (checkpoint : String) : Option PipelineState :=
  Reader.text? read checkpoint

/-- The state of a checkpoint, or the error of the engine. -/
def ofText (checkpoint : String) : Except EngineError PipelineState :=
  match ofText? checkpoint with
  | some s => .ok s
  | none => .error (.serialization "malformed pipeline state")

end PipelineState

end SignalPipeline
