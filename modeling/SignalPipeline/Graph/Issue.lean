import SignalPipeline.Json.Reader

/-!
# Issues of stage lists

What can be wrong with a list of stages, with a code, a text and a hint for each kind of issue, and
the error that carries the issues found.

* `GraphIssue.text`, `GraphIssue.code`: an issue in words, and the code of its kind.
* `GraphError.message`: the text of an error.
* `ErrorInfo`: code, summary and hint of an error as a record.
-/

namespace SignalPipeline

/-- Something wrong with a list of stages. -/
inductive GraphIssue where
  /-- Several stages have the same id. -/
  | duplicateStage (id : String)
  /-- A stage depends on an id that no stage has. -/
  | unknownDependency (stage dependency : String)
  /-- Stages depend on each other in a circle; the first id is repeated at the end. -/
  | cycle (path : List String)
  /-- There is no stage. -/
  | empty
  deriving Repr, DecidableEq

/-- The hint that belongs to a code. -/
def hintFor? : String → Option String
  | "GRAPH-001-DUPLICATE" =>
    some "Every stage needs a unique id. Rename one of the stages sharing the id."
  | "GRAPH-002-UNKNOWN_DEP" =>
    some <| "Ensure all dependsOn entries reference stages declared in the same pipeline. " ++
      "Check for typos in stage ids."
  | "GRAPH-003-CYCLE" => some "Remove one of the dependencies in the cycle to break it."
  | "GRAPH-004-EMPTY" => some "Declare at least one stage before building the graph."
  | _ => none

namespace GraphIssue

/-- The code of a kind of issue. -/
def code : GraphIssue → String
  | duplicateStage _ => "GRAPH-001-DUPLICATE"
  | unknownDependency _ _ => "GRAPH-002-UNKNOWN_DEP"
  | cycle _ => "GRAPH-003-CYCLE"
  | empty => "GRAPH-004-EMPTY"

/-- The stage ids that an issue names. -/
def stages : GraphIssue → List String
  | duplicateStage id => [id]
  | unknownDependency stage dependency => [stage, dependency]
  | cycle path => path
  | empty => []

/-- The issue in words. -/
def text : GraphIssue → String
  | duplicateStage id => s!"duplicate stage id '{id}'"
  | unknownDependency stage dependency =>
    s!"stage '{stage}' depends on unknown stage id '{dependency}'"
  | cycle path => "dependency cycle detected: " ++ " -> ".intercalate path
  | empty => "pipeline has no stages"

/-- Whether an issue is a cycle. -/
def isCycle : GraphIssue → Bool
  | cycle _ => true
  | _ => false

/-- The record of an issue, told apart by its member `type`. -/
def toJson : GraphIssue → Json
  | duplicateStage id => .object [("type", .string "duplicate_stage_id"), ("id", .string id)]
  | unknownDependency stage dependency =>
    .object [("type", .string "unknown_dependency"), ("stage", .string stage),
      ("dependency", .string dependency)]
  | cycle path => .object [("type", .string "cycle"), ("path", .ofStrings path)]
  | empty => .object [("type", .string "empty")]

/-- Reads the fields of an issue of a type. -/
def readAs (type : String) (d : Document) : Except ReadError GraphIssue := do
  match type with
  | "duplicate_stage_id" =>
    let slots ← Read.record "a duplicate stage id" [⟨"id", []⟩] d
    pure (duplicateStage (← slots.required "id" Read.string))
  | "unknown_dependency" =>
    let slots ← Read.record "an unknown dependency" [⟨"stage", []⟩, ⟨"dependency", []⟩] d
    pure (unknownDependency (← slots.required "stage" Read.string)
      (← slots.required "dependency" Read.string))
  | "cycle" =>
    let slots ← Read.record "a cycle" [⟨"path", []⟩] d
    pure (cycle (← slots.required "path" Read.strings))
  | "empty" =>
    let _ ← Read.record "an empty list" [] d
    pure empty
  | _ => throw (.unknownName type "a graph issue")

/-- Reads an issue: an object with a member `type`, or an array that starts with the type. -/
def read : Reader GraphIssue
  | .array (type :: items) => do readAs (← Read.string type) (.array items)
  | d => do
    let slots ← Read.recordObject "a graph issue" [⟨"type", []⟩] d
    readAs (← slots.required "type" Read.string) d

end GraphIssue

/-- Code, summary and hint of an error, with further details. -/
structure ErrorInfo where
  code : String
  summary : String
  hint : Option String
  /-- Details with ascending keys. -/
  context : List (String × String)
  deriving Repr, DecidableEq

namespace ErrorInfo

/-- No information. -/
def none : ErrorInfo := ⟨"", "", .none, []⟩

/-- The information for a code, with the hint that belongs to it. -/
def ofCode (code summary : String) : ErrorInfo :=
  ⟨code, summary, hintFor? code, []⟩

/-- The information with one more detail. -/
def addContext (info : ErrorInfo) (key value : String) : ErrorInfo :=
  { info with context := insertMember key value info.context }

/-- The fields of the record. -/
def fields : List Field :=
  [⟨"code", []⟩, ⟨"summary", []⟩, ⟨"fix_hint", []⟩, ⟨"context", []⟩]

/-- Reads the information; an array has to list the hint, though it may be null. -/
def read : Reader ErrorInfo := fun d => do
  let slots ← Read.recordListing 3 "error information" fields d
  pure {
    code := ← slots.required "code" Read.string
    summary := ← slots.required "summary" Read.string
    hint := ← slots.optional "fix_hint" Read.string
    context := ← slots.defaulted "context" (Read.members Read.string) [] }

/-- The record of the information. -/
def toJson (info : ErrorInfo) : Json :=
  .object [("code", .string info.code), ("summary", .string info.summary),
    ("fix_hint", .ofString? info.hint),
    ("context", .object (info.context.map fun (k, v) => (k, .string v)))]

end ErrorInfo

/-- The issues for which a list of stages is refused. -/
structure GraphError where
  issues : List GraphIssue
  deriving Repr, DecidableEq

namespace GraphError

/-- Every issue in words. -/
def summary (e : GraphError) : String :=
  "; ".intercalate (e.issues.map GraphIssue.text)

/-- The text of the error. -/
def message (e : GraphError) : String :=
  "Graph definition error: " ++ e.summary

/-- The information on the first issue. -/
def info (e : GraphError) : ErrorInfo :=
  match e.issues with
  | [] => .none
  | issue :: _ =>
    (ErrorInfo.ofCode issue.code issue.text).addContext "stages" (",".intercalate issue.stages)

/-- The stage ids that the issues name. -/
def stages (e : GraphError) : List String :=
  e.issues.flatMap GraphIssue.stages

/-- Whether a cycle is among the issues. -/
def hasCycle (e : GraphError) : Bool :=
  e.issues.any GraphIssue.isCycle

end GraphError

end SignalPipeline
