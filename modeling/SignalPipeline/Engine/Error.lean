import SignalPipeline.Engine.ConfigurationError
import SignalPipeline.Graph.Issue
import SignalPipeline.Text.Debug

/-!
# Errors of the engine

The errors that the engine reports, and the failures that handlers, nodes and pipelines report to
it. A failure keeps everything that was said about it: a cause, and around it the contexts added on
the way.

* `EngineError.message`: the text of an error. A failed stage speaks with its own words.
* `Failure.chain`: a failure in words, from the outermost context to the cause.
* `Failure.engine?`: the error of the engine inside a failure, if its cause is one.
-/

namespace SignalPipeline

/-- Why a store of signals fails. -/
inductive StoreError where
  /-- The store cannot be opened or reached. -/
  | unavailable (reason : String)
  /-- A record of the store cannot be read. -/
  | malformed (place : String)
  deriving Repr, DecidableEq

/-- The text of an error of a store. -/
def StoreError.message : StoreError → String
  | unavailable reason => s!"signal store unavailable: {reason}"
  | malformed place => s!"stored snapshot is malformed: {place}"

/-- A provider of predictions that gave none. -/
structure ProviderError where
  provider : String
  reason : String
  deriving Repr, DecidableEq

/-- The text of a provider's error. -/
def ProviderError.message (e : ProviderError) : String :=
  s!"Provider '{e.provider}' unavailable: {e.reason}"

/-- Rules that a pipeline state breaks. -/
structure InvariantError where
  violations : List String
  deriving Repr, DecidableEq

/-- The text of an error with the rules broken. -/
def InvariantError.message (e : InvariantError) : String :=
  "State invariant violated: " ++ "; ".intercalate e.violations

mutual

/-- What a handler, a node or a pipeline reports when it fails. -/
inductive Failure where
  /-- A failure with a text of its own. -/
  | message (text : String)
  /-- A handler that broke off instead of answering. -/
  | panic (text : String)
  /-- A payload that is not the record it should be. -/
  | decoding (error : ReadError)
  /-- An error of the engine. -/
  | engine (error : EngineError)
  /-- A failure in the context of a larger task. -/
  | context (text : String) (inner : Failure)

/-- An error of the engine. -/
inductive EngineError where
  /-- A list of stages is refused. -/
  | graph (error : GraphError)
  /-- A stage or node failed. -/
  | stage (id : String) (failure : Failure)
  /-- The configuration is at fault. -/
  | configuration (error : ConfigurationError)
  /-- A state breaks a rule. -/
  | invariant (error : InvariantError)
  /-- A store failed. -/
  | store (error : StoreError)
  /-- A record cannot be read or written. -/
  | serialization (detail : String)
  /-- The engine contradicts itself. -/
  | internal (detail : String)

end

/-- The words for a handler that broke off. The letter stands for the number of its task. -/
def panicText (text : String) : String :=
  "stage task did not complete: task N panicked with message " ++ Text.debugQuote text

mutual

/-- The outermost words of a failure. -/
def Failure.text : Failure → String
  | .message text => text
  | .panic text => panicText text
  | .decoding e => e.message
  | .engine e => e.message
  | .context text _ => text

/-- The text of an error. -/
def EngineError.message : EngineError → String
  | .graph e => e.message
  | .stage _ failure => failure.text
  | .configuration e => e.message
  | .invariant e => e.message
  | .store e => e.message
  | .serialization detail => s!"Serialization error: {detail}"
  | .internal detail => s!"Internal error: {detail}"

end

/-- What lies behind an error of the engine: an error of another module says the same once more. -/
def EngineError.causes : EngineError → List String
  | .graph e => [e.message]
  | .configuration e => [e.message]
  | .invariant e => [e.message]
  | .store e => [e.message]
  | _ => []

/-- A failure in words, from the outermost context to the cause. -/
def Failure.chain : Failure → List String
  | .context text inner => text :: inner.chain
  | .engine e => e.message :: e.causes
  | f => [f.text]

/-- The innermost words of a failure. -/
def Failure.rootCause (f : Failure) : String :=
  f.chain.getLastD f.text

/-- The error of the engine that a failure is about, whatever contexts surround it. -/
def Failure.engine? : Failure → Option EngineError
  | .context _ inner => inner.engine?
  | .engine e => some e
  | _ => none

/-- Whether a failure is a payload that could not be read. -/
def Failure.isDecoding : Failure → Bool
  | .context _ inner => inner.isDecoding
  | .decoding _ => true
  | _ => false

/-- A failure inside further contexts, the last one outermost. -/
def Failure.within (f : Failure) (contexts : List String) : Failure :=
  contexts.foldl (fun f text => .context text f) f

end SignalPipeline
