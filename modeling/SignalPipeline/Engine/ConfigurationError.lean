import SignalPipeline.Decimal.Whole

/-!
# Configuration errors

Malformed settings, malformed nodes, and collaborators that were never supplied: everything that is
found before any work starts.

* `ConfigurationError.field`: the field, variable or collaborator at fault.
* `ConfigurationError.detail`, `ConfigurationError.message`: the text, without and with the words
  that introduce it.
-/

namespace SignalPipeline

/-- A fault in the configuration. -/
inductive ConfigurationError where
  /-- A node lacks a field or has a blank one. -/
  | missingField (owner field : String)
  /-- A field of a node has a value that is not allowed. -/
  | invalidValue (owner field value : String)
  /-- A collaborator was never supplied. -/
  | missingCollaborator (name : String)
  /-- A node depends on an id that no node has. -/
  | unknownNode (node dependency : String)
  /-- Nodes depend on each other in a circle. -/
  | nodeCycle (path : List String)
  /-- A node names a plugin that is not registered. -/
  | unregisteredNodePlugin (node plugin : String)
  /-- An internal stage has no handler in the registry. -/
  | unregisteredHandler (stage : String)
  /-- A plugin stage names a plugin that is not registered. -/
  | unregisteredStagePlugin (plugin stage : String)
  /-- A stage of a graph has no handler bound to it. -/
  | unboundStage (stage : String)
  /-- The store of a replay cannot be reached. -/
  | storeUnavailable (reason : String)
  /-- A cap that admits no stage. -/
  | capTooSmall (setting : String)
  /-- A tolerance that is no number from zero up. -/
  | invalidTolerance (setting shown : String)
  /-- A variable whose text cannot be read. -/
  | unreadableSetting (setting raw : String) (reason : NumeralError)
  /-- A name that is no log format; the setting is the place where it was given. -/
  | unsupportedLogFormat (setting name : String)
  /-- A document of settings that cannot be read. -/
  | unreadableDocument
  /-- Any other fault. -/
  | other (field detail : String)
  deriving Repr, DecidableEq

namespace ConfigurationError

/-- The name under which a replay looks for its store. -/
def storeName : String := "signal store"

/-- The field, variable or collaborator at fault. -/
def field : ConfigurationError → String
  | missingField _ field => field
  | invalidValue _ field _ => field
  | missingCollaborator name => name
  | unknownNode _ _ => "dependencies"
  | nodeCycle _ => "dependencies"
  | unregisteredNodePlugin _ plugin => plugin
  | unregisteredHandler stage => stage
  | unregisteredStagePlugin plugin _ => plugin
  | unboundStage stage => stage
  | storeUnavailable _ => storeName
  | capTooSmall setting => setting
  | invalidTolerance setting _ => setting
  | unreadableSetting setting _ _ => setting
  | unsupportedLogFormat setting _ => setting
  | unreadableDocument => "config"
  | other field _ => field

/-- The fault in words. -/
def detail : ConfigurationError → String
  | missingField owner field => s!"node '{owner}' is missing required field '{field}'"
  | invalidValue owner field value =>
    s!"node '{owner}' has invalid value '{value}' for field '{field}'"
  | missingCollaborator name => s!"required collaborator '{name}' is not configured"
  | unknownNode node dependency => s!"node '{node}' depends on unknown node '{dependency}'"
  | nodeCycle path => "Circular dependency detected: " ++ " -> ".intercalate path
  | unregisteredNodePlugin node plugin =>
    s!"node '{node}' uses plugin '{plugin}' which is not registered"
  | unregisteredHandler stage => s!"no handler registered for internal stage '{stage}'"
  | unregisteredStagePlugin plugin stage =>
    s!"plugin '{plugin}' required by stage '{stage}' is not registered"
  | unboundStage stage => s!"no handler bound to stage '{stage}'"
  | storeUnavailable reason => s!"signal store unavailable: {reason}"
  | capTooSmall setting => s!"{setting} must be at least 1"
  | invalidTolerance setting shown => s!"{setting} must be a non-negative number, got {shown}"
  | unreadableSetting setting raw reason =>
    s!"{setting} has invalid value '{raw}': {reason.message}"
  | unsupportedLogFormat _ name =>
    s!"unsupported log format '{name}', expected 'plain' or 'json'"
  | unreadableDocument => "invalid engine config"
  | other _ detail => detail

/-- The text of the error. -/
def message (e : ConfigurationError) : String :=
  "Configuration error: " ++ e.detail

end ConfigurationError

end SignalPipeline
