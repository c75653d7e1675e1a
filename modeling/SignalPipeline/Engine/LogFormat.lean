import SignalPipeline.Engine.ConfigurationError
import SignalPipeline.Json.Reader
import SignalPipeline.Text.Blank

/-!
# Log formats

How log lines are written. A setting names a format in any case and with blanks around it; a
document only by its exact name.

* `LogFormat.parse`: the format that a setting names.
-/

namespace SignalPipeline

/-- How log lines are written. -/
inductive LogFormat where
  /-- Lines for people. -/
  | plain
  /-- One JSON object a line. -/
  | json
  deriving Repr, DecidableEq

namespace LogFormat

instance : Inhabited LogFormat := ⟨.plain⟩

/-- The name of a format. -/
def name : LogFormat → String
  | plain => "plain"
  | json => "json"

/-- The format with a name. -/
def ofName? : String → Option LogFormat
  | "plain" => some plain
  | "json" => some json
  | _ => none

/-- Reads a format. -/
def read : Reader LogFormat := Read.oneOf "a log format" ofName?

/-- A text without blanks at its ends and without capitals. -/
def normalize (s : String) : String :=
  String.ofList ((Text.trimChars s.toList).map Char.toLower)

/-- The format that the text of a setting names. The setting is blamed for any other text. -/
def parse (setting s : String) : Except ConfigurationError LogFormat :=
  match normalize s with
  | "plain" => .ok plain
  | "text" => .ok plain
  | "json" => .ok json
  | other => .error (.unsupportedLogFormat setting other)

/-- The setting that is blamed where none is named. -/
def defaultSetting : String := "log_format"

end LogFormat

end SignalPipeline
