import SignalPipeline.Decimal.Format
import SignalPipeline.Engine.LogFormat
import SignalPipeline.Node.Validation
import SignalPipeline.Run.Executor

/-!
# Engine settings

Settings that hold for every run: the cap on stages in flight, the tolerance of comparisons, the
length of signal ids that draws a warning, the version that replays report, and the log format.
They come from a document or from the variables of the environment.

* `EngineSettings.ofText`: the settings of a document.
* `EngineSettings.ofVariables`: the default settings under the variables that are set.
* `EngineSettings.check`: the settings, unless one is out of range.
-/

namespace SignalPipeline

/-- Settings that hold for every run. -/
structure EngineSettings where
  maxConcurrency : Option Nat := none
  scoreEpsilon : Float := 1e-4
  signalIdLimit : Nat := PipelineState.defaultIdLimit
  pipelineVersion : String := "0.1.0"
  logFormat : LogFormat := .plain

namespace EngineSettings

/-- Whether a float can be a tolerance: finite and not negative. -/
def isTolerance (x : Float) : Bool :=
  x.isFinite && !(x < 0)

/-- The settings, unless one is out of range. -/
def check (s : EngineSettings) : Except ConfigurationError EngineSettings :=
  if s.maxConcurrency = some 0 then .error (.capTooSmall "maxConcurrency")
  else if isTolerance s.scoreEpsilon then .ok s
  else .error (.invalidTolerance "scoreEpsilon" (FloatFormat.plain.text s.scoreEpsilon))

/-! ## Documents -/

/-- The fields of the record. -/
def fields : List Field :=
  [⟨"maxConcurrency", []⟩, ⟨"scoreEpsilon", []⟩, ⟨"signalIdMaxLen", []⟩,
    ⟨"pipelineVersion", []⟩, ⟨"logFormat", []⟩]

/-- Reads settings; what is absent keeps its default. -/
def read : Reader EngineSettings := fun d => do
  let slots ← Read.record "engine settings" fields d
  let usual : EngineSettings := {}
  pure {
    maxConcurrency := ← slots.optional "maxConcurrency" Read.natural
    scoreEpsilon := ← slots.defaulted "scoreEpsilon" Read.float usual.scoreEpsilon
    signalIdLimit := ← slots.defaulted "signalIdMaxLen" Read.natural usual.signalIdLimit
    pipelineVersion := ← slots.defaulted "pipelineVersion" Read.string usual.pipelineVersion
    logFormat := ← slots.defaulted "logFormat" LogFormat.read usual.logFormat }

/-- The record of settings. -/
def toJson (s : EngineSettings) : Json :=
  .object [("maxConcurrency", s.maxConcurrency.elim .null .ofNat),
    ("scoreEpsilon", .ofFloat s.scoreEpsilon), ("signalIdMaxLen", .ofNat s.signalIdLimit),
    ("pipelineVersion", .string s.pipelineVersion), ("logFormat", .string s.logFormat.name)]

/-- The settings of a document. -/
def ofText (text : String) : Except ConfigurationError EngineSettings :=
  match Reader.text? read text with
  | some s => s.check
  | none => .error .unreadableDocument

/-! ## Variables -/

/-- The variable with the cap. -/
def capVariable : String := "SIGNALFLOW_MAX_CONCURRENCY"

/-- The variable with the tolerance. -/
def epsilonVariable : String := "SIGNALFLOW_SCORE_EPSILON"

/-- The variable with the version. -/
def versionVariable : String := "SIGNALFLOW_PIPELINE_VERSION"

/-- The variable with the log format. -/
def logFormatVariable : String := "SIGNALFLOW_LOG_FORMAT"

/-- The names of all variables. -/
def variableNames : List String :=
  [capVariable, epsilonVariable, versionVariable, logFormatVariable]

/-- The value of a variable; a blank value does not count. -/
def settingText? (environment : String → Option String) (name : String) : Option String :=
  (environment name).filter fun value => !Text.isBlankText value

/-- The cap of a variable's value. -/
def readCap (raw : String) : Except ConfigurationError Nat :=
  match readWhole wordLimit (Text.trim raw) with
  | .error e => .error (.unreadableSetting capVariable raw e)
  | .ok 0 => .error (.capTooSmall capVariable)
  | .ok n => .ok n

/-- The tolerance of a variable's value. -/
def readEpsilon (raw : String) : Except ConfigurationError Float :=
  match readFloat (Text.trim raw) with
  | .error e => .error (.unreadableSetting epsilonVariable raw e)
  | .ok x =>
    if isTolerance x then .ok x else .error (.invalidTolerance epsilonVariable s!"'{raw}'")

/-- The default settings under the variables that are set. -/
def ofVariables (environment : String → Option String) :
    Except ConfigurationError EngineSettings := do
  let usual : EngineSettings := {}
  let cap ← (settingText? environment capVariable).mapM readCap
  let epsilon ← (settingText? environment epsilonVariable).mapM readEpsilon
  let version := (settingText? environment versionVariable).map Text.trim
  let format ← (settingText? environment logFormatVariable).mapM (LogFormat.parse logFormatVariable)
  check {
    maxConcurrency := cap
    scoreEpsilon := epsilon.getD usual.scoreEpsilon
    signalIdLimit := usual.signalIdLimit
    pipelineVersion := version.getD usual.pipelineVersion
    logFormat := format.getD usual.logFormat }

/-! ## Use -/

/-- An executor under the cap of the settings. -/
def configure (s : EngineSettings) (e : Executor) : Executor :=
  e.withOptionalCap s.maxConcurrency

/-- Validates a state with the length of signal ids that the settings allow. -/
def validate (s : EngineSettings) (state : PipelineState) :
    Except InvariantError ValidationReport :=
  state.validate s.signalIdLimit

end EngineSettings

end SignalPipeline
