import SignalPipeline.CommandLine.Replay

/-!
# The program

What the program does with its command line and with the variables of its environment. The command
line is read first, then the settings, and only then the command runs.

* `program`: the output of the program, and its status.
-/

namespace SignalPipeline

/-- How the program is called. -/
def usageText : String :=
  "usage: replay --id <id> [--store <path>] [--json]\n"

/-- What the program prints when it refuses its command line. -/
def UsageError.report (e : UsageError) : CommandReport :=
  match e with
  | .helpRequested => ⟨e.exitStatus, usageText, "", [], none⟩
  | _ => ⟨e.exitStatus, "", usageText, [], none⟩

/-- Reads the command line and the settings and runs the command. -/
def program (c : Comparator) (words : List String) (environment : String → Option String)
    (locate : String → Located) (now : Timestamp) : CommandReport :=
  match ReplayArguments.parse words with
  | .error e => e.report
  | .ok a =>
    match EngineSettings.ofVariables environment with
    | .error e => ⟨failureStatus, "", failureText e.message, [], none⟩
    | .ok s => replayCommand a (c.configured s) locate now none

/-- A pipeline that passes its input on: what was kept of a signal is read as its result. -/
def Pipeline.passing : Pipeline where
  run input o := ⟨PipelineOutcome.ofRun o ⟨input, [], []⟩, []⟩

end SignalPipeline
