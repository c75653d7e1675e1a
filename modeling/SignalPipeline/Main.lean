import SignalPipeline.CommandLine.Program
import Std.Time.DateTime.Timestamp

/-!
# Entry point

Replays a stored signal from the command line. This module only reads the environment, the clock
and files, and prints; everything else is decided in `SignalPipeline.program`.
-/

namespace SignalPipeline.EntryPoint

/-- Why a file cannot be used, from the error of the operating system. -/
def faultOf : IO.Error → FileFault
  | .noFileOrDirectory _ _ _ => .notFound
  | .inappropriateType _ 20 _ => .notADirectory
  | .inappropriateType _ 21 _ => .isADirectory
  | .invalidArgument _ 36 _ => .nameTooLong
  | e => .other (toString e)

/-- The text of a file. -/
def readText (path : String) : IO FileText := do
  try
    let bytes ← IO.FS.readBinFile path
    pure (FileNode.file bytes.toList).text
  catch e =>
    pure (.error (faultOf e))

/-- What is found under a path. -/
def located (path : String) : IO Located := do
  try
    let place ← IO.FS.realPath path
    if ← place.isDir then
      let names := (← place.readDir).toList.map fun entry => entry.fileName
      let files := names.filter fun name => (Snapshots.stem? name).isSome
      pure (.directory (← files.mapM fun name => do
        pure (name, ← readText (FilePath.join path name))))
    else
      pure (.file (← readText path))
  catch e =>
    pure (.absent (faultOf e))

/-- What is found under the path that a command line names. -/
def locatedBy (words : List String) : IO Located :=
  match (ReplayArguments.parse words).toOption.bind ReplayArguments.store with
  | some path => located path
  | none => pure (.absent .notFound)

/-- The variables of the environment that hold settings. -/
def settingTexts : IO (List (String × String)) := do
  let found ← EngineSettings.variableNames.mapM fun name => do
    pure ((← IO.getEnv name).map fun value => (name, value))
  pure (found.filterMap id)

/-- The present. -/
def now : IO Timestamp := do
  let t ← Std.Time.Timestamp.now
  pure ⟨t.val.second.val, t.val.nano.val.toNat⟩

/-- Runs the program and prints what it gives. -/
def run (words : List String) : IO UInt32 := do
  let environment ← settingTexts
  let place ← locatedBy words
  let report := program { pipeline := .passing } words (fun name => environment.lookup name)
    (fun _ => place) (← now)
  IO.print report.output
  IO.eprint report.errors
  pure (UInt32.ofNat report.status)

end SignalPipeline.EntryPoint

/-- Replays a stored signal. -/
def main (words : List String) : IO UInt32 :=
  SignalPipeline.EntryPoint.run words
