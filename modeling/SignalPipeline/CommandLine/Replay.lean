import SignalPipeline.CommandLine.Arguments
import SignalPipeline.Replay.GraphPipeline
import SignalPipeline.Replay.Report

/-!
# The replay command

Replays a signal and prints the report, or the outcome as JSON. The status is zero after a
completed replay; it is one where nothing is stored for the signal, and after any failure, which is
told on the error output.

* `replayCommand`: what the command prints, and its status.
-/

namespace SignalPipeline

/-- What a command leaves behind. -/
structure CommandReport where
  status : Nat
  /-- The bytes of the standard output that were written, as far as they are whole characters. -/
  output : String
  /-- The error output. -/
  errors : String
  journal : Journal
  /-- What the pipeline was run on, if it was run. -/
  request : Option (Json × RunOptions)

/-- The status after a completed replay. -/
def successStatus : Nat := 0

/-- The status after any other end. -/
def failureStatus : Nat := 1

/-- The status of an outcome. -/
def ReplayOutcome.status (o : ReplayOutcome) : Nat :=
  if o.isNotFound then failureStatus else successStatus

/-- What stands for a character whose bytes did not all fit. -/
def replacementChar : Char := '\ufffd'

/-- The characters that fit into so many bytes. -/
def fitting : Nat → List Char → List Char
  | _, [] => []
  | room, c :: cs =>
    if c.utf8Size ≤ room then c :: fitting (room - c.utf8Size) cs
    else if room == 0 then [] else [replacementChar]

/-- The text of a failure on the error output. -/
def failureText (message : String) : String :=
  s!"error: {message}\n"

/-- What the command prints of an outcome. -/
def ReplayArguments.print (a : ReplayArguments) (o : ReplayOutcome) : String :=
  if a.json then o.toJson.indented ++ "\n" else o.report

/-- What is said when a replay failed. -/
def failedEntry (id message : String) : JournalEntry :=
  Journal.record .error "Replay failed" [("signal_id", .string id), ("error", .string message)]

/-- Writes an outcome to a standard output that takes so many bytes, or any number of them. -/
def writeOutcome (room : Option Nat) (text : String) (o : ReplayOutcome) (r : ReplayReport) :
    CommandReport :=
  match room with
  | none => ⟨o.status, text, "", r.journal, r.request⟩
  | some room =>
    if text.utf8ByteSize ≤ room then ⟨o.status, text, "", r.journal, r.request⟩
    else ⟨failureStatus, String.ofList (fitting room text.toList),
      failureText "failed to write whole buffer", r.journal, r.request⟩

/-- Replays the signal and prints what comes of it. -/
def replayAndPrint (a : ReplayArguments) (c : Comparator) (now : Timestamp)
    (room : Option Nat) : CommandReport :=
  let r := c.replay now a.id
  match r.result with
  | .error e =>
    ⟨failureStatus, "", failureText e.message, r.journal ++ [failedEntry a.id e.message],
      r.request⟩
  | .ok o => writeOutcome room (a.print o) o r

/-- The replay command. A store that the arguments name takes the place of the one attached;
`locate` finds what is under its path. -/
def replayCommand (a : ReplayArguments) (c : Comparator) (locate : String → Located)
    (now : Timestamp) (room : Option Nat) : CommandReport :=
  match a.store with
  | none => replayAndPrint a c now room
  | some path =>
    match Snapshots.ofLocated path (locate path) with
    | (.error e, journal) => ⟨failureStatus, "", failureText e.message, journal, none⟩
    | (.ok s, journal) =>
      let r := replayAndPrint a { c with store := some (.ofSnapshots s) } now room
      { r with journal := journal ++ r.journal }

end SignalPipeline
