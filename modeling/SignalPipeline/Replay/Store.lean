import SignalPipeline.Engine.Error
import SignalPipeline.Entries
import SignalPipeline.Replay.File
import SignalPipeline.Replay.Snapshot
import SignalPipeline.Run.Journal

/-!
# Stores of snapshots

A store finds the snapshot of a signal. Snapshots come from a list, from a file that holds a JSON
array of them, or from a directory of files with one snapshot each. Of several snapshots of one
signal the last counts; the files of a directory are read in the order of their names.

* `Snapshots.ofList`: the snapshots of a list.
* `Snapshots.ofLocated`: the snapshots under a path.
* `SignalStore`: a look-up that may fail.
-/

namespace SignalPipeline

/-- Snapshots by signal id. -/
abbrev Snapshots := Entries StoredSnapshot

namespace Snapshots

/-- The snapshots of a list; of several with one signal id the last counts. -/
def ofList (snapshots : List StoredSnapshot) : Snapshots :=
  Entries.ofPairs (snapshots.map fun s => (s.signalId, s))

/-! ## Files -/

/-- The ending of files that are read. -/
def fileEnding : List Char := ".json".toList

/-- The name of a snapshot file without its ending; none for other files. -/
def stem? (name : String) : Option String :=
  let cs := name.toList
  let stem := cs.take (cs.length - fileEnding.length)
  if stem ++ fileEnding == cs && !stem.isEmpty then some (String.ofList stem) else none

/-- The text of a file, or the error of a store that cannot be reached. -/
def fileText (path : String) : FileText → Except StoreError String
  | .ok text => .ok text
  | .error fault => .error (.unavailable s!"{path}: {fault.message}")

/-- Reads a record from the text of a file. -/
def decode {α : Type} (read : Reader α) (path text : String) : Except StoreError α :=
  match Reader.text? read text with
  | some a => .ok a
  | none => .error (.malformed path)

/-- The snapshot files among files, by ascending name. -/
def snapshotFiles (files : List (String × FileText)) : List (String × FileText) :=
  sortMembers (files.filter fun (name, _) => (stem? name).isSome)

/-- What is said of a snapshot whose file is not named after its signal. -/
def namingEntries (name : String) (s : StoredSnapshot) : Journal :=
  if stem? name = some s.signalId then []
  else [Journal.record .warn "Snapshot file name does not match its signal id"
    [("signal_id", .string s.signalId)]]

/-- The snapshot of a file in a directory. -/
def readFile (directory name : String) (text : FileText) : Except StoreError StoredSnapshot := do
  let path := FilePath.join directory name
  decode StoredSnapshot.read path (← fileText path text)

/-- The snapshots of the files of a directory, with what is said while they are read. -/
def readFiles (directory : String) :
    List (String × FileText) → Except StoreError (List StoredSnapshot) × Journal
  | [] => (.ok [], [])
  | (name, text) :: files =>
    match readFile directory name text with
    | .error e => (.error e, [])
    | .ok s =>
      let (rest, journal) := readFiles directory files
      (rest.map (s :: ·), namingEntries name s ++ journal)

/-- The snapshots of a file with a JSON array of them. -/
def readArray (path : String) (text : FileText) : Except StoreError (List StoredSnapshot) := do
  decode (Read.list StoredSnapshot.read) path (← fileText path text)

/-- The list of snapshots under a path, with what is said while they are read. -/
def read (path : String) : Located → Except StoreError (List StoredSnapshot) × Journal
  | .absent fault => (.error (.unavailable s!"{path}: {fault.message}"), [])
  | .file text => (readArray path text, [])
  | .directory files => readFiles path (snapshotFiles files)

/-- What is said when a store was opened. -/
def openedEntry (count : Nat) : JournalEntry :=
  Journal.record .debug "Opened signal store" [("snapshots", .ofNat count)]

/-- The snapshots under a path, with what is said while they are read. -/
def ofLocated (path : String) (located : Located) : Except StoreError Snapshots × Journal :=
  match read path located with
  | (.ok snapshots, journal) => (.ok (ofList snapshots), journal ++ [openedEntry snapshots.length])
  | (.error e, journal) => (.error e, journal)

end Snapshots

/-- A look-up of snapshots by signal id. -/
structure SignalStore where
  find? : String → Except StoreError (Option StoredSnapshot)

namespace SignalStore

/-- The store that holds given snapshots. -/
def ofSnapshots (s : Snapshots) : SignalStore :=
  ⟨fun id => .ok (s.get? id)⟩

/-- A store in which every look-up fails. -/
def failing (e : StoreError) : SignalStore :=
  ⟨fun _ => .error e⟩

end SignalStore

end SignalPipeline
