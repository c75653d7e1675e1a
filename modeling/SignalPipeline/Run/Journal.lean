import SignalPipeline.Json.Printer
import SignalPipeline.Run.Event

/-!
# Journals

Everything that a run says to the outside, in order: events for the sink that is attached to it,
and log records. A sink drops events, keeps them, or turns each into a log record.

* `Journal.events`: the events of a journal.
* `Journal.records`: the log records of a journal, with those that a sink makes of events.
* `EventSink.kept`: the events that a sink keeps.
-/

namespace SignalPipeline

/-- The level of a log record. -/
inductive LogLevel where
  | trace
  | debug
  | info
  | warn
  | error
  deriving Repr, DecidableEq

/-- The name of a level. -/
def LogLevel.name : LogLevel → String
  | trace => "TRACE"
  | debug => "DEBUG"
  | info => "INFO"
  | warn => "WARN"
  | error => "ERROR"

/-- One log record. -/
structure LogRecord where
  level : LogLevel
  message : String
  fields : List Member

/-- One entry of a journal. -/
inductive JournalEntry where
  | event (e : Event)
  | log (r : LogRecord)

/-- What a run says, in order. -/
abbrev Journal := List JournalEntry

/-- Where the events of a run go. -/
inductive EventSink where
  /-- Every event is dropped. -/
  | discard
  /-- Every event is kept. -/
  | collect
  /-- Every event becomes a log record: at debug level, or at info level for every other choice. -/
  | log (level : LogLevel)
  deriving Repr, DecidableEq

namespace EventSink

/-- The log records that a sink makes of an event. -/
def records (sink : EventSink) (e : Event) : List LogRecord :=
  match sink with
  | .log level =>
    [⟨if level = .debug then .debug else .info, s!"Event: {e.name}",
      [("event_type", .string e.name), ("event_data", .string e.data.compact)]⟩]
  | _ => []

/-- The events that a sink keeps. -/
def kept (sink : EventSink) (es : List Event) : List Event :=
  match sink with
  | .collect => es
  | _ => []

end EventSink

/-- The names of the events that start with a text, in order. -/
def eventNamesFrom (start : String) (es : List Event) : List String :=
  (es.map Event.name).filter fun name => start.toList.isPrefixOf name.toList

namespace Journal

/-- An entry with a log record. -/
def record (level : LogLevel) (message : String) (fields : List Member) : JournalEntry :=
  .log ⟨level, message, fields⟩

/-- The events of a journal. -/
def events (j : Journal) : List Event :=
  j.filterMap fun
    | .event e => some e
    | .log _ => none

theorem events_append (j j' : Journal) : events (j ++ j') = events j ++ events j' :=
  List.filterMap_append

/-- The log records of a journal, with those that the sink makes of events. -/
def records (sink : EventSink) (j : Journal) : List LogRecord :=
  j.flatMap fun
    | .event e => sink.records e
    | .log r => [r]

end Journal

end SignalPipeline
