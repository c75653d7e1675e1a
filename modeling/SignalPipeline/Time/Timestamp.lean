import SignalPipeline.Decimal.Word
import SignalPipeline.Time.Calendar

/-!
# Timestamps

A point in time in UTC, to the nanosecond. A leap second is written as a second that lasts for two:
its nanoseconds run past one thousand million.

* `Timestamp.elapsedNanos`: the time from one timestamp to another.
* `Timestamp.elapsedMicros`: the same in whole microseconds, as far as a 64-bit word reaches.
* `Timestamp.before`: the order of time.
-/

namespace SignalPipeline

/-- A point in time. -/
structure Timestamp where
  /-- Seconds from the start of 1970. -/
  seconds : Int
  /-- Nanoseconds in the second; from one thousand million on in a leap second. -/
  nanos : Nat
  deriving Repr, DecidableEq

namespace Timestamp

instance : Inhabited Timestamp := ⟨⟨0, 0⟩⟩

/-- Seconds of a day. -/
def daySeconds : Int := 86400

/-- Nanoseconds of a second. -/
def secondNanos : Nat := 1000000000

/-- Nanoseconds of a millisecond. -/
def milliNanos : Nat := 1000000

/-- Nanoseconds of a microsecond. -/
def microNanos : Nat := 1000

/-- The calendar date. -/
def date (t : Timestamp) : Date :=
  .ofDayNumber (t.seconds / daySeconds)

/-- The seconds since midnight. -/
def secondOfDay (t : Timestamp) : Int :=
  t.seconds % daySeconds

/-- A full hour of a date. -/
def onHour (d : Date) (hour : Nat) : Timestamp :=
  ⟨d.dayNumber * daySeconds + hour * 3600, 0⟩

/-- Whether the timestamp lies in a leap second. -/
def isLeap (t : Timestamp) : Bool :=
  secondNanos ≤ t.nanos

/-- The order of time. -/
def before (a b : Timestamp) : Bool :=
  a.seconds < b.seconds || (a.seconds == b.seconds && a.nanos < b.nanos)

/-- The first and the last second of the years that a timestamp can have. -/
def secondRange : Int × Int :=
  (daySeconds * (Date.mk Date.yearRange.1 1 1).dayNumber,
    daySeconds * ((Date.mk Date.yearRange.2 12 31).dayNumber + 1) - 1)

/-- Timestamps in the range of years, with the leap seconds only at the end of a minute. -/
def Valid (t : Timestamp) : Prop :=
  secondRange.1 ≤ t.seconds ∧ t.seconds ≤ secondRange.2 ∧ t.nanos < 2 * secondNanos ∧
    (t.isLeap = true → t.seconds % 60 = 59)

/-- The timestamp so many milliseconds later. -/
def addMillis (t : Timestamp) (ms : Nat) : Timestamp :=
  let nanos : Nat := t.nanos + ms % 1000 * milliNanos
  ⟨t.seconds + (ms / 1000 + nanos / secondNanos : Nat), nanos % secondNanos⟩

/-! ## Elapsed time -/

/-- The second that a leap second adds to a time of day after it, or takes from one before it. -/
def leapSeconds (start stop : Timestamp) : Int :=
  if start.secondOfDay < stop.secondOfDay && start.isLeap then 1
  else if stop.secondOfDay < start.secondOfDay && stop.isLeap then -1
  else 0

/-- The nanoseconds from one timestamp to another, negative if the second comes first. -/
def elapsedNanos (start stop : Timestamp) : Int :=
  (stop.seconds - start.seconds + leapSeconds start stop) * secondNanos +
    ((stop.nanos : Int) - start.nanos)

/-- The whole microseconds from one timestamp to another, cut towards zero; none where they do not
fit a signed 64-bit word. -/
def elapsedMicros? (start stop : Timestamp) : Option Int :=
  let micros := (elapsedNanos start stop).tdiv microNanos
  if -signedLimit ≤ micros ∧ micros < signedLimit then some micros else none

/-- The microseconds that count as the duration: zero where the end comes first or the count does
not fit. -/
def elapsedMicros (start stop : Timestamp) : Nat :=
  ((elapsedMicros? start stop).getD 0).toNat

/-- The duration in milliseconds. -/
def elapsedMillis (start stop : Timestamp) : Float :=
  (elapsedMicros start stop).toUInt64.toFloat / 1000

end Timestamp

end SignalPipeline
