import SignalPipeline.Json.Reader
import SignalPipeline.Text.Blank
import SignalPipeline.Time.Timestamp

/-!
# Timestamps as text

The RFC 3339 form of a timestamp. A reader takes one digit where two are usual, white space between
the parts and any offset below a day; a writer gives UTC with the fewest digits of the fraction, in
groups of three, that lose nothing, or always three digits for messages.

* `Timestamp.parse?`: the timestamp of a text.
* `Timestamp.text`: the text in documents.
* `Timestamp.millisText`: the text in messages, cut to milliseconds.
-/

namespace SignalPipeline.Timestamp

/-! ## Writing -/

/-- Digits with zeros in front up to a width. -/
def padded (width n : Nat) : List Char :=
  let ds := Nat.toDigits 10 n
  List.replicate (width - ds.length) '0' ++ ds

/-- A year: four digits, and a sign where it has more or is negative. -/
def yearChars (year : Int) : List Char :=
  if 0 ≤ year && year ≤ 9999 then padded 4 year.toNat
  else (if year < 0 then '-' else '+') :: padded 4 year.natAbs

/-- Date and time to the second; a leap second is the second after 59. -/
def secondChars (t : Timestamp) : List Char :=
  let d := t.date
  let s := t.secondOfDay.toNat
  yearChars d.year ++ ['-'] ++ padded 2 d.month ++ ['-'] ++ padded 2 d.day ++ ['T'] ++
    padded 2 (s / 3600) ++ [':'] ++ padded 2 (s / 60 % 60) ++ [':'] ++
    padded 2 (s % 60 + t.nanos / secondNanos)

/-- The fraction of a second: none, three, six or nine digits. -/
def fractionChars (nanos : Nat) : List Char :=
  if nanos == 0 then []
  else if nanos % milliNanos == 0 then '.' :: padded 3 (nanos / milliNanos)
  else if nanos % microNanos == 0 then '.' :: padded 6 (nanos / microNanos)
  else '.' :: padded 9 nanos

/-- The text in documents. -/
def text (t : Timestamp) : String :=
  String.ofList (t.secondChars ++ fractionChars (t.nanos % secondNanos) ++ ['Z'])

/-- The text in messages: always three digits of the fraction, cut and not rounded. -/
def millisText (t : Timestamp) : String :=
  String.ofList (t.secondChars ++ '.' :: padded 3 (t.nanos % secondNanos / milliNanos) ++ ['Z'])

/-! ## Reading -/

open Text (skipBlank)

/-- One to `width` digits after white space. -/
def readNumber? (width : Nat) (cs : List Char) : Option (Nat × List Char) :=
  let cs := skipBlank cs
  let ds := (cs.take width).takeWhile Char.isDigit
  if ds.isEmpty then none else some (digitsValue ds, cs.drop ds.length)

/-- A year after white space: up to four digits, or a sign and any number of them. -/
def readYear? (cs : List Char) : Option (Int × List Char) :=
  match skipBlank cs with
  | '-' :: r =>
    let (ds, r) := spanDigits r
    if ds.isEmpty then none else some (-(digitsValue ds : Int), r)
  | '+' :: r =>
    let (ds, r) := spanDigits r
    if ds.isEmpty then none else some (digitsValue ds, r)
  | r => (readNumber? 4 r).map fun (n, r) => (n, r)

/-- A given character after white space. -/
def readMark? (mark : Char) (cs : List Char) : Option (List Char) :=
  match skipBlank cs with
  | c :: r => if c == mark then some r else none
  | [] => none

/-- The fraction of a second in nanoseconds: after a point nine digits count, and more are
dropped. -/
def readFraction? : List Char → Option (Nat × List Char)
  | '.' :: r =>
    let (ds, r) := spanDigits r
    if ds.isEmpty then none
    else some (digitsValue (ds.take 9) * Nat.pow 10 (9 - ds.length), r)
  | r => some (0, r)

/-- Two digits with a value below a bound. -/
def readPair? (bound : Nat) : List Char → Option (Nat × List Char)
  | a :: b :: r =>
    if a.isDigit && b.isDigit && digitsValue [a, b] < bound then some (digitsValue [a, b], r)
    else none
  | _ => none

/-- An offset from UTC in seconds: a letter, a name, or hours and minutes with a sign. -/
def readOffset? (cs : List Char) : Option (Int × List Char) :=
  match skipBlank cs with
  | [] => none
  | u :: r =>
    if [u, r.getD 0 ' ', r.getD 1 ' '].map Char.toUpper == ['U', 'T', 'C'] then some (0, r.drop 2)
    else if u == 'Z' || u == 'z' then some (0, r)
    else do
      let negative := u == '-' || u == '\u2212'
      guard (negative || u == '+')
      let (hours, r) ← readPair? 100 r
      let (minutes, r) ← readPair? 60 (r.dropWhile fun c => c == ':' || Text.isBlank c)
      let seconds : Int := hours * 3600 + minutes * 60
      guard (seconds < daySeconds)
      some (if negative then -seconds else seconds, r)

/-- A date and a time of day at an offset from UTC. Second 60 is the leap second after 59. -/
def ofParts? (d : Date) (hour minute second nanos : Nat) (offset : Int) : Option Timestamp :=
  let leap := second == 60
  let secondOfDay : Int := hour * 3600 + minute * 60 + (if leap then 59 else second)
  let seconds := d.dayNumber * daySeconds + secondOfDay - offset
  if d.isValid && hour < 24 && minute < 60 && second ≤ 60 &&
      secondRange.1 ≤ seconds && seconds ≤ secondRange.2 then
    some ⟨seconds, nanos + (if leap then secondNanos else 0)⟩
  else none

/-- The timestamp of a text. -/
def parse? (s : String) : Option Timestamp := do
  let (year, r) ← readYear? s.toList
  let r ← readMark? '-' r
  let (month, r) ← readNumber? 2 r
  let r ← readMark? '-' r
  let (day, r) ← readNumber? 2 r
  let r ← match r with
    | c :: r => if c == 'T' || c == 't' || c == ' ' then some r else none
    | [] => none
  let (hour, r) ← readNumber? 2 r
  let r ← readMark? ':' r
  let (minute, r) ← readNumber? 2 r
  let r ← readMark? ':' r
  let (second, r) ← readNumber? 2 r
  let (nanos, r) ← readFraction? r
  let (offset, r) ← readOffset? r
  guard (skipBlank r).isEmpty
  ofParts? ⟨year, month, day⟩ hour minute second nanos offset

/-! ## Documents -/

/-- A timestamp in a document. -/
def toJson (t : Timestamp) : Json :=
  .string t.text

/-- Reads a timestamp from a document. -/
def read : Reader Timestamp := fun d => do
  let s ← Read.string d
  match parse? s with
  | some t => pure t
  | none => throw .malformedTimestamp

end SignalPipeline.Timestamp
