import SignalPipeline.Decimal.Binary64

/-!
# Shortest decimals

The shortest decimal that reads back as a given binary64 number, and of those the nearest to it.

A positive number `m · 2 ^ q` is the nearest binary64 number to every real in an interval around
it (the ends included when `m` is even). For one digit, two digits and so on, the two neighbours of
the number on that decimal grid are tested in exact arithmetic; the first grid with a neighbour in
the interval wins. Of two equally near neighbours a format chooses one. Seventeen digits are always
enough.

* `Scientific`: a decimal `digits · 10 ^ exponent`.
* `Tie`: which of two equally near decimals is chosen.
* `shortest`: the decimal of a positive dyadic.
-/

namespace SignalPipeline

/-- The decimal `digits · 10 ^ exponent`. -/
structure Scientific where
  digits : Nat
  exponent : Int
  deriving Repr, DecidableEq

namespace Scientific

/-- Number of decimal digits of a natural number; zero has one. -/
def digitCount (n : Nat) : Nat :=
  (Nat.toDigits 10 n).length

/-- The digits as characters. -/
def digitChars (d : Scientific) : List Char :=
  Nat.toDigits 10 d.digits

/-- Drops zeros at the end of the digits, at most `fuel` of them. -/
def stripZeros : Nat → Scientific → Scientific
  | 0, d => d
  | fuel + 1, d =>
    if d.digits % 10 == 0 && d.digits != 0 then
      stripZeros fuel ⟨d.digits / 10, d.exponent + 1⟩
    else d

end Scientific

/-- Which of two neighbours is chosen for a number halfway between them. -/
inductive Tie where
  /-- The even one. -/
  | toEven
  /-- The greater one. -/
  | up
  deriving Repr, DecidableEq

/-- Whether the lower of two neighbours is chosen. -/
def Tie.takesLower (tie : Tie) (lower : Nat) : Bool :=
  match tie with
  | toEven => lower % 2 == 0
  | up => false

namespace Shortest

/-- Twice-halved units: the dyadic, and the two ends of the interval of reals that are nearest to
it, all as multiples of `2 ^ (q - 2)`. Below a power of two the spacing is half as wide. -/
structure Interval where
  low : Nat
  value : Nat
  high : Nat
  unit : Int
  closed : Bool

/-- The interval of the reals nearest to `m · 2 ^ q`. -/
def interval (m : Nat) (q : Int) : Interval where
  low := if m == Binary64.hiddenBit && q != Binary64.minExponent then 4 * m - 1 else 4 * m - 2
  value := 4 * m
  high := 4 * m + 2
  unit := q - 2
  closed := m % 2 == 0

/-- The exponent of the leading decimal digit of `num / den`. -/
def leadingExponent (num den : Nat) : Int :=
  if den ≤ num then Scientific.digitCount (num / den) - 1
  else -(Scientific.digitCount ((den - 1) / num) : Int)

/-- Whether `c` multiplied by `scale` lies in the interval, whose numbers are multiplied by
`unit`. -/
def Interval.covers (i : Interval) (unit scale c : Nat) : Bool :=
  let x := c * scale
  if i.closed then i.low * unit ≤ x && x ≤ i.high * unit
  else i.low * unit < x && x < i.high * unit

/-- The neighbours of the value on the grid of multiples of `10 ^ k`: the one that lies in the
interval, of two the nearer, and of two equally near ones the one that `tie` chooses. -/
def onGrid? (tie : Tie) (i : Interval) (k : Int) : Option Scientific :=
  let (u, v) := powerRatio 2 i.unit
  let (p, r) := powerRatio 10 k
  let unit := u * r
  let scale := p * v
  let below := i.value * unit / scale
  let above := below + 1
  match i.covers unit scale below, i.covers unit scale above with
  | true, false => some ⟨below, k⟩
  | false, true => some ⟨above, k⟩
  | false, false => none
  | true, true =>
    let down := i.value * unit - below * scale
    let up := above * scale - i.value * unit
    if down < up then some ⟨below, k⟩
    else if up < down then some ⟨above, k⟩
    else if tie.takesLower below then some ⟨below, k⟩ else some ⟨above, k⟩

/-- The most digits that are ever needed. -/
def maxDigits : Nat := 17

end Shortest

open Shortest in
/-- The shortest decimal that reads back as `m · 2 ^ q`, without zeros at its end. -/
def shortest (tie : Tie) (m : Nat) (q : Int) : Scientific :=
  if m == 0 then ⟨0, 0⟩ else
  let i := interval m q
  let (u, v) := powerRatio 2 i.unit
  let lead := leadingExponent (i.value * u) v
  let found := (List.range maxDigits).findSome? fun (n : Nat) => onGrid? tie i (lead - n)
  (found.getD ⟨m, 0⟩).stripZeros (maxDigits + 1)

end SignalPipeline
