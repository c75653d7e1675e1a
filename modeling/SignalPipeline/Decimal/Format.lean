import SignalPipeline.Decimal.Shortest

/-!
# Formats of the shortest decimal

How the digits of a float become text: where positional writing ends, whether a whole number keeps
a point, and which way a tie between two shortest decimals goes. One `FloatFormat` record holds the
decisions of one format.

* `FloatFormat.render`: the text of a number.
* `FloatFormat.plain`: digits without an exponent, used in messages.
* `FloatFormat.document`: the format of documents, with an exponent outside `-5 .. 15`.
-/

namespace SignalPipeline

/-- The decisions of a format for floats. -/
structure FloatFormat where
  /-- The exponents of the leading digit that are written positionally; `none` has no limit. -/
  positional : Option (Int × Int)
  /-- What follows the digits of a whole number. -/
  wholeTail : List Char
  /-- Which of two equally near shortest decimals is written. -/
  tie : Tie
  deriving Repr

namespace FloatFormat

/-- Positional digits with no exponent and no point after a whole number; a tie goes up. -/
def plain : FloatFormat := ⟨none, [], .up⟩

/-- Positional where the leading digit has an exponent from `-5` to `15`, with `.0` after a whole
number; elsewhere one digit, a point, and a signed exponent. A tie goes to the even decimal. -/
def document : FloatFormat := ⟨some (-5, 15), ['.', '0'], .toEven⟩

/-- The digits with a point so many places from their start. -/
def positionalChars (n : FloatFormat) (digits : List Char) (point : Int) : List Char :=
  if point ≤ 0 then ['0', '.'] ++ List.replicate (-point).toNat '0' ++ digits
  else if digits.length ≤ point.toNat then
    digits ++ List.replicate (point.toNat - digits.length) '0' ++ n.wholeTail
  else digits.take point.toNat ++ ['.'] ++ digits.drop point.toNat

/-- One digit, the other digits behind a point, and the exponent with its sign. -/
def exponentChars (digits : List Char) (exponent : Int) : List Char :=
  let tail := digits.drop 1
  digits.take 1 ++ (if tail.isEmpty then [] else '.' :: tail) ++
    ['e', if exponent < 0 then '-' else '+'] ++ Nat.toDigits 10 exponent.natAbs

/-- The text of a decimal that is not negative. -/
def magnitudeChars (n : FloatFormat) (d : Scientific) : List Char :=
  if d.digits == 0 then '0' :: n.wholeTail else
  let digits := d.digitChars
  let point := d.exponent + digits.length
  match n.positional with
  | none => n.positionalChars digits point
  | some (first, last) =>
    if first ≤ point - 1 && point - 1 ≤ last then n.positionalChars digits point
    else exponentChars digits (point - 1)

/-- The text of a number; a number without a decimal is written by name. -/
def render (n : FloatFormat) : Binary64 → List Char
  | .notANumber => ['N', 'a', 'N']
  | .infinite negative => (if negative then ['-'] else []) ++ ['i', 'n', 'f']
  | .finite negative m q =>
    (if negative then ['-'] else []) ++ n.magnitudeChars (shortest n.tie m q)

/-- The text of a float. -/
def text (n : FloatFormat) (x : Float) : String :=
  String.ofList (n.render (.ofFloat x))

end FloatFormat

end SignalPipeline
