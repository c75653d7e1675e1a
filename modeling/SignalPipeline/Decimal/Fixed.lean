import SignalPipeline.Decimal.Binary64

/-!
# Decimals with a fixed number of places

The exact value of a float rounded to a number of places. A half goes to the even neighbour, and a
negative number keeps its sign even where it rounds to zero.

* `roundDiv`: a quotient rounded to the nearest whole number.
* `fixed`, `fixedSigned`: the text without and with a plus sign.
-/

namespace SignalPipeline

/-- The whole number nearest to `num / den`; a half goes to the even neighbour. -/
def roundDiv (num den : Nat) : Nat :=
  let q := num / den
  let twice := 2 * (num % den)
  if twice < den then q
  else if den < twice then q + 1
  else if q % 2 == 0 then q else q + 1

namespace Fixed

/-- The number of units of `10 ^ -places` nearest to `m · 2 ^ q`. -/
def units (places m : Nat) (q : Int) : Nat :=
  let (u, v) := powerRatio 2 q
  roundDiv (m * u * Nat.pow 10 places) v

/-- A number of units of `10 ^ -places` as digits with a point. -/
def unitChars (places n : Nat) : List Char :=
  let tail := Nat.toDigits 10 (n % Nat.pow 10 places)
  Nat.toDigits 10 (n / Nat.pow 10 places) ++ '.' ::
    (List.replicate (places - tail.length) '0' ++ tail)

/-- The text of a number, with `plus` in front of one that is not negative. -/
def render (plus : List Char) (places : Nat) : Binary64 → List Char
  | .notANumber => ['N', 'a', 'N']
  | .infinite negative => (if negative then ['-'] else plus) ++ ['i', 'n', 'f']
  | .finite negative m q =>
    (if negative then ['-'] else plus) ++ unitChars places (units places m q)

end Fixed

/-- A float with a fixed number of places. -/
def fixed (places : Nat) (x : Float) : String :=
  String.ofList (Fixed.render [] places (.ofFloat x))

/-- A float with a fixed number of places and always a sign. -/
def fixedSigned (places : Nat) (x : Float) : String :=
  String.ofList (Fixed.render ['+'] places (.ofFloat x))

end SignalPipeline
