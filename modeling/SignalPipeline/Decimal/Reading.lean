import SignalPipeline.Decimal.Word

/-!
# Reading decimals

A decimal in text is a run of digits, perhaps with a point, perhaps with an exponent. Two readings
of it as a float are given.

* `nearestFloat`: the nearest binary64 number, used for settings.
* `scaledFloat?`: the leading digits that fit a 64-bit word, scaled by one power of ten in binary64
  arithmetic, used for documents. It agrees with the nearest number on short decimals.
* `readFloat?`: a whole text as a float, with the names of the infinities.
-/

namespace SignalPipeline

/-- The digits at the front of a text, and what follows them. -/
def spanDigits (cs : List Char) : List Char × List Char :=
  (cs.takeWhile Char.isDigit, cs.dropWhile Char.isDigit)

theorem spanDigits_append (cs : List Char) : (spanDigits cs).1 ++ (spanDigits cs).2 = cs :=
  List.takeWhile_append_dropWhile

/-- The value of a digit. -/
def digitValue (c : Char) : Nat :=
  c.toNat - '0'.toNat

/-- The value of a run of digits. -/
def digitsValue (cs : List Char) : Nat :=
  cs.foldl (fun n c => 10 * n + digitValue c) 0

/-- A float with a sign. -/
def signed (negative : Bool) (x : Float) : Float :=
  if negative then -x else x

/-- The power of ten nearest in binary64. -/
def powerOfTen (k : Nat) : Float :=
  Float.ofScientific 1 false k

/-- Exponents beyond these make every number of at most so many digits infinite or zero. -/
def exponentLimit : Int := 400

/-- The binary64 number nearest to `digits · 10 ^ exponent`, infinite where it is too large. -/
def nearestFloat (digits : Nat) (exponent : Int) : Float :=
  let lead := exponent + (Nat.toDigits 10 digits).length
  if digits == 0 || lead < -exponentLimit then 0
  else if exponentLimit < lead then 1 / 0
  else Float.ofScientific digits (exponent < 0) exponent.natAbs

/-- Appends digits to a number while it fits a 64-bit word; gives the digits that are left. -/
def absorbDigits : Nat → List Char → Nat × List Char
  | n, [] => (n, [])
  | n, c :: cs =>
    if 10 * n + digitValue c < wordLimit then absorbDigits (10 * n + digitValue c) cs
    else (n, c :: cs)

/-- The largest power of ten that is a binary64 number's magnitude. -/
def greatestPower : Int := 308

/-- A word scaled by a power of ten in binary64 arithmetic; none where that overflows. -/
def scaledFloat? (word : Nat) (exponent : Int) : Option Float :=
  let x := word.toUInt64.toFloat
  if word == 0 then some x
  else if 0 ≤ exponent then
    let y := x * powerOfTen exponent.toNat
    if greatestPower < exponent || y.isInf then none else some y
  else if -greatestPower ≤ exponent then some (x / powerOfTen exponent.natAbs)
  else if -2 * greatestPower ≤ exponent then
    some (x / powerOfTen greatestPower.toNat / powerOfTen (exponent + greatestPower).natAbs)
  else some 0

/-- The sign at the front of a text, if there is one: whether it is a minus, and what follows. -/
def takeSign : List Char → Bool × List Char
  | '-' :: r => (true, r)
  | '+' :: r => (false, r)
  | r => (false, r)

theorem takeSign_length (cs : List Char) : (takeSign cs).2.length ≤ cs.length := by
  rw [takeSign.eq_def]
  split <;> simp

theorem spanDigits_length (cs : List Char) : (spanDigits cs).2.length ≤ cs.length :=
  (List.dropWhile_suffix _).length_le

/-- The exponent at the front of a text after its mark: a sign and digits. -/
def readExponent? (cs : List Char) : Option (Int × List Char) :=
  let (negative, r) := takeSign cs
  let (ds, r) := spanDigits r
  if ds.isEmpty then none
  else some (if negative then -(digitsValue ds : Int) else digitsValue ds, r)

theorem readExponent?_length {cs r : List Char} {e : Int} (h : readExponent? cs = some (e, r)) :
    r.length ≤ cs.length := by
  simp only [readExponent?] at h
  split at h
  · simp at h
  · simp only [Option.some.injEq, Prod.mk.injEq] at h
    rw [← h.2]
    exact Nat.le_trans (spanDigits_length _) (takeSign_length cs)

/-- A decimal without a sign that fills the text: digits around an optional point, at least one of
them, and an optional exponent. -/
def readDecimal? (cs : List Char) : Option Float := do
  let (whole, r) := spanDigits cs
  let (fraction, r) := match r with
    | '.' :: r => spanDigits r
    | r => ([], r)
  guard (!(whole ++ fraction).isEmpty)
  let exponent ← match r with
    | [] => some 0
    | c :: r => do
      guard (c == 'e' || c == 'E')
      let (e, rest) ← readExponent? r
      guard rest.isEmpty
      some e
  some (nearestFloat (digitsValue (whole ++ fraction)) (exponent - fraction.length))

/-- The names of numbers without a decimal, in any case. -/
def readNamed? (cs : List Char) : Option Float :=
  let name := cs.map Char.toLower
  if name == ['i', 'n', 'f'] || name == ['i', 'n', 'f', 'i', 'n', 'i', 't', 'y'] then some (1 / 0)
  else if name == ['n', 'a', 'n'] then some (0 / 0)
  else none

/-- A text as the nearest float. -/
def readFloat? (s : String) : Option Float :=
  let (negative, cs) := takeSign s.toList
  ((readDecimal? cs).orElse fun _ => readNamed? cs).map (signed negative)

end SignalPipeline
