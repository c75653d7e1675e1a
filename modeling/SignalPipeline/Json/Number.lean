import SignalPipeline.Decimal.Format
import SignalPipeline.Decimal.Reading

/-!
# Numbers of documents

A number is an integer where its literal has neither point nor exponent and fits 64 bits, signed
or unsigned; every other literal is a float. `1` and `1.0` are different numbers.

* `Number.ofLiteral?`: the number that a literal names, none where it is too large for a float.
* `Number.text`: the literal of a number.
-/

namespace SignalPipeline

/-- A number of a document. -/
inductive Number where
  /-- A whole number from `-2 ^ 63` up to but not including `2 ^ 64`. -/
  | integer (i : Int)
  /-- A finite float. -/
  | real (x : Float)
  deriving BEq

namespace Number

instance : Inhabited Number := ⟨.integer 0⟩

/-- Whether an integer fits 64 bits, signed or unsigned. -/
def fits (i : Int) : Bool :=
  -signedLimit ≤ i && i < wordLimit

/-- A number that a document can hold. -/
def Valid : Number → Prop
  | .integer i => fits i = true
  | .real x => x.isFinite = true

/-- A literal in its parts: sign, digits before and after the point, exponent. -/
structure Literal where
  negative : Bool
  whole : List Char
  fraction : Option (List Char)
  exponent : Option Int

/-- The number that a literal names. -/
def ofLiteral? (l : Literal) : Option Number :=
  let (word, left) := absorbDigits 0 l.whole
  let integral := l.fraction.isNone && l.exponent.isNone && left.isEmpty
  if integral && !l.negative then some (.integer word)
  else if integral && word != 0 && word ≤ signedLimit then some (.integer (-(word : Int)))
  else
    let fraction := l.fraction.getD []
    let (word, rest) := absorbDigits word fraction
    let shift : Int := left.length - (fraction.length - rest.length)
    (scaledFloat? word (shift + l.exponent.getD 0)).map fun x => .real (signed l.negative x)

/-- The characters of a number. -/
def chars : Number → List Char
  | .integer i => (if i < 0 then ['-'] else []) ++ Nat.toDigits 10 i.natAbs
  | .real x => FloatFormat.document.render (.ofFloat x)

/-- The literal of a number. -/
def text (n : Number) : String :=
  String.ofList n.chars

/-- The nearest float of a number. -/
def toFloat : Number → Float
  | .integer i => signed (i < 0) i.natAbs.toUInt64.toFloat
  | .real x => x

end Number

end SignalPipeline
