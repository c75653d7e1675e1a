/-!
# Exact values of binary64 numbers

A finite binary64 number is a signed dyadic `± mantissa · 2 ^ exponent`; the other bit patterns
are the infinities and the one value that is no number. All texts of floats are computed from this
exact form in natural-number arithmetic.

* `Binary64.ofFloat`: the exact value of a `Float`, read off its bits.
-/

namespace SignalPipeline

/-- The exact value of a binary64 number. -/
inductive Binary64 where
  /-- The number `± mantissa · 2 ^ exponent`. -/
  | finite (negative : Bool) (mantissa : Nat) (exponent : Int)
  | infinite (negative : Bool)
  | notANumber
  deriving Repr, DecidableEq

namespace Binary64

/-- The least exponent, that of the subnormal numbers. -/
def minExponent : Int := -1074

/-- The mantissa of a power of two that is not subnormal: below it the spacing halves. -/
def hiddenBit : Nat := 0x10000000000000

/-- The exact value of a bit pattern. -/
def ofBits (bits : Nat) : Binary64 :=
  let negative := bits >>> 63 % 2 == 1
  let exponent := bits / hiddenBit % 2048
  let fraction := bits % hiddenBit
  if exponent == 2047 then
    if fraction == 0 then .infinite negative else .notANumber
  else if exponent == 0 then .finite negative fraction minExponent
  else .finite negative (fraction + hiddenBit) ((exponent : Int) - 1075)

/-- The exact value of a float. -/
def ofFloat (x : Float) : Binary64 :=
  ofBits x.toBits.toNat

end Binary64

/-- Natural-number powers standing for `b ^ e` with an integer exponent: the value is the first
divided by the second, and one of the two is `1`. -/
def powerRatio (b : Nat) (e : Int) : Nat × Nat :=
  (Nat.pow b e.toNat, Nat.pow b (-e).toNat)

theorem powerRatio_pos {b : Nat} (hb : 0 < b) (e : Int) :
    0 < (powerRatio b e).1 ∧ 0 < (powerRatio b e).2 :=
  ⟨Nat.pow_pos hb, Nat.pow_pos hb⟩

end SignalPipeline
