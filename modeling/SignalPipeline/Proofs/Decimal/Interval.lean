import SignalPipeline.Proofs.Decimal.Finite

/-!
# Rounding intervals

The reals that are nearest to a finite binary64 number fill an interval around it. Intervals of
different numbers do not meet: where two of them touch, one of the two mantissas is odd, so that
its interval is open.

* `Binary64.Placed`: mantissas and exponents of finite numbers.
* `Binary64.ofFloat_injective`: a finite float has no other's exact value.
* `Shortest.Interval.Holds`: the rationals in an interval.
* `Shortest.eq_of_holds`: intervals of different numbers do not meet.
-/

namespace SignalPipeline

namespace Binary64

/-! ## Finite numbers -/

/-- Mantissas and exponents of finite numbers: only with the least exponent is the mantissa
short. -/
structure Placed (m : Nat) (q : Int) : Prop where
  narrow : m < 2 * hiddenBit
  least : minExponent ≤ q
  short : m < hiddenBit → q = minExponent

/-- The exact value of a bit pattern with an exponent that is not the greatest is finite. -/
theorem exists_finite_ofBits {bits : Nat} (h : bits / hiddenBit % 2048 ≠ 2047) :
    ∃ negative m q, ofBits bits = .finite negative m q ∧ Placed m q := by
  have hfraction : bits % hiddenBit < hiddenBit := Nat.mod_lt _ (by decide)
  rw [ofBits, if_neg (by simpa using h)]
  split
  · exact ⟨_, _, _, rfl, by omega, Int.le_refl _, fun _ => rfl⟩
  · next hzero =>
    have hpos : bits / hiddenBit % 2048 ≠ 0 := by simpa using hzero
    refine ⟨_, _, _, rfl, by omega, ?_, fun hlt => absurd hlt (by omega)⟩
    rw [minExponent]
    omega

/-- A finite value has no other bit pattern. -/
theorem ofBits_injective {a b : Nat} (ha : a < 2 ^ 64) (hb : b < 2 ^ 64) {negative : Bool}
    {m : Nat} {q : Int} (h : ofBits a = .finite negative m q) (he : ofBits b = ofBits a) :
    a = b := by
  -- a value has its sign, its biased exponent and its fraction from the bits
  have hparts : ∀ bits, ofBits bits = .finite negative m q →
      (bits >>> 63 % 2 == 1) = negative ∧
        bits / hiddenBit % 2048 = (if m < hiddenBit then 0 else (q + 1075).toNat) ∧
        bits % hiddenBit = (if m < hiddenBit then m else m - hiddenBit) := by
    intro bits hbits
    have hfraction : bits % hiddenBit < hiddenBit := Nat.mod_lt _ (by decide)
    rw [ofBits] at hbits
    split at hbits
    · split at hbits <;> cases hbits
    · split at hbits
      · next hzero =>
        cases hbits
        rw [if_pos hfraction, if_pos hfraction]
        exact ⟨rfl, by simpa using hzero, rfl⟩
      · cases hbits
        rw [if_neg (by omega), if_neg (by omega)]
        exact ⟨rfl, by omega, by omega⟩
  obtain ⟨hsign, hexponent, hfraction⟩ := hparts a h
  obtain ⟨hsign', hexponent', hfraction'⟩ := hparts b (he.trans h)
  have hbit : a >>> 63 % 2 = b >>> 63 % 2 := by
    have hiff := Bool.eq_iff_iff.1 (hsign.trans hsign'.symm)
    simp only [beq_iff_eq] at hiff
    omega
  rw [Nat.shiftRight_eq_div_pow, Nat.shiftRight_eq_div_pow] at hbit
  unfold hiddenBit at *
  omega

theorem exponent_ne_of_isFinite {x : Float} (h : x.isFinite = true) :
    x.toBits.toNat / hiddenBit % 2048 ≠ 2047 := by
  intro he
  refine (isFinite_unpack_iff x.toModel.toBits.toBitVec).1 h (BitVec.eq_of_toNat_eq ?_)
  rw [Float.Model.UnpackedFloat.unpackExponent]
  change BitVec.toNat (BitVec.extractLsb _ _ _) = 2047
  rw [BitVec.extractLsb_toNat, Nat.shiftRight_eq_div_pow]
  exact he

/-- The exact value of a finite float. -/
theorem exists_finite_ofFloat {x : Float} (h : x.isFinite = true) :
    ∃ negative m q, ofFloat x = .finite negative m q ∧ Placed m q :=
  exists_finite_ofBits (exponent_ne_of_isFinite h)

/-- A finite float has no other's exact value. -/
theorem ofFloat_injective {x y : Float} (h : x.isFinite = true) (he : ofFloat x = ofFloat y) :
    x = y := by
  obtain ⟨negative, m, q, hx, -⟩ := exists_finite_ofFloat h
  have hbits : x.toBits.toNat = y.toBits.toNat :=
    ofBits_injective x.toBits.toNat_lt y.toBits.toNat_lt hx he.symm
  obtain ⟨⟨a, hvalid⟩⟩ := x
  obtain ⟨⟨b, hvalid'⟩⟩ := y
  cases UInt64.toNat_inj.1 hbits
  rfl

end Binary64

/-! ## Intervals -/

/-- The value of a decimal. -/
def Scientific.value (d : Scientific) : ℚ :=
  d.digits * 10 ^ d.exponent

theorem powerRatio_eq {b : Nat} (hb : 0 < b) (e : Int) :
    (b : ℚ) ^ e = (powerRatio b e).1 / (powerRatio b e).2 := by
  have hb' : (b : ℚ) ≠ 0 := by positivity
  rcases Int.le_total 0 e with h | h
  · obtain ⟨n, rfl⟩ := Int.eq_ofNat_of_zero_le h
    simp [powerRatio]
  · obtain ⟨n, hn⟩ := Int.eq_ofNat_of_zero_le (Int.neg_nonneg_of_nonpos h)
    obtain rfl : e = -n := by omega
    simp [powerRatio, zpow_neg]

namespace Shortest

open Binary64

/-- The rationals in an interval. -/
def Interval.Holds (i : Interval) (r : ℚ) : Prop :=
  if i.closed then i.low * 2 ^ i.unit ≤ r ∧ r ≤ i.high * 2 ^ i.unit
  else i.low * 2 ^ i.unit < r ∧ r < i.high * 2 ^ i.unit

theorem Interval.Holds.bounds {i : Interval} {r : ℚ} (h : i.Holds r) :
    i.low * 2 ^ i.unit ≤ r ∧ r ≤ i.high * 2 ^ i.unit := by
  unfold Holds at h
  split at h
  · exact h
  · exact ⟨h.1.le, h.2.le⟩

/-- Multiples of powers of two numbers are compared in whole numbers. -/
theorem mul_powerRatio_le_iff {b c : Nat} (hb : 0 < b) (hc : 0 < c) (x y : Nat) (e k : Int) :
    x * ((powerRatio b e).1 * (powerRatio c k).2) ≤
      y * ((powerRatio c k).1 * (powerRatio b e).2) ↔ (x : ℚ) * b ^ e ≤ y * c ^ k := by
  have hdiv : (0 : ℚ) < (powerRatio b e).2 := by exact_mod_cast (powerRatio_pos hb e).2
  have hdiv' : (0 : ℚ) < (powerRatio c k).2 := by exact_mod_cast (powerRatio_pos hc k).2
  rw [powerRatio_eq hb, powerRatio_eq hc, ← mul_div_assoc, ← mul_div_assoc,
    div_le_div_iff₀ hdiv hdiv', mul_assoc, mul_assoc]
  norm_cast

theorem two_le_ten_iff (x y : Nat) (e k : Int) :
    x * ((powerRatio 2 e).1 * (powerRatio 10 k).2) ≤
      y * ((powerRatio 10 k).1 * (powerRatio 2 e).2) ↔ (x : ℚ) * 2 ^ e ≤ y * 10 ^ k := by
  exact_mod_cast mul_powerRatio_le_iff (b := 2) (c := 10) (by decide) (by decide) x y e k

theorem ten_le_two_iff (x y : Nat) (e k : Int) :
    y * ((powerRatio 10 k).1 * (powerRatio 2 e).2) ≤
      x * ((powerRatio 2 e).1 * (powerRatio 10 k).2) ↔ (y : ℚ) * 10 ^ k ≤ x * 2 ^ e := by
  exact_mod_cast mul_powerRatio_le_iff (b := 10) (c := 2) (by decide) (by decide) y x k e

/-- The test in whole numbers is the membership in the interval. -/
theorem Interval.covers_iff (i : Interval) (k : Int) (c : Nat) :
    i.covers ((powerRatio 2 i.unit).1 * (powerRatio 10 k).2)
      ((powerRatio 10 k).1 * (powerRatio 2 i.unit).2) c = true ↔ i.Holds (c * 10 ^ k) := by
  rw [Interval.covers, Interval.Holds]
  split
  · rw [Bool.and_eq_true, decide_eq_true_eq, decide_eq_true_eq, two_le_ten_iff, ten_le_two_iff]
  · rw [Bool.and_eq_true, decide_eq_true_eq, decide_eq_true_eq, ← not_le, ← not_le,
      two_le_ten_iff, ten_le_two_iff, not_le, not_le]

variable {m n : Nat} {q p : Int} {r : ℚ}

theorem four_mul_le_low (m : Nat) (q : Int) : 4 * m ≤ (interval m q).low + 2 := by
  rw [interval]
  dsimp only
  split <;> omega

/-- Above the numbers with the least exponent the interval of a power of two is narrower below. -/
theorem four_mul_le_low_of_lt (hn : Placed n p) (h : minExponent < p) :
    4 * hiddenBit ≤ (interval n p).low + 1 := by
  have hge : hiddenBit ≤ n := by
    by_contra hlt
    have := hn.short (by omega)
    omega
  rw [interval]
  dsimp only
  split
  · omega
  · next hother =>
    simp only [Bool.and_eq_true, beq_iff_eq, bne_iff_ne, ne_eq, not_and, not_not] at hother
    have : n ≠ hiddenBit := fun he => by
      have := hother he
      omega
    omega

/-- The interval of an odd mantissa is open. -/
theorem holds_odd (hodd : m % 2 = 1) (h : (interval m q).Holds r) :
    (interval m q).low * 2 ^ (q - 2) < r ∧ r < (4 * m + 2 : Nat) * 2 ^ (q - 2) := by
  have hopen : (interval m q).closed = false := by simp [interval, hodd]
  rwa [Interval.Holds, hopen] at h

/-- What lies in an interval is below every multiple of its unit from the end on, the end itself
only if the mantissa is odd. -/
theorem lt_of_holds (h : (interval m q).Holds r) {bound : Nat} (hle : 4 * m + 2 ≤ bound)
    (heven : m % 2 = 0 → 4 * m + 2 < bound) : r < bound * 2 ^ (q - 2) := by
  have hunit : (0 : ℚ) < 2 ^ (q - 2) := by positivity
  rcases Nat.mod_two_eq_zero_or_one m with hm | hm
  · have hlt : ((4 * m + 2 : Nat) : ℚ) < bound := by exact_mod_cast heven hm
    exact lt_of_le_of_lt h.bounds.2 (mul_lt_mul_of_pos_right hlt hunit)
  · have hle : ((4 * m + 2 : Nat) : ℚ) ≤ bound := by exact_mod_cast hle
    exact lt_of_lt_of_le (holds_odd hm h).2 (mul_le_mul_of_nonneg_right hle hunit.le)

/-- A number with a smaller exponent lies below the interval. -/
theorem not_holds_of_exponent_lt (hm : Placed m q) (hn : Placed n p) (hlt : q < p)
    (h : (interval m q).Holds r) : ¬ (interval n p).Holds r := by
  intro h'
  have hnarrow := hm.narrow
  have hlow : 4 * hiddenBit ≤ (interval n p).low + 1 :=
    four_mul_le_low_of_lt hn (Int.lt_of_le_of_lt hm.least hlt)
  have hdouble : 2 * (2 : ℚ) ^ (q - 2) ≤ 2 ^ (p - 2) := by
    rw [← zpow_one_add₀ (by norm_num)]
    exact zpow_le_zpow_right₀ (by norm_num) (by omega)
  have hbelow : r < (8 * hiddenBit - 2 : Nat) * 2 ^ (q - 2) :=
    lt_of_holds h (by omega) (by unfold hiddenBit at *; omega)
  refine absurd (hbelow.trans_le ?_) (lt_irrefl r)
  calc ((8 * hiddenBit - 2 : Nat) : ℚ) * 2 ^ (q - 2)
      = (4 * hiddenBit - 1 : Nat) * (2 * 2 ^ (q - 2)) := by
        unfold hiddenBit
        push_cast
        ring
    _ ≤ (interval n p).low * 2 ^ (p - 2) := by
        refine mul_le_mul ?_ hdouble (by positivity) (by positivity)
        exact_mod_cast (by omega : 4 * hiddenBit - 1 ≤ (interval n p).low)
    _ ≤ r := h'.bounds.1

/-- A number with the same exponent and a smaller mantissa lies below the interval. -/
theorem not_holds_of_mantissa_lt (hlt : m < n) (h : (interval m q).Holds r) :
    ¬ (interval n q).Holds r := by
  intro h'
  have hunit : (0 : ℚ) < 2 ^ (q - 2) := by positivity
  have hlow := four_mul_le_low n q
  rcases Nat.mod_two_eq_zero_or_one n with hn | hn
  · exact absurd h'.bounds.1 (not_le.2 (lt_of_holds h (by omega) (by omega)))
  · have hle : ((4 * m + 2 : Nat) : ℚ) ≤ (interval n q).low := by exact_mod_cast (by omega)
    have habove : (interval n q).low * (2 : ℚ) ^ (q - 2) < r := (holds_odd hn h').1
    have hbelow : r ≤ (4 * m + 2 : Nat) * 2 ^ (q - 2) := h.bounds.2
    exact absurd (hbelow.trans (mul_le_mul_of_nonneg_right hle hunit.le)) (not_le.2 habove)

/-- The intervals of different numbers do not meet. -/
theorem eq_of_holds (hm : Placed m q) (hn : Placed n p) (h : (interval m q).Holds r)
    (h' : (interval n p).Holds r) : m = n ∧ q = p := by
  rcases Int.lt_trichotomy q p with hlt | rfl | hlt
  · exact absurd h' (not_holds_of_exponent_lt hm hn hlt h)
  · rcases Nat.lt_trichotomy m n with hlt | rfl | hlt
    · exact absurd h' (not_holds_of_mantissa_lt hlt h)
    · exact ⟨rfl, rfl⟩
    · exact absurd h (not_holds_of_mantissa_lt hlt h')
  · exact absurd h (not_holds_of_exponent_lt hn hm hlt h')

end Shortest
end SignalPipeline
