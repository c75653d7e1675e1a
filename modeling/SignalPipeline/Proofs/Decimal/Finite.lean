import Mathlib
import SignalPipeline.Json.Number

/-!
# Numbers of documents are finite

Every literal that names a number names one that a document can hold: a float that would be too
large is refused. The proof follows the model of floats: a result is finite exactly where it is a
number and its exponent fits, and the exponent of a rounded result is bounded by the place of the
leading digit of what was rounded.

* `Binary64.fits_round`: the exponent of a rounded number.
* `Binary64.isFinite_div`: a finite float divided by a float of at least two is finite.
* `Binary64.isTall_powerOfTen`: the powers of ten are at least two, all but the first.
* `isFinite_scaledFloat?`: what a word is scaled to is finite.
* `Number.valid_ofLiteral?`: the number of a literal is valid.
-/

namespace SignalPipeline

namespace Binary64

open Float.Model UnpackedFloat

/-- The greatest exponent of a finite number. -/
def maxExponent : Int := 971

/-- Numbers with an exponent that fits. -/
def Fits : UnpackedFloat → Prop
  | .notANumber => False
  | .infinity _ => False
  | .zero _ => True
  | .finite _ _ e _ => e ≤ maxExponent

/-! ## Packing -/

theorem isFinite_unpack_iff (b : BitVec Format.binary64.numBits) :
    (unpack Format.binary64 b).isFinite = true ↔ unpackExponent b ≠ (-1#_) := by
  unfold UnpackedFloat.unpack
  dsimp only
  split
  · next h =>
    split
    · exact ⟨nofun, fun hn => absurd h hn⟩
    · exact ⟨nofun, fun hn => absurd h hn⟩
  · next h =>
    split
    · split
      · exact ⟨fun _ => h, fun _ => rfl⟩
      · exact ⟨fun _ => h, fun _ => rfl⟩
    · exact ⟨fun _ => h, fun _ => rfl⟩

/-- The mantissa of a finite number has 53 bits, and its exponent fits. -/
theorem unpack_finite {b : BitVec Format.binary64.numBits} {s : Sign} {m : Nat} {e : Int}
    {hm : 0 < m} (h : unpack Format.binary64 b = .finite s m e hm) :
    m.log2 ≤ 52 ∧ e ≤ maxExponent := by
  have hlog : ∀ n : Nat, 0 < n → n < 2 ^ 53 → n.log2 ≤ 52 := fun n hn hlt =>
    Nat.lt_succ_iff.1 ((Nat.log2_lt (Nat.pos_iff_ne_zero.1 hn)).2 hlt)
  unfold UnpackedFloat.unpack at h
  dsimp only at h
  split at h
  · split at h <;> cases h
  · next hexp =>
    have hlt : (unpackExponent b).toNat < 2047 := by
      have hne : (unpackExponent b).toNat ≠ 2047 := fun he => hexp (BitVec.eq_of_toNat_eq he)
      have := (unpackExponent b).isLt
      simp only [Nat.reducePow] at this
      omega
    split at h
    · next hzero =>
      split at h
      · cases h
      · cases h
        refine ⟨hlog _ hm ?_, ?_⟩
        · exact Nat.lt_trans (unpackMantissa b).isLt (by decide)
        · rw [hzero]
          decide
    · cases h
      refine ⟨hlog _ hm (BitVec.isLt _), ?_⟩
      have hbias : Format.binary64.exponentBias = 1023 := rfl
      rw [hbias, maxExponent]
      omega

/-- Numbers with an exponent that fits are finite when packed. -/
theorem isFinite_pack {u : UnpackedFloat} (h : Fits u) : (Float.Model.pack u).isFinite = true := by
  refine (isFinite_unpack_iff (UnpackedFloat.pack Format.binary64 u)).2 ?_
  cases u with
  | notANumber => exact absurd h id
  | infinity s => exact absurd h id
  | zero s =>
    rw [UnpackedFloat.pack, packedZero, unpackExponent_packComponents]
    decide
  | finite s m e hm =>
    have he : e ≤ 971 := h
    have hbias : Format.binary64.exponentBias = 1023 := rfl
    rw [UnpackedFloat.pack]
    dsimp only
    rw [hbias, if_neg (by omega)]
    split
    · rw [unpackExponent_packComponents]
      intro hn
      have hn := congrArg BitVec.toNat hn
      rw [BitVec.toNat_ofNat] at hn
      change _ = 2047 at hn
      omega
    · rw [unpackExponent_packComponents]
      decide

/-! ## Rounding -/

theorem targetExponent_eq (t : Int) : Format.binary64.targetExponent t = max (t - 53) (-1074) :=
  rfl

theorem mantissa_shiftRight (em : ExtendedMantissa) (k : Nat) :
    (em >>> k).mantissa = em.mantissa / 2 ^ k := by
  induction k with
  | zero => exact (Nat.div_one _).symm
  | succ k ih =>
    change (em >>> k).mantissa / 2 = _
    rw [ih, Nat.div_div_eq_div_mul, ← Nat.pow_succ]

theorem mantissa_ofMantissaAndAccuracy (m : Nat) (acc : Accuracy) :
    (ExtendedMantissa.ofMantissaAndAccuracy m acc).mantissa = m := by
  cases acc with
  | exact => rfl
  | inexact o => cases o <;> rfl

/-- Rounding adds at most one. -/
theorem roundedMantissa_le (em : ExtendedMantissa) : em.roundedMantissa ≤ em.mantissa + 1 := by
  unfold ExtendedMantissa.roundedMantissa
  cases em.accuracy with
  | exact => exact Nat.le_succ _
  | inexact o =>
    cases o with
    | lt => exact Nat.le_succ _
    | gt => exact Nat.le_refl _
    | eq =>
      have := Nat.mod_lt em.mantissa (show 0 < 2 by decide)
      simp only [Accuracy.roundToNearestEven]
      omega

/-- What is rounded at a place keeps its leading digit there or moves it up by one. -/
theorem log2_rounded_le {m r k : Nat} (h : r ≤ m / 2 ^ k + 1) : r.log2 ≤ m.log2 + 1 - k := by
  rcases Nat.eq_zero_or_pos r with rfl | hr
  · exact Nat.zero_le _
  · have hdiv : m / 2 ^ k < 2 ^ (m.log2 + 1 - k) := by
      rw [Nat.div_lt_iff_lt_mul (Nat.two_pow_pos k), ← Nat.pow_add]
      exact Nat.lt_of_lt_of_le Nat.lt_log2_self (Nat.pow_le_pow_right (by decide) (by omega))
    have hlt : r < 2 ^ (m.log2 + 1 - k + 1) := by
      rw [Nat.pow_succ]
      have := Nat.two_pow_pos (m.log2 + 1 - k)
      omega
    exact Nat.lt_succ_iff.1 ((Nat.log2_lt (Nat.pos_iff_ne_zero.1 hr)).2 hlt)

/-- A number whose leading digit does not stand too high is rounded to one that fits. -/
theorem fits_round (s : Sign) {m : Nat} {e : Int} (acc : Accuracy) (he : e ≤ maxExponent)
    (ht : totalExponent m e ≤ 1023) : Fits (roundWithAccuracy Format.binary64 s m e acc) := by
  unfold totalExponent at ht
  unfold maxExponent at he
  unfold roundWithAccuracy shiftToTargetExponent shiftToExponent
  dsimp only
  split
  · exact trivial
  · rw [Fits, maxExponent]
    generalize hk : (Format.binary64.targetExponent (totalExponent m e) - e).toNat = k
    generalize hr : (ExtendedMantissa.ofMantissaAndAccuracy m acc >>> k).roundedMantissa = r
    have hle : r.log2 ≤ m.log2 + 1 - k := by
      refine log2_rounded_le ?_
      rw [← hr]
      have := roundedMantissa_le (ExtendedMantissa.ofMantissaAndAccuracy m acc >>> k)
      rwa [mantissa_shiftRight, mantissa_ofMantissaAndAccuracy] at this
    rw [targetExponent_eq, totalExponent] at hk ⊢
    omega

/-! ## Operations -/

theorem log2_shiftLeft_le (m k : Nat) : (m <<< k).log2 ≤ m.log2 + k := by
  rcases Nat.eq_zero_or_pos (m <<< k) with h | h
  · rw [h]
    exact Nat.zero_le _
  · refine Nat.lt_succ_iff.1 ((Nat.log2_lt (Nat.pos_iff_ne_zero.1 h)).2 ?_)
    rw [Nat.shiftLeft_eq, Nat.succ_eq_add_one, Nat.add_right_comm, Nat.pow_add]
    exact Nat.mul_lt_mul_of_pos_right Nat.lt_log2_self (Nat.two_pow_pos k)

theorem log2_div_le {m n : Nat} (h : m / n ≠ 0) : (m / n).log2 + n.log2 ≤ m.log2 := by
  have hn : n ≠ 0 := by
    rintro rfl
    exact h (Nat.div_zero m)
  have hm : m ≠ 0 := by
    rintro rfl
    exact h (Nat.zero_div n)
  rw [Nat.le_log2 hm, Nat.pow_add]
  calc 2 ^ (m / n).log2 * 2 ^ n.log2
      ≤ m / n * n := Nat.mul_le_mul (Nat.log2_self_le h) (Nat.log2_self_le hn)
    _ ≤ m := Nat.div_mul_le_self m n

theorem fits_ofNat {n : Nat} (h : n < 2 ^ 64) : Fits (UnpackedFloat.ofNat Format.binary64 n) := by
  have hround : ∀ s, Fits (round Format.binary64 s n 0) := by
    intro s
    unfold UnpackedFloat.round decreaseExponent
    dsimp only
    generalize (0 - Format.binary64.targetExponent (totalExponent n 0)).toNat = k
    have hlog : n.log2 ≤ 63 := by
      rcases Nat.eq_zero_or_pos n with rfl | hn
      · decide
      · exact Nat.lt_succ_iff.1 ((Nat.log2_lt (Nat.pos_iff_ne_zero.1 hn)).2 h)
    have hshift := log2_shiftLeft_le n k
    refine fits_round s .exact ?_ ?_
    · unfold maxExponent
      omega
    · unfold totalExponent
      omega
  unfold UnpackedFloat.ofNat UnpackedFloat.ofInt UnpackedFloat.normalize
  split
  · next hlt => exact absurd (Int.compare_eq_lt.1 hlt) (by omega)
  · exact trivial
  · exact hround _

/-- What is packed is finite or infinite, unless it is no number. -/
theorem isFinite_pack_of_not_isInf {u : UnpackedFloat} (hu : u ≠ .notANumber)
    (h : (Float.Model.pack u).isInf = false) : (Float.Model.pack u).isFinite = true := by
  have hinf : ∀ s, (unpack Format.binary64 (packedInfinity Format.binary64 s)).isInf = true := by
    intro s
    cases s <;> decide
  cases u with
  | notANumber => exact absurd rfl hu
  | infinity s => exact Bool.noConfusion (h.symm.trans (hinf s))
  | zero s => exact isFinite_pack trivial
  | finite s m e hm =>
    by_cases he : e ≤ maxExponent
    · exact isFinite_pack he
    · have hpack : UnpackedFloat.pack Format.binary64 (.finite s m e hm) =
          packedInfinity Format.binary64 s := by
        have hbias : Format.binary64.exponentBias = 1023 := rfl
        unfold maxExponent at he
        rw [UnpackedFloat.pack]
        dsimp only
        rw [hbias, if_pos (by omega)]
      have h : (unpack Format.binary64
          (UnpackedFloat.pack Format.binary64 (.finite s m e hm))).isInf = false := h
      rw [hpack] at h
      exact Bool.noConfusion (h.symm.trans (hinf s))

/-- A finite float is a zero or has a mantissa. -/
theorem unpack_of_isFinite {x : Float} (h : x.isFinite = true) :
    (∃ s, x.toModel.unpack = .zero s) ∨ ∃ s m e hm, x.toModel.unpack = .finite s m e hm := by
  have h : x.toModel.unpack.isFinite = true := h
  cases hx : x.toModel.unpack with
  | notANumber => rw [hx] at h; cases h
  | infinity s => rw [hx] at h; cases h
  | zero s => exact .inl ⟨s, rfl⟩
  | finite s m e hm => exact .inr ⟨s, m, e, hm, rfl⟩

/-- A product of finite floats is finite or infinite. -/
theorem isFinite_mul {x y : Float} (hx : x.isFinite = true) (hy : y.isFinite = true)
    (h : (x * y).isInf = false) : (x * y).isFinite = true := by
  refine @isFinite_pack_of_not_isInf
    (UnpackedFloat.mul Format.binary64 x.toModel.unpack y.toModel.unpack) ?_ h
  rcases unpack_of_isFinite hx with ⟨s, hux⟩ | ⟨s, m, e, hm, hux⟩ <;>
    rcases unpack_of_isFinite hy with ⟨s', huy⟩ | ⟨s', m', e', hm', huy⟩ <;> rw [hux, huy]
  · exact nofun
  · exact nofun
  · exact nofun
  · unfold UnpackedFloat.mul roundWithAccuracy
    dsimp only
    split <;> exact nofun

/-- The negative of a finite float is finite. -/
theorem isFinite_neg {x : Float} (hx : x.isFinite = true) : (-x).isFinite = true := by
  refine @isFinite_pack x.toModel.unpack.neg ?_
  rcases unpack_of_isFinite hx with ⟨s, hux⟩ | ⟨s, m, e, hm, hux⟩
  · rw [hux]
    exact trivial
  · have hfits := (unpack_finite hux).2
    rw [hux]
    exact hfits

/-- The place of the leading digit of a number, zero where it has none. -/
def leadingPlace : UnpackedFloat → Int
  | .finite _ m e _ => totalExponent m e
  | _ => 0

/-- Floats whose magnitude is at least two. -/
def IsTall (x : Float) : Prop :=
  2 ≤ leadingPlace x.toModel.unpack

instance (x : Float) : Decidable (IsTall x) :=
  inferInstanceAs (Decidable (2 ≤ leadingPlace x.toModel.unpack))

theorem IsTall.exists_unpack {x : Float} (h : IsTall x) :
    ∃ s m e hm, x.toModel.unpack = .finite s m e hm ∧ 2 ≤ totalExponent m e := by
  have hzero : ¬ (2 : Int) ≤ 0 := by decide
  unfold IsTall at h
  cases hx : x.toModel.unpack with
  | notANumber => rw [hx] at h; exact absurd h hzero
  | infinity s => rw [hx] at h; exact absurd h hzero
  | zero s => rw [hx] at h; exact absurd h hzero
  | finite s m e hm => rw [hx] at h; exact ⟨s, m, e, hm, rfl, h⟩

/-- A finite float divided by a float of at least two is finite. -/
theorem isFinite_div {x y : Float} (hx : x.isFinite = true) (hy : IsTall y) :
    (x / y).isFinite = true := by
  refine @isFinite_pack (UnpackedFloat.div Format.binary64 x.toModel.unpack y.toModel.unpack) ?_
  obtain ⟨s₂, m₂, e₂, hm₂, huy, htall⟩ := hy.exists_unpack
  rcases unpack_of_isFinite hx with ⟨s₁, hux⟩ | ⟨s₁, m₁, e₁, hm₁, hux⟩
  · rw [hux, huy]
    exact trivial
  · obtain ⟨hlog, hexp⟩ := unpack_finite hux
    unfold totalExponent at htall
    unfold maxExponent at hexp
    -- the place of the last digit of the quotient
    obtain ⟨place, hplace⟩ : ∃ place, place = min (e₁ - e₂)
      (Format.binary64.targetExponent (totalExponent m₁ e₁ - totalExponent m₂ e₂)) := ⟨_, rfl⟩
    have hdiv : UnpackedFloat.div Format.binary64 (.finite s₁ m₁ e₁ hm₁) (.finite s₂ m₂ e₂ hm₂) =
        roundWithAccuracy Format.binary64 (s₁ / s₂) (m₁ <<< (e₁ - e₂ - place).toNat / m₂) place
          (accuracyOfFraction (m₁ <<< (e₁ - e₂ - place).toNat % m₂) m₂) := by
      rw [hplace]
      rfl
    rw [hux, huy, hdiv]
    rw [targetExponent_eq, totalExponent, totalExponent] at hplace
    have hshift := log2_shiftLeft_le m₁ (e₁ - e₂ - place).toNat
    refine fits_round _ _ ?_ ?_
    · unfold maxExponent
      omega
    · unfold totalExponent
      by_cases hq : m₁ <<< (e₁ - e₂ - place).toNat / m₂ = 0
      · rw [hq, Nat.log2_zero]
        omega
      · have := log2_div_le hq
        omega

/-! ## Powers of ten -/

theorem log2_div_two_pow {m k : Nat} (hm : m ≠ 0) (h : k ≤ m.log2) :
    (m / 2 ^ k).log2 = m.log2 - k := by
  have hpos : 0 < 2 ^ k := Nat.two_pow_pos k
  have hle : 2 ^ (m.log2 - k) ≤ m / 2 ^ k := by
    rw [Nat.le_div_iff_mul_le hpos, ← Nat.pow_add, Nat.sub_add_cancel h]
    exact Nat.log2_self_le hm
  have hlt : m / 2 ^ k < 2 ^ (m.log2 - k + 1) := by
    rw [Nat.div_lt_iff_lt_mul hpos, ← Nat.pow_add, Nat.add_right_comm, Nat.sub_add_cancel h]
    exact Nat.lt_log2_self
  have hne : m / 2 ^ k ≠ 0 := Nat.pos_iff_ne_zero.1 (Nat.lt_of_lt_of_le (Nat.two_pow_pos _) hle)
  exact (Nat.log2_eq_iff hne).2 ⟨hle, hlt⟩

theorem le_roundedMantissa (em : ExtendedMantissa) : em.mantissa ≤ em.roundedMantissa := by
  unfold ExtendedMantissa.roundedMantissa
  cases em.accuracy with
  | exact => exact Nat.le_refl _
  | inexact o =>
    cases o with
    | lt => exact Nat.le_refl _
    | gt => exact Nat.le_succ _
    | eq => exact Nat.le_add_right _ _

/-- A number of at least 53 bits that is not too small is rounded to 53 bits. -/
theorem round_normal (s : Sign) {m : Nat} {e : Int} (acc : Accuracy) (hm : 52 ≤ m.log2)
    (ht : -1021 ≤ totalExponent m e) : ∃ m' e' hm',
      roundWithAccuracy Format.binary64 s m e acc = .finite s m' e' hm' ∧ m'.log2 = 52 ∧
        totalExponent m e ≤ totalExponent m' e' := by
  unfold roundWithAccuracy shiftToTargetExponent shiftToExponent
  dsimp only
  rw [targetExponent_eq, targetExponent_eq]
  unfold totalExponent at ht ⊢
  generalize hk : (max ((m.log2 : Int) + 1 + e - 53) (-1074) - e).toNat = k
  generalize hr : (ExtendedMantissa.ofMantissaAndAccuracy m acc >>> k).roundedMantissa = r
  generalize hk₂ :
    (max ((r.log2 : Int) + 1 + (e + k) - 53) (-1074) - (e + k)).toNat = k₂
  have hm0 : m ≠ 0 := by
    rintro rfl
    exact absurd hm (by decide)
  have hquot : 2 ^ 52 ≤ m / 2 ^ k := by
    have hlog := log2_div_two_pow hm0 (show k ≤ m.log2 by omega)
    have hne : m / 2 ^ k ≠ 0 := by
      intro h0
      rw [h0, Nat.log2_zero] at hlog
      omega
    rw [← Nat.le_log2 hne]
    omega
  have hle : m / 2 ^ k ≤ r := by
    rw [← hr]
    have := le_roundedMantissa (ExtendedMantissa.ofMantissaAndAccuracy m acc >>> k)
    rwa [mantissa_shiftRight, mantissa_ofMantissaAndAccuracy] at this
  have hr0 : r ≠ 0 := by omega
  have hlog : 52 ≤ r.log2 := (Nat.le_log2 hr0).2 (Nat.le_trans hquot hle)
  have hfinal : (r / 2 ^ k₂).log2 = 52 := by
    rw [log2_div_two_pow hr0 (by omega)]
    omega
  have hne : r / 2 ^ k₂ ≠ 0 := by
    intro h0
    rw [h0] at hfinal
    exact absurd hfinal (by decide)
  rw [mantissa_shiftRight, mantissa_ofMantissaAndAccuracy, dif_neg hne]
  exact ⟨_, _, _, rfl, hfinal, by omega⟩

theorem le_leadingPlace_unpack {b : BitVec Format.binary64.numBits}
    (hlow : 0 < (unpackExponent b).toNat) (hhigh : (unpackExponent b).toNat < 2047) :
    ((unpackExponent b).toNat : Int) - 1022 ≤ leadingPlace (unpack Format.binary64 b) := by
  have hbias : Format.binary64.exponentBias = 1023 := rfl
  unfold UnpackedFloat.unpack
  dsimp only
  split
  · next h =>
    rw [h] at hhigh
    exact absurd hhigh (by decide)
  · split
    · next h =>
      rw [h] at hlow
      exact absurd hlow (by decide)
    · have hbit : 2 ^ 52 ≤ (1#1 ++ unpackMantissa b).toNat := by
        rw [BitVec.toNat_append]
        exact Nat.left_le_or
      have hlog : 52 ≤ (1#1 ++ unpackMantissa b).toNat.log2 :=
        (Nat.le_log2 (by omega)).2 hbit
      rw [leadingPlace, totalExponent, hbias]
      omega

/-- A normal number of at least two is packed into a tall float. -/
theorem isTall_pack {s : Sign} {m : Nat} {e : Int} {hm : 0 < m} (hlog : m.log2 = 52)
    (he : e ≤ maxExponent) (ht : 2 ≤ totalExponent m e) :
    IsTall (.ofModel (.pack (.finite s m e hm))) := by
  have hbias : Format.binary64.exponentBias = 1023 := rfl
  unfold totalExponent at ht
  unfold maxExponent at he
  have hexp : (unpackExponent (UnpackedFloat.pack Format.binary64 (.finite s m e hm))).toNat =
      (e + 1075).toNat := by
    rw [UnpackedFloat.pack]
    dsimp only
    rw [hbias, if_neg (by omega), if_pos (by rw [hlog]; rfl), unpackExponent_packComponents,
      BitVec.toNat_ofNat, Nat.mod_eq_of_lt (by omega)]
    omega
  have h := @le_leadingPlace_unpack (UnpackedFloat.pack Format.binary64 (.finite s m e hm))
    (by omega) (by omega)
  rw [hexp] at h
  exact Int.le_trans (by omega) h

/-- A power of ten that stands in no table is a rounded product. -/
theorem powerOfTen_eq {k : Nat} (hlow : 22 < k) (hhigh : k ≤ 308) :
    powerOfTen k = .ofModel (.pack (roundWithAccuracy Format.binary64 (.positive * .positive)
      (1 <<< 53 * 10 ^ k) (-53 + 0) .exact)) := by
  have hlarge : ¬ (k : Int) > 2 ^ Format.binary64.exponentBits := by
    change ¬ (k : Int) > 2048
    omega
  have hsmall : ¬ (k : Int) < -((2 ^ Format.binary64.exponentBits : Int) + (1 : Nat).log2) := by
    change ¬ (k : Int) < -2048
    omega
  have hmodel : UnpackedFloat.ofScientific Format.binary64 1 k =
      roundWithAccuracy Format.binary64 (.positive * .positive) (1 <<< 53 * 10 ^ k) (-53 + 0)
        .exact := by
    unfold UnpackedFloat.ofScientific
    rw [dif_neg (by decide), if_neg hlarge, if_neg hsmall, if_pos (by omega)]
    rfl
  unfold powerOfTen Float.ofScientific
  rw [dif_neg (by omega), ← hmodel]
  rfl

theorem log2_powerOfTen {k : Nat} (hlow : 1 ≤ k) (hhigh : k ≤ 307) :
    54 ≤ (1 <<< 53 * 10 ^ k).log2 ∧ (1 <<< 53 * 10 ^ k).log2 ≤ 1075 := by
  have hten : 10 ^ 1 ≤ 10 ^ k := Nat.pow_le_pow_right (by decide) hlow
  have hmost : ∀ n, k ≤ n → 10 ^ k ≤ 10 ^ n := fun n => Nat.pow_le_pow_right (by decide)
  have hne : 1 <<< 53 * 10 ^ k ≠ 0 := by
    rw [Nat.shiftLeft_eq]
    omega
  constructor
  · rw [Nat.le_log2 hne, Nat.shiftLeft_eq]
    omega
  · refine Nat.lt_succ_iff.1 ((Nat.log2_lt (k := 1076) hne).2 ?_)
    rw [Nat.shiftLeft_eq]
    calc 1 * 2 ^ 53 * 10 ^ k ≤ 1 * 2 ^ 53 * 10 ^ 307 := Nat.mul_le_mul_left _ (hmost 307 hhigh)
      _ < 2 ^ 1076 := by decide +kernel

theorem isFinite_powerOfTen {k : Nat} (h : k ≤ 308) : (powerOfTen k).isFinite = true := by
  have htable : ∀ k < 23, (powerOfTen k).isFinite = true := by decide +kernel
  by_cases hlow : k < 23
  · exact htable k hlow
  · by_cases hk : k = 308
    · rw [hk]
      decide +kernel
    · have hlog := (@log2_powerOfTen k (by omega) (by omega)).2
      rw [powerOfTen_eq (by omega) h]
      refine isFinite_pack (fits_round _ _ ?_ ?_)
      · decide
      · unfold totalExponent
        omega

/-- A power of ten other than one is tall. -/
theorem isTall_powerOfTen {k : Nat} (hlow : 1 ≤ k) (hhigh : k ≤ 308) : IsTall (powerOfTen k) := by
  have htable : ∀ k < 23, 1 ≤ k → IsTall (powerOfTen k) := by decide +kernel
  by_cases hk : k < 23
  · exact htable k hk hlow
  · by_cases hk' : k = 308
    · rw [hk']
      decide +kernel
    · have hlog := @log2_powerOfTen k hlow (by omega)
      have htotal : 2 ≤ totalExponent (1 <<< 53 * 10 ^ k) (-53 + 0) := by
        unfold totalExponent
        omega
      obtain ⟨m, e, hm, hround, hm52, hle⟩ :=
        @round_normal (.positive * .positive) (1 <<< 53 * 10 ^ k) (-53 + 0) .exact (by omega)
          (by omega)
      have hfits := @fits_round (.positive * .positive) (1 <<< 53 * 10 ^ k) (-53 + 0) .exact
        (by decide) (by unfold totalExponent; omega)
      rw [powerOfTen_eq (by omega) hhigh, hround]
      rw [hround] at hfits
      exact isTall_pack hm52 hfits (Int.le_trans htotal hle)

/-- A word as a float is finite. -/
theorem isFinite_ofWord (n : UInt64) : n.toFloat.isFinite = true :=
  isFinite_pack (fits_ofNat n.toNat_lt)

end Binary64

/-! ## Numbers of literals -/

theorem isFinite_signed {x : Float} (negative : Bool) (h : x.isFinite = true) :
    (signed negative x).isFinite = true := by
  cases negative with
  | false => exact h
  | true => exact Binary64.isFinite_neg h

/-- What a word is scaled to is finite. -/
theorem isFinite_scaledFloat? {word : Nat} {exponent : Int} {x : Float}
    (h : scaledFloat? word exponent = some x) : x.isFinite = true := by
  have hword := Binary64.isFinite_ofWord word.toUInt64
  unfold scaledFloat? greatestPower at h
  dsimp only at h
  split at h
  · cases h
    exact hword
  · split at h
    · split at h
      · cases h
      · next hsmall =>
        rw [Bool.or_eq_true, decide_eq_true_eq, not_or, Bool.not_eq_true] at hsmall
        cases h
        exact Binary64.isFinite_mul hword (Binary64.isFinite_powerOfTen (by omega)) hsmall.2
    · split at h
      · cases h
        exact Binary64.isFinite_div hword (Binary64.isTall_powerOfTen (by omega) (by omega))
      · split at h
        · cases h
          refine Binary64.isFinite_div ?_ (Binary64.isTall_powerOfTen (by omega) (by omega))
          exact Binary64.isFinite_div hword (Binary64.isTall_powerOfTen (by decide) (by decide))
        · cases h
          decide +kernel

namespace Number

/-- Digits are taken up only as long as the number fits a word. -/
theorem absorbDigits_lt (cs : List Char) {n : Nat} (h : n < wordLimit) :
    (absorbDigits n cs).1 < wordLimit := by
  induction cs generalizing n with
  | nil => exact h
  | cons c cs ih =>
    rw [absorbDigits]
    split
    · next hlt => exact ih hlt
    · exact h

/-- The number of a literal is one that a document can hold. -/
theorem valid_ofLiteral? {l : Literal} {n : Number} (h : ofLiteral? l = some n) : n.Valid := by
  have hword : (absorbDigits 0 l.whole).1 < wordLimit := absorbDigits_lt l.whole (by decide)
  unfold ofLiteral? at h
  dsimp only at h
  split at h
  · cases h
    rw [Valid, fits, Bool.and_eq_true, decide_eq_true_eq, decide_eq_true_eq]
    unfold signedLimit
    omega
  · split at h
    · next hfits =>
      rw [Bool.and_eq_true, decide_eq_true_eq] at hfits
      cases h
      rw [Valid, fits, Bool.and_eq_true, decide_eq_true_eq, decide_eq_true_eq]
      exact ⟨Int.neg_le_neg (Int.ofNat_le.2 hfits.2), by unfold wordLimit; omega⟩
    · obtain ⟨x, hx, rfl⟩ := Option.map_eq_some_iff.1 h
      exact isFinite_signed l.negative (isFinite_scaledFloat? hx)

/-- The nearest float of a number is finite. -/
theorem isFinite_toFloat {n : Number} (h : n.Valid) : n.toFloat.isFinite = true := by
  cases n with
  | integer i => exact isFinite_signed _ (Binary64.isFinite_ofWord _)
  | real x => exact h

end Number

end SignalPipeline
