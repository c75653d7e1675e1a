import SignalPipeline.Proofs.Decimal.Finite

/-!
# Differences of equal numbers

A finite number less itself is zero, and no tolerance from zero up is below zero: numbers that are
equal do not differ, whatever the tolerance. Of infinite numbers this is not true.

* `Binary64.sub_self`: a finite number less itself.
* `Binary64.not_lt_abs_sub_self`: it is within every tolerance of itself.
-/

namespace SignalPipeline
namespace Binary64

open Float.Model UnpackedFloat

/-- A finite number less itself is zero. -/
theorem sub_self {x : Float} (hx : x.isFinite = true) : x - x = 0 := by
  have hsub : UnpackedFloat.sub Format.binary64 x.toModel.unpack x.toModel.unpack =
      .zero .positive := by
    rcases unpack_of_isFinite hx with ⟨s, hux⟩ | ⟨s, m, e, hm, hux⟩ <;> rw [hux]
    · cases s <;> rfl
    · simp only [UnpackedFloat.sub, UnpackedFloat.normalize, Int.sub_self]
      rfl
  change Float.ofModel (Float.Model.pack (UnpackedFloat.sub Format.binary64 x.toModel.unpack
    x.toModel.unpack)) = _
  rw [hsub]
  rfl

/-- A number from zero up is not below zero. -/
theorem not_lt_zero {x : Float} (h : 0 ≤ x) : ¬ x < 0 := by
  have hle : UnpackedFloat.le (.zero .positive) x.toModel.unpack = true := of_decide_eq_true h
  have hlt : UnpackedFloat.lt x.toModel.unpack (.zero .positive) = false := by
    generalize x.toModel.unpack = u at hle
    cases u with
    | notANumber => rfl
    | zero s => rfl
    | infinity s =>
      cases s with
      | positive => rfl
      | negative => cases hle
    | finite s m e hm =>
      cases s with
      | positive => rfl
      | negative => cases hle
  intro h
  have hlt' : UnpackedFloat.lt x.toModel.unpack (.zero .positive) = true := of_decide_eq_true h
  exact Bool.noConfusion (hlt.symm.trans hlt')

/-- A finite number is within every tolerance of itself. -/
theorem not_lt_abs_sub_self {x bound : Float} (hx : x.isFinite = true) (h : 0 ≤ bound) :
    ¬ bound < (x - x).abs := by
  rw [sub_self hx]
  exact not_lt_zero h

end Binary64
end SignalPipeline
