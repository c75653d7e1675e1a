import SignalPipeline.Proofs.Decimal.Interval

/-!
# The shortest decimal lies in the interval of its number

On a decimal grid that is finer than an interval is wide, one of the two neighbours of the number
is in the interval. The grid of seventeen digits is that fine for every finite number.

* `Shortest.onGrid?_cases`: what is found on a grid lies in the interval.
* `Shortest.onGrid?_ne_none`: on a fine grid something is found.
* `shortest_holds`: the shortest decimal of a finite number.
-/

namespace SignalPipeline

namespace Scientific

theorem lt_pow_digitCount (n : Nat) : n < 10 ^ digitCount n :=
  (Nat.length_toDigits_le_iff (by decide) Nat.length_toDigits_pos).1 (Nat.le_refl _)

theorem pow_digitCount_le {n : Nat} (hn : 0 < n) : 10 ^ (digitCount n - 1) ≤ n := by
  rcases Nat.eq_zero_or_pos (digitCount n - 1) with h | h
  · rw [h]
    exact hn
  · refine Nat.not_lt.1 fun hlt => ?_
    have := (Nat.length_toDigits_le_iff (by decide) h).2 hlt
    unfold digitCount at *
    omega

/-- Dropping zeros at the end does not change the value. -/
theorem value_stripZeros (fuel : Nat) (d : Scientific) : (stripZeros fuel d).value = d.value := by
  induction fuel generalizing d with
  | zero => rfl
  | succ fuel ih =>
    rw [stripZeros]
    split
    · next h =>
      simp only [Bool.and_eq_true, beq_iff_eq] at h
      have hten : ((10 * (d.digits / 10) : Nat) : ℚ) = d.digits := by
        rw [Nat.mul_div_cancel' (Nat.dvd_of_mod_eq_zero h.1)]
      rw [ih, value, value, ← hten, zpow_add_one₀ (by norm_num)]
      push_cast
      ring
    · rfl

end Scientific

namespace Shortest

open Binary64

/-! ## Grids -/

variable {tie : Tie} {i : Interval} {k : Int}

/-- What is found on a grid lies in the interval; where nothing is found, neither of the two
neighbours of the value does. -/
theorem onGrid?_cases (tie : Tie) (i : Interval) (k : Int) :
    (∃ d, onGrid? tie i k = some d ∧ i.Holds d.value) ∨
      onGrid? tie i k = none ∧ ∃ below : Nat, (below : ℚ) * 10 ^ k ≤ i.value * 2 ^ i.unit ∧
        (i.value : ℚ) * 2 ^ i.unit < (below + 1 : Nat) * 10 ^ k ∧
        ¬ i.Holds (below * 10 ^ k) ∧ ¬ i.Holds ((below + 1 : Nat) * 10 ^ k) := by
  have hcovers := i.covers_iff k
  have hscale : 0 < (powerRatio 10 k).1 * (powerRatio 2 i.unit).2 :=
    Nat.mul_pos (powerRatio_pos (by decide) k).1 (powerRatio_pos (by decide) i.unit).2
  unfold onGrid?
  dsimp only
  set below := i.value * ((powerRatio 2 i.unit).1 * (powerRatio 10 k).2) /
    ((powerRatio 10 k).1 * (powerRatio 2 i.unit).2) with hdiv
  have hbelow : (below : ℚ) * 10 ^ k ≤ i.value * 2 ^ i.unit :=
    (ten_le_two_iff _ _ _ _).1 (Nat.div_mul_le_self _ _)
  have habove : (i.value : ℚ) * 2 ^ i.unit < (below + 1 : Nat) * 10 ^ k := by
    rw [← not_le, ← ten_le_two_iff, not_le, Nat.mul_comm (below + 1)]
    exact Nat.lt_mul_div_succ _ hscale
  split
  · next hcover _ => exact .inl ⟨_, rfl, (hcovers _).1 hcover⟩
  · next _ hcover => exact .inl ⟨_, rfl, (hcovers _).1 hcover⟩
  · next hnone hnone' =>
    rw [← Bool.not_eq_true, hcovers] at hnone hnone'
    exact .inr ⟨rfl, below, hbelow, habove, hnone, hnone'⟩
  · next hcover hcover' =>
    split
    · exact .inl ⟨_, rfl, (hcovers _).1 hcover⟩
    · split
      · exact .inl ⟨_, rfl, (hcovers _).1 hcover'⟩
      · split
        · exact .inl ⟨_, rfl, (hcovers _).1 hcover⟩
        · exact .inl ⟨_, rfl, (hcovers _).1 hcover'⟩

/-- What is found on a grid lies in the interval. -/
theorem holds_of_onGrid? {d : Scientific} (h : onGrid? tie i k = some d) : i.Holds d.value := by
  rcases onGrid?_cases tie i k with ⟨e, he, hholds⟩ | ⟨hnone, -⟩
  · rw [h] at he
    cases he
    exact hholds
  · rw [h] at hnone
    cases hnone

/-- What is not in an interval lies below it or above it. -/
theorem le_or_ge_of_not_holds {r : ℚ} (h : ¬ i.Holds r) :
    r ≤ i.low * 2 ^ i.unit ∨ i.high * 2 ^ i.unit ≤ r := by
  by_contra hbetween
  rw [not_or, not_le, not_le] at hbetween
  refine h ?_
  unfold Interval.Holds
  split
  · exact ⟨hbetween.1.le, hbetween.2.le⟩
  · exact hbetween

/-- On a grid that is finer than the interval is wide something is found. -/
theorem onGrid?_ne_none (hlow : i.low < i.value) (hhigh : i.value < i.high)
    (hfine : (10 : ℚ) ^ k < (i.high - i.low) * 2 ^ i.unit) : onGrid? tie i k ≠ none := by
  rcases onGrid?_cases tie i k with ⟨d, hd, -⟩ | ⟨-, below, hbelow, habove, hnone, hnone'⟩
  · rw [hd]
    exact Option.some_ne_none d
  · -- the neighbours would be at least as far apart as the ends of the interval
    have hunit : (0 : ℚ) < 2 ^ i.unit := by positivity
    have hlow' : (i.low : ℚ) * 2 ^ i.unit < i.value * 2 ^ i.unit :=
      mul_lt_mul_of_pos_right (by exact_mod_cast hlow) hunit
    have hhigh' : (i.value : ℚ) * 2 ^ i.unit < i.high * 2 ^ i.unit :=
      mul_lt_mul_of_pos_right (by exact_mod_cast hhigh) hunit
    have hunder := (le_or_ge_of_not_holds hnone).resolve_right
      (not_le.2 (hbelow.trans_lt hhigh'))
    have hover := (le_or_ge_of_not_holds hnone').resolve_left
      (not_le.2 (hlow'.trans habove))
    push_cast at hover
    linarith

/-- The leading digit of a number stands at its leading exponent or above. -/
theorem pow_leadingExponent_le {num den : Nat} (hnum : 0 < num) (hden : 0 < den) :
    (10 : ℚ) ^ leadingExponent num den ≤ num / den := by
  have hden' : (0 : ℚ) < den := by exact_mod_cast hden
  rw [le_div_iff₀ hden', leadingExponent]
  split
  · next hle =>
    have hquotient : 0 < num / den := Nat.div_pos hle hden
    have hpow := Scientific.pow_digitCount_le hquotient
    have hcount : ((Scientific.digitCount (num / den) : Int) - 1) =
        ((Scientific.digitCount (num / den) - 1 : Nat) : Int) := by
      have : 0 < Scientific.digitCount (num / den) := Nat.length_toDigits_pos
      omega
    rw [hcount, zpow_natCast]
    exact_mod_cast (Nat.mul_le_mul_right den hpow).trans (Nat.div_mul_le_self num den)
  · rw [zpow_neg, zpow_natCast, inv_mul_le_iff₀ (by positivity)]
    have hpow := Scientific.lt_pow_digitCount ((den - 1) / num)
    have hle : den ≤ 10 ^ Scientific.digitCount ((den - 1) / num) * num := by
      have := (Nat.div_lt_iff_lt_mul hnum).1 hpow
      omega
    exact_mod_cast hle

/-! ## Seventeen digits -/

variable {m : Nat} {q : Int}

theorem low_lt_value (hpos : 0 < m) (q : Int) : (interval m q).low < (interval m q).value := by
  rw [interval]
  dsimp only
  split <;> omega

/-- The interval of a finite number is wider than a part in `10 ^ 16` of the number. -/
theorem value_lt_width (hm : Placed m q) (hpos : 0 < m) :
    (interval m q).value + 10 ^ 16 * (interval m q).low < 10 ^ 16 * (interval m q).high := by
  have hnarrow := hm.narrow
  unfold hiddenBit at hnarrow
  rw [interval]
  dsimp only
  split
  · next h =>
    simp only [Bool.and_eq_true, beq_iff_eq, hiddenBit] at h
    omega
  · omega

/-- Seventeen digits are enough for every finite number. -/
theorem onGrid?_sixteen_ne_none (tie : Tie) (hm : Placed m q) (hpos : 0 < m) {lead : Int}
    (hlead : (10 : ℚ) ^ lead ≤ (interval m q).value * 2 ^ (q - 2)) :
    onGrid? tie (interval m q) (lead - (16 : Nat)) ≠ none := by
  refine onGrid?_ne_none (low_lt_value hpos q) (by simp [interval]) ?_
  have hunit : (0 : ℚ) < 2 ^ (q - 2) := by positivity
  have hwidth : ((interval m q).value : ℚ) + 10 ^ 16 * (interval m q).low <
      10 ^ 16 * (interval m q).high := by exact_mod_cast value_lt_width hm hpos
  rw [zpow_sub₀ (by norm_num), zpow_natCast, div_lt_iff₀ (by positivity)]
  change (10 : ℚ) ^ lead < ((interval m q).high - (interval m q).low) * 2 ^ (q - 2) * 10 ^ 16
  calc (10 : ℚ) ^ lead ≤ (interval m q).value * 2 ^ (q - 2) := hlead
    _ < (10 ^ 16 * (interval m q).high - 10 ^ 16 * (interval m q).low) * 2 ^ (q - 2) :=
        mul_lt_mul_of_pos_right (by linarith) hunit
    _ = ((interval m q).high - (interval m q).low) * 2 ^ (q - 2) * 10 ^ 16 := by ring

theorem pow_lead_le (hpos : 0 < m) (q : Int) :
    (10 : ℚ) ^ leadingExponent ((interval m q).value * (powerRatio 2 (q - 2)).1)
      (powerRatio 2 (q - 2)).2 ≤ (interval m q).value * 2 ^ (q - 2) := by
  obtain ⟨hu, hv⟩ := powerRatio_pos (b := 2) (by decide) (q - 2)
  have hvalue : 0 < (interval m q).value := Nat.mul_pos (by decide) hpos
  have hle := pow_leadingExponent_le (Nat.mul_pos hvalue hu) hv
  have hratio := powerRatio_eq (b := 2) (by decide) (q - 2)
  push_cast at hratio hle
  rwa [hratio, ← mul_div_assoc]

end Shortest

open Shortest Binary64

/-- The shortest decimal of a finite number lies in the interval of the number. -/
theorem shortest_holds (tie : Tie) {m : Nat} {q : Int} (hm : Placed m q) :
    (interval m q).Holds (shortest tie m q).value := by
  unfold shortest
  split
  · next hzero =>
    have hend : (0 : ℚ) ≤ 2 * 2 ^ (q - 2) := by positivity
    rw [beq_iff_eq.1 hzero]
    simpa [Interval.Holds, interval, Scientific.value, hiddenBit] using hend
  · next hne =>
    have hpos : 0 < m := Nat.pos_of_ne_zero fun he => hne (beq_iff_eq.2 he)
    dsimp only
    rw [Scientific.value_stripZeros]
    change (interval m q).Holds (((List.range maxDigits).findSome? fun (n : Nat) =>
      onGrid? tie (interval m q) (leadingExponent ((interval m q).value *
        (powerRatio 2 (q - 2)).1) (powerRatio 2 (q - 2)).2 - n)).getD ⟨m, 0⟩).value
    have hlead := pow_lead_le hpos q
    generalize leadingExponent _ _ = lead at *
    cases hfound : (List.range maxDigits).findSome? fun (n : Nat) =>
        onGrid? tie (interval m q) (lead - n) with
    | none =>
      exact absurd (List.findSome?_eq_none_iff.1 hfound 16 (by decide))
        (onGrid?_sixteen_ne_none tie hm hpos hlead)
    | some d =>
      obtain ⟨n, -, hgrid⟩ := List.exists_of_findSome?_eq_some hfound
      exact holds_of_onGrid? hgrid

end SignalPipeline
