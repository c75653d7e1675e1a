import Mathlib.Data.List.Basic
import SignalPipeline.Decimal.Fixed

/-!
# The characters of decimals

A float with a fixed number of places is written with digits, a point and a sign, or by a name where
it has no decimal. So texts around it can be told from it by any other character.

* `Fixed.isPlain`: the characters of decimals.
* `Fixed.isPlain_of_mem_fixed`, `Fixed.isPlain_of_mem_fixedSigned`: no others occur.
-/

namespace SignalPipeline.Fixed

/-- Whether a character occurs in decimals, or in the names of what has none. -/
def isPlain (c : Char) : Bool :=
  c.isDigit || ['.', '-', '+', 'i', 'n', 'f', 'N', 'a'].contains c

variable {c : Char}

theorem isPlain_of_isDigit (h : c.isDigit = true) : isPlain c = true := by
  rw [isPlain, h, Bool.true_or]

theorem isPlain_of_mem_toDigits {n : Nat} (h : c ∈ Nat.toDigits 10 n) : isPlain c = true :=
  isPlain_of_isDigit (Nat.isDigit_of_mem_toDigits (by decide) (by decide) h)

theorem isPlain_of_mem_unitChars {places n : Nat} (h : c ∈ unitChars places n) :
    isPlain c = true := by
  rcases List.mem_append.1 h with h | h
  · exact isPlain_of_mem_toDigits h
  · rcases List.mem_cons.1 h with rfl | h
    · rfl
    · rcases List.mem_append.1 h with h | h
      · rw [List.eq_of_mem_replicate h]
        rfl
      · exact isPlain_of_mem_toDigits h

/-- The sign is a minus, or what stands in front of numbers that are not negative. -/
theorem isPlain_of_mem_sign {plus : List Char} {negative : Bool}
    (hplus : ∀ c ∈ plus, isPlain c = true) (h : c ∈ if negative then ['-'] else plus) :
    isPlain c = true := by
  cases negative with
  | true =>
    rw [List.mem_singleton.1 h]
    rfl
  | false => exact hplus c h

theorem isPlain_of_mem_render {plus : List Char} {places : Nat} {x : Binary64}
    (hplus : ∀ c ∈ plus, isPlain c = true) (h : c ∈ render plus places x) : isPlain c = true := by
  cases x with
  | notANumber =>
    have hname : ['N', 'a', 'N'].all isPlain = true := rfl
    exact List.all_eq_true.1 hname c h
  | infinite negative =>
    have hname : ['i', 'n', 'f'].all isPlain = true := rfl
    exact (List.mem_append.1 h).elim (isPlain_of_mem_sign hplus) (List.all_eq_true.1 hname c)
  | finite negative m q =>
    exact (List.mem_append.1 h).elim (isPlain_of_mem_sign hplus) isPlain_of_mem_unitChars

theorem isPlain_of_mem_fixed {places : Nat} {x : Float} (h : c ∈ (fixed places x).toList) :
    isPlain c = true := by
  rw [fixed, String.toList_ofList] at h
  exact isPlain_of_mem_render (List.forall_mem_nil _) h

theorem isPlain_of_mem_fixedSigned {places : Nat} {x : Float}
    (h : c ∈ (fixedSigned places x).toList) : isPlain c = true := by
  rw [fixedSigned, String.toList_ofList] at h
  exact isPlain_of_mem_render (List.forall_mem_singleton.2 rfl) h

end SignalPipeline.Fixed
