import SignalPipeline.Json.Literal

/-!
# Proper literals

Every literal that is spelled as the grammar has it is scanned again. The literal of an integer is
one without point and exponent.

* `Number.Literal.Proper`: literals as the grammar has them.
* `Number.scan?_chars`: a proper literal is scanned again.
* `Number.scan?_integer`: the literal of an integer.
-/

namespace SignalPipeline

variable {cs rest : List Char}

theorem spanDigits_of_digits (hcs : ∀ c ∈ cs, c.isDigit = true)
    (hrest : ∀ c ∈ rest.head?, c.isDigit = false) : spanDigits (cs ++ rest) = (cs, rest) := by
  rw [spanDigits, List.takeWhile_append_of_pos hcs, List.dropWhile_append_of_pos hcs]
  cases rest with
  | nil => simp
  | cons c rest => simp [hrest c rfl]

namespace Number

namespace Literal

/-- The characters of a fraction. -/
def fractionChars : Option (List Char) → List Char
  | none => []
  | some ds => '.' :: ds

/-- The characters of an exponent, with its sign. -/
def powerChars : Option Int → List Char
  | none => []
  | some e => 'e' :: (if e < 0 then '-' else '+') :: Nat.toDigits 10 e.natAbs

/-- The characters of a literal. -/
def chars (l : Literal) : List Char :=
  (if l.negative then ['-'] else []) ++
    (l.whole ++ (fractionChars l.fraction ++ powerChars l.exponent))

/-- Literals as the grammar has them: digits before the point, without needless zeros in front,
and behind a point. -/
structure Proper (l : Literal) : Prop where
  whole_ne : l.whole ≠ []
  whole_digits : ∀ c ∈ l.whole, c.isDigit = true
  whole_first : l.whole.head? = some '0' → l.whole = ['0']
  fraction_ne : l.fraction ≠ some []
  fraction_digits : ∀ c ∈ l.fraction.getD [], c.isDigit = true

end Literal

open Literal

/-! ## Scanning -/

theorem scanWhole?_of_digits (hne : cs ≠ []) (hcs : ∀ c ∈ cs, c.isDigit = true)
    (hfirst : cs.head? = some '0' → cs = ['0'])
    (hrest : ∀ c ∈ rest.head?, c.isDigit = false) : scanWhole? (cs ++ rest) = some (cs, rest) := by
  cases cs with
  | nil => exact absurd rfl hne
  | cons c cs =>
    by_cases hzero : c = '0'
    · subst hzero
      cases hfirst rfl
      have hspan := spanDigits_of_digits (List.forall_mem_nil _) hrest
      rw [List.nil_append] at hspan
      rw [List.cons_append, List.nil_append, scanWhole?, hspan]
      rfl
    · rw [List.cons_append, scanWhole?.eq_2 _ fun r he => hzero (List.cons.inj he).1,
        scanDigits?, ← List.cons_append, spanDigits_of_digits hcs hrest]
      rfl

theorem head?_powerChars (exponent : Option Int) :
    ∀ c ∈ (powerChars exponent).head?, c.isDigit = false := by
  cases exponent with
  | none => exact nofun
  | some e =>
    intro c hc
    cases hc
    rfl

theorem scanFraction?_chars {fraction : Option (List Char)} (hne : fraction ≠ some [])
    (hdigits : ∀ c ∈ fraction.getD [], c.isDigit = true) (exponent : Option Int) :
    scanFraction? (fractionChars fraction ++ powerChars exponent) =
      some (fraction, powerChars exponent) := by
  cases fraction with
  | none => cases exponent <;> rfl
  | some ds =>
    have hds : ds ≠ [] := fun he => hne (congrArg some he)
    rw [Option.getD_some] at hdigits
    rw [fractionChars, List.cons_append, scanFraction?, scanDigits?,
      spanDigits_of_digits hdigits (head?_powerChars exponent)]
    dsimp only
    rw [if_neg (by simpa using hds)]
    rfl

theorem isDigit_toDigits (n : Nat) : ∀ c ∈ Nat.toDigits 10 n, c.isDigit = true :=
  fun _ hc => Nat.isDigit_of_mem_toDigits (by decide) (by decide) hc

theorem readExponent?_chars (e : Int) :
    readExponent? ((if e < 0 then '-' else '+') :: Nat.toDigits 10 e.natAbs) = some (e, []) := by
  have hspan : spanDigits (Nat.toDigits 10 e.natAbs) = (Nat.toDigits 10 e.natAbs, []) := by
    have := @spanDigits_of_digits _ [] (isDigit_toDigits e.natAbs) nofun
    rwa [List.append_nil] at this
  have hvalue : digitsValue (Nat.toDigits 10 e.natAbs) = e.natAbs :=
    Nat.ofDigitChars_eq_foldl.symm.trans Nat.ofDigitChars_ten_toDigits
  have hempty : (Nat.toDigits 10 e.natAbs).isEmpty = false := by simp
  by_cases hneg : e < 0
  · have hexponent : -(e.natAbs : Int) = e := by omega
    rw [if_pos hneg, readExponent?, takeSign]
    simp only [hspan, hvalue, hempty, hexponent, if_true, if_false, Bool.false_eq_true]
  · have hexponent : (e.natAbs : Int) = e := by omega
    rw [if_neg hneg, readExponent?, takeSign]
    simp only [hspan, hvalue, hempty, hexponent, if_false, Bool.false_eq_true]

theorem scanPower?_chars (exponent : Option Int) :
    scanPower? (powerChars exponent) = some (exponent, []) := by
  cases exponent with
  | none => rfl
  | some e =>
    rw [powerChars, scanPower?, readExponent?_chars]
    rfl

/-- A proper literal is scanned again. -/
theorem scan?_chars {l : Literal} (h : l.Proper) : scan? l.chars = some (l, []) := by
  have hrest : ∀ c ∈ (fractionChars l.fraction ++ powerChars l.exponent).head?,
      c.isDigit = false := by
    intro c hc
    cases hf : l.fraction with
    | none =>
      rw [hf] at hc
      exact head?_powerChars l.exponent c hc
    | some ds =>
      rw [hf] at hc
      cases hc
      rfl
  have hminus : takeMinus l.chars =
      (l.negative, l.whole ++ (fractionChars l.fraction ++ powerChars l.exponent)) := by
    rw [Literal.chars]
    cases l.negative with
    | true => rfl
    | false =>
      cases hwhole : l.whole with
      | nil => exact absurd hwhole h.whole_ne
      | cons c cs =>
        have hdigit : c.isDigit = true := h.whole_digits c (hwhole ▸ List.mem_cons_self)
        rw [if_neg (by decide), List.nil_append, List.cons_append, takeMinus.eq_2]
        intro r he
        rw [(List.cons.inj he).1] at hdigit
        exact absurd hdigit (by decide)
  rw [scan?, hminus]
  simp only [scanWhole?_of_digits h.whole_ne h.whole_digits h.whole_first hrest,
    scanFraction?_chars h.fraction_ne h.fraction_digits, scanPower?_chars, Option.bind_some,
    Option.map_some]

/-! ## Integers -/

/-- The digits of a positive number do not start with a zero. -/
theorem toDigits_ne_zero_cons {n : Nat} (hn : 0 < n) (r : List Char) :
    Nat.toDigits 10 n ≠ '0' :: r := by
  induction n using Nat.strongRecOn generalizing r with
  | ind n ih =>
    by_cases hlt : n < 10
    · rw [Nat.toDigits_of_lt_base hlt]
      intro h
      have hdigit := (List.cons.inj h).1
      have := Nat.toNat_digitChar_sub_48_of_lt_ten hlt
      rw [hdigit] at this
      exact absurd this (by simp; omega)
    · rw [Nat.toDigits_of_base_le (by decide) (by omega)]
      intro h
      cases hd : Nat.toDigits 10 (n / 10) with
      | nil => exact Nat.toDigits_ne_nil hd
      | cons c ds =>
        rw [hd, List.cons_append, List.cons.injEq] at h
        exact ih (n / 10) (by omega) (by omega) ds (by rw [hd, h.1])

/-- The literal of an integer. -/
def integerLiteral (i : Int) : Literal :=
  ⟨i < 0, Nat.toDigits 10 i.natAbs, none, none⟩

theorem head?_toDigits {n : Nat} (hn : 0 < n) : (Nat.toDigits 10 n).head? ≠ some '0' := by
  intro h
  obtain ⟨cs, hcs⟩ := List.head?_eq_some_iff.1 h
  exact toDigits_ne_zero_cons hn cs hcs

theorem proper_integerLiteral (i : Int) : (integerLiteral i).Proper where
  whole_ne := Nat.toDigits_ne_nil
  whole_digits := isDigit_toDigits i.natAbs
  whole_first h := by
    rcases Nat.eq_zero_or_pos i.natAbs with hzero | hpos
    · exact congrArg (Nat.toDigits 10) hzero
    · exact absurd h (head?_toDigits hpos)
  fraction_ne := nofun
  fraction_digits := nofun

theorem scan?_integer (i : Int) : scan? (chars (.integer i)) = some (integerLiteral i, []) := by
  rw [← scan?_chars (proper_integerLiteral i)]
  simp [chars, Literal.chars, integerLiteral, fractionChars, powerChars]

end Number
end SignalPipeline
