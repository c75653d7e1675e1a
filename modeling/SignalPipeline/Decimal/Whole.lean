import SignalPipeline.Decimal.Reading

/-!
# Reading numbers of settings

The text of a whole number in a setting: an optional plus and digits, below a bound. Digits are
read from the left, and the first thing that goes wrong is reported.

* `readWhole`: a text as a whole number, or why it is none.
* `readFloat`: a text as a float, or why it is none.
-/

namespace SignalPipeline

/-- Why a text is no number. -/
inductive NumeralError where
  | empty
  | invalidDigit
  | tooLarge
  | invalidFloat
  deriving Repr, DecidableEq

/-- The reason in words. -/
def NumeralError.message : NumeralError → String
  | empty => "cannot parse integer from empty string"
  | invalidDigit => "invalid digit found in string"
  | tooLarge => "number too large to fit in target type"
  | invalidFloat => "invalid float literal"

/-- Appends digits to a number that has to stay below a bound. -/
def readDigits (bound : Nat) : Nat → List Char → Except NumeralError Nat
  | n, [] => .ok n
  | n, c :: cs =>
    if !c.isDigit then .error .invalidDigit
    else if 10 * n + digitValue c < bound then readDigits bound (10 * n + digitValue c) cs
    else .error .tooLarge

/-- The whole number of a text, below a bound. -/
def readWhole (bound : Nat) (s : String) : Except NumeralError Nat :=
  match s.toList with
  | [] => .error .empty
  | ['+'] => .error .invalidDigit
  | '+' :: cs => readDigits bound 0 cs
  | cs => readDigits bound 0 cs

/-- A text as a float, or the reason why it is none. -/
def readFloat (s : String) : Except NumeralError Float :=
  match readFloat? s with
  | some x => .ok x
  | none => .error (if s.isEmpty then .empty else .invalidFloat)

end SignalPipeline
