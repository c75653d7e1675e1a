import SignalPipeline.Proofs.Decimal.Shortest
import SignalPipeline.Proofs.Json.Scan

/-!
# Numbers have different texts

The text of a number is a proper literal. That of an integer has neither point nor exponent; that
of a float has one of them, and its exact value lies in the interval of the float, where no other
float's does. So no two numbers that a document can hold have the same text, the zeros with either
sign included. Whether the literal of a float is read as that float is another question
(`Number.ReadsBack`), because the reading rounds more than once.

* `FloatFormat.exists_writes`: the text of a decimal is a literal with the value of the decimal.
* `Number.exists_literal_real`: the text of a float is a literal with a value in its interval.
* `Number.chars_injective`: different numbers have different texts.
-/

namespace SignalPipeline

/-- The exact magnitude of a literal. -/
def Number.Literal.magnitude (l : Literal) : ℚ :=
  Nat.ofDigitChars 10 (l.whole ++ l.fraction.getD []) 0 *
    10 ^ (l.exponent.getD 0 - (l.fraction.getD []).length)

/-! ## Texts of decimals -/

namespace FloatFormat

open Number Number.Literal

/-- A literal that is no integer's and has the characters and the value of a decimal. -/
structure Writes (l : Literal) (d : Scientific) (cs : List Char) : Prop where
  proper : l.Proper
  positive : l.negative = false
  text : l.chars = cs
  value : l.magnitude = d.value
  marked : l.fraction ≠ none ∨ l.exponent ≠ none

theorem writes_zero {d : Scientific} (h : d.digits = 0) :
    Writes ⟨false, ['0'], some ['0'], none⟩ d ['0', '.', '0'] where
  proper := ⟨List.cons_ne_nil _ _, by simp, fun _ => rfl, by simp, by simp⟩
  positive := rfl
  text := rfl
  value := by simp [magnitude, Scientific.value, h, Nat.ofDigitChars_cons]
  marked := .inl (Option.some_ne_none _)

/-- A literal with the digits of a decimal around its point, with zeros in front of them and behind
them. -/
structure Spreads (front back : Nat) (l : Literal) (d : Scientific) (cs : List Char) : Prop where
  text : l.chars = cs
  digits : l.whole ++ l.fraction.getD [] =
    List.replicate front '0' ++ (d.digitChars ++ List.replicate back '0')
  exponent : l.exponent.getD 0 - (l.fraction.getD []).length = d.exponent - back
  positive : l.negative = false
  whole_ne : l.whole ≠ []
  whole_first : l.whole.head? = some '0' → l.whole = ['0']
  fraction_ne : l.fraction ≠ some []
  marked : l.fraction ≠ none ∨ l.exponent ≠ none

theorem Spreads.writes {front back : Nat} {l : Literal} {d : Scientific} {cs : List Char}
    (h : Spreads front back l d cs) : Writes l d cs := by
  have hall : ∀ c ∈ l.whole ++ l.fraction.getD [], c.isDigit = true := by
    have hzeros : ∀ n, ∀ c ∈ List.replicate n '0', c.isDigit = true := fun n c hc => by
      rw [List.eq_of_mem_replicate hc]
      rfl
    rw [h.digits, List.forall_mem_append, List.forall_mem_append]
    exact ⟨hzeros front, isDigit_toDigits d.digits, hzeros back⟩
  rw [List.forall_mem_append] at hall
  have hvalue : l.magnitude = d.value := by
    rw [magnitude, h.digits, h.exponent, Nat.ofDigitChars_append, Nat.ofDigitChars_append,
      Nat.ofDigitChars_replicate_zero, Nat.ofDigitChars_replicate_zero, Nat.mul_zero,
      Scientific.digitChars, Nat.ofDigitChars_ten_toDigits, Scientific.value,
      zpow_sub₀ (by norm_num), zpow_natCast]
    push_cast
    field_simp
  exact ⟨⟨h.whole_ne, hall.1, h.whole_first, h.fraction_ne, hall.2⟩, h.positive, h.text, hvalue,
    h.marked⟩

section Layouts

variable {d : Scientific} {point : Int}

theorem digitChars_ne (d : Scientific) : d.digitChars ≠ [] :=
  Nat.toDigits_ne_nil

/-- The digits do not start with a zero, and no run of them from the start does. -/
theorem head?_take_digitChars (hn : d.digits ≠ 0) {k : Nat} (hk : k ≠ 0) :
    (d.digitChars.take k).head? ≠ some '0' := by
  rw [List.head?_take, if_neg hk]
  exact head?_toDigits (Nat.pos_of_ne_zero hn)

/-- The point stands in front of the digits. -/
theorem spreads_below (hpoint : d.exponent + d.digitChars.length = point) (h : point ≤ 0) :
    Spreads ((-point).toNat + 1) 0
      ⟨false, ['0'], some (List.replicate (-point).toNat '0' ++ d.digitChars), none⟩ d
      (document.positionalChars d.digitChars point) where
  text := by simp [positionalChars, h, Literal.chars, fractionChars, powerChars]
  digits := by simp [List.replicate_succ]
  exponent := by
    simp
    omega
  positive := rfl
  whole_ne := List.cons_ne_nil _ _
  whole_first _ := rfl
  fraction_ne := by simp [digitChars_ne]
  marked := .inl (Option.some_ne_none _)

/-- The point stands behind the digits. -/
theorem spreads_above (hn : d.digits ≠ 0) (hpoint : d.exponent + d.digitChars.length = point)
    (h : ¬ point ≤ 0) (hlength : d.digitChars.length ≤ point.toNat) :
    Spreads 0 (point.toNat - d.digitChars.length + 1)
      ⟨false, d.digitChars ++ List.replicate (point.toNat - d.digitChars.length) '0',
        some ['0'], none⟩ d (document.positionalChars d.digitChars point) where
  text := by simp [positionalChars, h, hlength, document, Literal.chars, fractionChars, powerChars]
  digits := by simp [List.replicate_succ']
  exponent := by
    simp
    omega
  positive := rfl
  whole_ne := by simp [digitChars_ne]
  whole_first hzero := by
    rw [List.head?_append_of_ne_nil _ (digitChars_ne d)] at hzero
    exact absurd hzero (head?_toDigits (Nat.pos_of_ne_zero hn))
  fraction_ne := by simp
  marked := .inl (Option.some_ne_none _)

/-- The point stands among the digits. -/
theorem spreads_within (hn : d.digits ≠ 0) (hpoint : d.exponent + d.digitChars.length = point)
    (h : ¬ point ≤ 0) (hlength : ¬ d.digitChars.length ≤ point.toNat) :
    Spreads 0 0
      ⟨false, d.digitChars.take point.toNat, some (d.digitChars.drop point.toNat), none⟩ d
      (document.positionalChars d.digitChars point) where
  text := by simp [positionalChars, h, hlength, Literal.chars, fractionChars, powerChars]
  digits := by simp
  exponent := by
    simp
    omega
  positive := rfl
  whole_ne := by
    simp [digitChars_ne]
    omega
  whole_first hzero := absurd hzero (head?_take_digitChars hn (by omega))
  fraction_ne := by
    simp
    omega
  marked := .inl (Option.some_ne_none _)

/-- One digit stands alone in front of the exponent. -/
theorem spreads_alone (hn : d.digits ≠ 0) (hpoint : d.exponent + d.digitChars.length = point)
    (h : d.digitChars.drop 1 = []) :
    Spreads 0 0 ⟨false, d.digitChars.take 1, none, some (point - 1)⟩ d
      (exponentChars d.digitChars (point - 1)) where
  text := by simp [exponentChars, h, Literal.chars, fractionChars, powerChars]
  digits := by
    have hall := List.take_append_drop 1 d.digitChars
    rw [h] at hall
    simpa using hall
  exponent := by
    have hone : d.digitChars.length ≤ 1 := List.drop_eq_nil_iff.1 h
    have hpos : 0 < d.digitChars.length := Nat.length_toDigits_pos
    simp
    omega
  positive := rfl
  whole_ne := by simp [digitChars_ne]
  whole_first hzero := absurd hzero (head?_take_digitChars hn (by decide))
  fraction_ne := (Option.some_ne_none _).symm
  marked := .inr (Option.some_ne_none _)

/-- The point stands behind the first digit, with an exponent. -/
theorem spreads_exponent (hn : d.digits ≠ 0) (hpoint : d.exponent + d.digitChars.length = point)
    (h : d.digitChars.drop 1 ≠ []) :
    Spreads 0 0 ⟨false, d.digitChars.take 1, some (d.digitChars.drop 1), some (point - 1)⟩ d
      (exponentChars d.digitChars (point - 1)) where
  text := by
    simp [exponentChars, h, Literal.chars, fractionChars, powerChars, -List.drop_one]
  digits := by simp [-List.drop_one]
  exponent := by
    have hpos : 0 < d.digitChars.length := Nat.length_toDigits_pos
    simp
    omega
  positive := rfl
  whole_ne := by simp [digitChars_ne]
  whole_first hzero := absurd hzero (head?_take_digitChars hn (by decide))
  fraction_ne := by simpa using h
  marked := .inl (Option.some_ne_none _)

end Layouts

/-- The text of a decimal is that of a literal with the value of the decimal. -/
theorem exists_writes (d : Scientific) : ∃ l, Writes l d (document.magnitudeChars d) := by
  unfold magnitudeChars
  split
  · next h => exact ⟨_, writes_zero (beq_iff_eq.1 h)⟩
  · next h =>
    have hn : d.digits ≠ 0 := by simpa using h
    change ∃ l, Writes l d (let point := d.exponent + d.digitChars.length
      if -5 ≤ point - 1 && point - 1 ≤ 15 then document.positionalChars d.digitChars point
      else exponentChars d.digitChars (point - 1))
    generalize hpoint : d.exponent + d.digitChars.length = point
    dsimp only
    split
    · by_cases hfront : point ≤ 0
      · exact ⟨_, (spreads_below hpoint hfront).writes⟩
      · by_cases hlength : d.digitChars.length ≤ point.toNat
        · exact ⟨_, (spreads_above hn hpoint hfront hlength).writes⟩
        · exact ⟨_, (spreads_within hn hpoint hfront hlength).writes⟩
    · by_cases hdrop : d.digitChars.drop 1 = []
      · exact ⟨_, (spreads_alone hn hpoint hdrop).writes⟩
      · exact ⟨_, (spreads_exponent hn hpoint hdrop).writes⟩

end FloatFormat

/-! ## Texts of numbers -/

namespace Number

open Binary64 Shortest

/-- The text of a finite float is a literal that is no integer's. It has the sign of the float, and
its value lies in the interval of the float. -/
theorem exists_literal_real {x : Float} (h : x.isFinite = true) :
    ∃ (l : Literal) (m : Nat) (q : Int), scan? (chars (.real x)) = some (l, []) ∧
      (l.fraction ≠ none ∨ l.exponent ≠ none) ∧ ofFloat x = .finite l.negative m q ∧
      Placed m q ∧ (interval m q).Holds l.magnitude := by
  obtain ⟨negative, m, q, hx, hplaced⟩ := exists_finite_ofFloat h
  obtain ⟨l, hl⟩ := FloatFormat.exists_writes (shortest .toEven m q)
  have hproper : Literal.Proper { l with negative } := by
    obtain ⟨h₁, h₂, h₃, h₄, h₅⟩ := hl.proper
    exact ⟨h₁, h₂, h₃, h₄, h₅⟩
  refine ⟨{ l with negative }, m, q, ?_, hl.marked, hx, hplaced, ?_⟩
  · have htext : chars (.real x) = (if negative then ['-'] else []) ++
        FloatFormat.document.magnitudeChars (shortest .toEven m q) := by
      rw [chars, FloatFormat.render.eq_def, hx]
      rfl
    have hbody := hl.text
    rw [Literal.chars, hl.positive] at hbody
    rw [htext, ← hbody]
    exact scan?_chars hproper
  · have := shortest_holds .toEven hplaced
    rwa [← hl.value] at this

/-- The text of a number that a document can hold is a literal. -/
theorem exists_scan? {n : Number} (h : n.Valid) : ∃ l, scan? n.chars = some (l, []) := by
  cases n with
  | integer i => exact ⟨_, scan?_integer i⟩
  | real x =>
    obtain ⟨l, -, -, hscan, -⟩ := exists_literal_real h
    exact ⟨l, hscan⟩

/-- Different numbers have different texts. -/
theorem chars_injective {n n' : Number} (hn : n.Valid) (hn' : n'.Valid)
    (h : n.chars = n'.chars) : n = n' := by
  cases n with
  | integer i =>
    cases n' with
    | integer j =>
      obtain ⟨l, hscan, hname⟩ := readsBack_integer hn
      obtain ⟨l', hscan', hname'⟩ := readsBack_integer hn'
      rw [h, hscan'] at hscan
      cases hscan
      exact Option.some.inj (hname.symm.trans hname')
    | real y =>
      obtain ⟨l, -, -, hscan, hmarked, -⟩ := exists_literal_real hn'
      rw [← h, scan?_integer] at hscan
      cases hscan
      exact hmarked.elim (absurd rfl) (absurd rfl)
  | real x =>
    obtain ⟨l, m, q, hscan, hmarked, hx, hplaced, hholds⟩ := exists_literal_real hn
    cases n' with
    | integer j =>
      rw [h, scan?_integer] at hscan
      cases hscan
      exact hmarked.elim (absurd rfl) (absurd rfl)
    | real y =>
      obtain ⟨l', m', q', hscan', -, hy, hplaced', hholds'⟩ := exists_literal_real hn'
      rw [h, hscan'] at hscan
      cases hscan
      obtain ⟨rfl, rfl⟩ := eq_of_holds hplaced hplaced' hholds hholds'
      exact congrArg Number.real (ofFloat_injective hn (hx.trans hy.symm))

end Number

end SignalPipeline
