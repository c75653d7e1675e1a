import SignalPipeline.Json.Number

/-!
# Literals of numbers

The spelling of a number: a sign, digits without needless zeros in front, an optional fraction and
an optional exponent, each with at least one digit.

* `Number.scan?`: the literal at the front of a text.
* `Number.scan?_length`: a literal takes at least one character.
-/

namespace SignalPipeline.Number

/-- Digits, at least one. -/
def scanDigits? (cs : List Char) : Option (List Char × List Char) :=
  let (ds, r) := spanDigits cs
  if ds.isEmpty then none else some (ds, r)

/-- The digits before the point: a zero alone or a run that starts with another digit. -/
def scanWhole? : List Char → Option (List Char × List Char)
  | '0' :: r => if (spanDigits r).1.isEmpty then some (['0'], r) else none
  | r => scanDigits? r

/-- The digits after a point, if there is one. -/
def scanFraction? : List Char → Option (Option (List Char) × List Char)
  | '.' :: r => (scanDigits? r).map fun (ds, r) => (some ds, r)
  | r => some (none, r)

/-- The exponent after its mark, if there is one. -/
def scanPower? : List Char → Option (Option Int × List Char)
  | 'e' :: r => (readExponent? r).map fun (e, r) => (some e, r)
  | 'E' :: r => (readExponent? r).map fun (e, r) => (some e, r)
  | r => some (none, r)

/-- A minus at the front of a text, if there is one. -/
def takeMinus : List Char → Bool × List Char
  | '-' :: r => (true, r)
  | r => (false, r)

/-- The literal at the front of a text, and what follows. -/
def scan? (cs : List Char) : Option (Literal × List Char) :=
  (scanWhole? (takeMinus cs).2).bind fun (whole, r) =>
    (scanFraction? r).bind fun (fraction, r) =>
      (scanPower? r).map fun (exponent, r) => (⟨(takeMinus cs).1, whole, fraction, exponent⟩, r)

/-! ## A literal is not empty -/

theorem scanDigits?_length {cs ds r : List Char} (h : scanDigits? cs = some (ds, r)) :
    r.length < cs.length := by
  have ha := congrArg List.length (spanDigits_append cs)
  simp only [scanDigits?] at h
  split at h
  · simp at h
  · next hne =>
    simp only [Option.some.injEq, Prod.mk.injEq] at h
    rw [h.1, h.2, List.length_append] at ha
    have : 0 < ds.length := List.length_pos_iff.2 (by simpa [h.1] using hne)
    omega

theorem scanWhole?_length {cs ds r : List Char} (h : scanWhole? cs = some (ds, r)) :
    r.length < cs.length := by
  rw [scanWhole?.eq_def] at h
  split at h
  · split at h
    · simp only [Option.some.injEq, Prod.mk.injEq] at h
      simp [← h.2]
    · simp at h
  · exact scanDigits?_length h

theorem scanFraction?_length {cs r : List Char} {f : Option (List Char)}
    (h : scanFraction? cs = some (f, r)) : r.length ≤ cs.length := by
  rw [scanFraction?.eq_def] at h
  split at h
  · simp only [Option.map_eq_some_iff, Prod.mk.injEq] at h
    obtain ⟨⟨ds, r'⟩, hs, -, rfl⟩ := h
    have := scanDigits?_length hs
    simp only [List.length_cons]
    omega
  · simp only [Option.some.injEq, Prod.mk.injEq] at h
    simp [h.2]

theorem scanPower?_length {cs r : List Char} {e : Option Int}
    (h : scanPower? cs = some (e, r)) : r.length ≤ cs.length := by
  rw [scanPower?.eq_def] at h
  split at h
  iterate 2
    · simp only [Option.map_eq_some_iff, Prod.mk.injEq] at h
      obtain ⟨⟨e', r'⟩, hs, -, rfl⟩ := h
      have := readExponent?_length hs
      simp only [List.length_cons]
      omega
  · simp only [Option.some.injEq, Prod.mk.injEq] at h
    simp [h.2]

theorem takeMinus_length (cs : List Char) : (takeMinus cs).2.length ≤ cs.length := by
  rw [takeMinus.eq_def]
  split <;> simp

/-- A literal takes at least one character. -/
theorem scan?_length {cs r : List Char} {l : Literal} (h : scan? cs = some (l, r)) :
    r.length < cs.length := by
  simp only [scan?, Option.bind_eq_some_iff, Option.map_eq_some_iff, Prod.mk.injEq] at h
  obtain ⟨⟨whole, r₁⟩, h₁, ⟨fraction, r₂⟩, h₂, ⟨exponent, r₃⟩, h₃, -, rfl⟩ := h
  have := takeMinus_length cs
  have := scanWhole?_length h₁
  have := scanFraction?_length h₂
  have := scanPower?_length h₃
  simp only at *
  omega

end SignalPipeline.Number
