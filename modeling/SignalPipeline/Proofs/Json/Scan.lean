import SignalPipeline.Json.Token
import SignalPipeline.Proofs.Json.Literal

/-!
# What is written is scanned again

Each token, written down, is found again at the front of whatever follows. For all but numbers that
holds of every text that follows; a number must not go on.

* `Ends`: texts that no number goes on with.
* `Number.scan?_append`: a literal at the front of a text does not depend on what follows it.
* `StringPart.scan?_quote`: a quoted string is scanned again.
* `Number.ReadsBack`: numbers whose literal names them again; integers do.
* `Token.scan?_string`, `Token.scan?_number`: their tokens are found again.
-/

namespace SignalPipeline

/-- Whether a number can go on with a character. -/
def isNumeric (c : Char) : Bool :=
  c.isDigit || c == '.' || c == 'e' || c == 'E'

/-- Texts that no number goes on with. -/
def Ends (rest : List Char) : Prop :=
  ∀ c ∈ rest.head?, isNumeric c = false

theorem ends_nil : Ends [] := nofun

theorem ends_cons {c : Char} {rest : List Char} (h : isNumeric c = false) : Ends (c :: rest) := by
  intro d hd
  cases hd
  exact h

variable {cs r rest : List Char}

/-! ## Numbers -/

theorem spanDigits_append_right (h : (spanDigits cs).2 = [] → Ends rest) :
    spanDigits (cs ++ rest) = ((spanDigits cs).1, (spanDigits cs).2 ++ rest) := by
  induction cs with
  | nil =>
    have hend := h rfl
    cases rest with
    | nil => rfl
    | cons c rest =>
      have hc : c.isDigit = false := by
        have := hend c rfl
        simp only [isNumeric, Bool.or_eq_false_iff] at this
        exact this.1.1.1
      simp [spanDigits, hc]
  | cons c cs ih =>
    by_cases hc : c.isDigit = true
    · have hspan : ∀ ds, spanDigits (c :: ds) = (c :: (spanDigits ds).1, (spanDigits ds).2) := by
        intro ds
        simp [spanDigits, hc]
      rw [hspan] at h
      rw [List.cons_append, hspan, hspan, ih h]
    · simp [spanDigits, hc]

namespace Number

theorem scanDigits?_append {ds : List Char} (h : scanDigits? cs = some (ds, r))
    (hend : r = [] → Ends rest) : scanDigits? (cs ++ rest) = some (ds, r ++ rest) := by
  unfold scanDigits? at h ⊢
  dsimp only at h ⊢
  split at h
  · cases h
  · next hne =>
    cases h
    rw [spanDigits_append_right hend]
    exact if_neg hne

theorem scanWhole?_append {ds : List Char} (h : scanWhole? cs = some (ds, r))
    (hend : r = [] → Ends rest) : scanWhole? (cs ++ rest) = some (ds, r ++ rest) := by
  rw [scanWhole?.eq_def] at h
  split at h
  · next r' =>
    split at h
    · next hempty =>
      cases h
      have hnone : (spanDigits r).1 = [] := List.isEmpty_iff.1 hempty
      have hall : (spanDigits r).2 = r := by
        have := spanDigits_append r
        rwa [hnone] at this
      rw [List.cons_append, scanWhole?, spanDigits_append_right (by rwa [hall])]
      exact if_pos hempty
    · cases h
  · next hzero =>
    cases cs with
    | nil => cases h
    | cons c cs =>
      have happend := scanDigits?_append h hend
      rw [scanWhole?.eq_def]
      split
      · next r' he =>
        rw [List.cons_append, List.cons.injEq] at he
        exact absurd (by rw [he.1]) (hzero cs)
      · exact happend

theorem scanFraction?_append {f : Option (List Char)} (h : scanFraction? cs = some (f, r))
    (hend : r = [] → Ends rest) : scanFraction? (cs ++ rest) = some (f, r ++ rest) := by
  rw [scanFraction?.eq_def] at h
  split at h
  · next r' =>
    obtain ⟨⟨ds, r''⟩, hs, he⟩ := Option.map_eq_some_iff.1 h
    cases he
    rw [List.cons_append, scanFraction?, scanDigits?_append hs hend]
    rfl
  · next hpoint =>
    cases h
    rw [scanFraction?.eq_def]
    split
    · next r' he =>
      cases cs with
      | nil =>
        have := hend rfl '.' (by rw [← List.nil_append rest, he]; rfl)
        simp [isNumeric] at this
      | cons c cs =>
        rw [List.cons_append, List.cons.injEq] at he
        exact absurd (by rw [he.1]) (hpoint cs)
    · rfl

theorem takeSign_append (hne : cs ≠ []) :
    takeSign (cs ++ rest) = ((takeSign cs).1, (takeSign cs).2 ++ rest) := by
  cases cs with
  | nil => exact absurd rfl hne
  | cons c cs =>
    by_cases hminus : c = '-'
    · subst hminus
      rfl
    · by_cases hplus : c = '+'
      · subst hplus
        rfl
      · have hsign : ∀ ds, takeSign (c :: ds) = (false, c :: ds) := fun ds => by
          simp [takeSign.eq_def, hminus, hplus]
        rw [List.cons_append, hsign, hsign]
        rfl

theorem readExponent?_append {e : Int} (h : readExponent? cs = some (e, r))
    (hend : r = [] → Ends rest) : readExponent? (cs ++ rest) = some (e, r ++ rest) := by
  have hne : cs ≠ [] := by
    rintro rfl
    cases h
  unfold readExponent? at h ⊢
  rw [takeSign_append hne]
  dsimp only at h ⊢
  split at h
  · cases h
  · next hdigits =>
    cases h
    rw [spanDigits_append_right hend]
    exact if_neg hdigits

theorem scanPower?_append {e : Option Int} (h : scanPower? cs = some (e, r))
    (hend : r = [] → Ends rest) : scanPower? (cs ++ rest) = some (e, r ++ rest) := by
  rw [scanPower?.eq_def] at h
  split at h
  · next r' =>
    obtain ⟨⟨e', r''⟩, hs, he⟩ := Option.map_eq_some_iff.1 h
    cases he
    rw [List.cons_append, scanPower?, readExponent?_append hs hend]
    rfl
  · next r' =>
    obtain ⟨⟨e', r''⟩, hs, he⟩ := Option.map_eq_some_iff.1 h
    cases he
    rw [List.cons_append, scanPower?, readExponent?_append hs hend]
    rfl
  · next hsmall hlarge =>
    cases h
    cases cs with
    | nil =>
      cases rest with
      | nil => rfl
      | cons c rest =>
        have hc := hend rfl c rfl
        simp only [isNumeric, Bool.or_eq_false_iff, beq_eq_false_iff_ne] at hc
        simp [scanPower?.eq_def, hc.1.2, hc.2]
    | cons c cs =>
      have hc : c ≠ 'e' ∧ c ≠ 'E' := by
        refine ⟨?_, ?_⟩
        · rintro rfl
          exact hsmall cs rfl
        · rintro rfl
          exact hlarge cs rfl
      simp [scanPower?.eq_def, hc.1, hc.2]

theorem takeMinus_append (hne : cs ≠ []) :
    takeMinus (cs ++ rest) = ((takeMinus cs).1, (takeMinus cs).2 ++ rest) := by
  cases cs with
  | nil => exact absurd rfl hne
  | cons c cs =>
    by_cases hminus : c = '-'
    · subst hminus
      rfl
    · have hsign : ∀ ds, takeMinus (c :: ds) = (false, c :: ds) := fun ds => by
        simp [takeMinus.eq_def, hminus]
      rw [List.cons_append, hsign, hsign]
      rfl

/-- A literal that ends where a text ends is found in front of every text that it does not go on
with. -/
theorem scan?_append {l : Literal} (h : scan? cs = some (l, r)) (hend : r = [] → Ends rest) :
    scan? (cs ++ rest) = some (l, r ++ rest) := by
  have hne : cs ≠ [] := by
    rintro rfl
    cases h
  unfold scan? at h ⊢
  rw [takeMinus_append hne]
  obtain ⟨⟨whole, r₁⟩, h₁, h⟩ := Option.bind_eq_some_iff.1 h
  obtain ⟨⟨fraction, r₂⟩, h₂, h⟩ := Option.bind_eq_some_iff.1 h
  obtain ⟨⟨exponent, r₃⟩, h₃, he⟩ := Option.map_eq_some_iff.1 h
  cases he
  -- what is left behind a part is empty only if what is left at the end is
  have hend₂ : r₂ = [] → Ends rest := by
    rintro rfl
    cases h₃
    exact hend rfl
  have hend₁ : r₁ = [] → Ends rest := by
    rintro rfl
    cases h₂
    exact hend₂ rfl
  simp only [scanWhole?_append h₁ hend₁, scanFraction?_append h₂ hend₂, scanPower?_append h₃ hend,
    Option.bind_some, Option.map_some]

end Number

/-! ## Integers -/

theorem absorbDigits_all {n : Nat} (h : Nat.ofDigitChars 10 cs n < wordLimit) :
    absorbDigits n cs = (Nat.ofDigitChars 10 cs n, []) := by
  induction cs generalizing n with
  | nil => rfl
  | cons c cs ih =>
    rw [Nat.ofDigitChars_cons] at h ⊢
    have hle : 10 * n + digitValue c ≤ Nat.ofDigitChars 10 cs (10 * n + digitValue c) := by
      rw [Nat.ofDigitChars_eq_ofDigitChars_zero]
      have := Nat.le_mul_of_pos_left (10 * n + digitValue c) (Nat.pow_pos (n := cs.length)
        (show 0 < 10 by decide))
      omega
    rw [absorbDigits, if_pos (Nat.lt_of_le_of_lt hle h)]
    exact ih h

namespace Number

/-- The literal of a number names the number. -/
def ReadsBack (n : Number) : Prop :=
  ∃ l, scan? n.chars = some (l, []) ∧ ofLiteral? l = some n

/-- Integers are read back. -/
theorem readsBack_integer {i : Int} (h : fits i = true) : ReadsBack (.integer i) := by
  simp only [fits, Bool.and_eq_true, decide_eq_true_eq] at h
  have habs : absorbDigits 0 (Nat.toDigits 10 i.natAbs) = (i.natAbs, []) := by
    rw [absorbDigits_all, Nat.ofDigitChars_ten_toDigits]
    rw [Nat.ofDigitChars_ten_toDigits]
    unfold signedLimit wordLimit at *
    omega
  refine ⟨_, scan?_integer i, ?_⟩
  by_cases hneg : i < 0
  · have hnonzero : i.natAbs ≠ 0 := by omega
    have hsmall : i.natAbs ≤ signedLimit := by omega
    have hi : -(i.natAbs : Int) = i := by omega
    simp only [integerLiteral, hneg, decide_true, ofLiteral?, Option.isNone_none, Bool.and_self,
      habs, List.isEmpty_nil, Bool.not_true, Bool.and_false, Bool.false_eq_true, ↓reduceIte,
      Bool.true_and, hsmall, Bool.and_true, bne_iff_ne, ne_eq, hnonzero, not_false_eq_true, hi]
  · have hi : (i.natAbs : Int) = i := by omega
    simp only [integerLiteral, hneg, decide_false, ofLiteral?, Option.isNone_none, Bool.and_self,
      habs, List.isEmpty_nil, Bool.not_false, ↓reduceIte, hi]

end Number

/-! ## Strings -/

namespace StringPart

theorem hexValue?_digitChar (n : Nat) (h : n < 16) : hexValue? (Nat.digitChar n) = some n := by
  revert n
  decide

/-- A code unit that is no surrogate spells a character by itself. -/
theorem assemble?_escaped {unit : Nat} (h : unit < 0xd800) (ps : List StringPart) :
    assemble? (.escaped unit :: ps) = (assemble? ps).map (Char.ofNat unit :: ·) := by
  have hhigh : isHighSurrogate unit = false := by
    simp only [isHighSurrogate, Bool.and_eq_false_iff, decide_eq_false_iff_not]
    omega
  have hlow : isLowSurrogate unit = false := by
    simp only [isLowSurrogate, Bool.and_eq_false_iff, decide_eq_false_iff_not]
    omega
  cases ps with
  | nil => simp [assemble?, hhigh, hlow]
  | cons p ps =>
    cases p with
    | char c => simp [assemble?, hhigh, hlow]
    | escaped v => simp [assemble?, hhigh, hlow]

/-- A short escape is scanned as the character that it stands for. -/
theorem scan?_short {e c : Char} (hu : e ≠ 'u') (h : shortEscape? e = some c) (rest : List Char) :
    scan? ('\\' :: e :: rest) = (scan? rest).map fun q => (.char c :: q.1, q.2) := by
  rw [scan?.eq_4 e rest fun _ _ _ _ _ he => absurd he hu, h]
  cases scan? rest <;> rfl

/-- The text of a character is scanned as one part, which spells the character. -/
theorem scan?_escapeChar (c : Char) (rest : List Char) :
    ∃ p, scan? (escapeChar c ++ rest) = (scan? rest).map (fun q => (p :: q.1, q.2)) ∧
      ∀ ps, assemble? (p :: ps) = (assemble? ps).map (c :: ·) := by
  unfold escapeChar
  iterate 7
    split
    · next hc =>
      rw [beq_iff_eq.1 hc]
      exact ⟨.char _, scan?_short (by decide) rfl rest, fun _ => rfl⟩
  split
  · next hcontrol =>
    refine ⟨.escaped c.toNat, ?_, fun ps => ?_⟩
    · have hunit : hexUnit? '0' '0' (Nat.digitChar (c.toNat / 16)) (Nat.digitChar (c.toNat % 16)) =
          some c.toNat := by
        have hzero : hexValue? '0' = some 0 := rfl
        have hhigh := hexValue?_digitChar (c.toNat / 16) (by omega)
        have hlow := hexValue?_digitChar (c.toNat % 16) (by omega)
        simp only [hexUnit?, hzero, hhigh, hlow, Option.bind_eq_bind, Option.bind_some]
        congr 1
        omega
      rw [List.cons_append, List.cons_append, List.cons_append, List.cons_append, List.cons_append,
        List.cons_append, List.nil_append, scan?, hunit]
      cases scan? rest <;> rfl
    · rw [assemble?_escaped (by omega), Char.ofNat_toNat]
  · next hquote hbackslash _ _ _ _ _ hcontrol =>
    have hquote : c ≠ '"' := by simpa using hquote
    have hbackslash : c ≠ '\\' := by simpa using hbackslash
    refine ⟨.char c, ?_, fun _ => rfl⟩
    rw [List.singleton_append, scan?.eq_5 c rest (absurd · hquote)
      (fun _ _ _ _ _ h _ => hbackslash h) (fun _ _ h _ => hbackslash h), if_neg]
    · cases scan? rest <;> rfl
    · simp [hcontrol, hbackslash]

/-- The characters of a string between quotes are scanned again. -/
theorem scan?_quote (s rest : List Char) :
    ∃ ps, scan? (s.flatMap escapeChar ++ '"' :: rest) = some (ps, rest) ∧
      assemble? ps = some s := by
  induction s with
  | nil => exact ⟨[], by simp [scan?], rfl⟩
  | cons c s ih =>
    obtain ⟨ps, hscan, hspell⟩ := ih
    obtain ⟨p, hpart, hchar⟩ := scan?_escapeChar c (s.flatMap escapeChar ++ '"' :: rest)
    refine ⟨p :: ps, ?_, ?_⟩
    · rw [List.flatMap_cons, List.append_assoc, hpart, hscan]
      rfl
    · rw [hchar, hspell]
      rfl

end StringPart

/-! ## Tokens -/

namespace Token

/-- A number starts with a minus or a digit. -/
theorem of_scan?_number {c : Char} {l : Number.Literal} (h : Number.scan? (c :: cs) = some (l, r)) :
    c = '-' ∨ c.isDigit = true := by
  by_cases hminus : c = '-'
  · exact .inl hminus
  · by_cases hdigit : c.isDigit = true
    · exact .inr hdigit
    · have hzero : c ≠ '0' := by
        rintro rfl
        exact hdigit rfl
      simp [Number.scan?, Number.takeMinus.eq_def, hminus, Number.scanWhole?.eq_def, hzero,
        Number.scanDigits?, spanDigits, hdigit] at h

theorem scan?_of_number {c : Char} (h : c = '-' ∨ c.isDigit = true) (cs : List Char) :
    scan? (c :: cs) =
      (Number.scan? (c :: cs)).map fun p => (.number (Number.ofLiteral? p.1), p.2) := by
  rw [scan?.eq_def]
  split
  case h_11 => rfl
  all_goals
    next heq =>
      cases heq
      exact absurd h (by decide)

/-- White space is no token. -/
theorem scan?_space {c : Char} (h : isSpace c = true) (cs : List Char) :
    scan? (c :: cs) = none := by
  have hspace : c = ' ' ∨ c = '\t' ∨ c = '\n' ∨ c = '\r' := by
    simpa [isSpace, or_assoc] using h
  rcases hspace with rfl | rfl | rfl | rfl <;> rfl

theorem scan?_string (s : String) (rest : List Char) :
    scan? (chars (.string (some s)) ++ rest) = some (.string (some s), rest) := by
  obtain ⟨ps, hscan, hspell⟩ := StringPart.scan?_quote s.toList rest
  have hchars : chars (.string (some s)) ++ rest =
      '"' :: (s.toList.flatMap StringPart.escapeChar ++ '"' :: rest) := by
    simp [chars, StringPart.quote]
  simp only [hchars, scan?, hscan, hspell, Option.map_some, String.ofList_toList]

/-- Where the text of a number is a literal, it is scanned as the number that the literal names. -/
theorem scan?_literal {n : Number} {l : Number.Literal}
    (hscan : Number.scan? n.chars = some (l, [])) (hr : Ends rest) :
    scan? (chars (.number (some n)) ++ rest) = some (.number (Number.ofLiteral? l), rest) := by
  change scan? (n.chars ++ rest) = _
  cases hchars : n.chars with
  | nil =>
    rw [hchars] at hscan
    cases hscan
  | cons c cs =>
    rw [hchars] at hscan
    rw [List.cons_append, scan?_of_number (of_scan?_number hscan), ← List.cons_append,
      Number.scan?_append hscan fun _ => hr, Option.map_some]
    rfl

theorem scan?_number {n : Number} (hn : n.ReadsBack) (hr : Ends rest) :
    scan? (chars (.number (some n)) ++ rest) = some (.number (some n), rest) := by
  obtain ⟨l, hscan, hname⟩ := hn
  rw [scan?_literal hscan hr, hname]

end Token
end SignalPipeline
