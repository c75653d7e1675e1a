/-!
# Blank characters

The characters that count as blank when a text is trimmed: the Unicode property White_Space.

* `isBlank`: whether a character is blank.
* `trim_eq_empty_iff`: trimming leaves nothing exactly when every character is blank.
-/

namespace SignalPipeline.Text

/-- The code points with the property White_Space, as closed ranges. -/
def blankRanges : List (Nat × Nat) :=
  [(0x09, 0x0d), (0x20, 0x20), (0x85, 0x85), (0xa0, 0xa0), (0x1680, 0x1680), (0x2000, 0x200a),
    (0x2028, 0x2029), (0x202f, 0x202f), (0x205f, 0x205f), (0x3000, 0x3000)]

/-- Whether a character is blank. -/
def isBlank (c : Char) : Bool :=
  blankRanges.any fun (first, last) => first ≤ c.toNat && c.toNat ≤ last

/-- Drops blank characters at the front. -/
def skipBlank (cs : List Char) : List Char :=
  cs.dropWhile isBlank

/-- Drops blank characters at both ends. -/
def trimChars (cs : List Char) : List Char :=
  (skipBlank (skipBlank cs).reverse).reverse

/-- Drops blank characters at both ends of a text. -/
def trim (s : String) : String :=
  String.ofList (trimChars s.toList)

/-- Whether a text has only blank characters, so that nothing is left when it is trimmed
(`trim_eq_empty_iff`). -/
def isBlankText (s : String) : Bool :=
  s.toList.all isBlank

theorem skipBlank_eq_nil_iff {cs : List Char} : skipBlank cs = [] ↔ ∀ c ∈ cs, isBlank c = true := by
  induction cs with
  | nil => simp [skipBlank]
  | cons c cs ih =>
    by_cases hc : isBlank c = true
    · rw [skipBlank, List.dropWhile_cons_of_pos hc, List.forall_mem_cons]
      exact ⟨fun h => ⟨hc, ih.1 h⟩, fun h => ih.2 h.2⟩
    · simp [skipBlank, hc]

/-- Skipping drops a front part only. -/
theorem skipBlank_suffix (cs : List Char) : skipBlank cs <:+ cs :=
  List.dropWhile_suffix isBlank

theorem trimChars_eq_nil_iff {cs : List Char} : trimChars cs = [] ↔ ∀ c ∈ cs, isBlank c = true := by
  rw [trimChars, List.reverse_eq_nil_iff, skipBlank_eq_nil_iff]
  simp only [List.mem_reverse]
  constructor
  · intro h
    by_cases hs : skipBlank cs = []
    · exact skipBlank_eq_nil_iff.1 hs
    · have hc := List.head_dropWhile_not isBlank (l := cs) hs
      exact absurd (h _ (List.head_mem hs)) (by simpa [skipBlank] using hc)
  · exact fun h c hc => h c ((skipBlank_suffix cs).mem hc)

/-- Trimming leaves nothing exactly when every character is blank. -/
theorem trim_eq_empty_iff {s : String} : trim s = "" ↔ isBlankText s = true := by
  rw [isBlankText, List.all_eq_true, ← trimChars_eq_nil_iff, trim]
  constructor
  · intro h
    simpa using congrArg String.toList h
  · intro h
    rw [h]

end SignalPipeline.Text
