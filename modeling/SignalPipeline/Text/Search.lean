/-!
# Searching texts

* `hasPart`: whether a text occurs somewhere in another.
* `hasPart_iff`: it does exactly if something stands in front of it and something behind.
-/

namespace SignalPipeline.Text

/-- Whether characters occur next to one another among others. -/
def hasPartChars (part : List Char) : List Char → Bool
  | [] => part.isEmpty
  | c :: cs => part.isPrefixOf (c :: cs) || hasPartChars part cs

/-- Whether a text occurs somewhere in another. -/
def hasPart (part s : String) : Bool :=
  hasPartChars part.toList s.toList

/-- A text occurs in another exactly if something stands in front of it and something behind. -/
theorem hasPartChars_iff {part cs : List Char} :
    hasPartChars part cs = true ↔ ∃ front rest, cs = front ++ part ++ rest := by
  induction cs with
  | nil =>
    simp only [hasPartChars, List.isEmpty_iff]
    constructor
    · rintro rfl
      exact ⟨[], [], rfl⟩
    · rintro ⟨front, rest, h⟩
      have := congrArg List.length h
      simp only [List.length_nil, List.length_append] at this
      exact List.length_eq_zero_iff.1 (by omega)
  | cons c cs ih =>
    rw [hasPartChars, Bool.or_eq_true, List.isPrefixOf_iff_prefix, ih]
    constructor
    · rintro (⟨rest, h⟩ | ⟨front, rest, h⟩)
      · exact ⟨[], rest, h.symm⟩
      · exact ⟨c :: front, rest, by rw [h]; rfl⟩
    · rintro ⟨front, rest, h⟩
      cases front with
      | nil => exact .inl ⟨rest, h.symm⟩
      | cons d front =>
        refine .inr ⟨front, rest, ?_⟩
        simp only [List.cons_append, List.cons.injEq] at h
        exact h.2

end SignalPipeline.Text
