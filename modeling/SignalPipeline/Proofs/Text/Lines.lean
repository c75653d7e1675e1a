import Mathlib.Data.List.TakeWhile
import SignalPipeline.Replay.Report

/-!
# Lines of texts

A text is split at its line ends. A text that is put behind some words goes on with further lines if
it has line ends in it, and these begin as the text has it.

* `Text.lines`: the lines of a text.
* `Text.lines_textOfLines`: what becomes of lines that are joined and split again.
* `Text.GoesOn`: a text goes on with a line of some kind.
* `Text.any_linesBehind`: the lines of a text behind words.
-/

namespace SignalPipeline.Text

/-- The lines of a text whose last line has a line end like the others. -/
def lines (s : String) : List (List Char) :=
  (s.toList.splitOn '\n').dropLast

/-- What stands in front of the first line end of a text. -/
def firstLine (s : String) : List Char :=
  s.toList.takeWhile (· != '\n')

/-- The lines with which a text goes on behind its line ends. -/
def furtherLines (s : String) : List (List Char) :=
  (s.toList.splitOn '\n').tail

/-- The lines of a text behind some words. -/
def linesBehind (words s : String) : List (List Char) :=
  (words.toList ++ firstLine s) :: furtherLines s

variable {s words : String}

theorem splitOn_append {front rest : List Char} (h : '\n' ∉ front) :
    (front ++ rest).splitOn '\n' =
      (front ++ rest.takeWhile (· != '\n')) :: (rest.splitOn '\n').tail := by
  induction front with
  | nil =>
    induction rest with
    | nil => rfl
    | cons c rest ih =>
      rw [List.nil_append] at ih ⊢
      rw [List.splitOn_cons_eq_if_modifyHead]
      by_cases hc : c = '\n'
      · simp [hc]
      · rw [ih]
        simp [hc]
  | cons c front ih =>
    obtain ⟨hc, hfront⟩ := not_or.1 (mt List.mem_cons.2 h)
    rw [List.cons_append, List.splitOn_cons_eq_if_modifyHead, ih hfront]
    simp [Ne.symm hc]

theorem splitOn_words (h : '\n' ∉ words.toList) (s : String) :
    (words ++ s).toList.splitOn '\n' = linesBehind words s := by
  rw [String.toList_append, splitOn_append h]
  rfl

theorem not_mem_of_mem_splitOn {cs line : List Char} (h : line ∈ cs.splitOn '\n') :
    '\n' ∉ line := by
  induction cs generalizing line with
  | nil =>
    rw [List.mem_singleton.1 h]
    exact List.not_mem_nil
  | cons c cs ih =>
    rw [List.splitOn_cons_eq_if_modifyHead] at h
    by_cases hc : c = '\n'
    · rw [if_pos (beq_iff_eq.2 hc), List.mem_cons] at h
      rcases h with rfl | h
      · exact List.not_mem_nil
      · exact ih h
    · rw [if_neg (mt beq_iff_eq.1 hc)] at h
      obtain ⟨first, rest, hsplit⟩ := List.exists_cons_of_ne_nil (List.splitOn_ne_nil '\n' cs)
      rw [hsplit] at h ih
      rcases List.mem_cons.1 h with rfl | h
      · exact List.not_mem_cons_of_ne_of_not_mem (Ne.symm hc) (ih List.mem_cons_self)
      · exact ih (List.mem_cons_of_mem first h)

/-- Lines with their line ends are split again, and their texts go on with further lines. -/
theorem lines_textOfLines (ls : List String) :
    lines (textOfLines ls) = ls.flatMap fun l => l.toList.splitOn '\n' := by
  have hsplit : (textOfLines ls).toList.splitOn '\n' =
      (ls.flatMap fun l => l.toList.splitOn '\n') ++ [[]] := by
    induction ls with
    | nil => rfl
    | cons l ls ih =>
      have hcons : (textOfLines (l :: ls)).toList =
          l.toList ++ '\n' :: (textOfLines ls).toList := by
        simp [textOfLines]
      rw [hcons, List.splitOn_append_cons_self, ih, List.flatMap_cons, List.append_assoc]
  rw [lines, hsplit, List.dropLast_concat]

/-- A text goes on with a line of some kind. -/
def GoesOn (kind : List Char → Bool) (s : String) : Prop :=
  ∃ line ∈ furtherLines s, kind line = true

theorem furtherLines_of_unbroken (h : '\n' ∉ s.toList) : furtherLines s = [] := by
  rw [furtherLines, List.splitOn_eq_singleton h]
  rfl

theorem firstLine_of_unbroken (h : '\n' ∉ s.toList) : firstLine s = s.toList := by
  rw [firstLine, List.takeWhile_eq_self_iff]
  intro c hc
  exact bne_iff_ne.2 fun he => h (he ▸ hc)

theorem not_goesOn_of_unbroken {kind : List Char → Bool} (h : '\n' ∉ s.toList) :
    ¬ GoesOn kind s := by
  rintro ⟨line, hline, -⟩
  rw [furtherLines_of_unbroken h] at hline
  cases hline

/-- Texts without line ends are joined to one. -/
theorem not_mem_intercalate {sep : String} {ts : List String} (hsep : '\n' ∉ sep.toList)
    (h : ∀ t ∈ ts, '\n' ∉ t.toList) : '\n' ∉ (sep.intercalate ts).toList := by
  induction ts with
  | nil => simp
  | cons t ts ih =>
    obtain ⟨ht, hts⟩ := List.forall_mem_cons.1 h
    by_cases hnil : ts = []
    · rw [hnil, String.intercalate_singleton]
      exact ht
    · rw [String.intercalate_cons_of_ne_nil hnil, String.toList_append, String.toList_append]
      rw [List.mem_append, List.mem_append, not_or, not_or]
      exact ⟨⟨ht, hsep⟩, ih hts⟩

/-- A line of some kind behind words: the first one is, or the text goes on with one. -/
theorem any_linesBehind {kind : List Char → Bool} :
    (linesBehind words s).any kind = true ↔
      kind (words.toList ++ firstLine s) = true ∨ GoesOn kind s := by
  rw [linesBehind, List.any_cons, Bool.or_eq_true, List.any_eq_true]
  exact Iff.rfl

end SignalPipeline.Text
