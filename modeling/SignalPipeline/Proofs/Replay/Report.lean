import SignalPipeline.Proofs.Replay.Findings
import SignalPipeline.Proofs.Text.Lines
import SignalPipeline.Text.Blank

/-!
# What a report says

The report of a replay has lines of its own, and texts of the data in them: ids, decisions, codes,
digests, versions and notes. These stand there as they are. So a text that has line ends in it goes
on with lines that look like any others, and the id of a stage, which opens its line, can make it
look like one of the comparison or like the warning. Nothing else does: the words of the report tell
the lines apart, and the verdict on its last line is right for any data.

* `ReplayResult.isItem`, `ReplayResult.isVerdict`, `ReplayResult.isWarning`: three kinds of lines.
* `ReplayResult.lines_report`: the lines of a report.
* `ReplayResult.filter_isItem_iff`, `ReplayResult.countP_isVerdict_iff`,
  `ReplayResult.any_isWarning_iff`: when the lines of a kind are the ones that should be.
* `ReplayResult.Plain`: data that forges no line.
* `ReplayResult.report_exact`: all of it, and the verdict.
* `ReplayResult.report_forged`: a report with lines that its data made up.
-/

namespace SignalPipeline

/-! ## The lines of a report -/

namespace ReplayResult

open Text

/-- The words on a result in front of its decision. -/
def scoreWords (label : String) (r : ScoredResult) : String :=
  label ++ s!"score {fixed 4 r.score}, decision "

/-- A decision and what stands behind it in its line. -/
def decisionText (r : ScoredResult) : String :=
  s!"{r.decision} ({fixed 4 r.confidence})"

/-- The id of a stage and what stands behind it in its line. -/
def stageText (m : StageMeta) : String :=
  s!"{m.id} [{m.status.name}] {fixed 1 m.duration}ms"

/-- The ids of the stages and what stands behind them in their lines. -/
def stageTexts (r : ReplayResult) : List String :=
  (r.stageSummaries.getD []).map stageText

/-- The texts of the data in a report, up to the end of the line, but for the comparison. -/
def insertions (r : ReplayResult) : List String :=
  [r.signalId, r.replayMeta.pipelineVersion] ++ r.replayMeta.notes ++
    [decisionText r.stored, decisionText r.recomputed] ++ r.stageTexts

/-- The lines in front of the comparison: words, and the text behind them. -/
def front (r : ReplayResult) : List (String × String) :=
  [("Replay of signal ", r.signalId),
    (s!"  ran at {r.replayMeta.ranAt.millisText} with pipeline ", r.replayMeta.pipelineVersion)] ++
  (if r.replayMeta.lossyInput then
    [("  WARNING: lossy input, results may differ for that reason alone", "")] else []) ++
  r.replayMeta.notes.map (("  note: ", ·)) ++
  [(scoreWords "  stored:     " r.stored, decisionText r.stored),
    (scoreWords "  recomputed: " r.recomputed, decisionText r.recomputed), ("Comparison:", "")]

/-- The lines of the comparison. -/
def items (r : ReplayResult) : List (String × String) :=
  r.comparison.lines.map (("  - ", ·))

/-- The lines on the stages. -/
def back (r : ReplayResult) : List (String × String) :=
  if r.stageSummaries.isSome then ("Stages:", "") :: r.stageTexts.map (("  ", ·)) else []

/-- All lines in front of the verdict. -/
def body (r : ReplayResult) : List (String × String) :=
  r.front ++ r.items ++ r.back

theorem reportLine_eq : StageMeta.reportLine = fun m => "  " ++ stageText m := by
  funext m
  simp [StageMeta.reportLine, stageText, String.append_assoc, toString]

theorem reportLines_eq (r : ReplayResult) :
    r.reportLines = r.body.map (fun line => line.1 ++ line.2) ++ ["Result: " ++ r.verdict] := by
  unfold reportLines ReplayMeta.reportLines body front items back stageTexts
  rw [reportLine_eq]
  cases r.replayMeta.lossyInput <;> cases r.stageSummaries <;>
    simp [scoreWords, decisionText, ScoredResult.reportText, Comparison.lines, String.append_assoc,
      Function.comp_def, toString]

/-! ### Words have no line ends -/

theorem not_mem_fixed (places : Nat) (x : Float) : '\n' ∉ (fixed places x).toList := fun h =>
  absurd (Fixed.isPlain_of_mem_fixed h) (by decide)

theorem not_mem_padded (width n : Nat) : '\n' ∉ Timestamp.padded width n := by
  intro h
  rcases List.mem_append.1 h with h | h
  · exact absurd (List.eq_of_mem_replicate h) (by decide)
  · exact absurd (Nat.isDigit_of_mem_toDigits (by decide) (by decide) h) (by decide)

theorem not_mem_millisText (t : Timestamp) : '\n' ∉ t.millisText.toList := by
  have hyear : ∀ year, '\n' ∉ Timestamp.yearChars year := by
    intro year
    unfold Timestamp.yearChars
    split
    · exact not_mem_padded _ _
    · split <;> simp [not_mem_padded]
  simp [Timestamp.millisText, Timestamp.secondChars, not_mem_padded, hyear]

theorem not_mem_words {r : ReplayResult} {line : String × String} (h : line ∈ r.body) :
    '\n' ∉ line.1.toList := by
  revert line
  unfold body front items back scoreWords
  cases r.replayMeta.lossyInput <;> cases r.stageSummaries <;>
    simp [not_mem_fixed, not_mem_millisText, toString, or_imp, forall_and]

/-! ### Lines of three kinds -/

/-- A line of the comparison. -/
def isItem (line : List Char) : Bool :=
  "  - ".toList.isPrefixOf line

/-- The verdict. -/
def isVerdict (line : List Char) : Bool :=
  "Result: ".toList.isPrefixOf line

/-- The warning that the input was rebuilt, behind any indentation. -/
def isWarning (line : List Char) : Bool :=
  "WARNING: lossy input".toList.isPrefixOf (skipBlank line)

/-- The lines of some lines of a report: words with a text behind them, and what the text goes on
with. -/
def linesOf (part : List (String × String)) : List (List Char) :=
  part.flatMap fun line => linesBehind line.1 line.2

theorem lines_report (r : ReplayResult) :
    lines (ReplayOutcome.report (.replayed r)) =
      linesOf r.body ++ [("Result: " ++ r.verdict).toList] := by
  have hverdict : '\n' ∉ ("Result: " ++ r.verdict).toList := by
    unfold verdict
    split <;> decide
  rw [ReplayOutcome.report, lines_textOfLines, reportLines_eq, List.flatMap_append,
    List.flatMap_map, List.flatMap_singleton, List.splitOn_eq_singleton hverdict, linesOf]
  congr 1
  exact List.flatMap_congr fun line h => splitOn_words (not_mem_words h) line.2

variable {r : ReplayResult} {kind : List Char → Bool} {part : List (String × String)}

theorem any_linesOf : (linesOf part).any kind = true ↔
    (∃ line ∈ part, kind (line.1.toList ++ firstLine line.2) = true) ∨
      ∃ line ∈ part, GoesOn kind line.2 := by
  rw [linesOf, List.any_flatMap, List.any_eq_true]
  simp only [any_linesBehind]
  exact ⟨fun ⟨line, hline, h⟩ => h.imp (⟨line, hline, ·⟩) (⟨line, hline, ·⟩),
    fun h => h.elim (fun ⟨line, hline, h⟩ => ⟨line, hline, .inl h⟩)
      fun ⟨line, hline, h⟩ => ⟨line, hline, .inr h⟩⟩

/-- The texts of the lines around the comparison. -/
theorem goesOn_around :
    (∃ line ∈ r.front ++ r.back, GoesOn kind line.2) ↔ ∃ t ∈ r.insertions, GoesOn kind t := by
  have hempty : ¬ GoesOn kind "" := not_goesOn_of_unbroken (by decide)
  unfold front back insertions stageTexts
  cases r.replayMeta.lossyInput <;> cases r.stageSummaries <;>
    simp [hempty, or_and_right, exists_or, -Prod.exists]

theorem goesOn_items :
    (∃ line ∈ r.items, GoesOn kind line.2) ↔ ∃ l ∈ r.comparison.lines, GoesOn kind l := by
  simp [items]

/-- How the lines in front of the comparison begin, but for the warning. -/
def openings : List String :=
  ["Replay of signal ", "  ran at ", "  note: ", "  stored:     ", "  recomputed: ", "Comparison:"]

theorem front_cases {line : String × String} (h : line ∈ r.front) :
    (∃ opening ∈ openings, ∃ rest, line.1 = opening ++ rest) ∨
      r.replayMeta.lossyInput = true ∧
        line.1 = "  WARNING: lossy input, results may differ for that reason alone" := by
  simp only [front, List.mem_append, List.mem_cons, List.mem_map, List.not_mem_nil, or_false] at h
  rcases h with (((rfl | rfl) | h) | ⟨note, -, rfl⟩) | rfl | rfl | rfl
  · exact .inl ⟨"Replay of signal ", by decide, "", rfl⟩
  · refine .inl ⟨"  ran at ", by decide, r.replayMeta.ranAt.millisText ++ " with pipeline ", ?_⟩
    simp only [toString, String.append_assoc]
  · split at h
    · next hlossy => exact .inr ⟨hlossy, congrArg Prod.fst (List.mem_singleton.1 h)⟩
    · cases h
  · exact .inl ⟨"  note: ", by decide, "", rfl⟩
  · exact .inl ⟨"  stored:     ", by decide, _, rfl⟩
  · exact .inl ⟨"  recomputed: ", by decide, _, rfl⟩
  · exact .inl ⟨"Comparison:", by decide, "", rfl⟩

/-- Lines that begin with one of these are of none of the kinds. -/
theorem kinds_of_opening {opening : String} (h : opening ∈ openings) (text : List Char) :
    isItem (opening.toList ++ text) = false ∧ isVerdict (opening.toList ++ text) = false ∧
      isWarning (opening.toList ++ text) = false := by
  simp only [openings, List.mem_cons, List.not_mem_nil, or_false] at h
  rcases h with rfl | rfl | rfl | rfl | rfl | rfl <;> exact ⟨rfl, rfl, rfl⟩

/-- In front of the comparison only the warning is of a kind. -/
theorem kinds_of_front {line : String × String} (h : line ∈ r.front) (text : List Char) :
    isItem (line.1.toList ++ text) = false ∧ isVerdict (line.1.toList ++ text) = false ∧
      (isWarning (line.1.toList ++ text) = true → r.replayMeta.lossyInput = true) := by
  rcases front_cases h with ⟨opening, hopening, rest, hline⟩ | ⟨hlossy, hline⟩
  · rw [hline, String.toList_append, List.append_assoc]
    obtain ⟨hitem, hverdict, hwarning⟩ := kinds_of_opening hopening (rest.toList ++ text)
    exact ⟨hitem, hverdict, fun h => absurd h (Bool.eq_false_iff.1 hwarning)⟩
  · rw [hline]
    exact ⟨rfl, rfl, fun _ => hlossy⟩

theorem kinds_of_item (text : List Char) :
    isItem ("  - ".toList ++ text) = true ∧ isVerdict ("  - ".toList ++ text) = false ∧
      isWarning ("  - ".toList ++ text) = false :=
  ⟨rfl, rfl, rfl⟩

theorem kinds_of_stage (text : List Char) :
    isItem ("  ".toList ++ text) = "- ".toList.isPrefixOf text ∧
      isVerdict ("  ".toList ++ text) = false ∧
        isWarning ("  ".toList ++ text) = isWarning text :=
  ⟨rfl, rfl, rfl⟩

theorem kinds_of_verdict (r : ReplayResult) :
    isItem ("Result: " ++ r.verdict).toList = false ∧
      isVerdict ("Result: " ++ r.verdict).toList = true ∧
        isWarning ("Result: " ++ r.verdict).toList = false := by
  unfold verdict
  split <;> exact ⟨rfl, rfl, rfl⟩

theorem mem_back_iff {line : String × String} : line ∈ r.back ↔
    (r.stageSummaries.isSome = true ∧ line = ("Stages:", "")) ∨
      ∃ t ∈ r.stageTexts, line = ("  ", t) := by
  unfold back stageTexts
  cases r.stageSummaries <;> simp [eq_comm]

theorem mem_items_iff {line : String × String} :
    line ∈ r.items ↔ ∃ l ∈ r.comparison.lines, line = ("  - ", l) := by
  simp [items, eq_comm]

theorem mem_front_of_lossy (h : r.replayMeta.lossyInput = true) :
    ("  WARNING: lossy input, results may differ for that reason alone", "") ∈ r.front := by
  simp [front, h]

/-- The lines around the comparison begin like those in it where the id of a stage begins so. -/
theorem isItem_words :
    (∃ line ∈ r.front ++ r.back, isItem (line.1.toList ++ firstLine line.2) = true) ↔
      ∃ t ∈ r.stageTexts, "- ".toList <+: firstLine t := by
  constructor
  · rintro ⟨line, hline, h⟩
    rcases List.mem_append.1 hline with hline | hline
    · rw [(kinds_of_front hline _).1] at h
      cases h
    · rcases mem_back_iff.1 hline with ⟨-, rfl⟩ | ⟨t, ht, rfl⟩
      · cases h
      · rw [(kinds_of_stage _).1] at h
        exact ⟨t, ht, List.isPrefixOf_iff_prefix.1 h⟩
  · rintro ⟨t, ht, h⟩
    refine ⟨("  ", t), List.mem_append_right _ (mem_back_iff.2 (.inr ⟨t, ht, rfl⟩)), ?_⟩
    rw [(kinds_of_stage _).1]
    exact List.isPrefixOf_iff_prefix.2 h

/-- No words in front of the verdict are like it. -/
theorem isVerdict_words :
    ¬ ∃ line ∈ r.body, isVerdict (line.1.toList ++ firstLine line.2) = true := by
  rintro ⟨line, hline, h⟩
  rw [body, List.mem_append, List.mem_append] at hline
  rcases hline with (hline | hline) | hline
  · rw [(kinds_of_front hline _).2.1] at h
    cases h
  · obtain ⟨l, -, rfl⟩ := mem_items_iff.1 hline
    rw [(kinds_of_item _).2.1] at h
    cases h
  · rcases mem_back_iff.1 hline with ⟨-, rfl⟩ | ⟨t, -, rfl⟩
    · cases h
    · rw [(kinds_of_stage _).2.1] at h
      cases h

/-- The words warn where they should, and where the id of a stage does. -/
theorem isWarning_words :
    (∃ line ∈ r.body, isWarning (line.1.toList ++ firstLine line.2) = true) ↔
      r.replayMeta.lossyInput = true ∨ ∃ t ∈ r.stageTexts, isWarning (firstLine t) = true := by
  constructor
  · rintro ⟨line, hline, h⟩
    rw [body, List.mem_append, List.mem_append] at hline
    rcases hline with (hline | hline) | hline
    · exact .inl ((kinds_of_front hline _).2.2 h)
    · obtain ⟨l, -, rfl⟩ := mem_items_iff.1 hline
      rw [(kinds_of_item _).2.2] at h
      cases h
    · rcases mem_back_iff.1 hline with ⟨-, rfl⟩ | ⟨t, ht, rfl⟩
      · cases h
      · rw [(kinds_of_stage _).2.2] at h
        exact .inr ⟨t, ht, h⟩
  · rintro (hlossy | ⟨t, ht, h⟩)
    · have hfront := mem_front_of_lossy hlossy
      exact ⟨_, List.mem_append_left r.back (List.mem_append_left r.items hfront), rfl⟩
    · refine ⟨("  ", t), List.mem_append_right _ (mem_back_iff.2 (.inr ⟨t, ht, rfl⟩)), ?_⟩
      rw [(kinds_of_stage _).2.2, h]

/-- A text in front of the verdict goes on with a line of some kind. -/
theorem goesOn_body : (∃ line ∈ r.body, GoesOn kind line.2) ↔
    ∃ t ∈ r.insertions ++ r.comparison.lines, GoesOn kind t := by
  have hparts : (∃ line ∈ r.body, GoesOn kind line.2) ↔
      (∃ line ∈ r.front ++ r.back, GoesOn kind line.2) ∨ ∃ line ∈ r.items, GoesOn kind line.2 := by
    simp only [body, List.mem_append, or_and_right, exists_or]
    exact or_right_comm
  rw [hparts, goesOn_around, goesOn_items]
  simp only [List.mem_append, or_and_right, exists_or]

/-! ### Where the lines can be told -/

/-- Some line of a report warns. -/
theorem any_isWarning_iff :
    (lines (ReplayOutcome.report (.replayed r))).any isWarning = true ↔
      r.replayMeta.lossyInput = true ∨
        (∃ t ∈ r.insertions ++ r.comparison.lines, GoesOn isWarning t) ∨
          ∃ t ∈ r.stageTexts, isWarning (firstLine t) = true := by
  rw [lines_report, List.any_append, List.any_cons, (kinds_of_verdict r).2.2, List.any_nil,
    Bool.or_false, Bool.or_false, any_linesOf, isWarning_words, goesOn_body, or_assoc,
    or_congr_right or_comm]

/-- The verdict stands in a report once. -/
theorem countP_isVerdict_iff :
    (lines (ReplayOutcome.report (.replayed r))).countP isVerdict = 1 ↔
      ∀ t ∈ r.insertions ++ r.comparison.lines, ¬ GoesOn isVerdict t := by
  have hnone : (linesOf r.body).countP isVerdict = 0 ↔ ¬ (linesOf r.body).any isVerdict = true := by
    rw [List.countP_eq_zero, List.any_eq_true, not_exists]
    simp only [not_and]
  rw [lines_report, List.countP_append, List.countP_singleton, if_pos (kinds_of_verdict r).2.1,
    Nat.add_eq_right, hnone, any_linesOf, or_iff_right isVerdict_words, goesOn_body]
  simp only [not_exists, not_and]

theorem linesOf_items (h : ∀ l ∈ r.comparison.lines, '\n' ∉ l.toList) :
    linesOf r.items = r.comparison.lines.map fun l => ("  - " ++ l).toList := by
  have hline : ∀ l ∈ r.comparison.lines, linesBehind "  - " l = [("  - " ++ l).toList] := by
    intro l hl
    rw [linesBehind, furtherLines_of_unbroken (h l hl), firstLine_of_unbroken (h l hl),
      String.toList_append]
  rw [linesOf, items, List.flatMap_map, List.flatMap_congr hline, List.map_eq_flatMap]

/-- No line around the comparison begins like those in it. -/
theorem filter_around_iff :
    (linesOf r.front).filter isItem = [] ∧ (linesOf r.back).filter isItem = [] ↔
      (∀ t ∈ r.insertions, ¬ GoesOn isItem t) ∧
        ∀ t ∈ r.stageTexts, ¬ "- ".toList <+: firstLine t := by
  have hany : (linesOf r.front).filter isItem = [] ∧ (linesOf r.back).filter isItem = [] ↔
      ¬ (linesOf (r.front ++ r.back)).any isItem = true := by
    rw [← List.append_eq_nil_iff, ← List.filter_append, linesOf, linesOf, linesOf,
      List.flatMap_append, List.filter_eq_nil_iff, List.any_eq_true, not_exists]
    simp only [not_and]
  rw [hany, any_linesOf, isItem_words, goesOn_around, not_or, and_comm]
  simp only [not_exists, not_and]

/-- The lines that begin like those of the comparison are the ones of the comparison. -/
theorem filter_isItem_iff :
    (lines (ReplayOutcome.report (.replayed r))).filter isItem =
        r.comparison.lines.map (fun l => ("  - " ++ l).toList) ↔
      (∀ l ∈ r.comparison.lines, '\n' ∉ l.toList) ∧ (∀ t ∈ r.insertions, ¬ GoesOn isItem t) ∧
        ∀ t ∈ r.stageTexts, ¬ "- ".toList <+: firstLine t := by
  have hunbroken : (lines (ReplayOutcome.report (.replayed r))).filter isItem =
      r.comparison.lines.map (fun l => ("  - " ++ l).toList) →
        ∀ l ∈ r.comparison.lines, '\n' ∉ l.toList := by
    intro h l hl hbreak
    have hmem := (List.mem_filter.1 (h ▸ List.mem_map_of_mem hl)).1
    refine not_mem_of_mem_splitOn (List.dropLast_subset _ hmem) ?_
    rw [String.toList_append]
    exact List.mem_append_right _ hbreak
  have hitems : (r.comparison.lines.map fun l => ("  - " ++ l).toList).filter isItem =
      r.comparison.lines.map fun l => ("  - " ++ l).toList := by
    rw [List.filter_eq_self]
    intro line hline
    obtain ⟨l, -, rfl⟩ := List.mem_map.1 hline
    rw [String.toList_append]
    exact (kinds_of_item _).1
  have hverdict : [("Result: " ++ r.verdict).toList].filter isItem = [] :=
    List.filter_cons_of_neg (Bool.eq_false_iff.1 (kinds_of_verdict r).1)
  refine (and_iff_right_of_imp hunbroken).symm.trans (and_congr_right fun h => ?_)
  -- with unbroken lines the comparison gives its part, and the rest must give nothing
  have hparts : linesOf r.body = linesOf r.front ++ linesOf r.items ++ linesOf r.back := by
    simp only [linesOf, body, List.flatMap_append]
  rw [lines_report, List.filter_append, hverdict, List.append_nil, hparts, List.filter_append,
    List.filter_append, linesOf_items h, hitems, ← filter_around_iff]
  constructor
  · intro heq
    have hlength := congrArg List.length heq
    simp only [List.length_append] at hlength
    exact ⟨List.length_eq_zero_iff.1 (by omega), List.length_eq_zero_iff.1 (by omega)⟩
  · rintro ⟨hfront, hback⟩
    rw [hfront, hback, List.nil_append, List.append_nil]

end ReplayResult

/-! ## Data without line ends -/

/-- The texts of a result. -/
def ScoredResult.texts (r : ScoredResult) : List String :=
  r.decision :: r.reasonCodes ++ r.configHash.toList ++ r.logicVersion.toList ++
    r.novelty.elim [] fun n => n.classification :: n.duplicateOf.toList

/-- What is said of the texts of a result is said of each of its parts. -/
theorem ScoredResult.forall_mem_texts {P : String → Prop} {r : ScoredResult} :
    (∀ t ∈ r.texts, P t) ↔ P r.decision ∧ (∀ t ∈ r.reasonCodes, P t) ∧
      (∀ t ∈ r.configHash, P t) ∧ (∀ t ∈ r.logicVersion, P t) ∧
        ∀ n ∈ r.novelty, ∀ t ∈ n.classification :: n.duplicateOf.toList, P t := by
  unfold texts
  cases r.novelty <;> simp [or_imp, forall_and]

namespace Finding

variable {before after : String}

theorem not_mem_line {f : Finding} (h : '\n' ∉ f.detail.toList) : '\n' ∉ f.line.toList := by
  rw [toList_line, String.toList_append]
  cases f.changed <;> cases f.axis <;> simp [Axis.name, h]

theorem not_mem_ofTexts (axis : Axis) (hbefore : '\n' ∉ before.toList)
    (hafter : '\n' ∉ after.toList) : '\n' ∉ (ofTexts axis before after).detail.toList := by
  unfold ofTexts
  split
  · exact hbefore
  · simp [hbefore, hafter, toString]

theorem not_mem_getD_absent {tag : Option String} (h : ∀ t ∈ tag, '\n' ∉ t.toList) :
    '\n' ∉ (tag.getD absent).toList := by
  cases tag with
  | none => decide
  | some t => exact h t rfl

theorem not_mem_ofTags (axis : Axis) {before after : Option String}
    (hbefore : ∀ t ∈ before, '\n' ∉ t.toList) (hafter : ∀ t ∈ after, '\n' ∉ t.toList) :
    '\n' ∉ (ofTags axis before after).detail.toList := by
  have hbefore := not_mem_getD_absent hbefore
  have hafter := not_mem_getD_absent hafter
  unfold ofTags
  dsimp only
  split
  · exact hbefore
  · simp [hbefore, hafter, toString]

theorem not_mem_bracketed {codes : List String} (h : ∀ code ∈ codes, '\n' ∉ code.toList) :
    '\n' ∉ (bracketed codes).toList := by
  have hcodes : '\n' ∉ (", ".intercalate codes).toList := Text.not_mem_intercalate (by decide) h
  simp [bracketed, -String.toList_intercalate, hcodes]

theorem not_mem_ofCodes {before after : List String} (hbefore : ∀ code ∈ before, '\n' ∉ code.toList)
    (hafter : ∀ code ∈ after, '\n' ∉ code.toList) :
    '\n' ∉ (ofCodes before after).detail.toList := by
  unfold ofCodes
  split
  · exact not_mem_bracketed fun code h => hbefore code (mem_codeSet.1 h)
  · simp [not_mem_bracketed hbefore, not_mem_bracketed hafter, toString]

theorem not_mem_stableText {n : NoveltyInfo}
    (h : ∀ t ∈ n.classification :: n.duplicateOf.toList, '\n' ∉ t.toList) :
    '\n' ∉ n.stableText.toList := by
  obtain ⟨hclass, hearlier⟩ := List.forall_mem_cons.1 h
  unfold NoveltyInfo.stableText
  cases hof : n.duplicateOf with
  | none => cases n.isDuplicate <;> simp [hclass, toString]
  | some earlier =>
    have hearlier := hearlier earlier (by rw [hof]; exact List.mem_singleton_self earlier)
    cases n.isDuplicate <;> simp [hclass, hearlier, toString]

theorem not_mem_novelty {novelty : Option NoveltyInfo}
    (h : ∀ n ∈ novelty, ∀ t ∈ n.classification :: n.duplicateOf.toList, '\n' ∉ t.toList) :
    '\n' ∉ (novelty.elim absent NoveltyInfo.stableText).toList := by
  cases novelty with
  | none => decide
  | some n => exact not_mem_stableText (h n rfl)

/-- The lines of a comparison have no line ends if the results have none. -/
theorem not_mem_along {stored recomputed : ScoredResult} (epsilon : Float) (axis : Axis)
    (hstored : ∀ t ∈ stored.texts, '\n' ∉ t.toList)
    (hrecomputed : ∀ t ∈ recomputed.texts, '\n' ∉ t.toList) :
    '\n' ∉ (along epsilon stored recomputed axis).line.toList := by
  obtain ⟨hdecision, hcodes, hhash, hversion, hnovelty⟩ :=
    ScoredResult.forall_mem_texts.1 hstored
  obtain ⟨hdecision', hcodes', hhash', hversion', hnovelty'⟩ :=
    ScoredResult.forall_mem_texts.1 hrecomputed
  refine not_mem_line ?_
  cases axis with
  | score => exact not_mem_ofNumbers (by decide) (by decide) .score _ _ _
  | decision => exact not_mem_ofTexts _ hdecision hdecision'
  | confidence => exact not_mem_ofNumbers (by decide) (by decide) .confidence _ _ _
  | reasonCodes => exact not_mem_ofCodes hcodes hcodes'
  | configHash => exact not_mem_ofTags _ hhash hhash'
  | logicVersion => exact not_mem_ofTags _ hversion hversion'
  | novelty => exact not_mem_ofTexts _ (not_mem_novelty hnovelty) (not_mem_novelty hnovelty')

end Finding

namespace ReplayResult

open Text

/-- The texts of the data of a replay. -/
def texts (r : ReplayResult) : List String :=
  r.signalId :: r.replayMeta.pipelineVersion :: r.replayMeta.notes ++ r.stored.texts ++
    r.recomputed.texts ++ (r.stageSummaries.getD []).map StageMeta.id

/-- No text of the data has a line end, and no stage has an id that begins like a line of a kind. -/
structure Plain (r : ReplayResult) : Prop where
  unbroken : ∀ t ∈ r.texts, '\n' ∉ t.toList
  noItem : ∀ m ∈ r.stageSummaries.getD [], ¬ "- ".toList <+: (m.id ++ " ").toList
  noWarning : ∀ m ∈ r.stageSummaries.getD [], isWarning m.id.toList = false

variable {r : ReplayResult} {epsilon : Float}

theorem not_mem_decisionText {result : ScoredResult} (h : '\n' ∉ result.decision.toList) :
    '\n' ∉ (decisionText result).toList := by
  simp [decisionText, h, not_mem_fixed, toString]

theorem not_mem_stageText {m : StageMeta} (h : '\n' ∉ m.id.toList) :
    '\n' ∉ (stageText m).toList := by
  unfold stageText
  cases m.status <;> simp [StageStatus.name, h, not_mem_fixed, toString]

theorem not_mem_insertions (h : ∀ t ∈ r.texts, '\n' ∉ t.toList) :
    ∀ t ∈ r.insertions, '\n' ∉ t.toList := by
  unfold texts ScoredResult.texts at h
  intro t ht
  simp only [insertions, stageTexts, List.mem_append, List.mem_cons, List.mem_map,
    List.not_mem_nil, or_false] at ht
  rcases ht with (((rfl | rfl) | hnote) | rfl | rfl) | ⟨m, hm, rfl⟩
  · exact h _ (by simp)
  · exact h _ (by simp)
  · exact h _ (by simp [hnote])
  · exact not_mem_decisionText (h _ (by simp))
  · exact not_mem_decisionText (h _ (by simp))
  · exact not_mem_stageText (h _ (List.mem_append_right _ (List.mem_map_of_mem hm)))

/-- The words of the warning end in front of a bracket behind a blank. -/
theorem prefix_append_iff {text rest : List Char} :
    "WARNING: lossy input".toList <+: text ++ ' ' :: '[' :: rest ↔
      "WARNING: lossy input".toList <+: text := by
  refine ⟨fun h => ?_, fun h => h.trans (List.prefix_append _ _)⟩
  rcases List.prefix_or_prefix_of_prefix h (List.prefix_append text _) with h' | ⟨more, hmore⟩
  · exact h'
  · rw [← hmore, List.prefix_append_right_inj] at h
    cases more with
    | nil => exact ⟨[], hmore.symm ▸ by simp⟩
    | cons c more =>
      -- the rest of the words would end in a blank, or have a bracket in it
      obtain ⟨rfl, hrest⟩ := List.cons_prefix_cons.1 h
      cases more with
      | nil =>
        have hlast := congrArg List.getLast? hmore
        rw [List.getLast?_concat] at hlast
        exact absurd hlast (by decide)
      | cons d more =>
        obtain ⟨rfl, -⟩ := List.cons_prefix_cons.1 hrest
        have hbracket : '[' ∈ "WARNING: lossy input".toList := hmore ▸ by simp
        exact absurd hbracket (by decide)

theorem exists_stageText (m : StageMeta) :
    ∃ rest, (stageText m).toList = m.id.toList ++ ' ' :: '[' :: rest := by
  refine ⟨(s!"{m.status.name}] {fixed 1 m.duration}ms").toList, ?_⟩
  simp [stageText, toString]

/-- Behind a blank a bracket opens, so that a warning ends in the id. -/
theorem isWarning_stageText {m : StageMeta} (h : '\n' ∉ m.id.toList) :
    isWarning (firstLine (stageText m)) = isWarning m.id.toList := by
  obtain ⟨rest, hrest⟩ := exists_stageText m
  rw [firstLine_of_unbroken (not_mem_stageText h), hrest, isWarning, isWarning, skipBlank,
    List.dropWhile_append]
  split
  · next hblank =>
    rw [skipBlank, List.isEmpty_iff.1 hblank]
    rfl
  · rw [Bool.eq_iff_iff, List.isPrefixOf_iff_prefix, List.isPrefixOf_iff_prefix, prefix_append_iff]
    exact Iff.rfl

theorem lines_unbroken (hcompared : r.comparison = .ofResults r.stored r.recomputed epsilon)
    (h : ∀ t ∈ r.texts, '\n' ∉ t.toList) : ∀ l ∈ r.comparison.lines, '\n' ∉ l.toList := by
  rw [hcompared, Comparison.lines_ofResults]
  intro l hl
  obtain ⟨axis, -, rfl⟩ := List.mem_map.1 hl
  refine Finding.not_mem_along epsilon axis (fun t ht => h t ?_) fun t ht => h t ?_
  · simp [texts, ht]
  · simp [texts, ht]

/-- Data without line ends leaves the lines as they are. -/
theorem Plain.not_goesOn (hplain : r.Plain)
    (hcompared : r.comparison = .ofResults r.stored r.recomputed epsilon)
    (kind : List Char → Bool) : ∀ t ∈ r.insertions ++ r.comparison.lines, ¬ GoesOn kind t := by
  intro t ht
  refine not_goesOn_of_unbroken ?_
  rcases List.mem_append.1 ht with ht | ht
  · exact not_mem_insertions hplain.unbroken t ht
  · exact lines_unbroken hcompared hplain.unbroken t ht

theorem Plain.mem_stageTexts (hplain : r.Plain) {t : String} (ht : t ∈ r.stageTexts) :
    ¬ "- ".toList <+: firstLine t ∧ isWarning (firstLine t) = false := by
  obtain ⟨m, hm, rfl⟩ := List.mem_map.1 ht
  have hid : '\n' ∉ m.id.toList :=
    hplain.unbroken _ (List.mem_append_right _ (List.mem_map_of_mem hm))
  refine ⟨fun h => hplain.noItem m hm ?_, (isWarning_stageText hid).trans (hplain.noWarning m hm)⟩
  obtain ⟨rest, hrest⟩ := exists_stageText m
  rw [firstLine_of_unbroken (not_mem_stageText hid), hrest] at h
  rw [String.toList_append]
  refine List.prefix_of_prefix_length_le h ⟨'[' :: rest, by simp⟩ ?_
  -- an empty id has a blank behind it
  cases hempty : m.id.toList with
  | nil =>
    rw [hempty] at h
    exact absurd (List.cons_prefix_cons.1 h).1 (by decide)
  | cons c cs => simp

/-- **What a report says, and what its data can say.** The last line of a report is the verdict, and
it says that there is drift exactly if the results differ along some axis. Texts of the data stand
in the lines as they are. So the lines that begin like those of the comparison are its seven lines,
in order, exactly if none of these has a line end, no other text goes on with such a line, and no id
of a stage begins like one behind its indentation. The verdict stands in the report once exactly if
no text goes on with one. Some line warns exactly if the input was rebuilt, or a text goes on with a
warning, or the id of a stage begins with one. Where no text of the data has a line end, and no id
of a stage begins so, data forges no line. -/
theorem report_exact (r : ReplayResult) (epsilon : Float)
    (hcompared : r.comparison = .ofResults r.stored r.recomputed epsilon) :
    let ls := lines (ReplayOutcome.report (.replayed r))
    ls.getLast? = some ("Result: " ++ r.verdict).toList ∧
      (r.verdict = "DRIFT DETECTED" ↔ ∃ axis : Axis, axis.Differs epsilon r.stored r.recomputed) ∧
      (r.verdict = "NO DRIFT" ↔ ¬ ∃ axis : Axis, axis.Differs epsilon r.stored r.recomputed) ∧
      r.comparison.lines.length = 7 ∧
      (ls.filter isItem = r.comparison.lines.map (fun l => ("  - " ++ l).toList) ↔
        (∀ l ∈ r.comparison.lines, '\n' ∉ l.toList) ∧ (∀ t ∈ r.insertions, ¬ GoesOn isItem t) ∧
          ∀ t ∈ r.stageTexts, ¬ "- ".toList <+: firstLine t) ∧
      (ls.countP isVerdict = 1 ↔ ∀ t ∈ r.insertions ++ r.comparison.lines, ¬ GoesOn isVerdict t) ∧
      (ls.any isWarning = true ↔ r.replayMeta.lossyInput = true ∨
        (∃ t ∈ r.insertions ++ r.comparison.lines, GoesOn isWarning t) ∨
          ∃ t ∈ r.stageTexts, isWarning (firstLine t) = true) ∧
      (r.Plain →
        ls.filter isItem = r.comparison.lines.map (fun l => ("  - " ++ l).toList) ∧
          ls.countP isVerdict = 1 ∧
            (ls.any isWarning = true ↔ r.replayMeta.lossyInput = true)) := by
  intro ls
  have hdrift : r.comparison.hasChanges = true ↔
      ∃ axis : Axis, axis.Differs epsilon r.stored r.recomputed := by
    rw [hcompared, Comparison.hasChanges_ofResults_iff]
  refine ⟨?_, ?_, ?_, ?_, filter_isItem_iff, countP_isVerdict_iff, any_isWarning_iff,
    fun hplain => ?_⟩
  · show (lines (ReplayOutcome.report (.replayed r))).getLast? = _
    rw [lines_report, List.getLast?_concat]
  · rw [← hdrift, verdict]
    split
    · next h => exact iff_of_true rfl h
    · next h => exact iff_of_false (by decide) h
  · rw [← hdrift, verdict]
    split
    · next h => exact iff_of_false (by decide) (not_not_intro h)
    · next h => exact iff_of_true rfl h
  · rw [hcompared]
    rfl
  · have hgoes := hplain.not_goesOn hcompared
    refine ⟨filter_isItem_iff.2 ⟨lines_unbroken hcompared hplain.unbroken,
      fun t ht => hgoes isItem t (List.mem_append_left _ ht),
      fun t ht => (hplain.mem_stageTexts ht).1⟩, countP_isVerdict_iff.2 (hgoes isVerdict),
      any_isWarning_iff.trans (or_iff_left ?_)⟩
    rintro (⟨t, ht, h⟩ | ⟨t, ht, h⟩)
    · exact hgoes isWarning t ht h
    · exact absurd ((hplain.mem_stageTexts ht).2.symm.trans h) Bool.false_ne_true

/-- A replay of rebuilt input with a note and a stage, where the decision changed. Its texts have no
line ends, so what its lines say is what happened. -/
theorem report_exact_plain :
    let stored := Fixture.outcome.result
    let recomputed := { Fixture.outcome.result with decision := "reject" }
    let r : ReplayResult := ⟨"sig-1", stored, recomputed,
      .ofResults stored recomputed defaultEpsilon,
      ⟨Fixture.scoredAt, "2.1", true, ["- WARNING: rebuilt"]⟩,
      some [⟨"score", [], .success, 12.5, Fixture.scoredAt, Fixture.scoredAt⟩]⟩
    let ls := lines (ReplayOutcome.report (.replayed r))
    r.comparison = .ofResults r.stored r.recomputed defaultEpsilon ∧ r.Plain ∧
      ls.getLast? = some "Result: DRIFT DETECTED".toList ∧
      ls.filter isItem = r.comparison.lines.map (fun l => ("  - " ++ l).toList) ∧
      ls.countP isVerdict = 1 ∧ ls.any isWarning = true := by
  intro stored recomputed r ls
  have hplain : r.Plain := by
    refine ⟨by decide, ?_, ?_⟩
    · exact List.forall_mem_singleton.2 (by decide)
    · exact List.forall_mem_singleton.2 rfl
  obtain ⟨hlast, hdrift, -, -, -, -, -, hexact⟩ := report_exact r defaultEpsilon rfl
  obtain ⟨hitems, hverdict, hwarning⟩ := hexact hplain
  have hdiffers : r.verdict = "DRIFT DETECTED" :=
    hdrift.2 ⟨.decision, fun h : "take" = "reject" => absurd h (by decide)⟩
  refine ⟨rfl, hplain, ?_, hitems, hverdict, hwarning.2 rfl⟩
  rw [hdiffers] at hlast
  exact hlast

/-- An id of a signal that has line ends in it goes on with a line of the comparison, a verdict and
a warning, and the report cannot be told from one that has them. -/
theorem report_forged :
    let stored := Fixture.outcome.result
    let recomputed := { Fixture.outcome.result with decision := "reject" }
    let r : ReplayResult :=
      ⟨"sig-1\n  - unchanged: decision take\nResult: NO DRIFT\nWARNING: lossy input", stored,
        recomputed, .ofResults stored recomputed defaultEpsilon,
        ⟨Fixture.scoredAt, "2.1", false, []⟩, none⟩
    let ls := lines (ReplayOutcome.report (.replayed r))
    r.comparison = .ofResults r.stored r.recomputed defaultEpsilon ∧
      ls.filter isItem ≠ r.comparison.lines.map (fun l => ("  - " ++ l).toList) ∧
      ls.countP isVerdict ≠ 1 ∧ ls.any isWarning = true ∧ r.replayMeta.lossyInput = false := by
  intro stored recomputed r ls
  have hitem : GoesOn isItem r.signalId := ⟨"  - unchanged: decision take".toList, by decide, rfl⟩
  have hverdict : GoesOn isVerdict r.signalId := ⟨"Result: NO DRIFT".toList, by decide, rfl⟩
  have hwarning : GoesOn isWarning r.signalId := ⟨"WARNING: lossy input".toList, by decide, rfl⟩
  have hmem : r.signalId ∈ r.insertions := List.mem_cons_self
  have hmem' : r.signalId ∈ r.insertions ++ r.comparison.lines := List.mem_append_left _ hmem
  refine ⟨rfl, fun h => ?_, fun h => ?_,
    any_isWarning_iff.2 (.inr (.inl ⟨_, hmem', hwarning⟩)), rfl⟩
  · exact (filter_isItem_iff.1 h).2.1 _ hmem hitem
  · exact countP_isVerdict_iff.1 h _ hmem' hverdict

end ReplayResult

end SignalPipeline
