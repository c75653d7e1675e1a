import Mathlib.Data.List.Sort
import SignalPipeline.Json.MemberLemmas
import SignalPipeline.Proofs.Decimal.Digits
import SignalPipeline.Proofs.Replay.Repetition

/-!
# What a comparison finds

A comparison says of each axis whether two results differ along it, and the report of a replay says
at its end whether they differ along any. Numbers differ beyond the tolerance, texts by their
characters, reason codes as sets, and classifications by their words, without the time.

* `Axis.Differs`: what it means to differ along an axis.
* `Finding.codeSet_eq_iff`: reason codes in ascending order are their set.
* `Finding.says_along`: each finding says whether the results differ.
* `Comparison.hasChanges_eq_any_lines`: changes are found in the lines by their first word.
* `Comparison.drift_exact`: all lines of a comparison, and the verdict on it.
-/

namespace SignalPipeline

/-- Two results differ along an axis. -/
def Axis.Differs (epsilon : Float) (stored recomputed : ScoredResult) : Axis → Prop
  | .score => (recomputed.score - stored.score).abs > epsilon
  | .decision => stored.decision ≠ recomputed.decision
  | .confidence => (recomputed.confidence - stored.confidence).abs > epsilon
  | .reasonCodes => ¬ ∀ code, code ∈ stored.reasonCodes ↔ code ∈ recomputed.reasonCodes
  | .configHash => stored.configHash ≠ recomputed.configHash
  | .logicVersion => stored.logicVersion ≠ recomputed.logicVersion
  | .novelty =>
    stored.novelty.map NoveltyInfo.stableText ≠ recomputed.novelty.map NoveltyInfo.stableText

/-- The texts that the line of an axis has to name. The lines of numbers and of codes show them in
forms of their own. -/
def Axis.texts (stored recomputed : ScoredResult) : Axis → List String
  | .decision => [stored.decision, recomputed.decision]
  | .configHash =>
    [stored.configHash.getD Finding.absent, recomputed.configHash.getD Finding.absent]
  | .logicVersion =>
    [stored.logicVersion.getD Finding.absent, recomputed.logicVersion.getD Finding.absent]
  | .novelty =>
    [stored.novelty.elim Finding.absent NoveltyInfo.stableText,
      recomputed.novelty.elim Finding.absent NoveltyInfo.stableText]
  | _ => []

/-- The line of an axis: one of two words, the name of the axis, and the texts that it names. -/
structure Axis.Reported (epsilon : Float) (stored recomputed : ScoredResult) (axis : Axis)
    (line : String) : Prop where
  changed : "changed: ".toList <+: line.toList ↔ axis.Differs epsilon stored recomputed
  unchanged : "unchanged: ".toList <+: line.toList ↔ ¬ axis.Differs epsilon stored recomputed
  named : ∃ word ∈ ["changed: ", "unchanged: "], ∃ detail,
    line = word ++ axis.name ++ " " ++ detail ∧
      ∀ text ∈ axis.texts stored recomputed, text.toList <:+: detail.toList

/-- Whether a line begins with the word for a change. -/
def Finding.saysChanged (line : String) : Bool :=
  "changed:".toList.isPrefixOf line.toList

/-- The result with another time for its classification. -/
def ScoredResult.retimed (t : Option Timestamp) (r : ScoredResult) : ScoredResult :=
  { r with novelty := r.novelty.map fun n => { n with computedAt := t } }

/-! ## Sets of codes -/

namespace Finding

variable {axis : Axis} {epsilon : Float} {stored recomputed : ScoredResult}
  {codes codes' : List String}

theorem mem_codeSet {code : String} : code ∈ codeSet codes ↔ code ∈ codes := by
  rw [codeSet, mem_keys_sortMembers, List.map_map]
  simp

/-- Codes in ascending order, each once, are equal exactly if they are equal as sets. -/
theorem codeSet_eq_iff : codeSet codes = codeSet codes' ↔ ∀ code, code ∈ codes ↔ code ∈ codes' := by
  refine ⟨fun h code => ?_, fun h => ?_⟩
  · rw [← mem_codeSet, h, mem_codeSet]
  · have hsubset : ∀ {cs cs' : List String}, (∀ code, code ∈ cs ↔ code ∈ cs') →
        codeSet cs ⊆ codeSet cs' :=
      fun h code hcode => mem_codeSet.2 ((h code).1 (mem_codeSet.1 hcode))
    exact List.Subset.antisymm_of_pairwise (ascending_sortMembers _) (ascending_sortMembers _)
      (hsubset h) (hsubset fun code => (h code).symm)

/-! ## One axis -/

/-- A finding that says of an axis whether something is true of it, and that names some texts. -/
structure Says (f : Finding) (axis : Axis) (differs : Prop) (texts : List String) : Prop where
  axis : f.axis = axis
  changed : f.changed = true ↔ differs
  names : ∀ text ∈ texts, text.toList <:+: f.detail.toList

theorem says_ofNumbers (axis : Axis) (epsilon before after : Float) :
    (ofNumbers axis epsilon before after).Says axis ((after - before).abs > epsilon) [] := by
  unfold ofNumbers
  dsimp only
  split
  · next h => exact ⟨rfl, iff_of_true rfl h, nofun⟩
  · next h => exact ⟨rfl, iff_of_false Bool.false_ne_true h, nofun⟩

/-- A character that occurs neither in decimals nor in the words between them does not occur in a
finding about numbers. -/
theorem not_mem_ofNumbers {c : Char} (hplain : Fixed.isPlain c = false)
    (hwords : c ∉ " -> (delta )".toList) (axis : Axis) (epsilon before after : Float) :
    c ∉ (ofNumbers axis epsilon before after).detail.toList := by
  have hfixed : ∀ x : Float, c ∉ (fixed 4 x).toList := fun x h =>
    Bool.false_ne_true (hplain.symm.trans (Fixed.isPlain_of_mem_fixed h))
  have hsigned : ∀ x : Float, c ∉ (fixedSigned 4 x).toList := fun x h =>
    Bool.false_ne_true (hplain.symm.trans (Fixed.isPlain_of_mem_fixedSigned h))
  unfold ofNumbers
  dsimp only
  split
  · simp_all [toString]
  · exact hfixed before

/-- What stands on both sides of an arrow. -/
theorem names_arrow (before after : String) :
    ∀ text ∈ [before, after], text.toList <:+: (s!"{before} -> {after}").toList := by
  have h : (s!"{before} -> {after}").toList = before.toList ++ " -> ".toList ++ after.toList := by
    rw [← String.toList_append, ← String.toList_append]
    rfl
  rw [h]
  simp only [List.forall_mem_cons]
  refine ⟨?_, (List.suffix_append _ _).isInfix, List.forall_mem_nil _⟩
  rw [List.append_assoc]
  exact (List.prefix_append _ _).isInfix

theorem says_ofTexts (axis : Axis) (before after : String) :
    (ofTexts axis before after).Says axis (before ≠ after) [before, after] := by
  unfold ofTexts
  split
  · next h =>
    subst h
    exact ⟨rfl, iff_of_false Bool.false_ne_true fun h => h rfl, by simp⟩
  · next h => exact ⟨rfl, iff_of_true rfl h, names_arrow before after⟩

theorem says_ofTags (axis : Axis) (before after : Option String) :
    (ofTags axis before after).Says axis (before ≠ after)
      [before.getD absent, after.getD absent] := by
  unfold ofTags
  dsimp only
  split
  · next h =>
    subst h
    exact ⟨rfl, iff_of_false Bool.false_ne_true fun h => h rfl, by simp⟩
  · next h => exact ⟨rfl, iff_of_true rfl h, names_arrow _ _⟩

theorem says_ofCodes (before after : List String) :
    (ofCodes before after).Says .reasonCodes (¬ ∀ code, code ∈ before ↔ code ∈ after) [] := by
  unfold ofCodes
  split
  · next h =>
    exact ⟨rfl, iff_of_false Bool.false_ne_true (not_not_intro (codeSet_eq_iff.1 h)), nofun⟩
  · next h => exact ⟨rfl, iff_of_true rfl (mt codeSet_eq_iff.2 h), nofun⟩

/-- Words for a classification end in a bracket, so they are not the word for what is absent. -/
theorem stableText_ne_absent (n : NoveltyInfo) : n.stableText ≠ absent := by
  obtain ⟨front, hfront⟩ : ∃ front, n.stableText.toList = front ++ [')'] := by
    unfold NoveltyInfo.stableText
    split
    · exact ⟨_, String.toList_append ..⟩
    · exact ⟨_, String.toList_append ..⟩
  intro h
  have hlast : front ++ [')'] = "<none".toList ++ ['>'] :=
    hfront.symm.trans (congrArg String.toList h)
  cases (List.append_inj' hlast rfl).2

theorem says_ofNovelty (before after : Option NoveltyInfo) :
    (ofNovelty before after).Says .novelty
      (before.map NoveltyInfo.stableText ≠ after.map NoveltyInfo.stableText)
      [before.elim absent NoveltyInfo.stableText, after.elim absent NoveltyInfo.stableText] := by
  obtain ⟨haxis, hchanged, hnames⟩ := says_ofTexts .novelty
    (before.elim absent NoveltyInfo.stableText) (after.elim absent NoveltyInfo.stableText)
  refine ⟨haxis, hchanged.trans (not_congr ?_), hnames⟩
  cases before with
  | none =>
    cases after with
    | none => exact iff_of_true rfl rfl
    | some n => exact iff_of_false (stableText_ne_absent n).symm nofun
  | some m =>
    cases after with
    | none => exact iff_of_false (stableText_ne_absent m) nofun
    | some n => exact Option.some_inj.symm

/-- The finding about an axis. -/
def along (epsilon : Float) (stored recomputed : ScoredResult) : Axis → Finding
  | .score => .ofNumbers .score epsilon stored.score recomputed.score
  | .decision => .ofTexts .decision stored.decision recomputed.decision
  | .confidence => .ofNumbers .confidence epsilon stored.confidence recomputed.confidence
  | .reasonCodes => .ofCodes stored.reasonCodes recomputed.reasonCodes
  | .configHash => .ofTags .configHash stored.configHash recomputed.configHash
  | .logicVersion => .ofTags .logicVersion stored.logicVersion recomputed.logicVersion
  | .novelty => .ofNovelty stored.novelty recomputed.novelty

/-- Each finding says whether the results differ along its axis. -/
theorem says_along (epsilon : Float) (stored recomputed : ScoredResult) (axis : Axis) :
    (along epsilon stored recomputed axis).Says axis (axis.Differs epsilon stored recomputed)
      (axis.texts stored recomputed) := by
  cases axis with
  | score => exact says_ofNumbers ..
  | decision => exact says_ofTexts ..
  | confidence => exact says_ofNumbers ..
  | reasonCodes => exact says_ofCodes ..
  | configHash => exact says_ofTags ..
  | logicVersion => exact says_ofTags ..
  | novelty => exact says_ofNovelty ..

/-! ## One line -/

theorem toList_line (f : Finding) : f.line.toList =
    (if f.changed then "changed: ".toList else "unchanged: ".toList) ++
      (f.axis.name ++ " " ++ f.detail).toList := by
  unfold line
  simp only [String.toList_append, List.append_assoc]
  split <;> rfl

theorem saysChanged_line (f : Finding) : saysChanged f.line = f.changed := by
  rw [saysChanged, toList_line]
  cases f.changed <;> rfl

/-- A line begins with exactly one of two words. -/
theorem prefix_line (f : Finding) :
    ("changed: ".toList <+: f.line.toList ↔ f.changed = true) ∧
      ("unchanged: ".toList <+: f.line.toList ↔ f.changed = false) := by
  rw [toList_line, ← List.isPrefixOf_iff_prefix, ← List.isPrefixOf_iff_prefix]
  cases f.changed with
  | false => exact ⟨iff_of_false Bool.false_ne_true Bool.false_ne_true, iff_of_true rfl rfl⟩
  | true => exact ⟨iff_of_true rfl rfl, iff_of_false Bool.false_ne_true Bool.noConfusion⟩

/-- The line of a finding is that of its axis. -/
theorem Says.reported {f : Finding}
    (h : f.Says axis (axis.Differs epsilon stored recomputed) (axis.texts stored recomputed)) :
    axis.Reported epsilon stored recomputed f.line := by
  obtain ⟨hchanged, hunchanged⟩ := f.prefix_line
  refine ⟨hchanged.trans h.changed, ?_, ?_⟩
  · rw [hunchanged, ← Bool.not_eq_true, h.changed]
  · refine ⟨if f.changed then "changed: " else "unchanged: ", ?_, f.detail, ?_, h.names⟩
    · split <;> simp
    · rw [line, h.axis]

end Finding

/-! ## All lines -/

namespace Comparison

variable {epsilon : Float} {stored recomputed : ScoredResult}

theorem lines_ofResults (epsilon : Float) (stored recomputed : ScoredResult) :
    (ofResults stored recomputed epsilon).lines =
      Axis.all.map fun axis => (Finding.along epsilon stored recomputed axis).line := rfl

/-- Each axis has one line, in order. -/
theorem reported_ofResults (epsilon : Float) (stored recomputed : ScoredResult) :
    List.Forall₂ (Axis.Reported epsilon stored recomputed) Axis.all
      (ofResults stored recomputed epsilon).lines := by
  rw [lines_ofResults, List.forall₂_map_right_iff, List.forall₂_same]
  exact fun axis _ => (Finding.says_along epsilon stored recomputed axis).reported

/-- Changes are found in the lines, by their first word. -/
theorem hasChanges_eq_any_lines (c : Comparison) :
    c.hasChanges = c.lines.any Finding.saysChanged := by
  unfold hasChanges lines
  rw [List.any_map]
  congr 1
  funext f
  exact (Finding.saysChanged_line f).symm

theorem hasChanges_iff_prefix (c : Comparison) :
    c.hasChanges = true ↔ ∃ line ∈ c.lines, "changed: ".toList <+: line.toList := by
  unfold hasChanges lines
  rw [List.any_eq_true]
  simp only [List.mem_map, exists_exists_and_eq_and, Finding.prefix_line]

theorem hasChanges_ofResults_iff : (ofResults stored recomputed epsilon).hasChanges = true ↔
    ∃ axis : Axis, axis.Differs epsilon stored recomputed := by
  have hall : ∀ axis : Axis, axis ∈ Axis.all := fun axis => by cases axis <;> decide
  have halong := Finding.says_along epsilon stored recomputed
  show (Axis.all.map (Finding.along epsilon stored recomputed)).any Finding.changed = true ↔ _
  rw [List.any_map, List.any_eq_true]
  exact ⟨fun ⟨axis, _, h⟩ => ⟨axis, (halong axis).changed.1 h⟩,
    fun ⟨axis, h⟩ => ⟨axis, hall axis, (halong axis).changed.2 h⟩⟩

/-- Which lines say a change depends on which axes differ, and on nothing else. -/
theorem saysChanged_congr {stored' recomputed' : ScoredResult}
    (h : ∀ axis : Axis, axis.Differs epsilon stored' recomputed' ↔
      axis.Differs epsilon stored recomputed) :
    (ofResults stored' recomputed' epsilon).lines.map Finding.saysChanged =
      (ofResults stored recomputed epsilon).lines.map Finding.saysChanged := by
  rw [lines_ofResults, lines_ofResults, List.map_map, List.map_map]
  refine List.map_congr_left fun axis _ => ?_
  show Finding.saysChanged (Finding.line _) = Finding.saysChanged (Finding.line _)
  rw [Finding.saysChanged_line, Finding.saysChanged_line, Bool.eq_iff_iff,
    (Finding.says_along ..).changed, (Finding.says_along ..).changed, h axis]

/-- Codes count as sets. -/
theorem saysChanged_of_codes {codes codes' : List String}
    (h : ∀ code, code ∈ codes ↔ code ∈ stored.reasonCodes)
    (h' : ∀ code, code ∈ codes' ↔ code ∈ recomputed.reasonCodes) :
    (ofResults { stored with reasonCodes := codes } { recomputed with reasonCodes := codes' }
        epsilon).lines.map Finding.saysChanged =
      (ofResults stored recomputed epsilon).lines.map Finding.saysChanged := by
  refine saysChanged_congr fun axis => ?_
  cases axis with
  | reasonCodes => exact not_congr (forall_congr' fun code => iff_congr (h code) (h' code))
  | _ => exact Iff.rfl

/-- The time of a classification does not count. -/
theorem ofResults_retimed (t t' : Option Timestamp) :
    ofResults (stored.retimed t) (recomputed.retimed t') epsilon =
      ofResults stored recomputed epsilon := by
  have hwords : ∀ (t : Option Timestamp) (r : ScoredResult),
      (r.retimed t).novelty.elim Finding.absent NoveltyInfo.stableText =
        r.novelty.elim Finding.absent NoveltyInfo.stableText := by
    intro t r
    unfold ScoredResult.retimed
    cases r.novelty <;> rfl
  unfold ofResults Finding.ofNovelty
  rw [hwords, hwords]
  rfl

end Comparison

/-! ## The verdict -/

/-- The verdict stands on a line of its own, at the end. -/
theorem ReplayResult.report_verdict (r : ReplayResult) :
    ∃ front, ReplayOutcome.report (.replayed r) = front ++ ("\nResult: " ++ r.verdict ++ "\n") := by
  have hsplit : ∃ front, front ≠ [] ∧ r.reportLines = front ++ [s!"Result: {r.verdict}"] :=
    ⟨_, by simp, rfl⟩
  obtain ⟨front, hne, hlines⟩ := hsplit
  rcases List.eq_nil_or_concat front with rfl | ⟨init, last, rfl⟩
  · exact absurd rfl hne
  · refine ⟨textOfLines init ++ last, ?_⟩
    rw [ReplayOutcome.report, hlines, textOfLines_concat, List.concat_eq_append, textOfLines_concat]
    simp only [String.append_assoc]
    rfl

/-- The last line of a report says whether there are changes. -/
theorem ReplayResult.report_drift_iff (r : ReplayResult) :
    (∃ front, ReplayOutcome.report (.replayed r) = front ++ "\nResult: DRIFT DETECTED\n") ↔
      r.comparison.hasChanges = true := by
  obtain ⟨front, hfront⟩ := r.report_verdict
  rw [hfront, verdict]
  cases r.comparison.hasChanges with
  | true => exact iff_of_true ⟨front, rfl⟩ rfl
  | false =>
    refine iff_of_false ?_ Bool.false_ne_true
    rintro ⟨front', h⟩
    -- the texts differ in front of their last line end
    have htexts : front ++ "\nResult: NO DRIFT\n" = front' ++ "\nResult: DRIFT DETECTED\n" := h
    have hlast : (front.toList ++ "\nResult: NO DRIF".toList) ++ ['T', '\n'] =
        (front'.toList ++ "\nResult: DRIFT DETECTE".toList) ++ ['D', '\n'] := by
      have hchars := congrArg String.toList htexts
      rw [String.toList_append, String.toList_append] at hchars
      rw [List.append_assoc, List.append_assoc]
      exact hchars
    cases (List.append_inj' hlast rfl).2

namespace Comparison

/-- **Drift is found exactly where there is some.** Two results have seven lines, one for each axis,
in order, each of which says whether the results differ along its axis. The comparison has changes,
and the report of a replay with that comparison ends with the verdict that there is drift, exactly
if a line says so. Codes in another order or repeated do not change what the lines say, and other
times of classifications change nothing. -/
theorem drift_exact (stored recomputed : ScoredResult) (epsilon : Float) :
    let c := ofResults stored recomputed epsilon
    List.Forall₂ (Axis.Reported epsilon stored recomputed)
        [.score, .decision, .confidence, .reasonCodes, .configHash, .logicVersion, .novelty]
        c.lines ∧
      (c.decisionChanged = true ↔ stored.decision ≠ recomputed.decision) ∧
      c.hasChanges = c.lines.any Finding.saysChanged ∧
      (c.hasChanges = true ↔ ∃ line ∈ c.lines, "changed: ".toList <+: line.toList) ∧
      (c.hasChanges = true ↔ ∃ axis : Axis, axis.Differs epsilon stored recomputed) ∧
      (∀ r : ReplayResult, r.comparison = c →
        ((∃ front, ReplayOutcome.report (.replayed r) = front ++ "\nResult: DRIFT DETECTED\n") ↔
          ∃ line ∈ c.lines, "changed: ".toList <+: line.toList)) ∧
      (∀ codes codes' : List String, (∀ code, code ∈ codes ↔ code ∈ stored.reasonCodes) →
        (∀ code, code ∈ codes' ↔ code ∈ recomputed.reasonCodes) →
          (ofResults { stored with reasonCodes := codes }
              { recomputed with reasonCodes := codes' } epsilon).lines.map Finding.saysChanged =
            c.lines.map Finding.saysChanged) ∧
      ∀ t t' : Option Timestamp,
        ofResults (stored.retimed t) (recomputed.retimed t') epsilon = c := by
  intro c
  refine ⟨reported_ofResults epsilon stored recomputed, decide_eq_true_iff,
    c.hasChanges_eq_any_lines, c.hasChanges_iff_prefix, hasChanges_ofResults_iff, ?_,
    fun _ _ => saysChanged_of_codes, ofResults_retimed⟩
  rintro r hr
  rw [r.report_drift_iff, hr, c.hasChanges_iff_prefix]

/-- Of two results one lacks the digest and the other has one that reads like the word for that.
They differ, the report says so, and codes in another order with one of them repeated do not hide
it. -/
theorem drift_exact_absent :
    let stored := { Fixture.outcome.result with configHash := none }
    let recomputed := { Fixture.outcome.result with configHash := some "<none>" }
    let r : ReplayResult := ⟨"sig-1", stored, recomputed,
      ofResults stored recomputed defaultEpsilon, ⟨default, "1", false, []⟩, none⟩
    r.comparison.hasChanges = true ∧
      (∃ front, ReplayOutcome.report (.replayed r) = front ++ "\nResult: DRIFT DETECTED\n") ∧
      (ofResults { stored with reasonCodes := ["VOLUME_SPIKE", "TREND_UP", "VOLUME_SPIKE"] }
          recomputed defaultEpsilon).lines.map Finding.saysChanged =
        r.comparison.lines.map Finding.saysChanged := by
  intro stored recomputed r
  obtain ⟨-, -, -, hfirst, hdiffers, hreport, hcodes, -⟩ :=
    drift_exact stored recomputed defaultEpsilon
  have hchanges : r.comparison.hasChanges = true :=
    hdiffers.2 ⟨.configHash, fun h => by cases h⟩
  refine ⟨hchanges, (hreport r rfl).2 (hfirst.1 hchanges), ?_⟩
  refine hcodes ["VOLUME_SPIKE", "TREND_UP", "VOLUME_SPIKE"] recomputed.reasonCodes ?_
    fun _ => Iff.rfl
  intro code
  show code ∈ ["VOLUME_SPIKE", "TREND_UP", "VOLUME_SPIKE"] ↔ code ∈ ["TREND_UP", "VOLUME_SPIKE"]
  grind

end Comparison

end SignalPipeline
