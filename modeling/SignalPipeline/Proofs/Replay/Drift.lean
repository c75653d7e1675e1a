import Mathlib.Data.List.Perm.Subperm
import SignalPipeline.Proofs.Replay.Findings
import SignalPipeline.Replay.Drift

/-!
# What a check of a comparison says

A check names the axes that should have changed. It compares their number with that of the changes,
and looks for each name somewhere in the lines of the axes that changed. Such a line has the name of
its own axis in it, and no other name but for the values that it shows. So a check passes wherever
the right axes are named. It fails wherever others are named, unless a value that changed has the
name of an axis in it that did not: then this axis may be named in place of another one.

* `Comparison.ChangedAlong`: the axes of the lines that say a change.
* `Finding.name_infix_line_iff`: where the name of an axis occurs in the line of another one.
* `Comparison.changesAlong_iff`: what a check amounts to.
* `Comparison.changesAlong_exact`: when it is right.
* `Comparison.changesAlong_misses`: a check that passes and should not.
-/

namespace SignalPipeline

/-- The line of an axis says that it changed. -/
def Comparison.ChangedAlong (c : Comparison) (axis : Axis) : Prop :=
  ∃ f ∈ c.findings, f.axis = axis ∧ "changed:".toList <+: f.line.toList

/-- Whether the values of an axis are texts. -/
def Axis.isText : Axis → Bool
  | score => false
  | confidence => false
  | _ => true

/-- The texts of an axis that changed show the name of an axis. -/
def Comparison.Shows (c : Comparison) (axis : Axis) : Prop :=
  ∃ f ∈ c.findings, f.changed = true ∧ f.axis.isText = true ∧
    axis.name.toList <:+: f.detail.toList

/-! ## Names in lines -/

namespace Text

theorem hasPartChars_iff_infix {part cs : List Char} :
    hasPartChars part cs = true ↔ part <:+: cs := by
  rw [hasPartChars_iff]
  exact exists_congr fun front => exists_congr fun rest => eq_comm

end Text

namespace Finding

variable {f : Finding} {axis : Axis}

theorem changed_prefix_line_iff (f : Finding) :
    "changed:".toList <+: f.line.toList ↔ f.changed = true := by
  rw [← List.isPrefixOf_iff_prefix, ← f.saysChanged_line]
  exact Iff.rfl

/-- A line that says a change: two words in front of the values. -/
theorem toList_line_of_changed (h : f.changed = true) :
    f.line.toList = ("changed: " ++ f.axis.name ++ " ").toList ++ f.detail.toList := by
  rw [toList_line, if_pos h]
  simp only [String.toList_append, List.append_assoc]

/-- The name of an axis neither occurs in front of the values of another one nor begins there. -/
theorem hasPartChars_name {other : Axis} (h : axis ≠ other) (values : List Char) :
    Text.hasPartChars axis.name.toList (("changed: " ++ other.name ++ " ").toList ++ values) =
      Text.hasPartChars axis.name.toList values := by
  cases axis <;> cases other <;> first | exact absurd rfl h | rfl

/-- The line of a change has the name of its axis in it, and that of another one only in the values
that it shows. -/
theorem name_infix_line_iff (h : f.changed = true) :
    axis.name.toList <:+: f.line.toList ↔
      axis = f.axis ∨ axis.name.toList <:+: f.detail.toList := by
  by_cases haxis : axis = f.axis
  · refine iff_of_true ?_ (.inl haxis)
    rw [toList_line_of_changed h, haxis, String.toList_append, String.toList_append]
    exact (List.infix_append _ _ _).trans (List.infix_append_of_infix_left (List.infix_refl _))
  · rw [or_iff_right haxis, toList_line_of_changed h, ← Text.hasPartChars_iff_infix,
      ← Text.hasPartChars_iff_infix, hasPartChars_name haxis]

/-- Every name has a letter that no decimal has. -/
theorem mem_name (axis : Axis) : 'o' ∈ axis.name.toList := by
  cases axis <;> decide

/-- Numbers show no name. -/
theorem isText_of_name_infix {epsilon : Float} {stored recomputed : ScoredResult} {other : Axis}
    (h : axis.name.toList <:+: (along epsilon stored recomputed other).detail.toList) :
    other.isText = true := by
  have hletter := h.subset (mem_name axis)
  cases other with
  | score => exact absurd hletter (not_mem_ofNumbers (by decide) (by decide) .score _ _ _)
  | confidence => exact absurd hletter (not_mem_ofNumbers (by decide) (by decide) .confidence _ _ _)
  | _ => rfl

end Finding

/-! ## Checks -/

namespace Comparison

variable {epsilon : Float} {stored recomputed : ScoredResult} {axes : List Axis} {axis : Axis}

/-- The axes that changed, in order. -/
def changedAxes (epsilon : Float) (stored recomputed : ScoredResult) : List Axis :=
  Axis.all.filter fun axis => (Finding.along epsilon stored recomputed axis).changed

theorem mem_all (axis : Axis) : axis ∈ Axis.all := by
  cases axis <;> decide

theorem exists_finding_iff {P : Finding → Prop} :
    (∃ f ∈ (ofResults stored recomputed epsilon).findings, P f) ↔
      ∃ axis, P (Finding.along epsilon stored recomputed axis) := by
  show (∃ f ∈ Axis.all.map (Finding.along epsilon stored recomputed), P f) ↔ _
  simp only [List.mem_map, mem_all, true_and, exists_exists_eq_and]

theorem axis_along (epsilon : Float) (stored recomputed : ScoredResult) (axis : Axis) :
    (Finding.along epsilon stored recomputed axis).axis = axis :=
  (Finding.says_along epsilon stored recomputed axis).axis

theorem mem_changedAxes : axis ∈ changedAxes epsilon stored recomputed ↔
    (Finding.along epsilon stored recomputed axis).changed = true := by
  rw [changedAxes, List.mem_filter, and_iff_right (mem_all axis)]

theorem changedAlong_iff :
    (ofResults stored recomputed epsilon).ChangedAlong axis ↔
      axis ∈ changedAxes epsilon stored recomputed := by
  rw [ChangedAlong, exists_finding_iff, mem_changedAxes]
  simp only [axis_along, Finding.changed_prefix_line_iff, exists_eq_left]

theorem nodup_changedAxes : (changedAxes epsilon stored recomputed).Nodup :=
  List.Nodup.filter _ (by decide)

theorem changedLines_ofResults : (ofResults stored recomputed epsilon).changedLines =
    (changedAxes epsilon stored recomputed).map fun axis =>
      (Finding.along epsilon stored recomputed axis).line := by
  show ((Axis.all.map (Finding.along epsilon stored recomputed)).filter Finding.changed).map
    Finding.line = _
  rw [List.filter_map, List.map_map]
  rfl

/-- The name of an axis is found in a line that says a change if its axis changed, or if it is
shown. -/
theorem any_hasPart_iff :
    (ofResults stored recomputed epsilon).changedLines.any (Text.hasPart axis.name) = true ↔
      (ofResults stored recomputed epsilon).ChangedAlong axis ∨
        (ofResults stored recomputed epsilon).Shows axis := by
  rw [changedAlong_iff, Shows, exists_finding_iff, changedLines_ofResults, List.any_map,
    List.any_eq_true]
  simp only [mem_changedAxes, Function.comp_apply, Text.hasPart, Text.hasPartChars_iff_infix]
  constructor
  · rintro ⟨other, hother, hname⟩
    rcases (Finding.name_infix_line_iff hother).1 hname with haxis | hname
    · rw [axis_along] at haxis
      exact .inl (haxis ▸ hother)
    · refine .inr ⟨other, hother, ?_, hname⟩
      rw [axis_along]
      exact Finding.isText_of_name_infix hname
  · rintro (haxis | ⟨other, hother, -, hname⟩)
    · exact ⟨axis, haxis, (Finding.name_infix_line_iff haxis).2 (.inl (axis_along ..).symm)⟩
    · exact ⟨other, hother, (Finding.name_infix_line_iff hother).2 (.inr hname)⟩

/-- What a check amounts to: as many axes are named as changed, and each of them changed or is
shown. -/
theorem changesAlong_iff :
    (ofResults stored recomputed epsilon).changesAlong (axes.map Axis.name) = true ↔
      axes.length = (changedAxes epsilon stored recomputed).length ∧
        ∀ axis ∈ axes, (ofResults stored recomputed epsilon).ChangedAlong axis ∨
          (ofResults stored recomputed epsilon).Shows axis := by
  rw [changesAlong, Bool.and_eq_true, beq_iff_eq, changedLines_ofResults, List.length_map,
    List.length_map, ← changedLines_ofResults, List.all_map, List.all_eq_true]
  simp only [Function.comp_apply, any_hasPart_iff]
  rw [eq_comm]

/-- **When a check is right.** A check that names axes passes exactly if as many axes are named as
changed, and each of them changed or has its name shown by a text that changed. So it passes if
exactly the axes that changed are named. It passes only then, unless a text that changed shows the
name of an axis that did not. The check that there is no drift is the one that names no axis. -/
theorem changesAlong_exact (stored recomputed : ScoredResult) (epsilon : Float) (axes : List Axis)
    (hdistinct : axes.Nodup) :
    let c := ofResults stored recomputed epsilon
    (c.changesAlong (axes.map Axis.name) = true ↔
        axes.length = c.changedLines.length ∧
          ∀ axis ∈ axes, c.ChangedAlong axis ∨ c.Shows axis) ∧
      ((∀ axis, axis ∈ axes ↔ c.ChangedAlong axis) →
        c.changesAlong (axes.map Axis.name) = true) ∧
      ((∀ axis, c.Shows axis → c.ChangedAlong axis) →
        (c.changesAlong (axes.map Axis.name) = true ↔ ∀ axis, axis ∈ axes ↔ c.ChangedAlong axis)) ∧
      (c.hasNoDrift = true ↔ c.changesAlong [] = true) := by
  intro c
  have hlines : c.changedLines.length = (changedAxes epsilon stored recomputed).length := by
    rw [changedLines_ofResults, List.length_map]
  have hright : (∀ axis, axis ∈ axes ↔ c.ChangedAlong axis) →
      c.changesAlong (axes.map Axis.name) = true := by
    intro hnamed
    refine changesAlong_iff.2 ⟨?_, fun axis h => .inl ((hnamed axis).1 h)⟩
    refine ((List.perm_ext_iff_of_nodup hdistinct nodup_changedAxes).2 fun axis => ?_).length_eq
    exact (hnamed axis).trans changedAlong_iff
  refine ⟨by rw [hlines]; exact changesAlong_iff, hright, fun hshown => ⟨fun h => ?_, hright⟩, ?_⟩
  · -- the axes that are named changed, and there are as many of them
    obtain ⟨hlength, hall⟩ := changesAlong_iff.1 h
    have hsubset : axes ⊆ changedAxes epsilon stored recomputed := fun axis haxis =>
      changedAlong_iff.1 ((hall axis haxis).elim id (hshown axis))
    have hperm := (hdistinct.subperm hsubset).perm_of_length_le (Nat.le_of_eq hlength.symm)
    exact fun axis => hperm.mem_iff.trans changedAlong_iff.symm
  · unfold hasNoDrift changesAlong hasChanges changedLines
    simp [List.any_eq_false]

/-- The score changed and the classification is gone, whose words show no name of an axis. The check
that names the two passes, and one that names the decision in place of the classification does not.
-/
theorem changesAlong_exact_gone :
    let stored := Fixture.outcome.result
    let recomputed := { Fixture.outcome.result with score := 80.0, novelty := none }
    let c := ofResults stored recomputed defaultEpsilon
    [Axis.score, .novelty].Nodup ∧ c.changesAlong ["score", "novelty"] = true ∧
      [Axis.score, .decision].Nodup ∧ (∀ axis, c.Shows axis → c.ChangedAlong axis) ∧
      c.changesAlong ["score", "decision"] = false := by
  intro stored recomputed c
  have hdistinct : [Axis.score, .novelty].Nodup := by decide
  have hdistinct' : [Axis.score, .decision].Nodup := by decide
  have hchanged : changedAxes defaultEpsilon stored recomputed = [.score, .novelty] := by
    decide +kernel
  have hshown : ∀ axis, ¬ c.Shows axis := by
    intro axis h
    obtain ⟨other, hother, htext, hname⟩ := exists_finding_iff.1 h
    rw [← mem_changedAxes, hchanged, List.mem_cons, List.mem_singleton] at hother
    rcases hother with rfl | rfl
    · exact absurd htext (by rw [axis_along]; decide)
    · rw [← Text.hasPartChars_iff_infix] at hname
      cases axis <;> exact absurd hname (by decide)
  have hexact : ∀ axis, c.Shows axis → c.ChangedAlong axis := fun axis h => absurd h (hshown axis)
  refine ⟨hdistinct, ?_, hdistinct', hexact, ?_⟩
  · refine (changesAlong_exact stored recomputed defaultEpsilon _ hdistinct).2.1 fun axis => ?_
    rw [changedAlong_iff, hchanged]
  · refine Bool.eq_false_iff.2 fun h => ?_
    have hnamed := ((changesAlong_exact stored recomputed defaultEpsilon _ hdistinct').2.2.1
      hexact).1 h .decision
    rw [changedAlong_iff, hchanged] at hnamed
    exact absurd hnamed (by decide)

/-- The decision changed and the score did not, but the check that names the score passes: the new
decision shows its name. -/
theorem changesAlong_misses :
    let stored := Fixture.outcome.result
    let recomputed := { Fixture.outcome.result with decision := "high score" }
    let c := ofResults stored recomputed defaultEpsilon
    c.changesAlong [Axis.score.name] = true ∧ ¬ c.ChangedAlong .score ∧
      c.ChangedAlong .decision := by
  intro stored recomputed c
  have hchanged : changedAxes defaultEpsilon stored recomputed = [.decision] := by decide +kernel
  have hshown : c.Shows .score := by
    refine exists_finding_iff.2 ⟨.decision, mem_changedAxes.1 (by rw [hchanged]; decide), rfl, ?_⟩
    exact Text.hasPartChars_iff_infix.1 (by decide)
  have hpasses : c.changesAlong ([Axis.score].map Axis.name) = true :=
    changesAlong_iff.2 ⟨by rw [hchanged]; rfl, List.forall_mem_singleton.2 (.inr hshown)⟩
  refine ⟨hpasses, ?_, ?_⟩
  · rw [changedAlong_iff, hchanged]
    decide
  · rw [changedAlong_iff, hchanged]
    decide

end Comparison

end SignalPipeline
