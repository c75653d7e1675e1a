import SignalPipeline.Decimal.Fixed
import SignalPipeline.Replay.ScoredResult

/-!
# Comparisons of results

Two scored results are compared along seven axes. Each axis gives one line that says whether it
changed, always in the same order. Numbers are compared with a tolerance, reason codes as sets, and
a classification without the time when it was made.

* `Comparison.ofResults`: the comparison of two results.
* `Finding.line`: one axis in words.
* `Comparison.hasChanges`: whether some axis changed.
-/

namespace SignalPipeline

/-- The tolerance where none is given. -/
def defaultEpsilon : Float := 1e-4

/-- What two results are compared by. -/
inductive Axis where
  | score
  | decision
  | confidence
  | reasonCodes
  | configHash
  | logicVersion
  | novelty
  deriving Repr, DecidableEq

/-- The name of an axis. -/
def Axis.name : Axis → String
  | score => "score"
  | decision => "decision"
  | confidence => "confidence"
  | reasonCodes => "reason codes"
  | configHash => "scoring config hash"
  | logicVersion => "scoring logic version"
  | novelty => "novelty"

/-- What a comparison says about one axis. -/
structure Finding where
  axis : Axis
  changed : Bool
  /-- The value, or the values before and after. -/
  detail : String
  deriving Repr, DecidableEq

/-- One axis in words. -/
def Finding.line (f : Finding) : String :=
  (if f.changed then "changed: " else "unchanged: ") ++ f.axis.name ++ " " ++ f.detail

namespace Finding

/-- Two numbers: they differ if they lie further apart than the tolerance. -/
def ofNumbers (axis : Axis) (epsilon before after : Float) : Finding :=
  let delta := after - before
  if delta.abs > epsilon then
    ⟨axis, true, s!"{fixed 4 before} -> {fixed 4 after} (delta {fixedSigned 4 delta})"⟩
  else ⟨axis, false, fixed 4 before⟩

/-- Two texts. -/
def ofTexts (axis : Axis) (before after : String) : Finding :=
  if before = after then ⟨axis, false, before⟩ else ⟨axis, true, s!"{before} -> {after}"⟩

/-- The word for what is absent. -/
def absent : String := "<none>"

/-- Two texts that may be absent; an absent one equals no text. -/
def ofTags (axis : Axis) (before after : Option String) : Finding :=
  let detail := before.getD absent
  if before = after then ⟨axis, false, detail⟩
  else ⟨axis, true, s!"{detail} -> {after.getD absent}"⟩

/-- Codes between brackets. -/
def bracketed (codes : List String) : String :=
  "[" ++ ", ".intercalate codes ++ "]"

/-- The codes in ascending order, each once. -/
def codeSet (codes : List String) : List String :=
  (sortMembers (codes.map fun c => (c, ()))).map Prod.fst

/-- Two lists of codes: they differ if they differ as sets. -/
def ofCodes (before after : List String) : Finding :=
  if codeSet before = codeSet after then ⟨.reasonCodes, false, bracketed (codeSet before)⟩
  else ⟨.reasonCodes, true, s!"{bracketed before} -> {bracketed after}"⟩

/-- Two classifications, by their words. -/
def ofNovelty (before after : Option NoveltyInfo) : Finding :=
  ofTexts .novelty (before.elim absent NoveltyInfo.stableText)
    (after.elim absent NoveltyInfo.stableText)

end Finding

/-- The comparison of two results. -/
structure Comparison where
  /-- The score after, less the score before. -/
  delta : Float
  decisionChanged : Bool
  findings : List Finding

namespace Comparison

/-- The comparison of a stored result with a recomputed one. -/
def ofResults (stored recomputed : ScoredResult) (epsilon : Float) : Comparison where
  delta := recomputed.score - stored.score
  decisionChanged := stored.decision ≠ recomputed.decision
  findings := [
    .ofNumbers .score epsilon stored.score recomputed.score,
    .ofTexts .decision stored.decision recomputed.decision,
    .ofNumbers .confidence epsilon stored.confidence recomputed.confidence,
    .ofCodes stored.reasonCodes recomputed.reasonCodes,
    .ofTags .configHash stored.configHash recomputed.configHash,
    .ofTags .logicVersion stored.logicVersion recomputed.logicVersion,
    .ofNovelty stored.novelty recomputed.novelty]

/-- One line for each axis. -/
def lines (c : Comparison) : List String :=
  c.findings.map Finding.line

/-- Whether some axis changed. -/
def hasChanges (c : Comparison) : Bool :=
  c.findings.any Finding.changed

/-- The lines of the axes that changed. -/
def changedLines (c : Comparison) : List String :=
  (c.findings.filter Finding.changed).map Finding.line

/-- The record of a comparison. -/
def toJson (c : Comparison) : Json :=
  .object [("delta", .ofFloat c.delta), ("decisionChanged", .bool c.decisionChanged),
    ("changes", .ofStrings c.lines)]

end Comparison

end SignalPipeline
