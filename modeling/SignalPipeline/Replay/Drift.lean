import SignalPipeline.Replay.Comparison
import SignalPipeline.Text.Search

/-!
# Checks of a comparison

What a test of a pipeline expects of a comparison: no change at all, or changes along given axes.

* `Comparison.hasNoDrift`: no axis changed.
* `Comparison.changesAlong`: as many axes changed as are named, and each name occurs in a line of
  an axis that changed.
-/

namespace SignalPipeline.Comparison

/-- Whether no axis changed. -/
def hasNoDrift (c : Comparison) : Bool :=
  !c.hasChanges

/-- Whether as many axes changed as are named, and each name occurs in a line of one of them. -/
def changesAlong (c : Comparison) (axes : List String) : Bool :=
  c.changedLines.length == axes.length &&
    axes.all fun name => c.changedLines.any fun line => Text.hasPart name line

end SignalPipeline.Comparison
