import SignalPipeline.Entries
import SignalPipeline.Json.Reader

/-!
# Enrichment results

What the nodes of a pipeline have found, by key, in the order in which the keys first came up. A
document lists them as pairs.

* `Enrichment.read`, `Enrichment.toJson`: the results in documents.
-/

namespace SignalPipeline

/-- Results by key, in the order of first insertion. -/
abbrev Enrichment := Entries Json

namespace Enrichment

/-- The results as pairs. -/
def toJson (results : Enrichment) : Json :=
  .array (results.map fun (key, value) => .array [.string key, value])

/-- Reads pairs, each as it stands. -/
def read : Reader Enrichment :=
  Read.list (Read.pair Read.string Read.value)

end Enrichment

end SignalPipeline
