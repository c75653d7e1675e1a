import SignalPipeline.Digest.Sha256
import SignalPipeline.Json.Printer

/-!
# Digests of values

The digest of a value is that of its canonical text, so it depends neither on the order of members
nor on the layout of the text that the value came from.

* `Json.canonicalText`, `Json.digest`: the canonical text of a value, and its digest.
-/

namespace SignalPipeline.Json

/-- The compact text of the canonical form. -/
def canonicalText (v : Json) : String :=
  v.canonicalize.compact

/-- The digest of the canonical text. -/
def digest (v : Json) : String :=
  sha256Hex v.canonicalText

end SignalPipeline.Json
