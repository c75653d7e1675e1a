import SignalPipeline.Digest.Canonical
import SignalPipeline.Proofs.Digest.Sha256
import SignalPipeline.Proofs.Json.Alike
import SignalPipeline.Proofs.Json.Canonical
import SignalPipeline.Proofs.Json.Injective

/-!
# The canonical text identifies a configuration

Two parsed documents have the same canonical text exactly if they are alike: nothing that their
texts are free to choose reaches the digest, and two that differ in anything else have the same
digest only if two different messages collide under SHA-256. Nothing is assumed about floats here:
no two of them are written alike (`Number.chars_injective`). Only reading the canonical text back
asks that the floats of the value are read back.

* `Json.Canonical.parse?_canonicalText`: the canonical text is parsed as the value.
* `Json.canonicalText_exact`: what the canonical texts and the digests of two documents tell.
-/

namespace SignalPipeline.Json

namespace Canonical

variable {v w : Json}

/-- The canonical text is parsed as the value if its floats are read back. -/
theorem parse?_canonicalText (h : v.Canonical) (hdepth : v.depth ≤ Document.maxDepth)
    (hr : ∀ x, .number (some (.real x)) ∈ v.tokens → (Number.real x).ReadsBack) :
    parse? v.canonicalText = some v.canonicalize := by
  have hback : ReadBack v.tokens := readBack_of_writable h.writable fun x _ => hr x
  rw [canonicalText, h.arranged.canonicalize_eq, parse?, parse?_compact hback hdepth]
  exact h.value?_toDocument

/-- Canonical values that do not nest too deep are the same if their canonical texts are. -/
theorem canonicalText_eq_iff (hv : v.Canonical) (hw : w.Canonical)
    (hv' : v.depth ≤ Document.maxDepth) (hw' : w.depth ≤ Document.maxDepth) :
    v.canonicalText = w.canonicalText ↔ v = w := by
  rw [canonicalText, canonicalText, hv.arranged.canonicalize_eq, hw.arranged.canonicalize_eq]
  exact ⟨hv.compact_injective hw hv' hw', congrArg compact⟩

end Canonical

/-- **The canonical text identifies a configuration.** Of two texts that are parsed, the canonical
texts of the values are the same exactly if the documents are alike, and then so are the digests;
if the documents are not alike and the digests are the same, the canonical texts collide. The
canonical form of any value has ascending members at every level, is its own, and is what the
document of the value is read as; the canonical text is parsed as it where the floats of the value
are read back. -/
theorem canonicalText_exact {a b : String} {d e : Document} {v w : Json}
    (ha : Document.parse? a = some d) (hb : Document.parse? b = some e) (hv : d.value? = some v)
    (hw : e.value? = some w) :
    (v.canonicalText = w.canonicalText ↔ d.Alike e) ∧
      (d.Alike e → v.digest = w.digest) ∧
      (v.digest = w.digest → ¬ d.Alike e →
        Sha256.Collision v.canonicalText.toUTF8.toList w.canonicalText.toUTF8.toList) ∧
      (∀ u : Json, u.canonicalize.Arranged ∧ u.canonicalize.canonicalize = u.canonicalize ∧
        u.toDocument.value? = some u.canonicalize) ∧
      ((∀ x, .number (some (.real x)) ∈ v.tokens → (Number.real x).ReadsBack) →
        parse? v.canonicalText = some v.canonicalize) := by
  have hd := Document.parse?_within ha
  obtain ⟨hcv, hdv⟩ := Document.value?_within hd hv
  obtain ⟨hcw, hdw⟩ := Document.value?_within (Document.parse?_within hb) hw
  have hiff : v.canonicalText = w.canonicalText ↔ d.Alike e :=
    (hcv.canonicalText_eq_iff hcw hdv hdw).trans (Document.alike_iff hd hv hw).symm
  refine ⟨hiff, fun h => congrArg sha256Hex (hiff.2 h), fun h hne => ?_,
    fun u => ⟨u.arranged_canonicalize, u.canonicalize_canonicalize, u.value?_toDocument⟩,
    hcv.parse?_canonicalText hdv⟩
  exact (eq_or_collision_of_sha256Hex h).resolve_left fun he => hne (hiff.1 he)

/-- A configuration with a repeated key in one text, and with other members first and a line for
each of them in another. -/
theorem canonicalText_exact_weights :
    let u : Json := .object [("weights", .array []), ("threshold", .ofNat 70), ("weights", .null)]
    let v : Json := .object [("threshold", .ofNat 70), ("weights", .null)]
    Document.parse? u.compact = some u.toDocument ∧ Document.parse? v.indented = some v.toDocument ∧
      u.toDocument.value? = some v ∧ v.toDocument.value? = some v ∧
        u.toDocument.Alike v.toDocument := by
  intro u v
  have hseventy : (Number.integer 70).ReadsBack := Number.readsBack_integer (by decide)
  have hu : ReadBack u.tokens := by
    intro n hn
    simp [u, ofNat, tokens, memberTokens] at hn
    exact hn ▸ hseventy
  have hv : ReadBack v.tokens := by
    intro n hn
    simp [v, ofNat, tokens, memberTokens] at hn
    exact hn ▸ hseventy
  have ha := parse?_compact hu (by decide)
  have hb := parse?_indented hv (by decide)
  exact ⟨ha, hb, rfl, rfl, (canonicalText_exact ha hb rfl rfl).1.1 rfl⟩

end SignalPipeline.Json
