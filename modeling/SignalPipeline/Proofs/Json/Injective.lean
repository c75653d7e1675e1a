import SignalPipeline.Proofs.Json.Numeral
import SignalPipeline.Proofs.Json.Record

/-!
# Different values have different texts

A text spells at most one list of tokens whose numbers a document can hold, and the tokens of a
canonical value that does not nest too deep have no other canonical value. So the compact text of
such a value tells it from all others.

* `Spelled.unique`: a text spells one list of tokens.
* `Json.Canonical.compact_injective`: canonical values with the same text are the same.
-/

namespace SignalPipeline

namespace Spelled

variable {t : Token} {ts us : List Token} {cs : List Char}

/-- The first token of a spelled text and what is scanned in its place: the same token, or some
number in place of a number. -/
theorem exists_scan? (h : Spelled (t :: ts) cs) (hv : t.Valid) :
    ∃ t' rest, cs = t.chars ++ rest ∧ Spelled ts rest ∧ Token.scan? cs = some (t', rest) ∧
      ((∀ n, t ≠ .number n) ∧ t' = t ∨
        ∃ n n', t = .number (some n) ∧ n.Valid ∧ t' = .number n') := by
  cases h with
  | mark t ts cs fixed rest =>
    refine ⟨t, cs, rfl, rest, Token.scan?_mark fixed cs, .inl ⟨?_, rfl⟩⟩
    rintro n rfl
    cases fixed
  | number n ts cs ends rest =>
    obtain ⟨l, hscan⟩ := Number.exists_scan? (hv n rfl)
    exact ⟨_, cs, rfl, rest, Token.scan?_literal hscan ends, .inr ⟨n, _, rfl, hv n rfl, rfl⟩⟩
  | string s ts cs rest =>
    exact ⟨_, cs, rfl, rest, Token.scan?_string s cs, .inl ⟨nofun, rfl⟩⟩

theorem eq_nil (h : Spelled us []) (hv : ∀ t ∈ us, t.Valid) : us = [] := by
  cases us with
  | nil => rfl
  | cons t us =>
    obtain ⟨t', rest, -, -, hscan, -⟩ := h.exists_scan? (hv t List.mem_cons_self)
    cases hscan

/-- A text spells one list of tokens. -/
theorem unique (h : Spelled ts cs) (hv : ∀ t ∈ ts, t.Valid) (h' : Spelled us cs)
    (hv' : ∀ t ∈ us, t.Valid) : ts = us := by
  induction ts generalizing us cs with
  | nil =>
    cases h
    exact (eq_nil h' hv').symm
  | cons t ts ih =>
    cases us with
    | nil =>
      cases h'
      exact eq_nil h hv
    | cons u us =>
      obtain ⟨ht, hts⟩ := List.forall_mem_cons.1 hv
      obtain ⟨hu, hus⟩ := List.forall_mem_cons.1 hv'
      obtain ⟨found, rest, hcs, hrest, hscan, hfound⟩ := h.exists_scan? ht
      obtain ⟨found', rest', hcs', hrest', hscan', hfound'⟩ := h'.exists_scan? hu
      rw [hscan] at hscan'
      cases hscan'
      have hchars : t.chars = u.chars := List.append_cancel_right (hcs.symm.trans hcs')
      have htu : t = u := by
        rcases hfound with ⟨hother, rfl⟩ | ⟨n, o, rfl, hn, rfl⟩
        · rcases hfound' with ⟨-, rfl⟩ | ⟨n, o, -, -, rfl⟩
          · rfl
          · exact absurd rfl (hother o)
        · rcases hfound' with ⟨hother, rfl⟩ | ⟨n', o', rfl, hn', -⟩
          · exact absurd rfl (hother o)
          · rw [Number.chars_injective hn hn' hchars]
      rw [htu, ih hrest hts hrest' hus]

end Spelled

namespace Json.Canonical

variable {v w : Json}

/-- The tokens of a canonical value that does not nest too deep have no other such value. -/
theorem tokens_injective (hv : v.Canonical) (hw : w.Canonical) (hv' : v.depth ≤ Document.maxDepth)
    (hw' : w.depth ≤ Document.maxDepth) (h : v.tokens = w.tokens) : v = w := by
  have hdocument := readValue?_document hv'
  rw [h, readValue?_document hw'] at hdocument
  have hvalue := hv.value?_toDocument
  rw [← Option.some.inj hdocument, hw.value?_toDocument] at hvalue
  exact (Option.some.inj hvalue).symm

/-- Canonical values with the same text are the same. -/
theorem compact_injective (hv : v.Canonical) (hw : w.Canonical)
    (hv' : v.depth ≤ Document.maxDepth) (hw' : w.depth ≤ Document.maxDepth)
    (h : v.compact = w.compact) : v = w := by
  refine tokens_injective hv hw hv' hw' ?_
  have hspelled := spelled_compact v
  rw [h] at hspelled
  exact hspelled.unique hv.writable (spelled_compact w) hw.writable

end Json.Canonical
end SignalPipeline
