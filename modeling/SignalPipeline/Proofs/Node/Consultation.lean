import SignalPipeline.Json.MemberLemmas
import SignalPipeline.Proofs.Node.Account

/-!
# What comes of asking a provider

The node in front of a provider always completes. It asks only a provider that is up, tells it of
the signal and of the results that its dependencies have, and stores what it is told, or why it is
told nothing, under its own id; it touches nothing else.

* `PipelineState.Stored`: two states that differ in one result only.
* `PredictionProvider.Consulted`: what becomes of a question.
* `PredictionProvider.Asks`: what a provider is told.
* `PipelineNode.ofProvider_consulted`, `PipelineNode.ofProvider_congr`: the node in front of it.
-/

namespace SignalPipeline

/-! ## One result -/

/-- Nothing changes from one state to another but the result with a key: it is new, or it takes the
place of an older one. -/
structure PipelineState.Stored (key : String) (value : Json) (s t : PipelineState) : Prop where
  rest : t = { s with results := t.results }
  stored : t.result? key = some value
  others : ∀ other, other ≠ key → t.result? other = s.result? other
  /-- Other results keep their positions. -/
  positions : ∀ other, other ≠ key → ∀ (i : Nat) (v : Json),
    t.results[i]? = some (other, v) ↔ s.results[i]? = some (other, v)
  keys : t.results.keys =
    if key ∈ s.results.keys then s.results.keys else s.results.keys ++ [key]

theorem PipelineState.result?_setResult (s : PipelineState) (key other : String) (value : Json) :
    (s.setResult key value).result? other = if other = key then some value else s.result? other :=
  Entries.get?_put s.results key other value

theorem PipelineState.stored_setResult (s : PipelineState) (key : String) (value : Json) :
    Stored key value s (s.setResult key value) where
  rest := rfl
  stored := by rw [result?_setResult, if_pos rfl]
  others other h := by rw [result?_setResult, if_neg h]
  positions _ h _ _ := Entries.getElem?_put_of_ne h
  keys := Entries.keys_put s.results key value

namespace PredictionProvider

/-! ## Questions -/

/-- The document that a provider is asked with: the id of the signal, the signal as it came in, and
exactly those dependencies of the node that have a result, with that result. -/
def Asks (config : NodeConfig) (s : PipelineState) (input : Json) : Prop :=
  ∃ enrichment : List Member,
    input = .object [("enrichment", .object enrichment), ("signal", s.rawSignal),
      ("signalId", .string s.signalId)] ∧
    Ascending enrichment ∧
    ∀ key, enrichment.lookup key = if key ∈ config.dependencies then s.result? key else none

/-- A look-up among those keys of a list that a function has a value for. -/
theorem lookup_filterMap {α : Type} (f : String → Option α) (keys : List String) (key : String) :
    (keys.filterMap fun k => (f k).map fun v => (k, v)).lookup key =
      if key ∈ keys then f key else none := by
  induction keys with
  | nil => rfl
  | cons k keys ih =>
    cases hf : f k with
    | none =>
      rw [List.filterMap_cons_none (by simp [hf]), ih]
      by_cases h : key = k
      · subst h
        simp [hf]
      · simp [h]
    | some v =>
      rw [List.filterMap_cons_some (b := (k, v)) (by simp [hf]), lookup_cons_ite, ih]
      by_cases h : key = k
      · subst h
        simp [hf]
      · simp [h]

theorem asks_request (config : NodeConfig) (s : PipelineState) :
    Asks config s (request config s) := by
  refine ⟨_, rfl, ascending_sortMembers _, fun key => ?_⟩
  rw [lookup_sortMembers_reverse, ← List.filterMap_reverse, lookup_filterMap]
  simp only [List.mem_reverse]

/-! ## Answers -/

/-- What becomes of a question: how the node goes that puts it, and the result that the node
stores. -/
inductive Consulted (p : PredictionProvider) (input : Json) : NodeOutcome → Json → Prop
  | predicted {prediction : Json} (up : p.available = true)
      (answers : p.predict input = .ok prediction) :
      Consulted p input .available (.object [("prediction", prediction),
        ("provider", .string p.name), ("serviceAvailable", .bool true)])
  | refused {failure : Failure} (up : p.available = true)
      (fails : p.predict input = .error failure) :
      Consulted p input (.unavailable failure.text) (.object [("provider", .string p.name),
        ("reason", .string failure.text), ("serviceAvailable", .bool false)])
  | offline (down : p.available = false) :
      Consulted p input (.unavailable "provider reported unavailable")
        (.object [("provider", .string p.name),
          ("reason", .string "provider reported unavailable"), ("serviceAvailable", .bool false)])

/-- Whether a question gets no answer: the provider is down, or it fails to predict. -/
def leavesOpen (p : PredictionProvider) (input : Json) : Bool :=
  !(p.available && (p.predict input).isOk)

variable {p : PredictionProvider} {input value : Json} {outcome : NodeOutcome}

theorem consult_of_down (hdown : p.available = false) :
    p.consult input = .error ⟨p.name, "provider reported unavailable"⟩ := by
  simp [consult, hdown]

theorem consult_of_ok {prediction : Json} (hup : p.available = true)
    (h : p.predict input = .ok prediction) : p.consult input = .ok prediction := by
  simp [consult, hup, h]

theorem consult_of_error {failure : Failure} (hup : p.available = true)
    (h : p.predict input = .error failure) : p.consult input = .error ⟨p.name, failure.text⟩ := by
  simp [consult, hup, h]

theorem Consulted.ne_failed (h : Consulted p input outcome value) (failure : Failure) :
    outcome ≠ .failed failure := by
  cases h <;> exact nofun

/-- The node says that its provider is missing exactly where the question got no answer. -/
theorem Consulted.isUnavailable (h : Consulted p input outcome value) :
    outcome.isUnavailable = p.leavesOpen input := by
  cases h with
  | predicted up answers => simp [leavesOpen, up, answers, NodeOutcome.isUnavailable, Except.isOk,
      Except.toBool]
  | refused up fails => simp [leavesOpen, up, fails, NodeOutcome.isUnavailable, Except.isOk,
      Except.toBool]
  | offline down => simp [leavesOpen, down, NodeOutcome.isUnavailable]

end PredictionProvider

namespace PipelineNode

/-! ## The node in front of a provider -/

open PredictionProvider

/-- The node in front of a provider stores what comes of its question, and nothing else. -/
theorem ofProvider_consulted (p : PredictionProvider) (config : NodeConfig) (s : PipelineState)
    (ctx : RunContext) :
    ∃ value, p.Consulted (request config s) ((ofProvider p).execute config s ctx).outcome value ∧
      s.Stored config.id value ((ofProvider p).execute config s ctx).state := by
  unfold ofProvider
  dsimp only
  cases hup : p.available with
  | false =>
    rw [consult_of_down hup]
    exact ⟨_, .offline hup, s.stored_setResult _ _⟩
  | true =>
    cases hanswer : p.predict (request config s) with
    | ok prediction =>
      rw [consult_of_ok hup hanswer]
      exact ⟨_, .predicted hup hanswer, s.stored_setResult _ _⟩
    | error failure =>
      rw [consult_of_error hup hanswer]
      exact ⟨_, .refused hup hanswer, s.stored_setResult _ _⟩

/-- **A provider is asked only while it is up, and only one question.** Nothing changes if it would
answer anything else otherwise. -/
theorem ofProvider_congr {p q : PredictionProvider} {config : NodeConfig} {s : PipelineState}
    {ctx : RunContext} (hname : q.name = p.name) (hup : q.available = p.available)
    (hanswer : p.available = true → q.predict (request config s) = p.predict (request config s)) :
    (ofProvider q).execute config s ctx = (ofProvider p).execute config s ctx := by
  have hconsult : q.consult (request config s) = p.consult (request config s) := by
    unfold consult
    rw [hup, hname]
    split
    · next h => rw [hanswer h]
    · rfl
  unfold ofProvider
  simp only [hconsult, hname]

end PipelineNode
end SignalPipeline
