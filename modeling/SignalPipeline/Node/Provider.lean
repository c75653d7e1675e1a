import SignalPipeline.Node.Outcome

/-!
# Providers of predictions

A service outside the process that makes predictions and may be out of reach. The node in front of
it never fails: where there is no prediction, it stores the reason instead.

* `PredictionProvider.request`: what a provider is asked.
* `PipelineNode.ofProvider`: the node in front of a provider.
-/

namespace SignalPipeline

/-- A service that makes predictions. -/
structure PredictionProvider where
  name : String
  available : Bool
  predict : Json → Except Failure Json

namespace PredictionProvider

/-- A provider with one answer for everything. -/
def constant (name : String) (prediction : Json) : PredictionProvider :=
  ⟨name, true, fun _ => .ok prediction⟩

/-- A provider that is out of reach. -/
def offline (name : String) : PredictionProvider :=
  ⟨name, false, fun _ => .error (.message s!"{name} is offline")⟩

/-- What a provider is asked: the signal, and the results of the node's dependencies. -/
def request (config : NodeConfig) (state : PipelineState) : Json :=
  .ofMembers [("signalId", .string state.signalId), ("signal", state.rawSignal),
    ("enrichment", .ofMembers (config.dependencies.filterMap fun d =>
      (state.result? d).map fun value => (d, value)))]

/-- The prediction of a provider, or why there is none. A provider that is out of reach is not
asked. -/
def consult (p : PredictionProvider) (input : Json) : Except ProviderError Json :=
  if p.available then
    match p.predict input with
    | .ok prediction => .ok prediction
    | .error failure => .error ⟨p.name, failure.text⟩
  else .error ⟨p.name, "provider reported unavailable"⟩

/-- The result that stands for a prediction. -/
def predictionResult (provider : String) (prediction : Json) : Json :=
  .ofMembers [("serviceAvailable", .bool true), ("provider", .string provider),
    ("prediction", prediction)]

/-- The result that stands for a prediction that was not made. -/
def absenceResult (e : ProviderError) : Json :=
  .ofMembers [("serviceAvailable", .bool false), ("provider", .string e.provider),
    ("reason", .string e.reason)]

/-- What is said when there is no prediction. -/
def absenceEntry (node : String) (e : ProviderError) : JournalEntry :=
  Journal.record .warn "Provider unavailable, continuing without it"
    [("node", .string node), ("provider", .string e.provider), ("reason", .string e.reason)]

end PredictionProvider

/-- The node in front of a provider. -/
def PipelineNode.ofProvider (p : PredictionProvider) : PipelineNode where
  execute config state _ :=
    match p.consult (PredictionProvider.request config state) with
    | .ok prediction =>
      ⟨.available,
        state.setResult config.id (PredictionProvider.predictionResult p.name prediction), []⟩
    | .error e =>
      ⟨.unavailable e.reason, state.setResult config.id (PredictionProvider.absenceResult e),
        [PredictionProvider.absenceEntry config.id e]⟩

end SignalPipeline
