import SignalPipeline.Fixture
import SignalPipeline.Proofs.Node.Record

/-!
# Checkpoints restore the state

A state that was written out, in either layout, is taken up again as it was, provided that its
durations are finite and its record does not nest too deep. A state that came from a text is always
such a state, since the parser admits nothing else.

* `PipelineState.storable_of_ofText`: what a text can hold.
* `PipelineState.checkpoint_restores`: a checkpoint is read back as the state.
-/

namespace SignalPipeline

open Json

/-! ## Records can be written -/

theorem NodeConfig.canonical_members (c : NodeConfig) : ∀ m ∈ c.members, m.2.Canonical := by
  have henabled : (c.enabled.elim Json.null Json.bool).Canonical := by
    cases c.enabled with
    | none => exact .null
    | some b => exact .bool b
  simp only [members, List.forall_mem_cons]
  exact ⟨.string _, .string _, .string _, .bool _, henabled, canonical_ofStrings _,
    List.forall_mem_nil _⟩

theorem TraceEntry.canonical_members (e : TraceEntry) : ∀ m ∈ e.members, m.2.Canonical := by
  simp only [members, List.forall_mem_append, List.forall_mem_cons]
  exact ⟨⟨⟨⟨⟨.string _, .string _, .string _, List.forall_mem_nil _⟩,
    forall_mem_optional (fun _ => .string _) _ _⟩, forall_mem_optional canonical_ofFloat _ _⟩,
    .string _, List.forall_mem_nil _⟩, forall_mem_optional (fun _ => .string _) _ _⟩

theorem PipelineState.writable_toJson {s : PipelineState} (hs : s.Storable) :
    s.toJson.Writable := by
  have hresults : s.results.toJson.Writable := by
    refine writable_array ?_
    simp only [List.forall_mem_map]
    refine fun r hr => writable_array ?_
    simp only [List.forall_mem_cons]
    exact ⟨writable_string _, (hs.results r hr).writable, List.forall_mem_nil _⟩
  have hnodes : (Json.array (s.nodes.map (·.toJson))).Writable := by
    refine writable_array ?_
    simp only [List.forall_mem_map]
    exact fun c _ => writable_object fun m hm => (c.canonical_members m hm).writable
  have htrace : (Json.array (s.trace.map TraceEntry.toJson)).Writable := by
    refine writable_array ?_
    simp only [List.forall_mem_map]
    exact fun e _ => writable_object fun m hm => (e.canonical_members m hm).writable
  have hmetadata : s.metadataJson.Writable := by
    refine writable_object ?_
    simp only [List.forall_mem_cons]
    exact ⟨writable_string _, htrace, List.forall_mem_nil _⟩
  refine writable_object ?_
  simp only [List.forall_mem_append, List.forall_mem_cons]
  exact ⟨⟨⟨writable_string _, hs.rawSignal.writable, hresults, hnodes, List.forall_mem_nil _⟩,
    forall_mem_optional writable_string _ _⟩, hmetadata, List.forall_mem_nil _⟩

/-! ## Depth of the record -/

theorem NodeConfig.depth_toJson_le (c : NodeConfig) : c.toJson.depth ≤ 2 := by
  have henabled : (c.enabled.elim Json.null Json.bool).depth ≤ 1 := by
    cases c.enabled with
    | none => exact Nat.zero_le 1
    | some b => exact Nat.zero_le 1
  refine depth_object_le.2 ?_
  simp only [List.forall_mem_cons]
  exact ⟨Nat.zero_le 1, Nat.zero_le 1, Nat.zero_le 1, Nat.zero_le 1, henabled,
    depth_ofStrings_le _, List.forall_mem_nil _⟩

theorem TraceEntry.depth_toJson_le (e : TraceEntry) : e.toJson.depth ≤ 1 := by
  refine depth_object_le.2 ?_
  simp only [List.forall_mem_append, List.forall_mem_cons]
  have htext : ∀ s : String, (Json.string s).depth ≤ 0 := fun _ => Nat.le_refl 0
  exact ⟨⟨⟨⟨⟨htext _, htext _, htext _, List.forall_mem_nil _⟩,
    forall_mem_optional (P := (·.depth ≤ 0)) (fun _ => htext _) _ _⟩,
    forall_mem_optional (P := (·.depth ≤ 0)) (fun x => Nat.le_of_eq (depth_ofFloat x)) _ _⟩,
    htext _, List.forall_mem_nil _⟩,
    forall_mem_optional (P := (·.depth ≤ 0)) (fun _ => htext _) _ _⟩

theorem PipelineState.depth_toJson_le {s : PipelineState} (hraw : s.rawSignal.depth ≤ 126)
    (hresults : ∀ r ∈ s.results, r.2.depth ≤ 124) : s.toJson.depth ≤ Document.maxDepth := by
  have hresults : s.results.toJson.depth ≤ 126 := by
    refine (depth_array_le (n := 125)).2 ?_
    simp only [List.forall_mem_map]
    refine fun r hr => (depth_array_le (n := 124)).2 ?_
    simp only [List.forall_mem_cons]
    exact ⟨Nat.zero_le _, hresults r hr, List.forall_mem_nil _⟩
  have hnodes : (Json.array (s.nodes.map (·.toJson))).depth ≤ 126 := by
    refine (depth_array_le (n := 125)).2 ?_
    simp only [List.forall_mem_map]
    exact fun c _ => Nat.le_trans c.depth_toJson_le (by decide)
  have htrace : (Json.array (s.trace.map TraceEntry.toJson)).depth ≤ 125 := by
    refine (depth_array_le (n := 124)).2 ?_
    simp only [List.forall_mem_map]
    exact fun e _ => Nat.le_trans e.depth_toJson_le (by decide)
  have hmetadata : s.metadataJson.depth ≤ 126 := by
    refine (depth_object_le (n := 125)).2 ?_
    simp only [List.forall_mem_cons]
    exact ⟨Nat.zero_le _, htrace, List.forall_mem_nil _⟩
  refine (depth_object_le (n := 126)).2 ?_
  simp only [List.forall_mem_append, List.forall_mem_cons]
  exact ⟨⟨⟨Nat.zero_le _, hraw, hresults, hnodes, List.forall_mem_nil _⟩,
    forall_mem_optional (P := (·.depth ≤ 126)) (fun _ => Nat.zero_le _) _ _⟩,
    hmetadata, List.forall_mem_nil _⟩

/-! ## What a text can hold -/

theorem TraceEntry.ensures_read (n : Nat) :
    Read.Ensures (n + 1) TraceEntry.read fun e => ∀ x, e.duration = some x → x.isFinite = true := by
  intro d e hd h
  obtain ⟨slots, hslots, h⟩ := except_bind_eq_ok.1 h
  have hwithin := Read.record_within hd hslots
  obtain ⟨_, -, h⟩ := except_bind_eq_ok.1 h
  obtain ⟨_, -, h⟩ := except_bind_eq_ok.1 h
  obtain ⟨_, -, h⟩ := except_bind_eq_ok.1 h
  obtain ⟨_, -, h⟩ := except_bind_eq_ok.1 h
  obtain ⟨duration, hduration, h⟩ := except_bind_eq_ok.1 h
  obtain ⟨_, -, h⟩ := except_bind_eq_ok.1 h
  obtain ⟨_, -, h⟩ := except_bind_eq_ok.1 h
  cases h
  exact Slots.optional_ensures hwithin Read.ensures_float hduration

namespace PipelineState

theorem ensures_readMetadata (n : Nat) : Read.Ensures (n + 3) readMetadata fun m =>
    ∀ e ∈ m.2, ∀ x, e.duration = some x → x.isFinite = true := by
  intro d m hd h
  obtain ⟨slots, hslots, h⟩ := except_bind_eq_ok.1 h
  have hwithin := Read.record_within hd hslots
  obtain ⟨_, -, h⟩ := except_bind_eq_ok.1 h
  obtain ⟨trace, htrace, h⟩ := except_bind_eq_ok.1 h
  cases h
  exact Slots.defaulted_ensures hwithin (TraceEntry.ensures_read n).list (List.forall_mem_nil _)
    htrace

theorem ofText_ok_iff {checkpoint : String} {s : PipelineState} :
    ofText checkpoint = .ok s ↔
      ∃ d, Document.parse? checkpoint = some d ∧ read d = .ok s := by
  unfold ofText ofText? Reader.text?
  cases Document.parse? checkpoint with
  | none => simp
  | some d =>
    cases hread : read d with
    | error e => simp [hread, Except.toOption]
    | ok t => simp [hread, Except.toOption]

/-- The state of a text has values that a document can hold, and its record is not too deep. -/
theorem storable_of_ofText {checkpoint : String} {s : PipelineState}
    (h : ofText checkpoint = .ok s) : s.Storable ∧ s.toJson.depth ≤ Document.maxDepth := by
  obtain ⟨d, hd, h⟩ := ofText_ok_iff.1 h
  have hd : d.Within (126 + 1) := Document.parse?_within hd
  obtain ⟨slots, hslots, h⟩ := except_bind_eq_ok.1 h
  have hwithin := Read.record_within hd hslots
  obtain ⟨_, -, h⟩ := except_bind_eq_ok.1 h
  obtain ⟨rawSignal, hraw, h⟩ := except_bind_eq_ok.1 h
  obtain ⟨results, hresults, h⟩ := except_bind_eq_ok.1 h
  obtain ⟨_, -, h⟩ := except_bind_eq_ok.1 h
  obtain ⟨_, -, h⟩ := except_bind_eq_ok.1 h
  obtain ⟨metadata, hmetadata, h⟩ := except_bind_eq_ok.1 h
  cases h
  have hraw := Slots.defaulted_ensures hwithin Read.ensures_value
    ⟨Canonical.null, Nat.zero_le 126⟩ hraw
  have hresults := Slots.defaulted_ensures hwithin
    ((Read.ensures_value (n := 124)).pair Read.string).list (List.forall_mem_nil _) hresults
  have hmetadata := Slots.required_ensures hwithin (ensures_readMetadata 123) hmetadata
  exact ⟨⟨hraw.1, fun r hr => (hresults r hr).1, hmetadata⟩,
    depth_toJson_le hraw.2 fun r hr => (hresults r hr).2⟩

/-- What reading back rests on: the text of every time of a state, and of every finite float of its
record, names it again. -/
structure ReadsBack (s : PipelineState) : Prop extends s.Timed where
  reals : ∀ x : Float, x.isFinite = true → .number (some (.real x)) ∈ s.toJson.tokens →
    (Number.real x).ReadsBack

theorem readBack_tokens {s : PipelineState} (hr : s.ReadsBack) (hs : s.Storable) :
    ReadBack s.toJson.tokens :=
  readBack_of_writable (writable_toJson hs) hr.reals

/-- Both texts of a state are read back. -/
theorem ofText_text {s : PipelineState} (hr : s.ReadsBack) (hs : s.Storable)
    (hd : s.toJson.depth ≤ Document.maxDepth) :
    ofText s.text = .ok s ∧ ofText s.indentedText = .ok s := by
  have htokens := readBack_tokens hr hs
  have hread := read_toJson hr.toTimed hs
  exact ⟨ofText_ok_iff.2 ⟨_, parse?_compact htokens hd, hread⟩,
    ofText_ok_iff.2 ⟨_, parse?_indented htokens hd, hread⟩⟩

/-! ## A state in the middle of its run -/

/-- The float of a token. -/
def tokenFloat? : Token → Option Float
  | .number (some (.real x)) => some x
  | _ => none

theorem floats_underway :
    Fixture.underway.toJson.tokens.filterMap tokenFloat? = [61.5, 12.5] := by
  decide +kernel

theorem readsBack_underway : Fixture.underway.ReadsBack where
  created := by decide +kernel
  started := by decide +kernel
  ended := by
    have hended : ∀ e ∈ Fixture.underway.trace, ∀ t ∈ e.endTime, t.ReadsBack := by decide +kernel
    exact hended
  reals := by
    intro x _ hx
    have hmem : x ∈ Fixture.underway.toJson.tokens.filterMap tokenFloat? :=
      List.mem_filterMap.2 ⟨_, hx, rfl⟩
    rw [floats_underway, List.mem_cons, List.mem_singleton] at hmem
    rcases hmem with rfl | rfl
    · exact ⟨⟨false, ['6', '1'], some ['5'], none⟩, rfl, rfl⟩
    · exact ⟨⟨false, ['1', '2'], some ['5'], none⟩, rfl, rfl⟩

theorem storable_underway : Fixture.underway.Storable where
  rawSignal := canonical_ofMembers <| by
    simp only [List.forall_mem_cons]
    exact ⟨.string _, .number (n := .integer 3120) rfl, .string _, List.forall_mem_nil _⟩
  results := by
    have hta : (Json.ofMembers [("rsi", .ofFloat 61.5), ("trend", .string "up")]).Canonical :=
      canonical_ofMembers <| by
        simp only [List.forall_mem_cons]
        exact ⟨canonical_ofFloat _, .string _, List.forall_mem_nil _⟩
    simp only [Fixture.underway, List.forall_mem_cons]
    exact ⟨hta, .bool true, List.forall_mem_nil _⟩
  durations := by
    have hfinite : ∀ e ∈ Fixture.underway.trace, ∀ x ∈ e.duration, x.isFinite = true := by
      decide +kernel
    exact hfinite

/-! ## Restoring -/

/-- **A checkpoint restores the state.** Where floats and times are read back from their own
texts, a state with finite durations and a record that is not too deep is read back from both of
its texts, and so is every state that was read from any text. -/
theorem checkpoint_restores (s : PipelineState) (hr : s.ReadsBack) :
    (s.Storable → s.toJson.depth ≤ Document.maxDepth →
      ofText s.text = .ok s ∧ ofText s.indentedText = .ok s) ∧
    ∀ checkpoint, ofText checkpoint = .ok s →
      ofText s.text = .ok s ∧ ofText s.indentedText = .ok s :=
  ⟨ofText_text hr, fun _ h => ofText_text hr (storable_of_ofText h).1 (storable_of_ofText h).2⟩

theorem checkpoint_restores_underway :
    (Fixture.underway.ReadsBack ∧ Fixture.underway.Storable ∧
      Fixture.underway.toJson.depth ≤ Document.maxDepth) ∧
    ofText Fixture.underway.text = .ok Fixture.underway ∧
    ofText Fixture.underway.indentedText = .ok Fixture.underway := by
  have hdepth : Fixture.underway.toJson.depth ≤ Document.maxDepth := by decide +kernel
  have hrestored := (checkpoint_restores Fixture.underway readsBack_underway).1 storable_underway
    hdepth
  exact ⟨⟨readsBack_underway, storable_underway, hdepth⟩, hrestored⟩

end PipelineState

end SignalPipeline
