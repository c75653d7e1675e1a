import SignalPipeline.Node.State
import SignalPipeline.Proofs.Json.Record

/-!
# The records of a pipeline state are read back

* `NodeConfig.read_toJson`, `TraceEntry.read_toJson`, `Enrichment.read_toJson`: the parts of a
  state.
* `PipelineState.read_toJson`: the state.
-/

namespace SignalPipeline

/-- A time that is read back from its text. -/
def Timestamp.ReadsBack (t : Timestamp) : Prop :=
  Timestamp.parse? t.text = some t

instance (t : Timestamp) : Decidable t.ReadsBack :=
  inferInstanceAs (Decidable (Timestamp.parse? t.text = some t))

theorem Timestamp.read_toJson {t : Timestamp} (h : t.ReadsBack) :
    Timestamp.read t.toJson.toDocument = .ok t := by
  have hstring : Read.string (Json.string t.text).toDocument = .ok t.text := rfl
  have h : Timestamp.parse? t.text = some t := h
  rw [toJson, read, hstring]
  simp only [bind, Except.bind, h]
  rfl

namespace NodeConfig

theorem unambiguous_fields : Field.Unambiguous fields :=
  ⟨by decide, by decide⟩

/-- The members of the record of a node. -/
def members (c : NodeConfig) : List Member :=
  [("id", .string c.id), ("type", .string c.type), ("plugin", .string c.plugin),
    ("parallel", .bool c.parallel), ("enabled", c.enabled.elim .null .bool),
    ("dependencies", .ofStrings c.dependencies)]

/-- A node is read back, also one that does not say whether it is enabled. -/
theorem read_toJson (c : NodeConfig) : read c.toJson.toDocument = .ok c := by
  have hslots : Read.record "a node" fields c.toJson.toDocument = .ok (.written c.members) :=
    Read.record_written _ unambiguous_fields (.refl _)
  have hid : (Slots.written c.members).defaulted "id" Read.string "" = .ok c.id :=
    Slots.defaulted_written rfl rfl
  have htype : (Slots.written c.members).defaulted "type" Read.string "" = .ok c.type :=
    Slots.defaulted_written rfl rfl
  have hplugin : (Slots.written c.members).defaulted "plugin" Read.string "" = .ok c.plugin :=
    Slots.defaulted_written rfl rfl
  have hparallel : (Slots.written c.members).defaulted "parallel" Read.bool false =
      .ok c.parallel := Slots.defaulted_written rfl rfl
  have henabled : (Slots.written c.members).optional "enabled" Read.bool = .ok c.enabled := by
    refine Slots.defaulted_written (v := c.enabled.elim .null .bool) rfl ?_
    cases c.enabled <;> rfl
  have hdependencies : (Slots.written c.members).defaulted "dependencies" Read.strings [] =
      .ok c.dependencies :=
    Slots.defaulted_written rfl (Read.list_written fun _ _ => rfl)
  rw [read, hslots]
  simp only [bind, Except.bind, hid, htype, hplugin, hparallel, henabled, hdependencies]
  rfl

end NodeConfig

theorem NodeType.read_name (t : NodeType) :
    NodeType.read (Json.string t.name).toDocument = .ok t :=
  Read.oneOf_written t.ofName?_name _

theorem TraceStatus.read_name (s : TraceStatus) :
    TraceStatus.read (Json.string s.name).toDocument = .ok s :=
  Read.oneOf_written s.ofName?_name _

namespace TraceEntry

theorem unambiguous_fields : Field.Unambiguous fields :=
  ⟨by decide, by decide⟩

/-- The members of the record of an execution. -/
def members (e : TraceEntry) : List Member :=
  [("nodeId", .string e.nodeId), ("nodeType", .string e.nodeType.name),
      ("startTime", e.startTime.toJson)] ++
    (e.endTime.map fun t => ("endTime", t.toJson)).toList ++
    (e.duration.map fun x => ("durationMs", Json.ofFloat x)).toList ++
    [("status", .string e.status.name)] ++
    (e.error.map fun s => ("error", Json.string s)).toList

theorem keys_members (e : TraceEntry) :
    (e.members.map Prod.fst).Sublist (fields.map Field.name) := by
  simp only [members, List.map_append]
  exact ((((List.Sublist.refl _).append (keys_optional _ _ "endTime")).append
    (keys_optional _ _ "durationMs")).append (.refl ["status"])).append (keys_optional _ _ "error")

/-- An execution is read back if its times are and its duration is finite. -/
theorem read_toJson {e : TraceEntry} (hstart : e.startTime.ReadsBack)
    (hend : ∀ t, e.endTime = some t → t.ReadsBack)
    (hduration : ∀ x, e.duration = some x → x.isFinite = true) :
    read e.toJson.toDocument = .ok e := by
  have hslots : Read.record "a trace entry" fields e.toJson.toDocument =
      .ok (.written e.members) := Read.record_written _ unambiguous_fields e.keys_members
  have hnodeId : (Slots.written e.members).required "nodeId" Read.string = .ok e.nodeId :=
    Slots.required_written rfl rfl
  have hnodeType : (Slots.written e.members).required "nodeType" NodeType.read =
      .ok e.nodeType := Slots.required_written rfl (NodeType.read_name _)
  have hstartTime : (Slots.written e.members).required "startTime" Timestamp.read =
      .ok e.startTime := Slots.required_written rfl (Timestamp.read_toJson hstart)
  have hendTime : (Slots.written e.members).optional "endTime" Timestamp.read =
      .ok e.endTime := by
    refine Slots.optional_written Timestamp.toJson ?_ fun t ht => ?_
    · simp [members, List.lookup_cons, List.lookup_append, lookup_optional]
    · exact congrArg (some <$> ·) (Timestamp.read_toJson (hend t ht))
  have hdurationMs : (Slots.written e.members).optional "durationMs" Read.float =
      .ok e.duration := by
    refine Slots.optional_written Json.ofFloat ?_ fun x hx => ?_
    · simp [members, List.lookup_cons, List.lookup_append, lookup_optional]
    · rw [Json.ofFloat, if_pos (hduration x hx)]
      rfl
  have hstatus : (Slots.written e.members).required "status" TraceStatus.read =
      .ok e.status := by
    refine Slots.required_written (v := .string e.status.name) ?_ (TraceStatus.read_name _)
    simp [members, List.lookup_cons, List.lookup_append, lookup_optional]
  have herror : (Slots.written e.members).optional "error" Read.string = .ok e.error := by
    refine Slots.optional_string_written ?_
    simp [members, List.lookup_cons, List.lookup_append, lookup_optional]
  rw [read, hslots]
  simp only [bind, Except.bind, hnodeId, hnodeType, hstartTime, hendTime, hdurationMs, hstatus,
    herror]
  rfl

end TraceEntry

theorem read_canonical {v : Json} (h : v.Canonical) : Read.value v.toDocument = .ok v := by
  rw [Read.value, h.value?_toDocument]
  rfl

/-- Results are read back as pairs in their order. -/
theorem Enrichment.read_toJson {results : Enrichment} (h : ∀ r ∈ results, r.2.Canonical) :
    Enrichment.read (Enrichment.toJson results).toDocument = .ok results := by
  refine Read.list_written fun r hr => ?_
  have hkey : Read.string (Json.string r.1).toDocument = .ok r.1 := rfl
  change Read.pair Read.string Read.value (.array [(Json.string r.1).toDocument, r.2.toDocument]) =
    .ok r
  simp only [Read.pair, bind, Except.bind, hkey, read_canonical (h r hr)]
  rfl

namespace PipelineState

theorem unambiguous_fields : Field.Unambiguous fields :=
  ⟨by decide, by decide⟩

/-- The members of the record of a state. -/
def members (s : PipelineState) : List Member :=
  [("signalId", .string s.signalId), ("rawSignal", s.rawSignal),
      ("enrichmentResults", s.results.toJson), ("nodeConfigs", .array (s.nodes.map (·.toJson)))] ++
    (s.currentNode.map fun id => ("currentNode", Json.string id)).toList ++
    [("metadata", s.metadataJson)]

theorem keys_members (s : PipelineState) :
    (s.members.map Prod.fst).Sublist (fields.map Field.name) := by
  simp only [members, List.map_append]
  exact ((List.Sublist.refl _).append (keys_optional _ _ "currentNode")).append (.refl _)

/-- The members of the record of creation time and executions. -/
def metadataMembers (s : PipelineState) : List Member :=
  [("startTime", s.startTime.toJson), ("trace", .array (s.trace.map TraceEntry.toJson))]

/-- The times of a state are read back. -/
structure Timed (s : PipelineState) : Prop where
  created : s.startTime.ReadsBack
  started : ∀ e ∈ s.trace, e.startTime.ReadsBack
  ended : ∀ e ∈ s.trace, ∀ t, e.endTime = some t → t.ReadsBack

/-- States as they occur: the values are canonical, as every value that is built or parsed is, and
the durations are finite. -/
structure Storable (s : PipelineState) : Prop where
  rawSignal : s.rawSignal.Canonical
  results : ∀ r ∈ s.results, r.2.Canonical
  durations : ∀ e ∈ s.trace, ∀ x, e.duration = some x → x.isFinite = true

variable {s : PipelineState}

theorem read_metadataJson (ht : s.Timed) (hs : s.Storable) :
    readMetadata s.metadataJson.toDocument = .ok (s.startTime, s.trace) := by
  have hslots : Read.record "state metadata" [⟨"startTime", []⟩, ⟨"trace", []⟩]
      s.metadataJson.toDocument = .ok (.written s.metadataMembers) :=
    Read.record_written _ ⟨by decide, by decide⟩ (.refl _)
  have hstart : (Slots.written s.metadataMembers).required "startTime" Timestamp.read =
      .ok s.startTime := Slots.required_written rfl (Timestamp.read_toJson ht.created)
  have htrace : (Slots.written s.metadataMembers).defaulted "trace" (Read.list TraceEntry.read)
      [] = .ok s.trace :=
    Slots.defaulted_written rfl (Read.list_written fun e he =>
      TraceEntry.read_toJson (ht.started e he) (ht.ended e he) (hs.durations e he))
  rw [readMetadata, hslots]
  simp only [bind, Except.bind, hstart, htrace]
  rfl

/-- A state is read back if its times are and its values can be held. -/
theorem read_toJson (ht : s.Timed) (hs : s.Storable) : read s.toJson.toDocument = .ok s := by
  have hslots : Read.record "a pipeline state" fields s.toJson.toDocument =
      .ok (.written s.members) := Read.record_written _ unambiguous_fields s.keys_members
  have hsignalId : (Slots.written s.members).required "signalId" Read.string = .ok s.signalId :=
    Slots.required_written rfl rfl
  have hrawSignal : (Slots.written s.members).defaulted "rawSignal" Read.value .null =
      .ok s.rawSignal := Slots.defaulted_written rfl (read_canonical hs.rawSignal)
  have hresults : (Slots.written s.members).defaulted "enrichmentResults" Enrichment.read [] =
      .ok s.results := Slots.defaulted_written rfl (Enrichment.read_toJson hs.results)
  have hnodes : (Slots.written s.members).defaulted "nodeConfigs" (Read.list NodeConfig.read) [] =
      .ok s.nodes :=
    Slots.defaulted_written rfl (Read.list_written fun c _ => NodeConfig.read_toJson c)
  have hcurrent : (Slots.written s.members).optional "currentNode" Read.string =
      .ok s.currentNode := by
    refine Slots.optional_string_written ?_
    simp [members, List.lookup_cons, List.lookup_append, lookup_optional]
  have hmetadata : (Slots.written s.members).required "metadata" readMetadata =
      .ok (s.startTime, s.trace) := by
    refine Slots.required_written (v := s.metadataJson) ?_ (read_metadataJson ht hs)
    simp [members, List.lookup_cons, List.lookup_append, lookup_optional]
  rw [read, hslots]
  simp only [bind, Except.bind, hsignalId, hrawSignal, hresults, hnodes, hcurrent, hmetadata]
  rfl

end PipelineState

end SignalPipeline
