import SignalPipeline.Proofs.Node.Checkpoint
import SignalPipeline.Proofs.Replay.Record
import SignalPipeline.Replay.Store

/-!
# Snapshots survive the store

A list of snapshots that was written to a file as a JSON array is opened as a store in which the
last snapshot of every signal is found as it was, so that a replay takes the input that was kept. A
block whose value is null is the exception: it is found as absent, and where it was the input, the
replay has to rebuild one. A store in memory keeps it.

* `Snapshots.archive`: the record of a list of snapshots.
* `Snapshots.ofLocated_archive`: what a file with that record is opened as.
* `Snapshots.archive_survives`: what is found in it.
* `Snapshots.archive_loses_null`: the exception.
-/

namespace SignalPipeline

open Json

/-! ## Records can be written -/

theorem NoveltyInfo.writable_toJson (n : NoveltyInfo) : n.toJson.Writable := by
  refine writable_object ?_
  simp only [List.forall_mem_append, List.forall_mem_cons]
  exact ⟨⟨⟨writable_string _, (Canonical.bool _).writable, List.forall_mem_nil _⟩,
    forall_mem_optional writable_string _ _⟩, forall_mem_optional (fun _ => writable_string _) _ _⟩

theorem MarketInfo.writable_toJson (m : MarketInfo) : m.toJson.Writable := by
  refine writable_object ?_
  unfold members
  simp only [List.forall_mem_append]
  exact ⟨⟨⟨forall_mem_optional writable_string _ _, forall_mem_optional writable_string _ _⟩,
    forall_mem_optional writable_string _ _⟩, forall_mem_optional writable_string _ _⟩

theorem ScoringRecord.writable_toJson (r : ScoringRecord) : r.toJson.Writable := by
  refine writable_object ?_
  simp only [List.forall_mem_append, List.forall_mem_cons]
  exact ⟨⟨⟨⟨(canonical_ofFloat _).writable, writable_string _, List.forall_mem_nil _⟩,
    forall_mem_optional writable_string _ _⟩, forall_mem_optional writable_string _ _⟩,
    forall_mem_optional NoveltyInfo.writable_toJson _ _⟩

theorem DecisionRecord.writable_toJson (r : DecisionRecord) : r.toJson.Writable := by
  refine writable_object ?_
  simp only [List.forall_mem_cons]
  exact ⟨writable_string _, (canonical_ofFloat _).writable, (canonical_ofStrings _).writable,
    List.forall_mem_nil _⟩

theorem StoredSnapshot.writable_toJson {s : StoredSnapshot} (hs : s.Storable) :
    s.toJson.Writable := by
  have hblock : ∀ {o : Option Json}, (∀ v, o = some v → v.Canonical) → ∀ name : String,
      ∀ m ∈ (o.map fun v => (name, v)).toList, m.2.Writable := by
    intro o ho name
    cases o with
    | none => exact List.forall_mem_nil _
    | some v => exact List.forall_mem_singleton.2 (ho v rfl).writable
  refine writable_object ?_
  simp only [List.forall_mem_append, List.forall_mem_cons]
  exact ⟨⟨⟨⟨writable_string _, s.market.writable_toJson, s.scoring.writable_toJson,
    s.decision.writable_toJson, List.forall_mem_nil _⟩, hblock hs.execution _⟩,
    hblock hs.rawInput _⟩, hblock hs.provenance _⟩

/-! ## What is left of a snapshot -/

namespace StoredSnapshot

variable {s : StoredSnapshot}

/-- A snapshot none of whose blocks is null is left as it is. -/
theorem withoutNulls_eq_self
    (h : ∀ v, s.execution = some v ∨ s.rawInput = some v ∨ s.provenance = some v → v ≠ .null) :
    s.withoutNulls = s := by
  have hkeeps : ∀ o : Option Json, (∀ v, o = some v → v ≠ .null) → o.filter Json.isPresent = o := by
    intro o ho
    cases o with
    | none => rfl
    | some v => exact Option.filter_some_pos (isPresent_of_ne (ho v rfl))
  unfold withoutNulls
  rw [hkeeps _ fun v hv => h v (.inl hv), hkeeps _ fun v hv => h v (.inr (.inl hv)),
    hkeeps _ fun v hv => h v (.inr (.inr hv))]

/-- An input that was kept is replayed as it is. -/
theorem input_withoutNulls_of_kept {raw : Json} (hraw : s.rawInput = some raw)
    (hne : raw ≠ .null) : s.withoutNulls.input = ⟨raw, false, [verbatimNote]⟩ := by
  have hkept : s.withoutNulls.rawInput = some raw := by
    show s.rawInput.filter Json.isPresent = some raw
    rw [hraw]
    exact Option.filter_some_pos (isPresent_of_ne hne)
  rw [input, hkept]

/-- An input that is null is lost. -/
theorem lossy_withoutNulls_of_null (hraw : s.rawInput = some .null) :
    s.withoutNulls.input.lossy = true := by
  have hlost : s.withoutNulls.rawInput = none := by
    show s.rawInput.filter Json.isPresent = none
    rw [hraw]
    rfl
  rw [input, hlost]

end StoredSnapshot

/-! ## Stores -/

namespace Snapshots

variable {snapshots before after : List StoredSnapshot} {s : StoredSnapshot} {id : String}

/-- Of several snapshots of one signal the last is found. -/
theorem get?_ofList_of_last (h : ∀ t ∈ after, t.signalId ≠ s.signalId) :
    (ofList (before ++ s :: after)).get? s.signalId = some s := by
  have hafter : ∀ e ∈ after.map fun t => (t.signalId, t), e.1 ≠ s.signalId :=
    List.forall_mem_map.2 h
  unfold ofList Entries.ofPairs
  rw [List.map_append, List.map_cons, Entries.putAll, List.foldl_append, List.foldl_cons]
  refine (Entries.get?_putAll_of_forall_ne hafter).trans ?_
  rw [Entries.get?_put, if_pos rfl]

theorem get?_ofList_eq_none (h : ∀ s ∈ snapshots, s.signalId ≠ id) :
    (ofList snapshots).get? id = none :=
  Entries.get?_putAll_of_forall_ne (List.forall_mem_map.2 h)

/-- The record of a list of snapshots. -/
def archive (snapshots : List StoredSnapshot) : Json :=
  .array (snapshots.map StoredSnapshot.toJson)

/-- What reading back rests on: the text of every time of the snapshots, and of every finite float
of their record, names it again. -/
structure ReadsBack (snapshots : List StoredSnapshot) : Prop where
  times : ∀ s ∈ snapshots, s.scoring.Timed
  reals : ∀ x : Float, x.isFinite = true → .number (some (.real x)) ∈ (archive snapshots).tokens →
    (Number.real x).ReadsBack

/-- A file with the record of a list of snapshots is opened as the store of what is left of them. -/
theorem ofLocated_archive (hs : ∀ s ∈ snapshots, s.Storable) (hr : ReadsBack snapshots)
    (hd : (archive snapshots).depth ≤ Document.maxDepth) {text : String}
    (htext : text = (archive snapshots).compact ∨ text = (archive snapshots).indented)
    (path : String) :
    (ofLocated path (.file (.ok text))).1 =
      .ok (ofList (snapshots.map StoredSnapshot.withoutNulls)) := by
  have hwritable : (archive snapshots).Writable :=
    writable_array (List.forall_mem_map.2 fun s h => StoredSnapshot.writable_toJson (hs s h))
  have htokens := readBack_of_writable hwritable hr.reals
  have hparse : Document.parse? text = some (archive snapshots).toDocument := by
    rcases htext with rfl | rfl
    · exact parse?_compact htokens hd
    · exact parse?_indented htokens hd
  have hread : Read.list StoredSnapshot.read (archive snapshots).toDocument =
      .ok (snapshots.map StoredSnapshot.withoutNulls) :=
    Read.list_written_map fun s h => StoredSnapshot.read_toJson (hr.times s h) (hs s h)
  have htext : Reader.text? (Read.list StoredSnapshot.read) text =
      some (snapshots.map StoredSnapshot.withoutNulls) := by
    rw [Reader.text?, hparse, Option.bind_some, hread]
    rfl
  have harray : readArray path (.ok text) =
      .ok (snapshots.map StoredSnapshot.withoutNulls) := by
    show decode (Read.list StoredSnapshot.read) path text = _
    rw [decode, htext]
  rw [ofLocated, read, harray]

/-! ## A snapshot with an input that is null -/

open PipelineState (tokenFloat?) in
theorem readsBack_of_floats (xs : List Float) (htimes : ∀ s ∈ snapshots, s.scoring.Timed)
    (hfloats : (archive snapshots).tokens.filterMap tokenFloat? = xs)
    (hxs : ∀ x ∈ xs, (Number.real x).ReadsBack) : ReadsBack snapshots where
  times := htimes
  reals := fun x _ hx => hxs x (hfloats ▸ List.mem_filterMap.2 ⟨_, hx, rfl⟩)

/-- The input of the signal was kept, and it is null. -/
def nullInput : StoredSnapshot where
  signalId := "sig-1"
  market := .unknown
  scoring := ⟨1.0, Fixture.scoredAt, none, none, none⟩
  decision := ⟨"skip", 0.0, []⟩
  execution := none
  rawInput := some .null
  provenance := none

theorem storable_nullInput : nullInput.Storable where
  score := by decide +kernel
  confidence := by decide +kernel
  execution := nofun
  rawInput := by
    rintro _ ⟨⟩
    exact .null
  provenance := nofun

theorem timed_nullInput : nullInput.scoring.Timed where
  scored := by decide +kernel
  classified := nofun

theorem storable_fixture (id : String) : (Fixture.snapshot id).Storable where
  score := by
    show Float.isFinite 72.5 = true
    decide +kernel
  confidence := by
    show Float.isFinite 0.81 = true
    decide +kernel
  execution := by
    rintro _ ⟨⟩
    exact canonical_ofMembers (List.forall_mem_singleton.2 (.string _))
  rawInput := by
    rintro _ ⟨⟩
    refine canonical_ofMembers ?_
    simp only [List.forall_mem_cons]
    exact ⟨.string _, .string _, .string _, List.forall_mem_nil _⟩
  provenance := by
    rintro _ ⟨⟩
    exact canonical_ofMembers (List.forall_mem_singleton.2 (.string _))

theorem timed_fixture (id : String) : (Fixture.snapshot id).scoring.Timed where
  scored := by
    show Fixture.scoredAt.ReadsBack
    decide +kernel
  classified := by
    rintro _ ⟨⟩ _ ⟨⟩
    decide +kernel

theorem readsBack_nullInput : ReadsBack [nullInput] := by
  refine readsBack_of_floats [1.0, 0.0] (List.forall_mem_singleton.2 timed_nullInput) ?_ ?_
  · decide +kernel
  · simp only [List.forall_mem_cons]
    exact ⟨⟨⟨false, ['1'], some ['0'], none⟩, rfl, rfl⟩,
      ⟨⟨false, ['0'], some ['0'], none⟩, rfl, rfl⟩, List.forall_mem_nil _⟩

/-! ## What is found -/

/-- **Snapshots survive the store.** A list of snapshots with finite numbers and a record that is
not too deep, written to a file in either layout, is opened as a store, provided that floats and
times are read back from their own texts. For every signal the last snapshot is found; it is the one
that was written unless one of its blocks is null, in which case that block is absent. An input that
was kept is replayed as it is, but for one that is null the replay has to rebuild an input, although
a store in memory finds the snapshot as it is. -/
theorem archive_survives (hs : ∀ s ∈ snapshots, s.Storable) (hr : ReadsBack snapshots)
    (hd : (archive snapshots).depth ≤ Document.maxDepth) {text : String}
    (htext : text = (archive snapshots).compact ∨ text = (archive snapshots).indented)
    (path : String) :
    ∃ store, (ofLocated path (.file (.ok text))).1 = .ok store ∧
      (∀ id, (∀ s ∈ snapshots, s.signalId ≠ id) →
        (SignalStore.ofSnapshots store).find? id = .ok none) ∧
      ∀ before s after, snapshots = before ++ s :: after →
        (∀ t ∈ after, t.signalId ≠ s.signalId) →
          (SignalStore.ofSnapshots store).find? s.signalId = .ok (some s.withoutNulls) ∧
          ((∀ v, s.execution = some v ∨ s.rawInput = some v ∨ s.provenance = some v → v ≠ .null) →
            s.withoutNulls = s) ∧
          (∀ raw, s.rawInput = some raw → raw ≠ .null →
            s.withoutNulls.input = ⟨raw, false, [StoredSnapshot.verbatimNote]⟩) ∧
          (s.rawInput = some .null → s.withoutNulls.input.lossy = true) ∧
          (SignalStore.ofSnapshots (ofList snapshots)).find? s.signalId = .ok (some s) := by
  refine ⟨_, ofLocated_archive hs hr hd htext path, fun id hid => ?_, ?_⟩
  · refine congrArg Except.ok (get?_ofList_eq_none ?_)
    exact List.forall_mem_map.2 hid
  · rintro before s after rfl hlast
    have hfound : (ofList ((before ++ s :: after).map StoredSnapshot.withoutNulls)).get?
        s.withoutNulls.signalId = some s.withoutNulls := by
      rw [List.map_append, List.map_cons]
      exact get?_ofList_of_last (List.forall_mem_map.2 hlast)
    exact ⟨congrArg Except.ok hfound, StoredSnapshot.withoutNulls_eq_self,
      fun raw => StoredSnapshot.input_withoutNulls_of_kept,
      StoredSnapshot.lossy_withoutNulls_of_null, congrArg Except.ok (get?_ofList_of_last hlast)⟩

/-- Of two snapshots of a signal, the first without and the second with an input, the second is
found as it was written. -/
theorem archive_survives_last :
    (∀ s ∈ [nullInput, Fixture.snapshot "sig-1"], s.Storable) ∧
      ReadsBack [nullInput, Fixture.snapshot "sig-1"] ∧
      (archive [nullInput, Fixture.snapshot "sig-1"]).depth ≤ Document.maxDepth ∧
      ∃ store, (ofLocated "all.json"
          (.file (.ok (archive [nullInput, Fixture.snapshot "sig-1"]).indented))).1 = .ok store ∧
        (SignalStore.ofSnapshots store).find? "sig-1" = .ok (some (Fixture.snapshot "sig-1")) := by
  have hstorable : ∀ s ∈ [nullInput, Fixture.snapshot "sig-1"], s.Storable :=
    List.forall_mem_cons.2 ⟨storable_nullInput, List.forall_mem_singleton.2 (storable_fixture _)⟩
  have hreads : ReadsBack [nullInput, Fixture.snapshot "sig-1"] := by
    refine readsBack_of_floats [1.0, 0.0, 72.5, 0.81]
      (List.forall_mem_cons.2 ⟨timed_nullInput, List.forall_mem_singleton.2 (timed_fixture _)⟩)
      ?_ ?_
    · decide +kernel
    · simp only [List.forall_mem_cons]
      exact ⟨⟨⟨false, ['1'], some ['0'], none⟩, rfl, rfl⟩,
        ⟨⟨false, ['0'], some ['0'], none⟩, rfl, rfl⟩,
        ⟨⟨false, ['7', '2'], some ['5'], none⟩, rfl, rfl⟩,
        ⟨⟨false, ['0'], some ['8', '1'], none⟩, rfl, rfl⟩, List.forall_mem_nil _⟩
  have hdepth : (archive [nullInput, Fixture.snapshot "sig-1"]).depth ≤ Document.maxDepth := by
    decide +kernel
  obtain ⟨store, hopened, -, hfound⟩ :=
    archive_survives hstorable hreads hdepth (.inr rfl) "all.json"
  obtain ⟨hlast, hwhole, -⟩ := hfound [nullInput] (Fixture.snapshot "sig-1") [] rfl
    (List.forall_mem_nil _)
  refine ⟨hstorable, hreads, hdepth, store, hopened, ?_⟩
  rw [hwhole ?_] at hlast
  · exact hlast
  · -- none of the three blocks is null
    rintro v hv rfl
    have hblock : ∀ {o : Option Json}, o.map Json.isPresent = some true → o ≠ some .null := by
      rintro _ h rfl
      cases h
    rcases hv with hv | hv | hv
    · exact hblock rfl hv
    · exact hblock rfl hv
    · exact hblock rfl hv

/-- A snapshot whose input is null is found in memory, and is not found in a file that it was
written to: what is found there has no input, and its replay has to rebuild one. -/
theorem archive_loses_null :
    ∃ store, (ofLocated "all.json" (.file (.ok (archive [nullInput]).compact))).1 = .ok store ∧
      (SignalStore.ofSnapshots (ofList [nullInput])).find? "sig-1" = .ok (some nullInput) ∧
      (SignalStore.ofSnapshots store).find? "sig-1" ≠ .ok (some nullInput) ∧
      nullInput.input.lossy = false ∧
      ∃ found, (SignalStore.ofSnapshots store).find? "sig-1" = .ok (some found) ∧
        found.rawInput = none ∧ found.input.lossy = true := by
  have hdepth : (archive [nullInput]).depth ≤ Document.maxDepth := by decide +kernel
  have hopened := ofLocated_archive (List.forall_mem_singleton.2 storable_nullInput)
    readsBack_nullInput hdepth (.inl rfl) "all.json"
  refine ⟨_, hopened, rfl, fun h => ?_, rfl, nullInput.withoutNulls, rfl, rfl, rfl⟩
  have hraw := congrArg StoredSnapshot.rawInput (Option.some.inj (Except.ok.inj h))
  cases hraw

end Snapshots
end SignalPipeline
