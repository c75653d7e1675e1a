import SignalPipeline.Proofs.Entries.Insertion
import SignalPipeline.Proofs.Json.Context
import SignalPipeline.Proofs.Node.Listing
import SignalPipeline.Proofs.Replay.Archive

/-!
# Ways to load a store

Snapshots that are records in texts come into a store from memory, from a file with an array of the
texts, or from a directory with a file for each. All three ways read the same list, so that they
give the same store, in which the last snapshot of every signal is found. A directory is read in the
order of the names of its files, whatever order the file system lists them in, and the first file
whose text is no record is named.

* `Snapshots.Holds`: a directory with a file for each text.
* `Snapshots.readArray_of_decodes`, `Snapshots.Holds.readFiles`: what is read from an array and from
  a directory.
* `Snapshots.readFiles_of_malformed`: what is read where a text is no record.
* `Snapshots.get?_ofList`, `Snapshots.length_ofList`: what is in a store.
* `Snapshots.loading_agrees`: all ways to load a store.
-/

namespace SignalPipeline

open Json

namespace Snapshots

variable {path directory name text : String} {texts : List String} {s : StoredSnapshot}
  {snapshots : List StoredSnapshot} {files : List (String × FileText)}

/-- A text is the record of a snapshot. -/
def Decodes (text : String) (s : StoredSnapshot) : Prop :=
  Reader.text? StoredSnapshot.read text = some s

/-- The last snapshot of a signal. -/
def lastOf (snapshots : List StoredSnapshot) (id : String) : Option StoredSnapshot :=
  snapshots.reverse.find? fun s => s.signalId == id

/-- A name of a snapshot file. -/
def IsSnapshotName (name : String) : Prop :=
  ∃ stem, stem ≠ "" ∧ name = stem ++ ".json"

/-- A snapshot file for each text, with a stem for its name. -/
def textFiles (stems texts : List String) : List (String × FileText) :=
  List.zipWith (fun stem text => (stem ++ ".json", .ok text)) stems texts

/-- A directory with a file for each text, whose names ascend, and others that are no snapshot
files, in any order. -/
structure Holds (files : List (String × FileText)) (texts stems : List String)
    (others : List (String × FileText)) : Prop where
  paired : stems.length = texts.length
  named : "" ∉ stems
  ascending : (stems.map (· ++ ".json")).Pairwise (· < ·)
  beside : ∀ f ∈ others, ¬ IsSnapshotName f.1
  listed : files.Perm (textFiles stems texts ++ others)

/-! ## Lists -/

theorem get?_ofList (snapshots : List StoredSnapshot) (id : String) :
    (ofList snapshots).get? id = lastOf snapshots id := by
  cases hlast : lastOf snapshots id with
  | none =>
    refine get?_ofList_eq_none fun s hs hid => ?_
    exact List.find?_eq_none.1 hlast s (List.mem_reverse.2 hs) (beq_iff_eq.2 hid)
  | some s =>
    obtain ⟨hid, after, before, hsplit, hafter⟩ := List.find?_eq_some_iff_append.1 hlast
    rw [beq_iff_eq] at hid
    rw [List.reverse_eq_iff, List.reverse_append, List.reverse_cons, List.append_assoc,
      List.singleton_append] at hsplit
    rw [hsplit, ← hid]
    refine get?_ofList_of_last fun t ht => ?_
    rw [hid]
    simpa using hafter t (List.mem_reverse.1 ht)

theorem length_ofList (snapshots : List StoredSnapshot) :
    (ofList snapshots).length = (snapshots.map StoredSnapshot.signalId).toFinset.card := by
  have hkeys : (snapshots.map fun s => (s.signalId, s)).map Prod.fst =
      snapshots.map StoredSnapshot.signalId := by
    rw [List.map_map]
    rfl
  have hstart : (Entries.keys ([] : Snapshots)).Nodup := List.nodup_nil
  rw [ofList, Entries.ofPairs, Entries.length_putAll hstart, ← hkeys]
  rfl

/-- The store of what was read, or no store. -/
theorem ofLocated_eq (path : String) (located : Located) :
    (ofLocated path located).1 = (read path located).1.map ofList := by
  unfold ofLocated
  split
  · next hread =>
    rw [hread]
    rfl
  · next hread =>
    rw [hread]
    rfl

/-! ## Arrays -/

theorem decodes_iff :
    Decodes text s ↔ ∃ d, Document.parse? text = some d ∧ StoredSnapshot.read d = .ok s := by
  rw [Decodes, Reader.text?, Option.bind_eq_some_iff]
  refine exists_congr fun d => and_congr_right fun _ => ?_
  cases StoredSnapshot.read d with
  | error e => exact iff_of_false (fun h => by cases h) (fun h => by cases h)
  | ok s' => simp [Except.toOption]

theorem readArray_of_decodes (h : List.Forall₂ Decodes texts snapshots)
    (hnesting : ∀ text ∈ texts, Document.nesting text ≤ 126)
    (htokens : lex? text.toList = lex? (Document.arrayText texts).toList) (path : String) :
    readArray path (.ok text) = .ok snapshots := by
  have hitems : ∃ ds, List.Forall₂ Document.IsItem texts ds ∧
      List.Forall₂ (fun d s => StoredSnapshot.read d = .ok s) ds snapshots := by
    clear htokens
    induction h with
    | nil => exact ⟨[], .nil, .nil⟩
    | cons hfirst hrest ih =>
      obtain ⟨hnest, hnesting⟩ := List.forall_mem_cons.1 hnesting
      obtain ⟨d, hparse, hread⟩ := decodes_iff.1 hfirst
      obtain ⟨ds, hds, hreads⟩ := ih hnesting
      exact ⟨d :: ds, .cons ⟨hparse, Nat.succ_le_succ hnest⟩ hds, .cons hread hreads⟩
  obtain ⟨ds, hds, hreads⟩ := hitems
  have hparse : Document.parse? text = some (.array ds) := by
    rw [← Document.parse?_arrayText hds, Document.parse?, htokens, Document.parse?]
  have htext : Reader.text? (Read.list StoredSnapshot.read) text = some snapshots := by
    rw [Reader.text?, hparse, Option.bind_some, Read.list_eq_ok_iff.2 hreads]
    rfl
  show decode (Read.list StoredSnapshot.read) path text = _
  rw [decode, htext]

/-! ## Directories -/

theorem isSome_stem?_iff : (stem? name).isSome = true ↔ IsSnapshotName name := by
  unfold stem?
  dsimp only
  constructor
  · intro h
    split at h
    · next hname =>
      rw [Bool.and_eq_true, beq_iff_eq] at hname
      obtain ⟨hname, hstem⟩ := hname
      refine ⟨String.ofList (name.toList.take (name.toList.length - fileEnding.length)), ?_, ?_⟩
      · intro hempty
        rw [← String.toList_inj, String.toList_ofList] at hempty
        rw [hempty] at hstem
        cases hstem
      · rw [← String.toList_inj, String.toList_append, String.toList_ofList]
        exact hname.symm
    · cases h
  · rintro ⟨stem, hne, rfl⟩
    have hname : (stem ++ ".json").toList = stem.toList ++ fileEnding := String.toList_append
    have hstem : stem.toList.isEmpty = false := by
      rw [List.isEmpty_eq_false_iff, ne_eq, String.toList_eq_nil_iff]
      exact hne
    rw [hname, List.length_append, Nat.add_sub_cancel, List.take_left, hstem, beq_self_eq_true]
    rfl

theorem snapshotFiles_of_perm {listed others : List (String × FileText)}
    (hlisted : ∀ f ∈ listed, IsSnapshotName f.1) (hothers : ∀ f ∈ others, ¬ IsSnapshotName f.1)
    (hascending : Ascending listed) (h : files.Perm (listed ++ others)) :
    snapshotFiles files = listed := by
  have hfilter : (files.filter fun f => (stem? f.1).isSome).Perm listed := by
    have hboth := h.filter fun f => (stem? f.1).isSome
    rw [List.filter_append, List.filter_eq_self.2 fun f hf => isSome_stem?_iff.2 (hlisted f hf),
      List.filter_eq_nil_iff.2 fun f hf => mt isSome_stem?_iff.1 (hothers f hf),
      List.append_nil] at hboth
    exact hboth
  have hdistinct : ((files.filter fun f => (stem? f.1).isSome).map Prod.fst).Nodup :=
    (hfilter.map Prod.fst).nodup_iff.2 hascending.nodup
  exact (ascending_sortMembers _).eq_of_perm hascending ((perm_sortMembers hdistinct).trans hfilter)

/-- Snapshots are read if one is read from every file. -/
theorem readFiles_eq_ok_iff : (readFiles directory files).1 = .ok snapshots ↔
    List.Forall₂ (fun f s => readFile directory f.1 f.2 = .ok s) files snapshots := by
  induction files generalizing snapshots with
  | nil =>
    rw [List.forall₂_nil_left_iff, readFiles, Except.ok.injEq]
    exact eq_comm
  | cons f files ih =>
    obtain ⟨name, content⟩ := f
    rw [List.forall₂_cons_left_iff]
    simp only [← ih]
    cases hread : readFile directory name content with
    | error e =>
      rw [readFiles, hread]
      refine iff_of_false (fun h => by cases h) ?_
      rintro ⟨s, rest, h, -⟩
      cases h
    | ok s =>
      rw [readFiles, hread]
      dsimp only
      cases (readFiles directory files).1 with
      | error e =>
        refine iff_of_false (fun h => by cases h) ?_
        rintro ⟨s, rest, -, h, -⟩
        cases h
      | ok rest =>
        constructor
        · intro h
          cases h
          exact ⟨s, rest, rfl, rfl, rfl⟩
        · rintro ⟨s', rest', h, h', rfl⟩
          cases h
          cases h'
          rfl

theorem readFiles_of_error {before after : List (String × FileText)} {content : FileText}
    {e : StoreError} (hbefore : ∀ f ∈ before, ∃ s, readFile directory f.1 f.2 = .ok s)
    (h : readFile directory name content = .error e) :
    (readFiles directory (before ++ (name, content) :: after)).1 = .error e := by
  induction before with
  | nil =>
    rw [List.nil_append, readFiles, h]
  | cons f before ih =>
    obtain ⟨name', content'⟩ := f
    obtain ⟨⟨s, hs⟩, hrest⟩ := List.forall_mem_cons.1 hbefore
    have hread : readFile directory name' content' = .ok s := hs
    rw [List.cons_append, readFiles, hread]
    dsimp only
    rw [ih hrest]
    rfl

theorem readFile_of_decodes (h : Decodes text s) (directory name : String) :
    readFile directory name (.ok text) = .ok s := by
  show decode StoredSnapshot.read (FilePath.join directory name) text = _
  rw [decode, h]

theorem readFile_of_not_decodes (h : ∀ s, ¬ Decodes text s) (directory name : String) :
    readFile directory name (.ok text) = .error (.malformed (FilePath.join directory name)) := by
  have hnone : Reader.text? StoredSnapshot.read text = none :=
    Option.eq_none_iff_forall_ne_some.2 h
  show decode StoredSnapshot.read (FilePath.join directory name) text = _
  rw [decode, hnone]

theorem keys_textFiles {stems : List String} (h : stems.length = texts.length) :
    (textFiles stems texts).map Prod.fst = stems.map (· ++ ".json") := by
  induction stems generalizing texts with
  | nil => rfl
  | cons stem stems ih =>
    cases texts with
    | nil => cases h
    | cons text texts => exact congrArg (_ :: ·) (ih (Nat.succ.inj h))

theorem isSnapshotName_of_mem_textFiles {stems : List String} (h : stems.length = texts.length)
    (hnamed : "" ∉ stems) {f : String × FileText} (hf : f ∈ textFiles stems texts) :
    IsSnapshotName f.1 := by
  have hname := List.mem_map_of_mem (f := Prod.fst) hf
  rw [keys_textFiles h] at hname
  obtain ⟨stem, hstem, hname⟩ := List.mem_map.1 hname
  exact ⟨stem, fun hempty => hnamed (hempty ▸ hstem), hname.symm⟩

theorem readFile_textFiles {stems : List String} (hpaired : stems.length = texts.length)
    (h : List.Forall₂ Decodes texts snapshots) (directory : String) :
    List.Forall₂ (fun f s => readFile directory f.1 f.2 = .ok s) (textFiles stems texts)
      snapshots := by
  induction h generalizing stems with
  | nil =>
    rw [textFiles, List.zipWith_nil_right]
    exact .nil
  | cons hfirst hrest ih =>
    cases stems with
    | nil => cases hpaired
    | cons stem stems => exact .cons (readFile_of_decodes hfirst _ _) (ih (Nat.succ.inj hpaired))

/-- A directory with a file for each text is read in the order of the texts. -/
theorem Holds.readFiles {stems : List String} {others : List (String × FileText)}
    (hfiles : Holds files texts stems others) (h : List.Forall₂ Decodes texts snapshots)
    (directory : String) : (readFiles directory (snapshotFiles files)).1 = .ok snapshots := by
  have hascending : Ascending (textFiles stems texts) := by
    rw [Ascending, keys_textFiles hfiles.paired]
    exact hfiles.ascending
  have hnames : ∀ f ∈ textFiles stems texts, IsSnapshotName f.1 := fun f =>
    isSnapshotName_of_mem_textFiles hfiles.paired hfiles.named
  rw [snapshotFiles_of_perm hnames hfiles.beside hascending hfiles.listed]
  exact readFiles_eq_ok_iff.2 (readFile_textFiles hfiles.paired h directory)

/-- A snapshot file of a directory has a text that is no record. -/
def IsMalformed (files : List (String × FileText)) (name : String) : Prop :=
  IsSnapshotName name ∧ ∃ text, (name, .ok text) ∈ files ∧ ∀ s, ¬ Decodes text s

theorem mem_snapshotFiles_iff (hdistinct : (files.map Prod.fst).Nodup) {f : String × FileText} :
    f ∈ snapshotFiles files ↔ f ∈ files ∧ IsSnapshotName f.1 := by
  have hfiltered : ((files.filter fun f => (stem? f.1).isSome).map Prod.fst).Nodup :=
    hdistinct.sublist (List.filter_sublist.map Prod.fst)
  rw [← isSome_stem?_iff]
  exact (perm_sortMembers hfiltered).mem_iff.trans List.mem_filter

/-- Where a snapshot file is malformed, no snapshots are read. -/
theorem readFiles_ne_ok (hdistinct : (files.map Prod.fst).Nodup) (h : IsMalformed files name)
    (directory : String) (snapshots : List StoredSnapshot) :
    (readFiles directory (snapshotFiles files)).1 ≠ .ok snapshots := by
  obtain ⟨hname, text, hlisted, hbad⟩ := h
  intro hread
  have hall : ∀ f ∈ snapshotFiles files, ∃ s, readFile directory f.1 f.2 = .ok s :=
    ((List.forall₂_and_left _ _).1 ((readFiles_eq_ok_iff.1 hread).imp fun f s h => ⟨⟨s, h⟩, h⟩)).1
  obtain ⟨s, hs⟩ := hall _ ((mem_snapshotFiles_iff hdistinct).2 ⟨hlisted, hname⟩)
  rw [readFile_of_not_decodes hbad] at hs
  cases hs

/-- In the order of the names some malformed file is the first. -/
theorem exists_first_malformed (hdistinct : (files.map Prod.fst).Nodup)
    (h : ∃ name, IsMalformed files name) :
    ∃ before name text after, snapshotFiles files = before ++ (name, .ok text) :: after ∧
      (∀ s, ¬ Decodes text s) ∧ ∀ f ∈ before, ¬ IsMalformed files f.1 := by
  classical
  have hsome :
      ((snapshotFiles files).find? fun f => decide (IsMalformed files f.1)).isSome = true := by
    obtain ⟨name, hbad⟩ := h
    obtain ⟨hname, text, hlisted, -⟩ := id hbad
    rw [List.find?_isSome]
    exact ⟨_, (mem_snapshotFiles_iff hdistinct).2 ⟨hlisted, hname⟩, decide_eq_true hbad⟩
  obtain ⟨⟨name, content⟩, hfirst⟩ := Option.isSome_iff_exists.1 hsome
  obtain ⟨hbad, before, after, hsplit, hbefore⟩ := List.find?_eq_some_iff_append.1 hfirst
  obtain ⟨hname, text, hlisted, hnone⟩ := of_decide_eq_true hbad
  -- a directory has one file of a name
  have hcontent : content = .ok text := by
    have hmem : (name, content) ∈ snapshotFiles files :=
      hsplit ▸ List.mem_append_right _ List.mem_cons_self
    have hlookup := lookup_eq_some_of_mem hdistinct ((mem_snapshotFiles_iff hdistinct).1 hmem).1
    exact Option.some_inj.1 (hlookup.symm.trans (lookup_eq_some_of_mem hdistinct hlisted))
  refine ⟨before, name, text, after, hcontent ▸ hsplit, hnone, fun f hf hbad' => ?_⟩
  have hnot := hbefore f hf
  rw [decide_eq_true hbad'] at hnot
  cases hnot

/-- The first malformed file is named if all snapshot files in front of it have texts. -/
theorem readFiles_of_malformed (hdistinct : (files.map Prod.fst).Nodup)
    (h : ∃ name, IsMalformed files name) (directory : String) :
    ∃ name, IsMalformed files name ∧ (∀ name', IsMalformed files name' → ¬ name' < name) ∧
      ((∀ f ∈ files, IsSnapshotName f.1 → f.1 < name → ∃ text, f.2 = .ok text) →
        (readFiles directory (snapshotFiles files)).1 =
          .error (.malformed (FilePath.join directory name))) := by
  obtain ⟨before, name, text, after, hsplit, hnone, hbefore⟩ := exists_first_malformed hdistinct h
  have hmem : ∀ f, f ∈ before ++ (name, .ok text) :: after ↔ f ∈ files ∧ IsSnapshotName f.1 :=
    fun f => hsplit ▸ mem_snapshotFiles_iff hdistinct
  have hpairwise : (before ++ (name, .ok text) :: after).Pairwise fun f g => f.1 < g.1 :=
    hsplit ▸ (ascending_sortMembers _).pairwise
  rw [List.pairwise_append, List.pairwise_cons] at hpairwise
  obtain ⟨-, ⟨hafter, -⟩, hcross⟩ := hpairwise
  obtain ⟨hlisted, hname⟩ := (hmem _).1 (List.mem_append_right _ List.mem_cons_self)
  refine ⟨name, ⟨hname, text, hlisted, hnone⟩, fun name' hbad hlt => ?_, fun htexts => ?_⟩
  · obtain ⟨hname', text', hlisted', -⟩ := id hbad
    rcases List.mem_append.1 ((hmem _).2 ⟨hlisted', hname'⟩) with hmem' | hmem'
    · exact hbefore _ hmem' hbad
    · rcases List.mem_cons.1 hmem' with heq | hmem'
      · obtain rfl : name' = name := congrArg Prod.fst heq
        exact String.lt_irrefl name' hlt
      · exact String.lt_irrefl name (String.lt_trans (hafter _ hmem') hlt)
  · rw [hsplit]
    refine readFiles_of_error (fun f hf => ?_) (readFile_of_not_decodes hnone directory name)
    obtain ⟨hlisted', hname'⟩ := (hmem f).1 (List.mem_append_left _ hf)
    obtain ⟨text', htext'⟩ := htexts f hlisted' hname' (hcross f hf _ List.mem_cons_self)
    have hdecodes : ∃ s, Decodes text' s := by
      by_contra hnone'
      refine hbefore f hf ⟨hname', text', ?_, not_exists.1 hnone'⟩
      rw [← htext']
      exact hlisted'
    obtain ⟨s, hs⟩ := hdecodes
    exact ⟨s, htext' ▸ readFile_of_decodes hs directory f.1⟩

/-! ## All ways -/

theorem readBack_tokens (hs : s.Storable) (hr : ReadsBack [s]) : ReadBack s.toJson.tokens :=
  readBack_of_writable (StoredSnapshot.writable_toJson hs) fun x hx hmem =>
    hr.reals x hx (List.mem_cons_of_mem _ (List.mem_append_left _ hmem))

theorem decodes_compact (hs : s.Storable) (hr : ReadsBack [s])
    (hd : s.toJson.depth ≤ Document.maxDepth) : Decodes s.toJson.compact s.withoutNulls :=
  decodes_iff.2 ⟨_, parse?_compact (readBack_tokens hs hr) hd,
    StoredSnapshot.read_toJson (hr.times s List.mem_cons_self) hs⟩

theorem nesting_compact (hs : s.Storable) (hr : ReadsBack [s]) :
    Document.nesting s.toJson.compact = Token.nesting 0 s.toJson.tokens := by
  rw [Document.nesting, lex?_compact (readBack_tokens hs hr), Option.elim_some]

/-- **All ways to load a store agree.** Texts that are records of snapshots, none of them nested too
deep for the array around it, are loaded as the store of the snapshots in memory, whether they stand
in a file as an array, with white space anywhere between its tokens, or each in a file of a
directory, in the order of the names of these, beside files that are no snapshot files, in whatever
order all of them are listed. The last snapshot of a signal is found, or none if there is none, what
is found is a snapshot of that signal, and there are as many snapshots as signals. Where a snapshot
file of a directory has a text that is no record, no store results, and of all such files the one
with the least name is named, if the snapshot files in front of it could be read as texts. -/
theorem loading_agrees (texts : List String) (snapshots : List StoredSnapshot)
    (hdecodes : List.Forall₂ Decodes texts snapshots)
    (hnesting : ∀ text ∈ texts, Document.nesting text ≤ 126) :
    let store := ofList snapshots
    (∀ path body, lex? body.toList = lex? (Document.arrayText texts).toList →
        (ofLocated path (.file (.ok body))).1 = .ok store) ∧
      (∀ path files stems others, Holds files texts stems others →
        (ofLocated path (.directory files)).1 = .ok store) ∧
      (∀ id, (SignalStore.ofSnapshots store).find? id = .ok (lastOf snapshots id)) ∧
      (∀ id s, lastOf snapshots id = some s → s.signalId = id) ∧
      store.length = (snapshots.map StoredSnapshot.signalId).toFinset.card ∧
      ∀ path files, (files.map Prod.fst).Nodup → (∃ name, IsMalformed files name) →
        (∀ other, (ofLocated path (.directory files)).1 ≠ .ok other) ∧
          ∃ name, IsMalformed files name ∧ (∀ name', IsMalformed files name' → ¬ name' < name) ∧
            ((∀ f ∈ files, IsSnapshotName f.1 → f.1 < name → ∃ text, f.2 = .ok text) →
              (ofLocated path (.directory files)).1 =
                .error (.malformed (FilePath.join path name))) := by
  intro store
  refine ⟨fun path body hbody => ?_, fun path files stems others hfiles => ?_, fun id => ?_,
    fun id s hlast => ?_, length_ofList snapshots,
    fun path files hdistinct hbad => ⟨fun other => ?_, ?_⟩⟩
  · rw [ofLocated_eq, read, readArray_of_decodes hdecodes hnesting hbody path]
    rfl
  · rw [ofLocated_eq, read, hfiles.readFiles hdecodes path]
    rfl
  · exact congrArg Except.ok (get?_ofList snapshots id)
  · exact beq_iff_eq.1 (List.find?_eq_some_iff_append.1 hlast).1
  · obtain ⟨name, hname⟩ := hbad
    rw [ofLocated_eq, read]
    cases hread : (readFiles path (snapshotFiles files)).1 with
    | error e => exact fun h => by cases h
    | ok read => exact absurd hread (readFiles_ne_ok hdistinct hname path read)
  · obtain ⟨name, hname, hfirst, hread⟩ := readFiles_of_malformed hdistinct hbad path
    refine ⟨name, hname, hfirst, fun htexts => ?_⟩
    rw [ofLocated_eq, read, hread htexts]
    rfl

/-- Two records of a signal are loaded from an array and from a directory, which lists them in
another order and beside another file. The last one is found. With an empty text in its place there
is no store. -/
theorem loading_agrees_repeated :
    let first := nullInput.toJson.compact
    let second := (Fixture.snapshot "sig-1").toJson.compact
    let store := ofList [nullInput.withoutNulls, Fixture.snapshot "sig-1"]
    let files := [("notes.txt", .ok ""), ("b.json", .ok second), ("a.json", .ok first)]
    List.Forall₂ Decodes [first, second] [nullInput.withoutNulls, Fixture.snapshot "sig-1"] ∧
      (∀ text ∈ [first, second], Document.nesting text ≤ 126) ∧
      (ofLocated "all.json" (.file (.ok (Document.arrayText [first, second])))).1 = .ok store ∧
      Holds files [first, second] ["a", "b"] [("notes.txt", .ok "")] ∧
      (ofLocated "store" (.directory files)).1 = .ok store ∧
      (SignalStore.ofSnapshots store).find? "sig-1" = .ok (some (Fixture.snapshot "sig-1")) ∧
      store.length = 1 ∧
      (ofLocated "store" (.directory [("b.json", .ok ""), ("a.json", .ok first)])).1 =
        .error (.malformed (FilePath.join "store" "b.json")) := by
  intro first second store files
  have hfixture : ReadsBack [Fixture.snapshot "sig-1"] := by
    refine readsBack_of_floats [72.5, 0.81] (List.forall_mem_singleton.2 (timed_fixture _)) ?_ ?_
    · decide +kernel
    · simp only [List.forall_mem_cons]
      exact ⟨⟨⟨false, ['7', '2'], some ['5'], none⟩, rfl, rfl⟩,
        ⟨⟨false, ['0'], some ['8', '1'], none⟩, rfl, rfl⟩, List.forall_mem_nil _⟩
  have hfirst : Decodes first nullInput.withoutNulls :=
    decodes_compact storable_nullInput readsBack_nullInput (by decide +kernel)
  have hsecond : Decodes second (Fixture.snapshot "sig-1") :=
    decodes_compact (storable_fixture _) hfixture (by decide +kernel)
  have hdecodes : List.Forall₂ Decodes [first, second]
      [nullInput.withoutNulls, Fixture.snapshot "sig-1"] := .cons hfirst (.cons hsecond .nil)
  have hnesting : ∀ text ∈ [first, second], Document.nesting text ≤ 126 := by
    simp only [List.forall_mem_cons, first, second]
    rw [nesting_compact storable_nullInput readsBack_nullInput,
      nesting_compact (storable_fixture _) hfixture]
    exact ⟨by decide +kernel, by decide +kernel, List.forall_mem_nil _⟩
  -- only what the texts are records of counts from here on
  clear_value first second
  have hholds : Holds files [first, second] ["a", "b"] [("notes.txt", .ok "")] :=
    { paired := rfl
      named := by decide
      ascending := by decide
      beside := List.forall_mem_singleton.2 (mt isSome_stem?_iff.2 (by decide))
      listed := (List.reverse_perm files).symm }
  obtain ⟨harray, hdirectory, hlast, -, hlength, hmalformed⟩ :=
    loading_agrees [first, second] _ hdecodes hnesting
  refine ⟨hdecodes, hnesting, harray _ _ rfl, hholds, hdirectory _ _ _ _ hholds, hlast "sig-1",
    hlength, ?_⟩
  have hempty : ∀ s, ¬ Decodes "" s := by
    intro s hs
    obtain ⟨d, hparse, -⟩ := decodes_iff.1 hs
    rw [Document.parse?, String.toList_empty, lex?] at hparse
    cases hparse
  have hnamed : ∀ name, IsMalformed [("b.json", .ok ""), ("a.json", .ok first)] name →
      name = "b.json" := by
    rintro name ⟨-, text, hmem, hbad⟩
    rcases List.mem_cons.1 hmem with heq | hmem
    · exact congrArg Prod.fst heq
    · cases List.mem_singleton.1 hmem
      exact absurd hfirst (hbad _)
  have hdistinct : ["b.json", "a.json"].Nodup := by decide
  obtain ⟨-, name, hname, -, herror⟩ := hmalformed "store"
    [("b.json", .ok ""), ("a.json", .ok first)] hdistinct
    ⟨"b.json", ⟨"b", by decide, rfl⟩, "", List.mem_cons_self, hempty⟩
  rw [herror (by simp), hnamed name hname]

end Snapshots
end SignalPipeline
