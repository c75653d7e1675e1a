import Mathlib.Data.List.Chain
import Mathlib.Logic.Relation
import SignalPipeline.Graph.Cycle
import SignalPipeline.Graph.OrderLemmas

/-!
# Orders and cycles

Vertices with distinct ids either have a stable order or a cycle, never both.

* `IsCycle`: a closed walk along a relation.
* `IsCycle.transGen_of_mem`: whoever stands on a cycle gets back to where it started.
* `Vertex.Needs`: the relation of needs, as far as vertices have the ids.
* `Vertex.Respected.acyclic`: where there is an order, no walk along needs comes back.
* `Vertex.Waiting.Stuck`: the vertices that are left over; each of them needs one of them.
* `Vertex.exists_findCycle?_of_left`, `Vertex.exists_findCycle?`: from what is left over, and so
  where no order is found, the search finds a cycle.
-/

namespace SignalPipeline

/-- A closed walk along a relation: at least two entries, the first one again at the end, and no
other repetition. -/
inductive IsCycle {α : Type} (R : α → α → Prop) : List α → Prop
  | closed (a : α) (rest : List α) (distinct : (a :: rest).Nodup)
      (follows : List.IsChain R (a :: rest ++ [a])) : IsCycle R (a :: rest ++ [a])

/-- Where each entry of a list is followed by the next, a walk leads from the first to the last. -/
theorem transGen_of_isChain {α : Type} {R : α → α → Prop} {a b : α} {inner : List α}
    (h : List.IsChain R (a :: inner ++ [b])) : Relation.TransGen R a b := by
  induction inner generalizing a with
  | nil => exact .single (List.isChain_pair.1 h)
  | cons c inner ih =>
    obtain ⟨hac, h⟩ := List.isChain_cons_cons.1 h
    exact .head hac (ih h)

namespace IsCycle

variable {α : Type} {R : α → α → Prop} {path : List α}

/-- Whoever stands on a cycle gets back to where it started. -/
theorem transGen_of_mem (h : IsCycle R path) {x : α} (hx : x ∈ path) :
    Relation.TransGen R x x := by
  obtain ⟨a, rest, -, follows⟩ := h
  have hround := transGen_of_isChain follows
  simp only [List.mem_append, List.mem_cons, List.not_mem_nil, or_false] at hx
  rcases hx with (rfl | hx) | rfl
  · exact hround
  · -- around the cycle from `x` to its end, where it begins, and on to `x`
    obtain ⟨front, back, rfl⟩ := List.append_of_mem hx
    have hto : List.IsChain R ((a :: front ++ [x]) ++ (back ++ [a])) := by simpa using follows
    have hfrom : List.IsChain R ((a :: front) ++ (x :: back ++ [a])) := by simpa using follows
    exact (transGen_of_isChain hfrom.right_of_append).trans (transGen_of_isChain hto.left_of_append)
  · exact hround

theorem transGen (h : IsCycle R path) : ∃ a, Relation.TransGen R a a := by
  obtain ⟨a, rest, distinct, follows⟩ := h
  exact ⟨a, transGen_of_isChain follows⟩

end IsCycle

namespace Vertex

/-- A vertex needs an id that some vertex has. -/
def Needs (vs : List Vertex) (a b : String) : Prop :=
  ∃ v ∈ vs, v.id = a ∧ b ∈ v.needs ∧ b ∈ vs.map Vertex.id

/-- No walk along needs comes back to where it started. -/
def Acyclic (vs : List Vertex) : Prop :=
  ∀ id, ¬ Relation.TransGen (Needs vs) id id

variable {vs : List Vertex} {order ids : List String}

/-! ## An order has no cycle -/

/-- Every need of what is in order stands in front of it. -/
theorem Respected.need_in_front (ho : Respected vs order) {a b : String} (ha : a ∈ order)
    (h : Needs vs a b) : b ∈ order ∧ order.idxOf b < order.idxOf a := by
  obtain ⟨v, hv, rfl, hb, hd⟩ := h
  obtain ⟨before, after, hsplit, hn⟩ := List.eq_append_cons_of_mem ha
  have hbefore : b ∈ before := ho v hv before after hsplit b hb hd
  rw [hsplit, List.idxOf_append, List.idxOf_append, if_pos hbefore, if_neg hn]
  have := List.idxOf_lt_length_of_mem hbefore
  exact ⟨List.mem_append_left _ hbefore, by omega⟩

/-- A walk along needs from what is in order stays in order and goes towards the front. -/
theorem Respected.walk_in_front (ho : Respected vs order) {a b : String} (ha : a ∈ order)
    (h : Relation.TransGen (Needs vs) a b) : b ∈ order ∧ order.idxOf b < order.idxOf a := by
  induction h with
  | single h => exact ho.need_in_front ha h
  | tail _ h ih =>
    obtain ⟨hmem, hlt⟩ := ih
    obtain ⟨hmem', hlt'⟩ := ho.need_in_front hmem h
    exact ⟨hmem', Nat.lt_trans hlt' hlt⟩

/-- Vertices in order have no cycle. -/
theorem Respected.acyclic (ho : Respected vs order) (hp : order.Perm (vs.map Vertex.id)) :
    Acyclic vs := by
  intro id hid
  obtain ⟨b, ⟨v, hv, hid', -⟩, -⟩ := Relation.TransGen.head'_iff.1 hid
  have hmem : id ∈ order := hp.mem_iff.2 (hid' ▸ List.mem_map_of_mem hv)
  exact Nat.lt_irrefl _ (ho.walk_in_front hmem hid).2

namespace Waiting

/-! ## What is left over -/

variable {declared taken trail : List String} {left unseen : List Waiting} {v : Waiting}
  {id : String}

/-- Of the vertices that are drained those are left whose needs are still to come: they keep their
needs and their counters, and none of them is ready. -/
theorem Counted.left_over (hc : Counted declared taken left) :
    Counted declared (taken ++ (Waiting.drain left).1) (Waiting.drain left).2 ∧
      (∀ v ∈ (Waiting.drain left).2, v.isReady = false) ∧
      ∀ v ∈ (Waiting.drain left).2, v.toVertex ∈ left.map Waiting.toVertex := by
  fun_induction Waiting.drain left generalizing taken with
  | case1 left hf =>
    rw [List.append_nil]
    exact ⟨hc, fun v hv => by simpa using List.find?_eq_none.1 hf v hv,
      fun v hv => List.mem_map_of_mem hv⟩
  | case2 left v hf order rest heq ih =>
    obtain ⟨hcount, hready, hkept⟩ := ih (hc.settle hf)
    rw [heq] at hcount hready hkept
    rw [List.append_assoc] at hcount
    refine ⟨hcount, hready, fun w hw => ?_⟩
    obtain ⟨u, hu, he⟩ := List.mem_map.1 (hkept w hw)
    obtain ⟨x, hx, rfl⟩ := List.mem_map.1 hu
    rw [← he]
    exact List.mem_map.2 ⟨x, List.mem_of_mem_eraseP hx, rfl⟩

/-- Vertices with distinct ids that wait for each other. -/
structure Stuck (left : List Waiting) : Prop where
  distinct : (left.map fun v => v.id).Nodup
  answers : ∀ v ∈ left, v.answers = true
  /-- Every vertex needs one of them. -/
  waits : ∀ v ∈ left, ∃ d ∈ v.needs, d ∈ left.map fun v => v.id

theorem Stuck.answered_iff (hs : Stuck left) :
    answered left id = true ↔ id ∈ left.map fun v => v.id := by
  simp only [answered, List.any_eq_true, Bool.and_eq_true, beq_iff_eq, List.mem_map]
  exact ⟨fun ⟨v, hv, _, h⟩ => ⟨v, hv, h⟩, fun ⟨v, hv, h⟩ => ⟨v, hv, hs.answers v hv, h⟩⟩

/-- What is left over of all vertices waits for each other. -/
theorem Counted.stuck (hc : Counted declared [] left)
    (hall : ∀ d ∈ declared, d ∈ left.map fun v => v.id) : Stuck (Waiting.drain left).2 := by
  obtain ⟨hcount, hready, -⟩ := hc.left_over
  rw [List.nil_append] at hcount
  refine ⟨hcount.distinct, hcount.answers, fun v hv => ?_⟩
  have hpos : 0 < v.needs.countP fun d =>
      declared.contains d && !(Waiting.drain left).1.contains d := by
    rw [← hcount.pending v hv, Nat.pos_iff_ne_zero]
    exact fun h => Bool.false_ne_true ((hready v hv).symm.trans (beq_iff_eq.2 h))
  obtain ⟨d, hd, hopen⟩ := List.countP_pos_iff.1 hpos
  simp only [Bool.and_eq_true, List.contains_iff_mem, Bool.not_eq_true', ← Bool.not_eq_true]
    at hopen
  refine ⟨d, hd, ?_⟩
  rcases List.mem_append.1 (hc.drain.1.mem_iff.2 (hall d hopen.1)) with h | h
  · exact absurd h hopen.2
  · exact h

/-! ## The search for a cycle -/

/-- The state of a search: `unseen` are the vertices that the walk has not come to. -/
structure Searched (left unseen : List Waiting) (trail : List String) : Prop where
  distinct : (unseen.map fun v => v.id).Nodup
  kept : ∀ v ∈ unseen, v ∈ left ∧ v.id ∉ trail
  whole : ∀ v ∈ left, v ∈ unseen ∨ v.id ∈ trail

theorem Searched.visit (h : Searched left unseen trail) (hf : unseen.find? (named id) = some v) :
    Searched left (unseen.eraseP (named id)) (trail ++ [id]) := by
  obtain ⟨hn, before, after, rfl, hb⟩ := List.find?_eq_some_iff_append.1 hf
  obtain rfl : v.id = id := beq_iff_eq.1 hn
  have he : (before ++ v :: after).eraseP (named v.id) = before ++ after := by
    rw [List.eraseP_append_right _ (by simpa using hb), List.eraseP_cons_of_pos hn]
  have hother := ne_of_distinct h.distinct
  rw [he]
  refine ⟨?_, fun w hw => ?_, fun w hw => ?_⟩
  · have hd := h.distinct
    rw [List.map_append, List.map_cons, List.perm_middle.nodup_iff, ← List.map_append] at hd
    exact (List.nodup_cons.1 hd).2
  · obtain ⟨hl, ht⟩ := h.kept w (mem_middle.2 (.inr hw))
    simp only [List.mem_append, List.mem_singleton, not_or]
    exact ⟨hl, ht, hother w hw⟩
  · rcases h.whole w hw with h | h
    · rcases mem_middle.1 h with rfl | h
      · exact .inr (by simp)
      · exact .inl h
    · exact .inr (List.mem_append_left _ h)

/-- A walk along needs of vertices that wait for each other comes back to itself. -/
theorem Stuck.exists_walk (hs : Stuck left) {R : String → String → Prop}
    (hR : ∀ v ∈ left, ∀ d ∈ v.needs, answered left d = true → R v.id d)
    (hu : Searched left unseen trail) (hid : answered left id = true) (ht : trail.Nodup)
    (hc : List.IsChain R (trail ++ [id])) :
    ∃ path, walk left unseen trail id = some path ∧ IsCycle R path := by
  fun_induction walk left unseen trail id with
  | case1 unseen trail id hf hmem =>
    -- the walk has come to the id before: the cycle begins there
    obtain ⟨front, back, rfl, hfresh⟩ := List.eq_append_cons_of_mem (List.contains_iff_mem.1 hmem)
    have hdrop : (front ++ id :: back).dropWhile (· != id) = id :: back := by
      rw [List.dropWhile_append_of_pos fun a ha => bne_iff_ne.2 (ne_of_mem_of_not_mem ha hfresh)]
      simp
    rw [hdrop]
    rw [List.append_assoc] at hc
    exact ⟨_, rfl, .closed id back (List.nodup_append.1 ht).2.1 hc.right_of_append⟩
  | case2 unseen trail id hf hmem =>
    obtain ⟨v, hv, rfl⟩ := List.mem_map.1 (hs.answered_iff.1 hid)
    rcases hu.whole v hv with h | h
    · exact absurd (beq_self_eq_true v.id) (List.find?_eq_none.1 hf v h)
    · exact absurd (List.contains_iff_mem.2 h) hmem
  | case3 unseen trail id v hf hnone =>
    obtain ⟨d, hd, hmem⟩ := hs.waits v (hu.kept v (List.mem_of_find?_eq_some hf)).1
    exact absurd (hs.answered_iff.2 hmem) (List.find?_eq_none.1 hnone d hd)
  | case4 unseen trail id v hf next hnext ih =>
    obtain ⟨hv, hfresh⟩ := hu.kept v (List.mem_of_find?_eq_some hf)
    have hn := List.find?_some hf
    obtain rfl : v.id = id := beq_iff_eq.1 hn
    have hans := List.find?_some hnext
    refine ih (hu.visit hf) hans ?_ ?_
    · refine List.nodup_append.2 ⟨ht, List.pairwise_singleton _ _, fun a ha b hb hab => hfresh ?_⟩
      rwa [← List.mem_singleton.1 hb, ← hab]
    · refine List.isChain_append.2 ⟨hc, List.isChain_singleton _, ?_⟩
      simpa using hR v hv next (List.mem_of_find?_eq_some hnext) hans

end Waiting

/-- From a start id that is left over the search finds a cycle. -/
theorem exists_findCycle?_of_left (hd : (vs.map Vertex.id).Nodup) {start : String}
    (hstart : start ∈ ids) (hleft : start ∈ (stableOrder vs).2.map fun v => v.id) :
    ∃ path, findCycle? vs ids = some path ∧ IsCycle (Needs vs) path := by
  have hc := await_counted hd (vs.map Vertex.id) fun v hv => List.mem_map_of_mem hv
  have hs := hc.stuck fun d hd => by rwa [await_ids]
  have hkept := hc.left_over.2.2
  rw [await_toVertex] at hkept
  unfold findCycle?
  unfold stableOrder at hleft ⊢
  generalize (Waiting.drain (await (vs.map Vertex.id) vs)).2 = left at hleft hs hkept
  dsimp only
  rw [List.filter_eq_self.2 hs.answers]
  obtain ⟨first, hfirst⟩ : ∃ first, ids.find? (Waiting.answered left) = some first :=
    Option.isSome_iff_exists.1 (List.find?_isSome.2 ⟨start, hstart, hs.answered_iff.2 hleft⟩)
  rw [hfirst]
  refine hs.exists_walk (fun w hw d hd hans => ?_) ⟨hs.distinct, by simp, by simp +contextual⟩
    (List.find?_some hfirst) List.nodup_nil (List.isChain_singleton _)
  obtain ⟨u, hu, rfl⟩ := List.mem_map.1 (hs.answered_iff.1 hans)
  exact ⟨w.toVertex, hkept w hw, rfl, hd, List.mem_map_of_mem (hkept u hu)⟩

/-- **A cycle is found.** Where no order is found, the search that starts at the ids left over finds
a cycle. -/
theorem exists_findCycle? (hd : (vs.map Vertex.id).Nodup) (h : stableOrder? vs = .error ids) :
    ∃ path, findCycle? vs ids = some path ∧ IsCycle (Needs vs) path := by
  rw [stableOrder?_eq] at h
  split at h
  · cases h
  · next hne =>
    cases h
    obtain ⟨v, hv⟩ := List.exists_mem_of_ne_nil (stableOrder vs).2 (by simpa using hne)
    have hleft := List.mem_map_of_mem (f := fun v : Waiting => v.id) hv
    exact exists_findCycle?_of_left hd hleft hleft

end Vertex
end SignalPipeline
