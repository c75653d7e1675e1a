import Mathlib.Data.List.Find
import SignalPipeline.Proofs.Graph.Cycle
import SignalPipeline.Proofs.Graph.Occurrence

/-!
# Needs that change nothing

Vertices that need an id several times count it several times, and wait for it no longer than
vertices that need it once. Vertices that need an id that no vertex has do not wait for it at all.
Without such needs they are ready in the same states, so they have the same order, the same vertices
are left over, and the same cycle is found among them.

* `Vertex.Spares`: changes of needs that spare the first declared need of each kind.
* `Vertex.Waiting.Counted.drain_recount`: the states of changed vertices are the changed states.
* `Vertex.Spares.stableOrder?_map`, `Vertex.Spares.findCycle?_map`: orders and cycles of changed
  vertices.
* `Vertex.thin`, `Vertex.trim`: vertices with each need once, and with declared needs only.
-/

namespace SignalPipeline

/-- The first element with a property is a first occurrence. -/
theorem find?_firstOccurrences {α : Type} [BEq α] [LawfulBEq α] (p : α → Bool) (xs : List α) :
    (firstOccurrences xs).find? p = xs.find? p := by
  rw [← List.head?_filter, ← List.head?_filter, ← firstOccurrences_filter]
  cases xs.filter p <;> rfl

theorem eraseP_congr {α : Type} {p q : α → Bool} {xs : List α} (h : ∀ x ∈ xs, p x = q x) :
    xs.eraseP p = xs.eraseP q := by
  induction xs with
  | nil => rfl
  | cons x xs ih =>
    obtain ⟨hx, hxs⟩ := List.forall_mem_cons.1 h
    rw [List.eraseP_cons, List.eraseP_cons, hx, ih hxs]

namespace Vertex

/-- A change of the needs of vertices after which the first declared need of any kind is the same
as before. -/
structure Spares (declared : List String) (change : Vertex → Vertex) : Prop where
  id : ∀ v, (change v).id = v.id
  first : ∀ v (p : String → Bool), (∀ d, p d = true → d ∈ declared) →
    (change v).needs.find? p = v.needs.find? p

variable {declared taken : List String} {change : Vertex → Vertex} {vs : List Vertex}

theorem Spares.map_id (hs : Spares declared change) (vs : List Vertex) :
    (vs.map change).map Vertex.id = vs.map Vertex.id := by
  rw [List.map_map]
  exact List.map_congr_left fun v _ => hs.id v

namespace Waiting

variable {left unseen : List Waiting} {v : Waiting}

/-- A changed vertex on its way into the order, with the count of its own needs. -/
def recount (declared taken : List String) (change : Vertex → Vertex) (v : Waiting) : Waiting :=
  ⟨change v.toVertex, v.answers,
    (change v.toVertex).needs.countP fun d => declared.contains d && !taken.contains d⟩

theorem Counted.isReady_recount (hc : Counted declared taken left) (hs : Spares declared change)
    (hv : v ∈ left) : (recount declared taken change v).isReady = v.isReady := by
  -- a vertex is ready if no need is still to come, so if there is no first such need
  have hfirst := hs.first v.toVertex (fun d => declared.contains d && !taken.contains d)
    fun d hd => List.contains_iff_mem.1 (Bool.and_eq_true_iff.1 hd).1
  have hnone : ∀ (needs : List String) (p : String → Bool),
      needs.countP p = 0 ↔ needs.find? p = none := fun needs p => by
    rw [List.countP_eq_zero, List.find?_eq_none]
  rw [Bool.eq_iff_iff, isReady, isReady, beq_iff_eq, beq_iff_eq, hc.pending v hv, hnone, ← hfirst,
    ← hnone]
  rfl

/-- What is changed and taken next is what is taken next, changed. -/
theorem Counted.find?_recount (hc : Counted declared taken left) (hs : Spares declared change) :
    (left.map (recount declared taken change)).find? isReady =
      (left.find? isReady).map (recount declared taken change) := by
  rw [List.find?_map]
  congr 1
  exact List.find?_congr fun v hv => hc.isReady_recount hs hv

/-- Taking a vertex counts down in changed vertices as it does in the others. -/
theorem Counted.settle_recount (hc : Counted declared taken left) (hs : Spares declared change)
    (hv : v ∈ left) (w : Waiting) :
    Waiting.settle (recount declared taken change v) (recount declared taken change w) =
      recount declared (taken ++ [v.id]) change (Waiting.settle v w) := by
  obtain ⟨hm, hfresh⟩ := hc.untaken v hv
  have hcount := countP_eq_add_count (p := fun d => declared.contains d && !taken.contains d)
    (q := fun d => declared.contains d && !(taken ++ [v.id]).contains d) (x := v.id)
    (fun d => by by_cases hd : d = v.id <;> simp [hd, hm, hfresh]) (by simp)
    (change w.toVertex).needs
  simp only [Waiting.settle, recount, hs.id, hc.answers v hv, if_true, hcount]
  simp

theorem drain_of_find?_eq_none (h : left.find? isReady = none) : drain left = ([], left) := by
  rw [drain.eq_def]
  split
  · rfl
  · next w hw => cases h.symm.trans hw

theorem drain_of_find?_eq_some (h : left.find? isReady = some v) :
    drain left = (v.id :: (drain ((left.eraseP isReady).map (settle v))).1,
      (drain ((left.eraseP isReady).map (settle v))).2) := by
  rw [drain.eq_def]
  split
  · next hnone => cases h.symm.trans hnone
  · next w hw =>
    cases h.symm.trans hw
    rfl

/-- The states of changed vertices are the states of the vertices, changed. -/
theorem Counted.drain_recount (hc : Counted declared taken left) (hs : Spares declared change) :
    Waiting.drain (left.map (recount declared taken change)) = ((Waiting.drain left).1,
      (Waiting.drain left).2.map (recount declared (taken ++ (Waiting.drain left).1) change)) := by
  fun_induction Waiting.drain left generalizing taken with
  | case1 left hf =>
    rw [drain_of_find?_eq_none (by rw [hc.find?_recount hs, hf]; rfl), List.append_nil]
  | case2 left v hf order rest heq ih =>
    have hv := List.mem_of_find?_eq_some hf
    have hready : ∀ w ∈ left, (isReady ∘ recount declared taken change) w = w.isReady :=
      fun w hw => hc.isReady_recount hs hw
    have hleft : ((left.map (recount declared taken change)).eraseP isReady).map
        (Waiting.settle (recount declared taken change v)) =
          ((left.eraseP isReady).map (Waiting.settle v)).map
            (recount declared (taken ++ [v.id]) change) := by
      rw [List.eraseP_map, eraseP_congr hready, List.map_map, List.map_map]
      exact List.map_congr_left fun w _ => hc.settle_recount hs hv w
    have hid : (recount declared taken change v).id = v.id := hs.id v.toVertex
    have hrest := ih (hc.settle hf)
    rw [heq, ← hleft] at hrest
    rw [drain_of_find?_eq_some (by rw [hc.find?_recount hs, hf]; rfl), hrest, List.append_assoc,
      hid]
    rfl

/-! ## Cycles -/

theorem answered_recount (hs : Spares declared change) (left : List Waiting) :
    answered (left.map (recount declared taken change)) = answered left := by
  funext id
  rw [answered, List.any_map, answered]
  congr 1
  funext v
  rw [Function.comp_apply, recount, hs.id]

theorem walk_of_find?_eq_none {trail : List String} {id : String}
    (h : unseen.find? (named id) = none) : walk left unseen trail id =
      if trail.contains id then some (trail.dropWhile (· != id) ++ [id]) else none := by
  rw [walk.eq_def]
  split
  · rfl
  · next w hw => cases h.symm.trans hw

theorem walk_of_find?_eq_some {trail : List String} {id : String}
    (h : unseen.find? (named id) = some v) : walk left unseen trail id =
      (v.needs.find? (answered left)).bind
        (walk left (unseen.eraseP (named id)) (trail ++ [id])) := by
  rw [walk.eq_def]
  split
  · next hnone => cases h.symm.trans hnone
  · next w hw =>
    cases h.symm.trans hw
    cases v.needs.find? (answered left) <;> rfl

/-- A walk goes along first needs, and so the same way among changed vertices. -/
theorem walk_recount (hs : Spares declared change) {left : List Waiting}
    (hdeclared : ∀ d, answered left d = true → d ∈ declared) (unseen : List Waiting)
    (trail : List String) (id : String) :
    walk (left.map (recount declared taken change)) (unseen.map (recount declared taken change))
      trail id = walk left unseen trail id := by
  have hnamed : ∀ id, named id ∘ recount declared taken change = named id := by
    intro id
    funext v
    rw [Function.comp_apply, named, recount, hs.id, named]
  have hfind : ∀ (unseen : List Waiting) (id : String),
      (unseen.map (recount declared taken change)).find? (named id) =
        (unseen.find? (named id)).map (recount declared taken change) := by
    intro unseen id
    rw [List.find?_map, hnamed]
  have hnext : ∀ v : Waiting, (recount declared taken change v).needs.find?
      (answered (left.map (recount declared taken change))) = v.needs.find? (answered left) := by
    intro v
    rw [answered_recount hs]
    exact hs.first v.toVertex _ hdeclared
  fun_induction walk left unseen trail id with
  | case1 unseen trail id hf hmem =>
    rw [walk_of_find?_eq_none (by rw [hfind, hf]; rfl), if_pos hmem]
  | case2 unseen trail id hf hmem =>
    rw [walk_of_find?_eq_none (by rw [hfind, hf]; rfl), if_neg hmem]
  | case3 unseen trail id v hf hnone =>
    rw [walk_of_find?_eq_some (by rw [hfind, hf]; rfl), hnext, hnone]
    rfl
  | case4 unseen trail id v hf next hsome ih =>
    rw [walk_of_find?_eq_some (by rw [hfind, hf]; rfl), hnext, hsome, List.eraseP_map, hnamed]
    exact ih

end Waiting

/-! ## Changed vertices -/

/-- Before any vertex is taken changed vertices are the vertices, changed. -/
theorem Spares.await_map (hs : Spares declared change) (vs : List Vertex) :
    await declared (vs.map change) =
      (await declared vs).map (Waiting.recount declared [] change) := by
  have hopen : declared.contains = fun d => declared.contains d && !([] : List String).contains d :=
    funext fun d => by simp
  induction vs with
  | nil => rfl
  | cons v vs ih =>
    have hlast : (vs.map change).any (fun w => w.id == (change v).id) =
        vs.any fun w => w.id == v.id := by
      rw [List.any_map, hs.id]
      congr 1
      funext w
      rw [Function.comp_apply, hs.id]
    rw [List.map_cons, await, await, ih, hlast, hopen]
    rfl

theorem Spares.stableOrder_map (hs : Spares (vs.map Vertex.id) change)
    (hd : (vs.map Vertex.id).Nodup) :
    stableOrder (vs.map change) = ((stableOrder vs).1,
      (stableOrder vs).2.map (Waiting.recount (vs.map Vertex.id) (stableOrder vs).1 change)) := by
  have hc := await_counted hd (vs.map Vertex.id) fun v hv => List.mem_map_of_mem hv
  unfold stableOrder
  rw [hs.map_id, hs.await_map, hc.drain_recount hs, List.nil_append]

/-- Changed vertices have the same order, or the same ones are left over. -/
theorem Spares.stableOrder?_map (hs : Spares (vs.map Vertex.id) change)
    (hd : (vs.map Vertex.id).Nodup) : stableOrder? (vs.map change) = stableOrder? vs := by
  rw [stableOrder?_eq, stableOrder?_eq, hs.stableOrder_map hd, List.isEmpty_map, List.map_map]
  have hid : ∀ v : Waiting, (Waiting.recount (vs.map Vertex.id) (stableOrder vs).1 change v).id =
      v.id := fun v => hs.id v.toVertex
  simp only [Function.comp_def, hid]

/-- Among changed vertices the same cycle is found. -/
theorem Spares.findCycle?_map (hs : Spares (vs.map Vertex.id) change)
    (hd : (vs.map Vertex.id).Nodup) (starts : List String) :
    findCycle? (vs.map change) starts = findCycle? vs starts := by
  have hc := await_counted hd (vs.map Vertex.id) fun v hv => List.mem_map_of_mem hv
  have hleft := hc.left_over.1.untaken
  unfold findCycle?
  rw [hs.stableOrder_map hd, List.filter_map]
  unfold stableOrder
  generalize (Waiting.drain (await (vs.map Vertex.id) vs)).2 = left at hleft
  generalize (Waiting.drain (await (vs.map Vertex.id) vs)).1 = taken
  have hanswers : Waiting.answers ∘ Waiting.recount (vs.map Vertex.id) taken change =
      Waiting.answers := rfl
  have hdeclared : ∀ d, Waiting.answered (left.filter Waiting.answers) d = true →
      d ∈ vs.map Vertex.id := by
    intro d hd
    obtain ⟨v, hv, hid⟩ := List.any_eq_true.1 hd
    rw [Bool.and_eq_true, beq_iff_eq] at hid
    exact hid.2 ▸ (hleft v (List.mem_of_mem_filter hv)).1
  dsimp only
  rw [hanswers, Waiting.answered_recount hs]
  congr 1
  funext start
  exact Waiting.walk_recount hs hdeclared _ [] start

/-! ## Repeated needs -/

/-- A vertex with each need once. -/
def thin (v : Vertex) : Vertex :=
  { v with needs := firstOccurrences v.needs }

theorem spares_thin (declared : List String) : Spares declared thin where
  id := fun _ => rfl
  first := fun v p _ => find?_firstOccurrences p v.needs

/-- Vertices have the same order, or the same ones are left over, if each need is counted once. -/
theorem stableOrder?_thin (hd : (vs.map Vertex.id).Nodup) :
    stableOrder? (vs.map thin) = stableOrder? vs :=
  (spares_thin _).stableOrder?_map hd

/-- The same cycle is found if each need is counted once. -/
theorem findCycle?_thin (hd : (vs.map Vertex.id).Nodup) (starts : List String) :
    findCycle? (vs.map thin) starts = findCycle? vs starts :=
  (spares_thin _).findCycle?_map hd starts

/-! ## Undeclared needs -/

/-- A vertex that needs declared ids only. -/
def trim (declared : List String) (v : Vertex) : Vertex :=
  { v with needs := v.needs.filter declared.contains }

theorem spares_trim (declared : List String) : Spares declared (trim declared) where
  id := fun _ => rfl
  first := fun v p hp => by
    rw [trim, List.find?_filter]
    refine List.find?_congr fun d _ => ?_
    rw [Bool.eq_iff_iff, decide_eq_true_eq]
    exact and_iff_right_of_imp fun hd => List.contains_iff_mem.2 (hp d hd)

end Vertex
end SignalPipeline
