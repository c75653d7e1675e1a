import SignalPipeline.Graph.Order

/-!
# What a stable order is

Every vertex of a stable order stands behind everything that it needs, and no vertex is lost or
listed twice.

* `Vertex.Respected`: an order in which ids stand behind what their vertices need.
* `Vertex.Waiting.Counted`: each vertex on its way into the order counts the occurrences of needs
  that are still to come. Taking a vertex keeps that (`Counted.settle`), so a drained list is in
  order (`Counted.drain`).
* `stableOrder_respected`: the order is respected as far as it goes, and loses no vertex.
* `stableOrder?_ok`: an order that is found is respected and lists each id once.
-/

namespace SignalPipeline

/-- A count under a condition that one more element meets. -/
theorem countP_eq_add_count {α : Type} [BEq α] [LawfulBEq α] {p q : α → Bool} {x : α}
    (h : ∀ d, p d = (q d || d == x)) (hx : q x = false) (ds : List α) :
    ds.countP p = ds.countP q + ds.count x := by
  induction ds with
  | nil => rfl
  | cons d ds ih =>
    rw [List.countP_cons, List.countP_cons, List.count_cons, ih, h d]
    by_cases hd : d = x
    · subst hd; rw [hx]; simp; omega
    · rw [beq_false_of_ne hd]; simp; omega

/-- A split of a list with one more element: at that element, or before it. -/
theorem split_snoc {α : Type} {xs before after : List α} {x y : α}
    (h : xs ++ [x] = before ++ y :: after) :
    (before = xs ∧ y = x) ∨ ∃ rest, xs = before ++ y :: rest := by
  rcases List.eq_nil_or_concat after with rfl | ⟨rest, z, rfl⟩
  · obtain ⟨h1, h2⟩ := List.append_inj' h rfl
    exact .inl ⟨h1.symm, (List.singleton_inj.1 h2).symm⟩
  · rw [List.concat_eq_append, ← List.cons_append, ← List.append_assoc] at h
    exact .inr ⟨rest, (List.append_inj' h rfl).1⟩

namespace Vertex

/-- Every id stands behind the ids that its vertex needs, as far as some vertex has them. -/
def Respected (vs : List Vertex) (order : List String) : Prop :=
  ∀ v ∈ vs, ∀ before after, order = before ++ v.id :: after →
    ∀ d ∈ v.needs, d ∈ vs.map Vertex.id → d ∈ before

namespace Waiting

/-- The counters of vertices with distinct ids after some ids were taken: each counts the
occurrences of declared needs that were not taken. -/
structure Counted (declared taken : List String) (left : List Waiting) : Prop where
  distinct : (left.map fun v => v.id).Nodup
  untaken : ∀ v ∈ left, v.id ∈ declared ∧ v.id ∉ taken
  answers : ∀ v ∈ left, v.answers = true
  pending : ∀ v ∈ left,
    v.pending = v.needs.countP fun d => declared.contains d && !taken.contains d

theorem map_settle_id (taken : Waiting) (vs : List Waiting) :
    (vs.map (settle taken)).map (fun v => v.id) = vs.map fun v => v.id := by
  rw [List.map_map]; rfl

variable {declared taken : List String} {left : List Waiting} {v : Waiting}

theorem mem_middle {w : Waiting} {front back : List Waiting} :
    w ∈ front ++ v :: back ↔ w = v ∨ w ∈ front ++ back := by
  rw [List.perm_middle.mem_iff, List.mem_cons]

theorem ne_of_distinct {front back : List Waiting}
    (hd : ((front ++ v :: back).map fun v => v.id).Nodup) : ∀ w ∈ front ++ back, w.id ≠ v.id := by
  intro w hw heq
  rw [List.map_append, List.map_cons, List.perm_middle.nodup_iff, List.nodup_cons,
    ← List.map_append] at hd
  exact hd.1 (heq ▸ List.mem_map_of_mem hw)

/-- A ready vertex needs nothing that is declared and was not taken. -/
theorem Counted.needs_taken (hc : Counted declared taken left) (hv : v ∈ left)
    (hr : v.isReady = true) : ∀ d ∈ v.needs, d ∈ declared → d ∈ taken := by
  intro d hd hm
  have h0 := hc.pending v hv
  rw [beq_iff_eq.1 hr] at h0
  have := List.countP_eq_zero.1 h0.symm d hd
  simpa [hm] using this

/-- Taking a vertex keeps the counters right. -/
theorem Counted.settle (hc : Counted declared taken left) (hf : left.find? isReady = some v) :
    Counted declared (taken ++ [v.id]) ((left.eraseP isReady).map (settle v)) := by
  obtain ⟨hr, before, after, rfl, hb⟩ := List.find?_eq_some_iff_append.1 hf
  have he : (before ++ v :: after).eraseP isReady = before ++ after := by
    rw [List.eraseP_append_right _ (by simpa using hb), List.eraseP_cons_of_pos hr]
  have hsub : ∀ w ∈ before ++ after, w ∈ before ++ v :: after := by
    exact fun w hw => mem_middle.2 (.inr hw)
  have hd := hc.distinct
  rw [List.map_append, List.map_cons] at hd
  have hne := ne_of_distinct hc.distinct
  rw [he]
  refine ⟨?_, ?_, ?_, ?_⟩
  · rw [map_settle_id, List.map_append]
    exact (List.nodup_cons.1 (List.perm_middle.nodup_iff.1 hd)).2
  · intro w hw
    obtain ⟨w, hm, rfl⟩ := List.mem_map.1 hw
    obtain ⟨h1, h2⟩ := hc.untaken w (hsub w hm)
    refine ⟨h1, ?_⟩
    simp only [List.mem_append, List.mem_singleton, not_or]
    exact ⟨h2, hne w hm⟩
  · intro w hw
    obtain ⟨w, hm, rfl⟩ := List.mem_map.1 hw
    exact hc.answers w (hsub w hm)
  · intro w hw
    obtain ⟨w, hm, rfl⟩ := List.mem_map.1 hw
    obtain ⟨h1, h2⟩ := hc.untaken v (by simp)
    have hp := hc.pending w (hsub w hm)
    rw [countP_eq_add_count (q := fun d => declared.contains d && !(taken ++ [v.id]).contains d)
      (x := v.id) _ (by simp)] at hp
    · simp only [Waiting.settle, hc.answers v (by simp), if_true]
      omega
    · intro d
      by_cases hd : d = v.id
      · subst hd; simp [h1, h2]
      · simp [hd]

/-- What is drained: the ids of all vertices, each either in the order or left, and in the order
behind everything that its vertex needs. -/
theorem Counted.drain (hc : Counted declared taken left) :
    ((drain left).1 ++ (drain left).2.map fun v => v.id).Perm (left.map fun v => v.id) ∧
      ∀ v ∈ left, ∀ before after, (drain left).1 = before ++ v.id :: after →
        ∀ d ∈ v.needs, d ∈ declared → d ∈ taken ++ before := by
  fun_induction Waiting.drain left generalizing taken with
  | case1 left hf => exact ⟨.refl _, fun v hv before after h => by simp at h⟩
  | case2 left v hf order rest heq ih =>
    obtain ⟨hr, front, back, rfl, hb⟩ := List.find?_eq_some_iff_append.1 hf
    obtain ⟨hp, ho⟩ := ih (hc.settle hf)
    rw [heq] at hp ho
    have he : (front ++ v :: back).eraseP isReady = front ++ back := by
      rw [List.eraseP_append_right _ (by simpa using hb), List.eraseP_cons_of_pos hr]
    rw [map_settle_id, he, List.map_append] at hp
    refine ⟨?_, ?_⟩
    · rw [List.map_append, List.map_cons]
      exact (hp.cons v.id).trans List.perm_middle.symm
    · intro w hw before after h d hd hm
      rcases before with _ | ⟨u, before⟩
      · obtain ⟨hid, -⟩ := List.cons.inj h
        have hwv : w = v := by
          rcases mem_middle.1 hw with rfl | hw
          · rfl
          · exact absurd hid.symm (ne_of_distinct hc.distinct w hw)
        subst hwv
        exact List.mem_append_left _ (hc.needs_taken hw hr d hd hm)
      · obtain ⟨rfl, ht⟩ := List.cons.inj h
        rcases mem_middle.1 hw with rfl | hw
        · have hmem : w.id ∈ (front ++ back).map fun v => v.id := by
            rw [List.map_append]
            exact hp.mem_iff.1 (List.mem_append_left _ (ht ▸ by simp))
          obtain ⟨x, hx, hid⟩ := List.mem_map.1 hmem
          exact absurd hid (ne_of_distinct hc.distinct x hx)
        · have := ho (Waiting.settle v w) (he ▸ List.mem_map_of_mem hw) before after ht d hd hm
          rwa [List.append_assoc] at this

end Waiting

theorem await_toVertex (declared : List String) (vs : List Vertex) :
    (await declared vs).map Waiting.toVertex = vs := by
  induction vs with
  | nil => rfl
  | cons v vs ih => rw [await, List.map_cons, ih]

theorem await_ids (declared : List String) (vs : List Vertex) :
    (await declared vs).map (fun v => v.id) = vs.map Vertex.id := by
  have h := congrArg (List.map Vertex.id) (await_toVertex declared vs)
  rwa [List.map_map] at h

/-- Before anything is taken the counters of vertices with distinct ids are right. -/
theorem await_counted {vs : List Vertex} (hd : (vs.map Vertex.id).Nodup) (declared : List String)
    (hm : ∀ v ∈ vs, v.id ∈ declared) : Waiting.Counted declared [] (await declared vs) := by
  have hv : ∀ w ∈ await declared vs, w.id ∈ declared ∧ w.answers = true ∧
      w.pending = w.needs.countP declared.contains := by
    induction vs with
    | nil => intro w hw; cases hw
    | cons v vs ih =>
      obtain ⟨hn, hd⟩ := List.nodup_cons.1 hd
      intro w hw
      rcases List.mem_cons.1 hw with rfl | hw
      · refine ⟨hm v (by simp), ?_, rfl⟩
        simp only [Bool.not_eq_true', List.any_eq_false, beq_iff_eq]
        exact fun u hu he => hn (he ▸ List.mem_map_of_mem hu)
      · exact ih hd (fun u hu => hm u (List.mem_cons_of_mem _ hu)) w hw
  refine ⟨by rwa [await_ids], fun w hw => ⟨(hv w hw).1, by simp⟩, fun w hw => (hv w hw).2.1, ?_⟩
  intro w hw
  rw [(hv w hw).2.2]
  congr 1
  funext d
  simp

end Vertex

/-- The stable order as far as it goes: each id is listed once, there or among what is left, and an
id stands behind what its vertex needs. -/
theorem stableOrder_respected {vs : List Vertex} (hd : (vs.map Vertex.id).Nodup) :
    ((stableOrder vs).1 ++ (stableOrder vs).2.map fun v => v.id).Perm (vs.map Vertex.id) ∧
      Vertex.Respected vs (stableOrder vs).1 := by
  have hc := Vertex.await_counted hd (vs.map Vertex.id) fun v hv => List.mem_map_of_mem hv
  obtain ⟨hp, ho⟩ := hc.drain
  rw [Vertex.await_ids] at hp
  refine ⟨hp, fun v hv before after heq d hn hm => ?_⟩
  rw [← Vertex.await_toVertex (vs.map Vertex.id) vs] at hv
  obtain ⟨w, hw, rfl⟩ := List.mem_map.1 hv
  exact ho w hw before after heq d hn hm

theorem stableOrder?_eq (vs : List Vertex) :
    stableOrder? vs = if (stableOrder vs).2.isEmpty then .ok (stableOrder vs).1
      else .error ((stableOrder vs).2.map fun v => v.id) := rfl

/-- A stable order of vertices with distinct ids lists each id once, behind what its vertex
needs. -/
theorem stableOrder?_ok {vs : List Vertex} {order : List String}
    (hd : (vs.map Vertex.id).Nodup) (h : stableOrder? vs = .ok order) :
    order.Perm (vs.map Vertex.id) ∧ Vertex.Respected vs order := by
  obtain ⟨hp, ho⟩ := stableOrder_respected hd
  rw [stableOrder?_eq] at h
  split at h
  · next he =>
    cases h
    rw [List.isEmpty_iff.1 he, List.map_nil, List.append_nil] at hp
    exact ⟨hp, ho⟩
  · cases h

end SignalPipeline
