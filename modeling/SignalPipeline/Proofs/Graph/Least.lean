import Mathlib.Data.Fintype.Order
import Mathlib.Data.Set.Finite.List
import SignalPipeline.Fixture
import SignalPipeline.Proofs.Graph.Cycle

/-!
# The stable order is the least one

Taking the first ready vertex again and again finds an order whenever there is one, and of all
orders the one that is least by declared places. What is left over when no vertex is ready are the
vertices from which needs lead to a cycle.

* `Vertex.Orders`: the lists of all ids in which each stands behind what its vertex needs.
* `Vertex.Waiting.Draining`: the states that vertices go through; in each of them a counter is the
  number of occurrences of needs that are still to come (`Draining.counted`), also for what was
  taken (`Draining.closed`).
* `Vertex.Waiting.Counted.drain_least`: no order begins with less.
* `exists_cycle_of_forall_exists`: where everything is followed by something, all of it leads to a
  cycle.
* `stableOrder?_least`: what the stable order is, and what stands in its place where there is none.
-/

namespace SignalPipeline

/-! ## Least lists and cycles -/

/-- No permutation of an ascending list comes before it. -/
theorem not_lex_of_ascending {xs ys : List Nat} (hx : xs.Pairwise (· < ·)) (h : ys.Perm xs) :
    ¬ List.Lex (· < ·) ys xs := by
  intro hlex
  induction hlex with
  | nil => simpa using h.length_eq
  | rel hlt =>
    have := (List.pairwise_cons.1 hx).1 _
      ((List.mem_cons.1 (h.subset List.mem_cons_self)).resolve_left (Nat.ne_of_lt hlt))
    omega
  | cons _ ih => exact ih (List.pairwise_cons.1 hx).2 ((List.perm_cons _).1 h)

/-- Taking the element that is found out of a list leaves the others. -/
theorem perm_cons_eraseP {α : Type} {p : α → Bool} {xs : List α} {x : α}
    (h : xs.find? p = some x) : xs.Perm (x :: xs.eraseP p) := by
  obtain ⟨hx, front, back, rfl, hfront⟩ := List.find?_eq_some_iff_append.1 h
  rw [List.eraseP_append_right _ (by simpa using hfront), List.eraseP_cons_of_pos hx]
  exact List.perm_middle

/-- Where each of finitely many elements is followed by one of them, each leads to a cycle. -/
theorem exists_cycle_of_forall_exists {α : Type} {R : α → α → Prop} {xs : List α}
    (h : ∀ a ∈ xs, ∃ b ∈ xs, R a b) {a : α} (ha : a ∈ xs) :
    ∃ c, Relation.ReflTransGen R a c ∧ Relation.TransGen R c c := by
  by_contra hnone
  -- otherwise walks along the relation that start at `a` go down in a well-founded order
  let Reached := {b // b ∈ xs ∧ Relation.ReflTransGen R a b}
  have hfinite : Finite Reached := xs.finite_toSet.subset fun b hb => hb.1
  let later : Reached → Reached → Prop := fun c b => Relation.TransGen R b.1 c.1
  have htrans : IsTrans Reached later := ⟨fun _ _ _ hcb hdc => hdc.trans hcb⟩
  have hirrefl : Std.Irrefl later := ⟨fun b hb => hnone ⟨b.1, b.2.2, hb⟩⟩
  obtain ⟨last, -, hlast⟩ := (Finite.wellFounded_of_trans_of_irrefl later).has_min Set.univ
    ⟨⟨a, ha, .refl⟩, trivial⟩
  obtain ⟨b, hb, hstep⟩ := h last.1 last.2.1
  exact hlast ⟨b, hb, last.2.2.tail hstep⟩ trivial (.single hstep)

namespace Vertex

/-- The orders of vertices: each id once, behind what its vertex needs. -/
structure Orders (vs : List Vertex) (order : List String) : Prop where
  lists : order.Perm (vs.map Vertex.id)
  respected : Respected vs order

/-- The declared places of ids. -/
def places (vs : List Vertex) (order : List String) : List Nat :=
  order.map fun id => (vs.map Vertex.id).idxOf id

/-- From an id needs lead to a cycle. -/
def Knotted (vs : List Vertex) (id : String) : Prop :=
  ∃ c, Relation.ReflTransGen (Needs vs) id c ∧ Relation.TransGen (Needs vs) c c

/-- How many occurrences of what a vertex needs are declared and not taken. -/
def outstanding (declared taken : List String) (v : Vertex) : Nat :=
  v.needs.countP fun d => declared.contains d && !taken.contains d

theorem outstanding_eq_zero_iff {declared taken : List String} {v : Vertex} :
    outstanding declared taken v = 0 ↔ ∀ d ∈ v.needs, d ∈ declared → d ∈ taken := by
  simp [outstanding]

variable {vs : List Vertex}

/-- The declared ids stand at ascending places. -/
theorem places_declared (hd : (vs.map Vertex.id).Nodup) :
    (places vs (vs.map Vertex.id)).Pairwise (· < ·) := by
  have hplaces : places vs (vs.map Vertex.id) = List.range vs.length := by
    refine List.ext_getElem (by simp [places]) fun i _ hi => ?_
    simp only [places, List.getElem_map, List.getElem_range]
    rw [List.length_range] at hi
    have h := hd.idxOf_getElem i (by simpa using hi)
    rwa [List.getElem_map] at h
  rw [hplaces]
  exact List.pairwise_lt_range

namespace Waiting

variable {declared taken : List String} {left : List Waiting} {v : Waiting}

/-! ## The states of the vertices -/

/-- The states that vertices go through while the first ready one is taken again and again: the ids
taken, and the vertices left. -/
inductive Draining (vs : List Vertex) : List String → List Waiting → Prop
  | start : Draining vs [] (await (vs.map Vertex.id) vs)
  | take {taken : List String} {left : List Waiting} {v : Waiting}
      (before : Draining vs taken left) (first : left.find? isReady = some v) :
      Draining vs (taken ++ [v.id]) ((left.eraseP isReady).map (settle v))

namespace Draining

/-- In every state each counter is the number of occurrences of needs that are still to come. -/
theorem counted (hd : (vs.map Vertex.id).Nodup) (h : Draining vs taken left) :
    Counted (vs.map Vertex.id) taken left := by
  induction h with
  | start => exact await_counted hd _ fun v hv => List.mem_map_of_mem hv
  | take _ first ih => exact ih.settle first

/-- What is left are declared vertices. -/
theorem of_declared (h : Draining vs taken left) : ∀ v ∈ left, v.toVertex ∈ vs := by
  induction h with
  | start =>
    intro v hv
    have := List.mem_map_of_mem (f := Waiting.toVertex) hv
    rwa [await_toVertex] at this
  | take before first ih =>
    intro w hw
    obtain ⟨u, hu, rfl⟩ := List.mem_map.1 hw
    exact ih u (List.mem_of_mem_eraseP hu)

/-- What was taken needs nothing that is still to come. -/
theorem closed (hd : (vs.map Vertex.id).Nodup) (h : Draining vs taken left) :
    ∀ u ∈ vs, u.id ∈ taken → outstanding (vs.map Vertex.id) taken u = 0 := by
  simp only [outstanding_eq_zero_iff]
  induction h with
  | start => simp
  | @take taken left v before first ih =>
    intro u hu hmem d hn hm
    have hv := List.mem_of_find?_eq_some first
    rw [List.mem_append, List.mem_singleton] at hmem
    refine List.mem_append_left _ ?_
    rcases hmem with hmem | hid
    · exact ih u hu hmem d hn hm
    · obtain rfl : u = v.toVertex :=
        List.inj_on_of_nodup_map hd hu (before.of_declared v hv) hid
      exact (before.counted hd).needs_taken hv (List.find?_some first) d hn hm

/-- Taking vertices until none is ready is one way through the states. -/
theorem drain (h : Draining vs taken left) :
    Draining vs (taken ++ (Waiting.drain left).1) (Waiting.drain left).2 := by
  fun_induction Waiting.drain left generalizing taken with
  | case1 left hf => simpa using h
  | case2 left v hf order rest heq ih =>
    have := ih (h.take hf)
    rw [heq] at this
    simpa using this

end Draining

/-- A counter covers what is subtracted from it. -/
theorem Counted.count_le_pending (hc : Counted declared taken left) (hv : v ∈ left) {w : Waiting}
    (hw : w ∈ left) : w.needs.count v.id ≤ w.pending := by
  obtain ⟨hm, hfresh⟩ := hc.untaken v hv
  rw [hc.pending w hw, List.count]
  refine List.countP_mono_left fun d _ hd => ?_
  rw [beq_iff_eq] at hd
  subst hd
  simp [hm, hfresh]

/-! ## No order begins with less -/

/-- A vertex is ready exactly if all it needs was taken. -/
theorem Counted.isReady_iff (hc : Counted declared taken left) (hv : v ∈ left) :
    v.isReady = true ↔ ∀ d ∈ v.needs, d ∈ declared → d ∈ taken := by
  rw [isReady, beq_iff_eq, hc.pending v hv]
  exact outstanding_eq_zero_iff (v := v.toVertex)

/-- A ready vertex is the first one, or declared behind it. -/
theorem first_or_behind {place : String → Nat}
    (hplace : left.Pairwise fun v w => place v.id < place w.id)
    (hf : left.find? isReady = some v) {w : Waiting} (hw : w ∈ left) (hready : w.isReady = true) :
    w = v ∨ place v.id < place w.id := by
  obtain ⟨-, front, back, rfl, hfront⟩ := List.find?_eq_some_iff_append.1 hf
  rcases List.mem_append.1 hw with hw | hw
  · exact absurd hready (by simpa using hfront w hw)
  rcases List.mem_cons.1 hw with rfl | hw
  · exact .inl rfl
  · exact .inr ((List.pairwise_cons.1 (List.pairwise_append.1 hplace).2.1).1 w hw)

/-- What is drained comes before any other list of the same ids in which each stands behind what its
vertex needs, where places ascend in the order of the vertices. -/
theorem Counted.drain_least (hc : Counted declared taken left) (place : String → Nat)
    (hplace : left.Pairwise fun v w => place v.id < place w.id) (other : List String)
    (hlists : other.Perm (left.map fun v => v.id))
    (hrespected : ∀ v ∈ left, ∀ before after, other = before ++ v.id :: after →
      ∀ d ∈ v.needs, d ∈ declared → d ∈ taken ++ before) :
    other = (Waiting.drain left).1 ∨
      List.Lex (· < ·) ((Waiting.drain left).1.map place) (other.map place) := by
  fun_induction Waiting.drain left generalizing taken other with
  | case1 left hf =>
    cases other with
    | nil => exact .inl rfl
    | cons u other => exact .inr .nil
  | case2 left v hf order rest heq ih =>
    rw [heq] at ih
    have herase := perm_cons_eraseP hf
    cases other with
    | nil => exact absurd (hlists.trans (herase.map _)) (by simp)
    | cons u other =>
      obtain ⟨w, hw, rfl⟩ := List.mem_map.1 (hlists.subset List.mem_cons_self)
      have hready : w.isReady = true := by
        rw [hc.isReady_iff hw]
        simpa using hrespected w hw [] other rfl
      rcases first_or_behind hplace hf hw hready with rfl | hlt
      · -- both begin with the first ready vertex
        have hids : other.Perm ((left.eraseP isReady).map fun v => v.id) :=
          (List.perm_cons _).1 (hlists.trans (herase.map _))
        have hbehind : ∀ x ∈ (left.eraseP isReady).map (Waiting.settle w), ∀ before after,
            other = before ++ x.id :: after →
              ∀ d ∈ x.needs, d ∈ declared → d ∈ taken ++ [w.id] ++ before := by
          intro y hy before after hsplit d hn hm
          obtain ⟨x, hx, rfl⟩ := List.mem_map.1 hy
          have := hrespected x (List.mem_of_mem_eraseP hx) (w.id :: before) after
            (congrArg (w.id :: ·) hsplit) d hn hm
          simpa using this
        have hleft : ((left.eraseP isReady).map (Waiting.settle w)).Pairwise fun v w =>
            place v.id < place w.id := List.pairwise_map.2 (hplace.sublist List.eraseP_sublist)
        rcases ih (hc.settle hf) hleft other (by rwa [map_settle_id]) hbehind with rfl | hlex
        · exact .inl rfl
        · exact .inr (.cons hlex)
      · exact .inr (.rel hlt)

end Waiting

/-! ## What the stable order is -/

theorem draining_stableOrder (vs : List Vertex) :
    Waiting.Draining vs (stableOrder vs).1 (stableOrder vs).2 := by
  have := (Waiting.Draining.start : Waiting.Draining vs [] _).drain
  rwa [List.nil_append] at this

theorem left_of_stableOrder? {ids : List String} (h : stableOrder? vs = .error ids) :
    ids = (stableOrder vs).2.map fun v => v.id := by
  rw [stableOrder?_eq] at h
  split at h
  · cases h
  · cases h
    rfl

theorem order_of_stableOrder? {order : List String} (h : stableOrder? vs = .ok order) :
    order = (stableOrder vs).1 := by
  rw [stableOrder?_eq] at h
  split at h
  · cases h
    rfl
  · cases h

/-- What is left over are the vertices from which needs lead to a cycle. -/
theorem mem_left_iff_knotted (hd : (vs.map Vertex.id).Nodup) (id : String) :
    id ∈ (stableOrder vs).2.map (fun v => v.id) ↔ Knotted vs id := by
  have hc := await_counted hd (vs.map Vertex.id) fun v hv => List.mem_map_of_mem hv
  have hstuck : Waiting.Stuck (stableOrder vs).2 := hc.stuck fun d hd => by rwa [await_ids]
  obtain ⟨hlists, hrespected⟩ := stableOrder_respected hd
  constructor
  · refine exists_cycle_of_forall_exists fun a ha => ?_
    obtain ⟨v, hv, rfl⟩ := List.mem_map.1 ha
    obtain ⟨d, hn, hleft⟩ := hstuck.waits v hv
    exact ⟨d, hleft, v.toVertex, (draining_stableOrder vs).of_declared v hv, rfl, hn,
      hlists.subset (List.mem_append_right _ hleft)⟩
  · rintro ⟨c, hwalk, hcycle⟩
    -- an id in the order would have the whole cycle in front of it, each of its ids before itself
    have hround : ∃ b, Needs vs id b := by
      rcases Relation.ReflTransGen.cases_head hwalk with rfl | ⟨b, hb, -⟩
      · obtain ⟨b, hb, -⟩ := Relation.TransGen.head'_iff.1 hcycle
        exact ⟨b, hb⟩
      · exact ⟨b, hb⟩
    obtain ⟨b, v, hv, rfl, -⟩ := hround
    rcases List.mem_append.1 (hlists.mem_iff.2 (List.mem_map_of_mem hv)) with hmem | hmem
    · have hc : c ∈ (stableOrder vs).1 := by
        rcases Relation.reflTransGen_iff_eq_or_transGen.1 hwalk with rfl | hwalk
        · exact hmem
        · exact (hrespected.walk_in_front hmem hwalk).1
      exact absurd (hrespected.walk_in_front hc hcycle).2 (Nat.lt_irrefl _)
    · exact hmem

/-- What is left over keeps its declared order. -/
theorem left_sublist (vs : List Vertex) :
    ((stableOrder vs).2.map fun v => v.id).Sublist (vs.map Vertex.id) := by
  have hdrain : ∀ left : List Waiting, ((Waiting.drain left).2.map fun v => v.id).Sublist
      (left.map fun v => v.id) := by
    intro left
    fun_induction Waiting.drain left with
    | case1 left hf => exact .refl _
    | case2 left v hf order rest heq ih =>
      rw [heq, Waiting.map_settle_id] at ih
      exact ih.trans ((List.eraseP_sublist).map _)
  have h := hdrain (await (vs.map Vertex.id) vs)
  rwa [await_ids] at h

/-- A stable order comes before every other order. -/
theorem Orders.least (hd : (vs.map Vertex.id).Nodup) {order other : List String}
    (h : stableOrder? vs = .ok order) (ho : Orders vs other) :
    other = order ∨ List.Lex (· < ·) (places vs order) (places vs other) := by
  have hc := await_counted hd (vs.map Vertex.id) fun v hv => List.mem_map_of_mem hv
  have hplace : (await (vs.map Vertex.id) vs).Pairwise fun v w =>
      (vs.map Vertex.id).idxOf v.id < (vs.map Vertex.id).idxOf w.id := by
    have := places_declared hd
    unfold places at this
    nth_rewrite 2 [← await_ids (vs.map Vertex.id) vs] at this
    rwa [List.map_map, List.pairwise_map] at this
  have hleast := hc.drain_least (fun id => (vs.map Vertex.id).idxOf id) hplace other
    (by rw [await_ids]; exact ho.lists) fun v hv before after hsplit d hn hm => by
      have := List.mem_map_of_mem (f := Waiting.toVertex) hv
      rw [await_toVertex] at this
      exact ho.respected v.toVertex this before after hsplit d hn hm
  rwa [order_of_stableOrder? h]

end Vertex

open Vertex Vertex.Waiting

/-- **The stable order is the least one.** Vertices have distinct ids and need any ids, declared or
not, any number of times.

There is a stable order exactly if no walk along needs comes back; then it is an order, and it comes
before every other one at the first place where they differ, so that ids that are declared in order
stay as they are. Otherwise the ids left over are, in declared order, those from which needs lead to
a cycle. In every state on the way the counter of a vertex is the number of occurrences of needs
that are still to come; that number is zero for what was taken, and whatever is subtracted for the
next vertex is covered. -/
theorem stableOrder?_least (vs : List Vertex) (hd : (vs.map Vertex.id).Nodup) :
    ((∃ order, stableOrder? vs = .ok order) ↔ Acyclic vs) ∧
    (∀ order, stableOrder? vs = .ok order → Orders vs order ∧
      ∀ other, Orders vs other →
        other = order ∨ List.Lex (· < ·) (places vs order) (places vs other)) ∧
    (Orders vs (vs.map Vertex.id) → stableOrder? vs = .ok (vs.map Vertex.id)) ∧
    (∀ left, stableOrder? vs = .error left →
      left.Sublist (vs.map Vertex.id) ∧ ∀ id, id ∈ left ↔ Knotted vs id) ∧
    Draining vs (stableOrder vs).1 (stableOrder vs).2 ∧
    ∀ taken left, Draining vs taken left →
      (∀ w ∈ left, w.pending = outstanding (vs.map Vertex.id) taken w.toVertex) ∧
      (∀ u ∈ vs, u.id ∈ taken → outstanding (vs.map Vertex.id) taken u = 0) ∧
      ∀ v, left.find? isReady = some v →
        (∀ w ∈ left, w.needs.count v.id ≤ w.pending) ∧
        ∀ u ∈ vs, u.id ∈ taken → v.id ∉ u.needs := by
  have hok : ∀ order, stableOrder? vs = .ok order → Orders vs order := fun order h =>
    ⟨(stableOrder?_ok hd h).1, (stableOrder?_ok hd h).2⟩
  have hleft : ∀ left, stableOrder? vs = .error left →
      left.Sublist (vs.map Vertex.id) ∧ ∀ id, id ∈ left ↔ Knotted vs id := by
    intro left h
    obtain rfl := left_of_stableOrder? h
    exact ⟨left_sublist vs, mem_left_iff_knotted hd⟩
  have hexists : Acyclic vs → ∃ order, stableOrder? vs = .ok order := by
    intro hacyclic
    cases h : stableOrder? vs with
    | ok order => exact ⟨order, rfl⟩
    | error left =>
      obtain ⟨path, -, hcycle⟩ := exists_findCycle? hd h
      obtain ⟨id, hid⟩ := hcycle.transGen
      exact absurd hid (hacyclic id)
  refine ⟨⟨?_, hexists⟩, fun order h => ⟨hok order h, fun other ho => ho.least hd h⟩, ?_, hleft,
    draining_stableOrder vs, ?_⟩
  · rintro ⟨order, h⟩
    exact (hok order h).respected.acyclic (hok order h).lists
  · intro hdeclared
    obtain ⟨order, h⟩ := hexists (hdeclared.respected.acyclic hdeclared.lists)
    rcases hdeclared.least hd h with hsame | hlex
    · rw [hsame, h]
    · exact absurd hlex (not_lex_of_ascending (places_declared hd) ((hok order h).lists.map _))
  · intro taken left hreached
    have hc := hreached.counted hd
    refine ⟨hc.pending, hreached.closed hd, fun v hv => ?_⟩
    have hmem := List.mem_of_find?_eq_some hv
    refine ⟨fun w hw => hc.count_le_pending hmem hw, fun u hu htaken hneed => ?_⟩
    obtain ⟨hdeclared, hfresh⟩ := hc.untaken v hmem
    exact hfresh (outstanding_eq_zero_iff.1 (hreached.closed hd u hu htaken) _ hneed hdeclared)

/-- Of a source and three vertices that wait for each other the three are left over; without a cycle
a vertex that needs the last one twice goes behind it, and the one between them stays in front. -/
theorem stableOrder?_least_knot :
    let knot := Fixture.knot.map StageGraph.vertex
    let twice : List Vertex := [⟨"c", ["a", "ghost", "a"]⟩, ⟨"b", []⟩, ⟨"a", []⟩]
    ((knot.map Vertex.id).Nodup ∧ stableOrder? knot = .error ["x", "y", "z"] ∧
      ∀ id, id ∈ ["x", "y", "z"] ↔ Knotted knot id) ∧
    (twice.map Vertex.id).Nodup ∧ stableOrder? twice = .ok ["b", "a", "c"] ∧
      ∀ other, Orders twice other →
        other = ["b", "a", "c"] ∨ List.Lex (· < ·) [1, 2, 0] (places twice other) := by
  intro knot twice
  have hknot : (knot.map Vertex.id).Nodup := by decide
  have hleft : stableOrder? knot = .error ["x", "y", "z"] := by decide +kernel
  have htwice : (twice.map Vertex.id).Nodup := by decide
  have horder : stableOrder? twice = .ok ["b", "a", "c"] := by decide +kernel
  exact ⟨⟨hknot, hleft, ((stableOrder?_least knot hknot).2.2.2.1 _ hleft).2⟩, htwice, horder,
    ((stableOrder?_least twice htwice).2.1 _ horder).2⟩

end SignalPipeline
