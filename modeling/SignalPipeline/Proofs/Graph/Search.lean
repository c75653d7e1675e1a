import Mathlib.Data.List.Nodup
import SignalPipeline.Proofs.Graph.Cycle

/-!
# The search for a cycle, depth first

A depth-first search keeps the ids that it has visited and the trail of ids it is below. It looks at
the needs of a vertex one after the other, goes down into those that it has not visited, comes back
from those that lead to no cycle, and ends at the first need that is on the trail.

`findCycle?` keeps neither: it walks along the first needs that are left over. Both agree. What is
in order leads to no cycle, so the search comes back from it, and what is left over it has not
visited, unless that is on the trail.

* `Vertex.Scans`: the depth-first search, with what it ends in.
* `Vertex.Scans.unique`: a search of vertices with distinct ids ends in one thing only.
* `Vertex.Scans.exhausts`: a search of ids in order comes back.
* `Vertex.scans_iff_of_findCycle?`: the search ends in the cycle that is found.
-/

namespace SignalPipeline
namespace Vertex

/-- What a search ends in. -/
inductive Scan where
  /-- A cycle, its first id repeated at the end. -/
  | found (cycle : List String)
  /-- No cycle; the ids visited by then. -/
  | exhausted (visited : List String)
  deriving Repr, DecidableEq

/-- The depth-first search of some ids, one after the other, below the ids of a trail. -/
inductive Scans (vs : List Vertex) : (visited trail ids : List String) → Scan → Prop
  | done {visited trail} : Scans vs visited trail [] (.exhausted visited)
  /-- Ids that no vertex has are passed over. -/
  | undeclared {visited trail id ids out} (unknown : id ∉ vs.map Vertex.id)
      (next : Scans vs visited trail ids out) : Scans vs visited trail (id :: ids) out
  /-- An id on the trail: the trail from there on is a cycle. -/
  | closed {visited trail id ids} (known : id ∈ vs.map Vertex.id) (above : id ∈ trail) :
      Scans vs visited trail (id :: ids) (.found (trail.dropWhile (· != id) ++ [id]))
  /-- Ids that the search came back from are passed over. -/
  | seen {visited trail id ids out} (known : id ∈ vs.map Vertex.id) (apart : id ∉ trail)
      (old : id ∈ visited) (next : Scans vs visited trail ids out) :
      Scans vs visited trail (id :: ids) out
  /-- A vertex that leads to a cycle. -/
  | leads {visited trail v ids cycle} (known : v ∈ vs) (apart : v.id ∉ trail)
      (fresh : v.id ∉ visited)
      (inner : Scans vs (v.id :: visited) (trail ++ [v.id]) v.needs (.found cycle)) :
      Scans vs visited trail (v.id :: ids) (.found cycle)
  /-- A vertex that the search comes back from. -/
  | returns {visited visited' trail v ids out} (known : v ∈ vs) (apart : v.id ∉ trail)
      (fresh : v.id ∉ visited)
      (inner : Scans vs (v.id :: visited) (trail ++ [v.id]) v.needs (.exhausted visited'))
      (next : Scans vs visited' trail ids out) : Scans vs visited trail (v.id :: ids) out

variable {vs : List Vertex} {order visited visited' trail ids more : List String} {out out' : Scan}

namespace Scans

/-- A search that comes back goes on with the ids that follow. -/
theorem append (h : Scans vs visited trail ids (.exhausted visited'))
    (hmore : Scans vs visited' trail more out) : Scans vs visited trail (ids ++ more) out := by
  generalize hs : Scan.exhausted visited' = scan at h
  induction h with
  | done =>
    cases hs
    exact hmore
  | undeclared unknown next ih => exact .undeclared unknown (ih hmore hs)
  | closed known above => cases hs
  | seen known apart old next ih => exact .seen known apart old (ih hmore hs)
  | leads known apart fresh inner => cases hs
  | returns known apart fresh inner next _ ih =>
    exact .returns known apart fresh inner (ih hmore hs)

/-- A search of vertices with distinct ids ends in one thing only. -/
theorem unique (hd : (vs.map Vertex.id).Nodup) (h : Scans vs visited trail ids out)
    (h' : Scans vs visited trail ids out') : out = out' := by
  have hsame : ∀ v ∈ vs, ∀ w ∈ vs, v.id = w.id → v = w :=
    fun v hv w hw h => List.inj_on_of_nodup_map hd hv hw h
  induction h generalizing out' with
  | done =>
    cases h'
    rfl
  | undeclared unknown next ih =>
    cases h' with
    | undeclared _ next' => exact ih next'
    | closed known => exact absurd known unknown
    | seen known => exact absurd known unknown
    | leads known => exact absurd (List.mem_map_of_mem known) unknown
    | returns known => exact absurd (List.mem_map_of_mem known) unknown
  | closed known above =>
    cases h' with
    | undeclared unknown => exact absurd known unknown
    | closed => rfl
    | seen _ apart => exact absurd above apart
    | leads _ apart => exact absurd above apart
    | returns _ apart => exact absurd above apart
  | seen known apart old next ih =>
    cases h' with
    | undeclared unknown => exact absurd known unknown
    | closed _ above => exact absurd above apart
    | seen _ _ _ next' => exact ih next'
    | leads _ _ fresh => exact absurd old fresh
    | returns _ _ fresh => exact absurd old fresh
  | @leads _ _ v _ _ known apart fresh inner ih =>
    generalize hid : v.id = id at h' apart fresh
    cases h' with
    | undeclared unknown => exact absurd (hid ▸ List.mem_map_of_mem known) unknown
    | closed _ above => exact absurd above apart
    | seen _ _ old => exact absurd old fresh
    | leads known' _ _ inner' =>
      obtain rfl := hsame _ known _ known' hid
      exact ih inner'
    | returns known' _ _ inner' =>
      obtain rfl := hsame _ known _ known' hid
      cases ih inner'
  | @returns _ _ _ v _ _ known apart fresh inner next ih ih' =>
    generalize hid : v.id = id at h' apart fresh
    cases h' with
    | undeclared unknown => exact absurd (hid ▸ List.mem_map_of_mem known) unknown
    | closed _ above => exact absurd above apart
    | seen _ _ old => exact absurd old fresh
    | leads known' _ _ inner' =>
      obtain rfl := hsame _ known _ known' hid
      cases ih inner'
    | returns known' _ _ inner' next' =>
      obtain rfl := hsame _ known _ known' hid
      cases ih inner'
      exact ih' next'

/-- A search of ids near the front of an order, below a trail that is farther from it, comes back
and visits nothing but what is in order. -/
theorem exhausts_of_lt (ho : Respected vs order) {n : Nat}
    (hids : ∀ d ∈ ids, d ∈ vs.map Vertex.id → d ∈ order ∧ order.idxOf d < n)
    (htrail : ∀ d ∈ trail, d ∈ order → n ≤ order.idxOf d) (visited : List String) :
    ∃ visited', Scans vs visited trail ids (.exhausted visited') ∧
      ∀ d ∈ visited', d ∈ visited ∨ d ∈ order := by
  -- what an id in order needs is nearer to the front
  induction n using Nat.strong_induction_on generalizing ids trail visited with
  | h n ihn =>
    induction ids generalizing visited with
    | nil => exact ⟨visited, .done, fun d hd => .inl hd⟩
    | cons id ids ih =>
      obtain ⟨hid, htail⟩ := List.forall_mem_cons.1 hids
      by_cases hm : id ∈ vs.map Vertex.id
      · obtain ⟨hin, hlt⟩ := hid hm
        have hapart : id ∉ trail := fun h => Nat.not_le_of_lt hlt (htrail id h hin)
        by_cases hold : id ∈ visited
        · obtain ⟨visited', hs, hv⟩ := ih htail visited
          exact ⟨visited', .seen hm hapart hold hs, hv⟩
        · obtain ⟨v, hv, rfl⟩ := List.mem_map.1 hm
          have hneeds : ∀ d ∈ v.needs, d ∈ vs.map Vertex.id →
              d ∈ order ∧ order.idxOf d < order.idxOf v.id :=
            fun d hd hdm => ho.need_in_front hin ⟨v, hv, rfl, hd, hdm⟩
          have hbelow : ∀ d ∈ trail ++ [v.id], d ∈ order → order.idxOf v.id ≤ order.idxOf d := by
            intro d hd hdin
            rcases List.mem_append.1 hd with hd | hd
            · exact Nat.le_of_lt (Nat.lt_of_lt_of_le hlt (htrail d hd hdin))
            · exact (List.mem_singleton.1 hd).symm ▸ Nat.le_refl _
          obtain ⟨visited₁, hinner, hv₁⟩ := ihn _ hlt hneeds hbelow (v.id :: visited)
          obtain ⟨visited₂, hnext, hv₂⟩ := ih htail visited₁
          refine ⟨visited₂, .returns hv hapart hold hinner hnext, fun d hd => ?_⟩
          rcases hv₂ d hd with h | h
          · rcases hv₁ d h with h | h
            · rcases List.mem_cons.1 h with rfl | h
              · exact .inr hin
              · exact .inl h
            · exact .inr h
          · exact .inr h
      · obtain ⟨visited', hs, hv⟩ := ih htail visited
        exact ⟨visited', .undeclared hm hs, hv⟩

/-- A search of ids in order, below a trail of ids that are not, comes back and visits nothing but
what is in order. -/
theorem exhausts (ho : Respected vs order) (hids : ∀ d ∈ ids, d ∈ vs.map Vertex.id → d ∈ order)
    (htrail : ∀ d ∈ trail, d ∉ order) (visited : List String) :
    ∃ visited', Scans vs visited trail ids (.exhausted visited') ∧
      ∀ d ∈ visited', d ∈ visited ∨ d ∈ order :=
  exhausts_of_lt ho
    (fun d hd hm => ⟨hids d hd hm, List.idxOf_lt_length_of_mem (hids d hd hm)⟩)
    (fun d hd hin => absurd hin (htrail d hd)) visited

end Scans

namespace Waiting

variable {left unseen : List Waiting}

/-- Vertices that stand in order, and those that are left over. -/
structure Parted (vs : List Vertex) (order : List String) (left : List Waiting) : Prop where
  respected : Respected vs order
  kept : ∀ v ∈ left, v.toVertex ∈ vs
  answers : ∀ v ∈ left, v.answers = true
  whole : ∀ d ∈ vs.map Vertex.id, d ∈ order ∨ d ∈ left.map fun v => v.id
  apart : ∀ v ∈ left, v.id ∉ order

/-- What does not answer among the vertices left over is in order, or no vertex has it. -/
theorem Parted.mem_order (hp : Parted vs order left) {d : String} (hd : ¬answered left d = true)
    (hm : d ∈ vs.map Vertex.id) : d ∈ order := by
  rcases hp.whole d hm with h | h
  · exact h
  · obtain ⟨v, hv, rfl⟩ := List.mem_map.1 h
    exact absurd (List.any_eq_true.2 ⟨v, hv, by simp [hp.answers v hv]⟩) hd

/-- The search comes back from the needs in front of the first one that is left over. -/
theorem Parted.exhausts (hp : Parted vs order left) {front : List String}
    (hfront : ∀ d ∈ front, (!answered left d) = true) (htrail : ∀ d ∈ trail, d ∉ order)
    (visited : List String) :
    ∃ visited', Scans vs visited trail front (.exhausted visited') ∧
      ∀ d ∈ visited', d ∈ visited ∨ d ∈ order :=
  Scans.exhausts hp.respected (fun d hd => hp.mem_order (by simpa using hfront d hd)) htrail visited

/-- A walk along the first needs left over is the way of the search into a cycle. -/
theorem Parted.scans_of_walk (hp : Parted vs order left) (hu : Searched left unseen trail)
    {id : String} {path : List String} (hw : walk left unseen trail id = some path)
    (hid : id ∈ vs.map Vertex.id) (htrail : ∀ d ∈ trail, d ∉ order)
    (hvisited : ∀ d ∈ visited, d ∈ trail ∨ d ∈ order) :
    Scans vs visited trail (id :: ids) (.found path) := by
  fun_induction walk left unseen trail id generalizing visited ids with
  | case1 unseen trail id hf hmem =>
    cases hw
    exact .closed hid (List.contains_iff_mem.1 hmem)
  | case2 unseen trail id hf hmem => cases hw
  | case3 unseen trail id v hf hnone => cases hw
  | case4 unseen trail id v hf next hnext ih =>
    obtain ⟨hv, hfresh⟩ := hu.kept v (List.mem_of_find?_eq_some hf)
    have hn := List.find?_some hf
    obtain rfl : v.id = id := beq_iff_eq.1 hn
    have hold : v.id ∉ visited := by
      intro h
      rcases hvisited v.id h with h | h
      · exact hfresh h
      · exact hp.apart v hv h
    have hbelow : ∀ d ∈ trail ++ [v.id], d ∉ order := by
      intro d hd
      rcases List.mem_append.1 hd with hd | hd
      · exact htrail d hd
      · exact List.mem_singleton.1 hd ▸ hp.apart v hv
    obtain ⟨hans, front, back, hneeds, hfront⟩ := List.find?_eq_some_iff_append.1 hnext
    obtain ⟨visited', hcome, hv'⟩ := hp.exhausts hfront hbelow (v.id :: visited)
    have hinner : Scans vs visited' (trail ++ [v.id]) (next :: back) (.found path) := by
      obtain ⟨u, hu', hun⟩ := List.any_eq_true.1 hans
      rw [Bool.and_eq_true, beq_iff_eq] at hun
      refine ih (hu.visit hf) hw (hun.2 ▸ List.mem_map_of_mem (hp.kept u hu')) hbelow ?_
      intro d hd
      rcases hv' d hd with h | h
      · rcases List.mem_cons.1 h with rfl | h
        · exact .inl (by simp)
        · exact (hvisited d h).imp_left (List.mem_append_left _)
      · exact .inr h
    exact .leads (v := v.toVertex) (hp.kept v hv) hfresh hold (hneeds ▸ hcome.append hinner)

end Waiting

/-- The stable order parts the vertices. -/
theorem stableOrder_parted (hd : (vs.map Vertex.id).Nodup) :
    Waiting.Parted vs (stableOrder vs).1 (stableOrder vs).2 := by
  obtain ⟨hperm, ho⟩ := stableOrder_respected hd
  have hc := await_counted hd (vs.map Vertex.id) fun v hv => List.mem_map_of_mem hv
  obtain ⟨hcount, -, hkept⟩ := hc.left_over
  rw [await_toVertex] at hkept
  rw [List.nil_append] at hcount
  refine ⟨ho, fun v hv => ?_, hcount.answers, fun d hm => ?_, fun v hv => (hcount.untaken v hv).2⟩
  · exact hkept v hv
  · exact List.mem_append.1 (hperm.mem_iff.2 hm)

/-- A cycle that `findCycle?` finds is the one that the depth-first search ends in. -/
theorem scans_of_findCycle? (hd : (vs.map Vertex.id).Nodup) {starts path : List String}
    (h : findCycle? vs starts = some path) : Scans vs [] [] starts (.found path) := by
  have hp := stableOrder_parted hd
  have hdistinct : ((stableOrder vs).2.map fun v => v.id).Nodup :=
    ((stableOrder_respected hd).1.nodup_iff.2 hd).of_append_right
  unfold findCycle? at h
  dsimp only at h
  rw [List.filter_eq_self.2 hp.answers] at h
  obtain ⟨start, hstart, hw⟩ := Option.bind_eq_some_iff.1 h
  obtain ⟨hans, front, back, rfl, hfront⟩ := List.find?_eq_some_iff_append.1 hstart
  obtain ⟨visited, hcome, hv⟩ :=
    hp.exhausts hfront (List.forall_mem_nil fun d => d ∉ (stableOrder vs).1) []
  obtain ⟨v, hv', hid⟩ := List.any_eq_true.1 hans
  rw [Bool.and_eq_true, beq_iff_eq] at hid
  refine hcome.append
    (hp.scans_of_walk ⟨hdistinct, by simp, by simp +contextual⟩ hw ?_ (by simp) hv)
  exact hid.2 ▸ List.mem_map_of_mem (hp.kept v hv')

/-- **The search for a cycle.** Where `findCycle?` finds a cycle, the depth-first search ends in
that cycle and in nothing else. -/
theorem scans_iff_of_findCycle? (hd : (vs.map Vertex.id).Nodup) {starts path : List String}
    (h : findCycle? vs starts = some path) : Scans vs [] [] starts out ↔ out = .found path := by
  have hs := scans_of_findCycle? hd h
  refine ⟨fun hout => hout.unique hd hs, ?_⟩
  rintro rfl
  exact hs

end Vertex
end SignalPipeline
