import SignalPipeline.Proofs.Graph.Least
import SignalPipeline.Proofs.Graph.Search

/-!
# A cycle is found wherever one can be reached

The search for a cycle goes down from each start id. It keeps the ids that it has visited, the set
of ids that it is below, and the path from the start of the search down to where it is. It ends
because it visits no id twice: each state that it comes back with remembers what was visited before.

* `Vertex.searchBelow`: the recursion of the search.
* `Vertex.descend`, `Vertex.depthFirst`: the search below an id, and from all start ids.
* `Vertex.Scans.descendAll`: the three parts of its state agree all the way down and up again, so it
  goes the way of `Vertex.Scans`.
* `Vertex.findCycle?_eq_none_iff`, `Vertex.of_findCycle?`: when no cycle is found, and which one is.
* `Vertex.findCycle?_exact`: the search ends; it finds a cycle exactly when one can be reached.
-/

namespace SignalPipeline

/-- What stands from the place of an element on is left when all in front of it is dropped. -/
theorem drop_idxOf? {xs : List String} {x : String} (h : x ∈ xs) :
    xs.drop ((xs.idxOf? x).getD 0) = xs.dropWhile (· != x) := by
  obtain ⟨front, back, rfl, hn⟩ := List.eq_append_cons_of_mem h
  have hplace : (front ++ x :: back).idxOf? x = some front.length := by
    rw [List.idxOf?_eq_some_iff]
    refine ⟨by simp, by simp, fun i hi he => hn ?_⟩
    rw [List.getElem_append_left hi] at he
    exact he ▸ List.getElem_mem hi
  rw [hplace, List.dropWhile_append_of_pos fun a ha => bne_iff_ne.2 (ne_of_mem_of_not_mem ha hn)]
  simp

namespace Vertex

/-! ## The search -/

/-- What a search carries along. -/
structure Descent where
  visited : List String
  /-- The ids that the search is below, as a set. -/
  below : List String
  /-- The same ids, from the start of the search down. -/
  path : List String

namespace Descent

/-- The search goes below an id. -/
def enter (s : Descent) (id : String) : Descent :=
  ⟨id :: s.visited, id :: s.below, s.path ++ [id]⟩

/-- The search comes back from an id. -/
def leave (s : Descent) (id : String) : Descent :=
  { s with below := s.below.filter (· != id), path := s.path.dropLast }

/-- The path from an id on, with the id again at its end. -/
def cycle (s : Descent) (id : String) : List String :=
  s.path.drop ((s.path.idxOf? id).getD 0) ++ [id]

end Descent

/-- The ids that the vertex with an id needs; none if there is no such vertex. -/
def needsOf (vs : List Vertex) (id : String) : List String :=
  ((vs.find? fun v => v.id == id).map Vertex.needs).getD []

/-- How many vertices a search has not visited. -/
def unvisited (vs : List Vertex) (s : Descent) : Nat :=
  vs.countP fun v => !s.visited.contains v.id

/-- With one more declared id visited, and none forgotten, fewer are left. -/
theorem unvisited_lt {vs : List Vertex} {s t : Descent} {id : String} (hm : id ∈ vs.map Vertex.id)
    (fresh : id ∉ s.visited) (ht : id :: s.visited ⊆ t.visited) :
    unvisited vs t < unvisited vs s := by
  obtain ⟨v, hv, rfl⟩ := List.mem_map.1 hm
  obtain ⟨front, back, rfl⟩ := List.append_of_mem hv
  have hless : ∀ ws : List Vertex, unvisited ws t ≤ unvisited ws s := by
    intro ws
    refine List.countP_mono_left fun w _ hw => ?_
    simp only [Bool.not_eq_true', ← Bool.not_eq_true, List.contains_iff_mem] at hw ⊢
    exact fun hold => hw (ht (List.mem_cons_of_mem v.id hold))
  have hopen : unvisited (v :: back) s = unvisited back s + 1 :=
    List.countP_cons_of_pos (by simpa using fresh)
  have hclosed : unvisited (v :: back) t = unvisited back t :=
    List.countP_cons_of_neg (by simpa using ht List.mem_cons_self)
  have hfront := hless front
  have hback := hless back
  have happend : ∀ r : Descent, unvisited (front ++ v :: back) r =
      unvisited front r + unvisited (v :: back) r := fun r => List.countP_append
  rw [happend, happend, hopen, hclosed]
  omega

/-- Goes below those of some ids that are declared and were not visited, one after the other. An id
that the search is below already closes a cycle.

The search ends although it goes on from states that it came back with: these have visited what was
visited before, so with each id that it goes below fewer vertices are left. -/
def searchBelow (vs : List Vertex) (s : Descent) (ids : List String) :
    Except (List String) {t : Descent // s.visited ⊆ t.visited} :=
  match ids with
  | [] => .ok ⟨s, List.Subset.refl _⟩
  | id :: ids =>
    if _declared : id ∈ vs.map Vertex.id then
      if id ∈ s.below then .error (s.cycle id)
      else if _fresh : id ∉ s.visited then
        match searchBelow vs (s.enter id) (needsOf vs id) with
        | .error cycle => .error cycle
        | .ok t =>
          match searchBelow vs (t.1.leave id) ids with
          | .error cycle => .error cycle
          | .ok u => .ok ⟨u.1, fun _ hd => u.2 (t.2 (List.mem_cons_of_mem id hd))⟩
      else searchBelow vs s ids
    else searchBelow vs s ids
termination_by (unvisited vs s, ids.length)
decreasing_by
  · exact .left _ _ (unvisited_lt _declared _fresh (List.Subset.refl _))
  · exact .left _ _ (unvisited_lt _declared _fresh t.2)
  · exact .right _ (Nat.lt_succ_self _)
  · exact .right _ (Nat.lt_succ_self _)

/-- The cycle or the state that the search below some ids ends with. -/
def descendAll (vs : List Vertex) (s : Descent) (ids : List String) :
    Except (List String) Descent :=
  (searchBelow vs s ids).map Subtype.val

/-- Goes below an id and comes back from it, unless a cycle is found on the way. -/
def descend (vs : List Vertex) (s : Descent) (id : String) : Except (List String) Descent :=
  (descendAll vs (s.enter id) (needsOf vs id)).map fun t => t.leave id

/-- Goes below those of the start ids that were not visited until a cycle is found. -/
def descendFrom (vs : List Vertex) (s : Descent) : List String → Option (List String)
  | [] => none
  | start :: starts =>
    if start ∈ s.visited then descendFrom vs s starts
    else match descend vs s start with
      | .error cycle => some cycle
      | .ok t => descendFrom vs t starts

/-- The depth-first search for a cycle that can be reached from one of the start ids. -/
def depthFirst (vs : List Vertex) (starts : List String) : Option (List String) :=
  descendFrom vs ⟨[], [], []⟩ starts

variable {vs : List Vertex} {visited trail ids starts path : List String} {id : String} {out : Scan}
  {s : Descent}

/-! ## One id after the other -/

theorem descendAll_nil (vs : List Vertex) (s : Descent) : descendAll vs s [] = .ok s := by
  rw [descendAll, searchBelow]
  rfl

theorem descendAll_of_undeclared (unknown : id ∉ vs.map Vertex.id) (ids : List String) :
    descendAll vs s (id :: ids) = descendAll vs s ids := by
  rw [descendAll, searchBelow, dif_neg unknown]
  rfl

theorem descendAll_of_below (declared : id ∈ vs.map Vertex.id) (above : id ∈ s.below)
    (ids : List String) : descendAll vs s (id :: ids) = .error (s.cycle id) := by
  rw [descendAll, searchBelow, dif_pos declared, if_pos above]
  rfl

theorem descendAll_of_visited (declared : id ∈ vs.map Vertex.id) (apart : id ∉ s.below)
    (old : id ∈ s.visited) (ids : List String) :
    descendAll vs s (id :: ids) = descendAll vs s ids := by
  rw [descendAll, searchBelow, dif_pos declared, if_neg apart, dif_neg (not_not.2 old)]
  rfl

theorem descendAll_of_fresh (declared : id ∈ vs.map Vertex.id) (apart : id ∉ s.below)
    (fresh : id ∉ s.visited) (ids : List String) :
    descendAll vs s (id :: ids) = (descend vs s id).bind fun t => descendAll vs t ids := by
  rw [descendAll, searchBelow, dif_pos declared, if_neg apart, dif_pos fresh, descend, descendAll]
  cases searchBelow vs (s.enter id) (needsOf vs id) with
  | error cycle => rfl
  | ok t =>
    show _ = (searchBelow vs (t.1.leave id) ids).map Subtype.val
    dsimp only
    cases searchBelow vs (t.1.leave id) ids <;> rfl

theorem needsOf_of_mem (hd : (vs.map Vertex.id).Nodup) {v : Vertex} (hv : v ∈ vs) :
    needsOf vs v.id = v.needs := by
  cases hf : vs.find? fun w => w.id == v.id with
  | none => exact absurd (beq_self_eq_true v.id) (List.find?_eq_none.1 hf v hv)
  | some w =>
    have hfound := List.find?_some hf
    have hid : w.id = v.id := beq_iff_eq.1 hfound
    obtain rfl := List.inj_on_of_nodup_map hd (List.mem_of_find?_eq_some hf) hv hid
    rw [needsOf, hf]
    rfl

theorem needsOf_of_not_mem (h : id ∉ vs.map Vertex.id) : needsOf vs id = [] := by
  have hf : (vs.find? fun v => v.id == id) = none :=
    List.find?_eq_none.2 fun v hv he => h (beq_iff_eq.1 he ▸ List.mem_map_of_mem hv)
  rw [needsOf, hf]
  rfl

/-! ## The way of the search -/

/-- The parts of the state below a trail. -/
structure Descent.Follows (vs : List Vertex) (visited trail : List String) (s : Descent) :
    Prop where
  visited : ∀ d ∈ vs.map Vertex.id, d ∈ s.visited ↔ d ∈ visited
  below : ∀ d, d ∈ s.below ↔ d ∈ trail
  path : s.path = trail

/-- What comes of a search below a trail. -/
inductive Descent.Ends (vs : List Vertex) (trail : List String) :
    Scan → Except (List String) Descent → Prop
  | found {cycle : List String} : Ends vs trail (.found cycle) (.error cycle)
  | exhausted {visited : List String} {t : Descent} (follows : t.Follows vs visited trail) :
      Ends vs trail (.exhausted visited) (.ok t)

namespace Descent.Follows

theorem enter (h : s.Follows vs visited trail) (id : String) :
    (s.enter id).Follows vs (id :: visited) (trail ++ [id]) where
  visited d hd := by simp [Descent.enter, h.visited d hd]
  below d := by simp [Descent.enter, h.below, or_comm]
  path := by simp [Descent.enter, h.path]

theorem leave (h : s.Follows vs visited (trail ++ [id])) (apart : id ∉ trail) :
    (s.leave id).Follows vs visited trail where
  visited := h.visited
  below d := by
    simp only [Descent.leave, List.mem_filter, h.below, List.mem_append, List.mem_singleton,
      bne_iff_ne]
    grind
  path := by simp [Descent.leave, h.path]

/-- A search that comes back from an id takes it out of its state again. -/
theorem descend (apart : id ∉ trail)
    (h : Ends vs (trail ++ [id]) out (descendAll vs (s.enter id) (needsOf vs id))) :
    Ends vs trail out (descend vs s id) := by
  rw [Vertex.descend]
  generalize descendAll vs (s.enter id) (needsOf vs id) = r at h
  cases h with
  | found => exact .found
  | exhausted follows => exact .exhausted (follows.leave apart)

/-- The search below a vertex is that of what it needs. -/
theorem descend_vertex (hd : (vs.map Vertex.id).Nodup) {v : Vertex} (known : v ∈ vs)
    (apart : v.id ∉ trail)
    (h : Ends vs (trail ++ [v.id]) out (descendAll vs (s.enter v.id) v.needs)) :
    Ends vs trail out (Vertex.descend vs s v.id) :=
  descend apart (by rwa [needsOf_of_mem hd known])

/-- An id that no vertex has leads nowhere. -/
theorem descend_undeclared (hs : s.Follows vs visited trail) (unknown : id ∉ vs.map Vertex.id)
    (apart : id ∉ trail) : Ends vs trail (.exhausted visited) (Vertex.descend vs s id) := by
  refine descend apart ?_
  rw [needsOf_of_not_mem unknown, descendAll_nil]
  obtain ⟨hvisited, hbelow, hpath⟩ := hs.enter id
  refine .exhausted ⟨fun d hd => ?_, hbelow, hpath⟩
  rw [hvisited d hd, List.mem_cons, or_iff_right (ne_of_mem_of_not_mem hd unknown)]

end Descent.Follows

/-- Below a trail the search goes the way of `Scans`. -/
theorem Scans.descendAll (hd : (vs.map Vertex.id).Nodup) (h : Scans vs visited trail ids out)
    (hs : s.Follows vs visited trail) :
    Descent.Ends vs trail out (Vertex.descendAll vs s ids) := by
  induction h generalizing s with
  | done =>
    rw [descendAll_nil]
    exact .exhausted hs
  | undeclared unknown next ih =>
    rw [descendAll_of_undeclared unknown]
    exact ih hs
  | closed known above =>
    rw [descendAll_of_below known ((hs.below _).2 above), Descent.cycle, hs.path, drop_idxOf? above]
    exact .found
  | seen known apart old next ih =>
    rw [descendAll_of_visited known (mt (hs.below _).1 apart) ((hs.visited _ known).2 old)]
    exact ih hs
  | @leads visited trail v ids cycle known apart fresh inner ih =>
    have hv := List.mem_map_of_mem (f := Vertex.id) known
    have hbelow := Descent.Follows.descend_vertex hd known apart (ih (hs.enter v.id))
    rw [descendAll_of_fresh hv (mt (hs.below _).1 apart) (mt (hs.visited _ hv).1 fresh)]
    generalize Vertex.descend vs s v.id = r at hbelow
    cases hbelow with
    | found => exact .found
  | @returns visited visited' trail v ids out known apart fresh inner next ih ih' =>
    have hv := List.mem_map_of_mem (f := Vertex.id) known
    have hbelow := Descent.Follows.descend_vertex hd known apart (ih (hs.enter v.id))
    rw [descendAll_of_fresh hv (mt (hs.below _).1 apart) (mt (hs.visited _ hv).1 fresh)]
    generalize Vertex.descend vs s v.id = r at hbelow
    cases hbelow with
    | exhausted follows => exact ih' follows

/-- The cycle that a search ends in. -/
def Scan.cycle? : Scan → Option (List String)
  | .found cycle => some cycle
  | .exhausted _ => none

/-- The search goes the way of `Scans` from all start ids. -/
theorem Scans.descendFrom (hd : (vs.map Vertex.id).Nodup) (h : Scans vs visited [] starts out)
    (hs : s.Follows vs visited []) : descendFrom vs s starts = out.cycle? := by
  generalize htop : ([] : List String) = trail at h
  induction h generalizing s with
  | done => rfl
  | @undeclared visited trail id ids out unknown next ih =>
    subst htop
    rw [Vertex.descendFrom]
    split
    · exact ih hs rfl
    · have hback := hs.descend_undeclared unknown List.not_mem_nil
      generalize Vertex.descend vs s id = r at hback
      cases hback with
      | exhausted follows => exact ih follows rfl
  | closed known above =>
    subst htop
    cases above
  | seen known apart old next ih =>
    subst htop
    rw [Vertex.descendFrom, if_pos ((hs.visited _ known).2 old)]
    exact ih hs rfl
  | @leads visited trail v ids cycle known apart fresh inner =>
    subst htop
    have hv := List.mem_map_of_mem (f := Vertex.id) known
    have hbelow :=
      Descent.Follows.descend_vertex hd known apart (inner.descendAll hd (hs.enter v.id))
    rw [Vertex.descendFrom, if_neg (mt (hs.visited _ hv).1 fresh)]
    generalize Vertex.descend vs s v.id = r at hbelow
    cases hbelow with
    | found => rfl
  | @returns visited visited' trail v ids out known apart fresh inner next _ ih =>
    subst htop
    have hv := List.mem_map_of_mem (f := Vertex.id) known
    have hbelow :=
      Descent.Follows.descend_vertex hd known apart (inner.descendAll hd (hs.enter v.id))
    rw [Vertex.descendFrom, if_neg (mt (hs.visited _ hv).1 fresh)]
    generalize Vertex.descend vs s v.id = r at hbelow
    cases hbelow with
    | exhausted follows => exact ih follows rfl

theorem depthFirst_of_scans (hd : (vs.map Vertex.id).Nodup) (h : Scans vs [] [] starts out) :
    depthFirst vs starts = out.cycle? :=
  h.descendFrom hd ⟨fun _ _ => .rfl, fun _ => .rfl, rfl⟩

/-! ## What is found -/

/-- Everything that a walk comes to is reached along needs. -/
theorem Waiting.walk_reaches {left unseen : List Waiting} (hunseen : ∀ v ∈ unseen, v.toVertex ∈ vs)
    (hleft : ∀ d, answered left d = true → d ∈ vs.map Vertex.id)
    (h : walk left unseen trail id = some path) :
    ∀ x ∈ path, x ∈ trail ∨ Relation.ReflTransGen (Needs vs) id x := by
  fun_induction walk left unseen trail id with
  | case1 unseen trail id hf hmem =>
    cases h
    intro x hx
    rcases List.mem_append.1 hx with hx | hx
    · exact .inl ((List.dropWhile_sublist _).subset hx)
    · exact .inr (List.mem_singleton.1 hx ▸ .refl)
  | case2 unseen trail id hf hmem => cases h
  | case3 unseen trail id v hf hnone => cases h
  | case4 unseen trail id v hf next hnext ih =>
    have hv := hunseen v (List.mem_of_find?_eq_some hf)
    have hn := List.find?_some hf
    have hstep : Needs vs id next := ⟨v.toVertex, hv, beq_iff_eq.1 hn,
      List.mem_of_find?_eq_some hnext, hleft next (List.find?_some hnext)⟩
    intro x hx
    rcases ih (fun w hw => hunseen w (List.mem_of_mem_eraseP hw)) h x hx with hx | hx
    · rcases List.mem_append.1 hx with hx | hx
      · exact .inl hx
      · exact .inr (List.mem_singleton.1 hx ▸ .refl)
    · exact .inr (.head hstep hx)

/-- A cycle that is found can be reached from one of the start ids. -/
theorem of_findCycle? (hd : (vs.map Vertex.id).Nodup) (h : findCycle? vs starts = some path) :
    IsCycle (Needs vs) path ∧
      ∃ start ∈ starts, ∀ x ∈ path, Relation.ReflTransGen (Needs vs) start x := by
  have hp := stableOrder_parted hd
  have hwalk := h
  unfold findCycle? at hwalk
  dsimp only at hwalk
  rw [List.filter_eq_self.2 hp.answers] at hwalk
  obtain ⟨start, hfound, hw⟩ := Option.bind_eq_some_iff.1 hwalk
  have hstart := List.mem_of_find?_eq_some hfound
  have hans : ∀ d, Waiting.answered (stableOrder vs).2 d = true →
      d ∈ (stableOrder vs).2.map fun v => v.id := by
    intro d hd
    obtain ⟨v, hv, hvd⟩ := List.any_eq_true.1 hd
    rw [Bool.and_eq_true, beq_iff_eq] at hvd
    exact hvd.2 ▸ List.mem_map_of_mem hv
  obtain ⟨path', hpath', hcycle⟩ := exists_findCycle?_of_left hd hstart
    (hans start (List.find?_some hfound))
  rw [h] at hpath'
  cases hpath'
  refine ⟨hcycle, start, hstart, fun x hx => ?_⟩
  refine (Waiting.walk_reaches hp.kept (fun d hd => ?_) hw x hx).resolve_left List.not_mem_nil
  exact (left_sublist vs).subset (hans d hd)

/-- No cycle is found exactly when none can be reached. -/
theorem findCycle?_eq_none_iff (hd : (vs.map Vertex.id).Nodup) :
    findCycle? vs starts = none ↔ ∀ start ∈ starts, ¬ Knotted vs start := by
  constructor
  · intro h start hstart hk
    obtain ⟨path, hpath, -⟩ :=
      exists_findCycle?_of_left hd hstart ((mem_left_iff_knotted hd start).2 hk)
    cases h.symm.trans hpath
  · intro h
    cases hf : findCycle? vs starts with
    | none => rfl
    | some path =>
      obtain ⟨⟨a, rest, distinct, follows⟩, start, hstart, hreach⟩ := of_findCycle? hd hf
      exact absurd ⟨a, hreach a List.mem_cons_self, transGen_of_isChain follows⟩ (h start hstart)

/-- The search finds what `findCycle?` finds. -/
theorem depthFirst_eq (hd : (vs.map Vertex.id).Nodup) (starts : List String) :
    depthFirst vs starts = findCycle? vs starts := by
  cases hf : findCycle? vs starts with
  | some path => exact depthFirst_of_scans hd (scans_of_findCycle? hd hf)
  | none =>
    -- no start id is left over, so all of them are in order as far as vertices have them
    have horder : ∀ d ∈ starts, d ∈ vs.map Vertex.id → d ∈ (stableOrder vs).1 := by
      intro d hstart hm
      have hfree := (findCycle?_eq_none_iff hd).1 hf d hstart
      exact ((stableOrder_parted hd).whole d hm).resolve_right
        (mt (mem_left_iff_knotted hd d).1 hfree)
    obtain ⟨visited, hs, -⟩ := Scans.exhausts (stableOrder_parted hd).respected horder
      (List.forall_mem_nil fun d => d ∉ (stableOrder vs).1) []
    exact depthFirst_of_scans hd hs

/-- Whatever is on a cycle of needs is declared and left over. -/
theorem mem_of_isCycle (hd : (vs.map Vertex.id).Nodup) (h : IsCycle (Needs vs) path) :
    ∀ id ∈ path, id ∈ vs.map Vertex.id ∧ id ∈ (stableOrder vs).2.map fun v => v.id := by
  intro id hid
  have hround := h.transGen_of_mem hid
  have hleft := (mem_left_iff_knotted hd id).2 ⟨id, .refl, hround⟩
  exact ⟨(left_sublist vs).subset hleft, hleft⟩

/-- **The search for a cycle is sound and complete.** Vertices have distinct ids; start ids are any
ids, declared or not, in any order.

The depth-first search finds what `findCycle?` finds. It finds a cycle exactly when from some start
id needs lead to one. What it finds is a cycle of declared ids, each of which needs the next,
and can be reached from one of the start ids. From the ids that have no place in the stable order it
always finds a cycle, and that consists of such ids only. -/
theorem findCycle?_exact (hd : (vs.map Vertex.id).Nodup) (starts : List String) :
    depthFirst vs starts = findCycle? vs starts ∧
      ((∃ path, findCycle? vs starts = some path) ↔ ∃ start ∈ starts, Knotted vs start) ∧
      (∀ path, findCycle? vs starts = some path → IsCycle (Needs vs) path ∧
        (∀ id ∈ path, id ∈ vs.map Vertex.id) ∧
        ∃ start ∈ starts, ∀ id ∈ path, Relation.ReflTransGen (Needs vs) start id) ∧
      ∀ left, stableOrder? vs = .error left →
        ∃ path, findCycle? vs left = some path ∧ ∀ id ∈ path, id ∈ left := by
  refine ⟨depthFirst_eq hd starts, ?_, fun path hpath => ?_, fun left hleft => ?_⟩
  · rw [← Option.ne_none_iff_exists', ne_eq, findCycle?_eq_none_iff hd]
    simp only [not_forall, not_not, exists_prop]
  · obtain ⟨hcycle, hstart⟩ := of_findCycle? hd hpath
    exact ⟨hcycle, fun id hid => (mem_of_isCycle hd hcycle id hid).1, hstart⟩
  · obtain ⟨path, hpath, hcycle⟩ := exists_findCycle? hd hleft
    refine ⟨path, hpath, fun id hid => ?_⟩
    rw [left_of_stableOrder? hleft]
    exact (mem_of_isCycle hd hcycle id hid).2

/-- From an id that no stage has, a source, and a stage that is visited twice, the search comes to
the cycle behind the stage. -/
theorem findCycle?_exact_knot :
    let vs := Fixture.knot.map StageGraph.vertex
    (vs.map Vertex.id).Nodup ∧ ∃ path,
      depthFirst vs ["ghost", "source", "y", "y"] = some path ∧ IsCycle (Needs vs) path := by
  intro vs
  have hd : (vs.map Vertex.id).Nodup := by decide
  have hneeds : ∀ a b, (∃ v ∈ vs, v.id = a ∧ b ∈ v.needs ∧ b ∈ vs.map Vertex.id) → Needs vs a b :=
    fun a b h => h
  have hknotted : Knotted vs "y" := ⟨"y", .refl, .head (hneeds "y" "x" (by decide))
    (.head (hneeds "x" "z" (by decide)) (.single (hneeds "z" "y" (by decide))))⟩
  obtain ⟨hsearch, hiff, hsound, -⟩ := findCycle?_exact hd ["ghost", "source", "y", "y"]
  obtain ⟨path, hpath⟩ := hiff.2 ⟨"y", by decide, hknotted⟩
  exact ⟨hd, path, by rw [hsearch, hpath], (hsound path hpath).1⟩

end Vertex
end SignalPipeline
