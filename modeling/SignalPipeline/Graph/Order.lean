/-!
# Stable topological order

Vertices with the ids they need are put into an order in which every vertex follows what it needs.
Of several vertices that are ready, the one declared first comes first. Ids that no vertex has are
no need. Where an id is declared several times, the last of its vertices answers for it.

Each vertex counts the occurrences of needs that are still to come; a vertex whose count is zero is
ready.

* `stableOrder`: the order as far as it goes, and the vertices that are left.
* `stableOrder?`: the order, or the ids of the vertices on or behind a cycle.
-/

namespace SignalPipeline

/-- An id with the ids it needs. -/
structure Vertex where
  id : String
  needs : List String
  deriving Repr, DecidableEq

namespace Vertex

/-- A vertex on its way into the order. -/
structure Waiting extends Vertex where
  /-- Whether the vertex answers for its id. -/
  answers : Bool
  /-- How many occurrences of needs are still to come. -/
  pending : Nat
  deriving Repr, DecidableEq

namespace Waiting

/-- Whether a vertex has an id. -/
def named (id : String) (v : Waiting) : Bool :=
  v.id == id

/-- Whether nothing that a vertex needs is still to come. -/
def isReady (v : Waiting) : Bool :=
  v.pending == 0

/-- The vertex after another one was taken into the order. -/
def settle (taken v : Waiting) : Waiting :=
  { v with pending := v.pending - (if taken.answers then v.needs.count taken.id else 0) }

/-- Whether one of the vertices answers for an id. -/
def answered (vs : List Waiting) (id : String) : Bool :=
  vs.any fun v => v.answers && v.id == id

/-- Takes the first ready vertex until none is ready: the ids taken, and the vertices left. -/
def drain (left : List Waiting) : List String × List Waiting :=
  match _h : left.find? isReady with
  | none => ([], left)
  | some v =>
    let (order, rest) := drain ((left.eraseP isReady).map (settle v))
    (v.id :: order, rest)
termination_by left.length
decreasing_by
  have hv := List.find?_some _h
  have hm := List.mem_of_find?_eq_some _h
  have := List.length_eraseP_of_mem hm hv
  have := List.length_pos_of_mem hm
  simp only [List.length_map]
  omega

end Waiting

/-- The vertices before any is taken, given the ids that some vertex has. The last vertex of each
id answers for it. -/
def await (declared : List String) : List Vertex → List Waiting
  | [] => []
  | v :: vs =>
    ⟨v, !(vs.any fun w => w.id == v.id), v.needs.countP declared.contains⟩ :: await declared vs

end Vertex

/-- The stable order as far as it goes, and the vertices that are left. -/
def stableOrder (vs : List Vertex) : List String × List Vertex.Waiting :=
  Vertex.Waiting.drain (Vertex.await (vs.map Vertex.id) vs)

/-- The stable order; if vertices are left, their ids in declared order. -/
def stableOrder? (vs : List Vertex) : Except (List String) (List String) :=
  let (order, left) := stableOrder vs
  if left.isEmpty then .ok order else .error (left.map fun v => v.id)

end SignalPipeline
