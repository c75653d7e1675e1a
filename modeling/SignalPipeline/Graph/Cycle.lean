import SignalPipeline.Graph.Order

/-!
# Cycles

A vertex that the stable order leaves over needs another one that is left over. Walking from it,
each time to the first such need, comes back to the walk: that part of the walk is a cycle.

* `findCycle?`: a cycle that can be reached from one of the start ids, its first id repeated at
  the end.
-/

namespace SignalPipeline

namespace Vertex.Waiting

/-- Walks along the first needs that are left over until an id repeats. `unseen` are the vertices
left over that the walk has not come to, `trail` the ids it has come to. -/
def walk (left unseen : List Waiting) (trail : List String) (id : String) : Option (List String) :=
  match _h : unseen.find? (named id) with
  | none => if trail.contains id then some (trail.dropWhile (· != id) ++ [id]) else none
  | some v =>
    match v.needs.find? (answered left) with
    | none => none
    | some next => walk left (unseen.eraseP (named id)) (trail ++ [id]) next
termination_by unseen.length
decreasing_by
  have hv := List.find?_some _h
  have hm := List.mem_of_find?_eq_some _h
  have := List.length_eraseP_of_mem hm hv
  have := List.length_pos_of_mem hm
  omega

end Vertex.Waiting

/-- A cycle that can be reached from one of the start ids: from the first of them that reaches
one. -/
def findCycle? (vs : List Vertex) (starts : List String) : Option (List String) :=
  let left := (stableOrder vs).2.filter Vertex.Waiting.answers
  (starts.find? (Vertex.Waiting.answered left)).bind (Vertex.Waiting.walk left left [])

end SignalPipeline
