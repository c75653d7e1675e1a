/-!
# Repetitions in lists

* `firstOccurrences`: a list without its repetitions.
* `repeated`: the elements that are repeated.
-/

namespace SignalPipeline

variable {α : Type} [BEq α]

/-- The first occurrence of each element, in order. -/
def firstOccurrences : List α → List α
  | [] => []
  | x :: xs => x :: (firstOccurrences xs).filter (· != x)

/-- The elements that occur again, each once, in the order of their second occurrences. -/
def repeated (seen reported : List α) : List α → List α
  | [] => []
  | x :: xs =>
    if seen.contains x && !reported.contains x then x :: repeated seen (x :: reported) xs
    else repeated (x :: seen) reported xs

variable [LawfulBEq α]

theorem mem_firstOccurrences {x : α} {xs : List α} : x ∈ firstOccurrences xs ↔ x ∈ xs := by
  induction xs with
  | nil => rfl
  | cons y ys ih =>
    rw [firstOccurrences, List.mem_cons, List.mem_cons, List.mem_filter, ih, bne_iff_ne]
    by_cases h : x = y
    · simp [h]
    · simp [h]

theorem nodup_firstOccurrences (xs : List α) : (firstOccurrences xs).Nodup := by
  induction xs with
  | nil => exact List.nodup_nil
  | cons x xs ih =>
    rw [firstOccurrences, List.nodup_cons]
    exact ⟨by simp, ih.filter _⟩

/-- Where nothing is repeated the elements are distinct, and none was seen before. -/
theorem nodup_of_repeated {seen xs : List α} (h : repeated seen [] xs = []) :
    xs.Nodup ∧ ∀ x ∈ xs, x ∉ seen := by
  induction xs generalizing seen with
  | nil => exact ⟨List.nodup_nil, fun x hx => by cases hx⟩
  | cons x xs ih =>
    rw [repeated] at h
    split at h
    · cases h
    · next hx =>
      obtain ⟨hn, hs⟩ := ih h
      refine ⟨List.nodup_cons.2 ⟨fun hm => hs x hm List.mem_cons_self, hn⟩, fun y hy => ?_⟩
      rcases List.mem_cons.1 hy with rfl | hy
      · simpa using hx
      · exact fun hm => hs y hy (List.mem_cons_of_mem _ hm)

end SignalPipeline
