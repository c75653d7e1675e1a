import SignalPipeline.Graph.Repetition

/-!
# Occurrences in order

* `Occurring`: the elements that occur at least so many times, in the order in which they get
  there.
* `occurring_firstOccurrences`, `occurring_repeated`: a list without its repetitions lists what
  occurs at least once, the list of its repetitions what occurs at least twice.
* `firstOccurrences_append`, `firstOccurrences_filter`, `firstOccurrences_map`: first occurrences
  of parts of a list.
-/

namespace SignalPipeline

variable {α β : Type} [BEq α] [LawfulBEq α] [BEq β] [LawfulBEq β]

/-- The elements that occur at least `n` times in a list, each once, in the order of their `n`-th
occurrences. -/
structure Occurring (n : Nat) (xs ys : List α) : Prop where
  distinct : ys.Nodup
  mem : ∀ x, x ∈ ys ↔ n ≤ xs.count x
  /-- Of two of them the one listed first gets there first. -/
  ordered : ys.Pairwise fun x y => ∃ front, front <+: xs ∧ n ≤ front.count x ∧ front.count y < n

/-- What occurs at least once, in the order of the first occurrences. -/
theorem occurring_firstOccurrences (xs : List α) : Occurring 1 xs (firstOccurrences xs) where
  distinct := nodup_firstOccurrences xs
  mem x := mem_firstOccurrences.trans List.one_le_count_iff.symm
  ordered := by
    induction xs with
    | nil => exact .nil
    | cons x xs ih =>
      rw [firstOccurrences, List.pairwise_cons]
      refine ⟨fun y hy => ⟨[x], ⟨xs, rfl⟩, by simp, ?_⟩, ?_⟩
      · have hne : y ≠ x := bne_iff_ne.1 (List.mem_filter.1 hy).2
        rw [List.count_cons_of_ne (Ne.symm hne), List.count_nil]
        exact Nat.zero_lt_one
      · refine (ih.filter _).imp_of_mem ?_
        rintro a b - hb ⟨front, hfront, ha, hb'⟩
        have hne : b ≠ x := bne_iff_ne.1 (List.mem_filter.1 hb).2
        refine ⟨x :: front, List.cons_prefix_cons.2 ⟨rfl, hfront⟩, ?_, ?_⟩
        · exact Nat.le_trans ha List.count_le_count_cons
        · rwa [List.count_cons_of_ne (Ne.symm hne)]

/-- The repetitions of a list behind a front part: what occurs again in it, as `seen` and `reported`
tell. -/
theorem repeated_behind {seen reported front : List α} (xs : List α)
    (hseen : ∀ x, x ∈ seen ↔ 1 ≤ front.count x)
    (hreported : ∀ x, x ∈ reported ↔ 2 ≤ front.count x) :
    (repeated seen reported xs).Nodup ∧
      (∀ x, x ∈ repeated seen reported xs ↔ front.count x < 2 ∧ 2 ≤ (front ++ xs).count x) ∧
      (repeated seen reported xs).Pairwise fun x y =>
        ∃ more, more <+: xs ∧ 2 ≤ (front ++ more).count x ∧ (front ++ more).count y < 2 := by
  induction xs generalizing seen reported front with
  | nil =>
    refine ⟨List.nodup_nil, fun x => ?_, .nil⟩
    simp only [repeated, List.not_mem_nil, List.append_nil, false_iff]
    omega
  | cons x xs ih =>
    have hone : ∀ y, y ≠ x → (front ++ [x]).count y = front.count y := fun y hy => by
      rw [List.count_append, List.count_singleton, beq_false_of_ne (Ne.symm hy)]
      rfl
    have hx : (front ++ [x]).count x = front.count x + 1 := by simp
    have hsplit : ∀ more : List α, front ++ x :: more = front ++ [x] ++ more := by simp
    have hbehind : ∀ ys : List α,
        (ys.Pairwise fun a b => ∃ more, more <+: xs ∧ 2 ≤ (front ++ [x] ++ more).count a ∧
          (front ++ [x] ++ more).count b < 2) →
        ys.Pairwise fun a b => ∃ more, more <+: x :: xs ∧ 2 ≤ (front ++ more).count a ∧
          (front ++ more).count b < 2 := by
      intro ys h
      refine h.imp ?_
      rintro a b ⟨more, hpre, h⟩
      exact ⟨x :: more, List.cons_prefix_cons.2 ⟨rfl, hpre⟩, by rwa [hsplit]⟩
    rw [repeated]
    split
    · next h =>
      -- the second occurrence of `x`
      simp only [Bool.and_eq_true, List.contains_iff_mem, Bool.not_eq_true', ← Bool.not_eq_true,
        hseen, hreported] at h
      obtain ⟨distinct, mem, ordered⟩ :=
        @ih seen (x :: reported) (front ++ [x])
          (fun y => by by_cases hy : y = x <;> grind) (fun y => by by_cases hy : y = x <;> grind)
      refine ⟨List.nodup_cons.2 ⟨?_, distinct⟩, fun y => ?_,
        List.pairwise_cons.2 ⟨?_, hbehind _ ordered⟩⟩
      · rw [mem, hx]
        omega
      · rw [List.mem_cons, mem, ← hsplit]
        by_cases hy : y = x
        · subst hy
          have : (front ++ [y]).count y ≤ (front ++ y :: xs).count y := by
            rw [hsplit xs]
            exact (List.sublist_append_left _ _).count_le y
          simp only [true_or, true_iff]
          omega
        · rw [hone y hy]
          simp [hy]
      · intro y hy
        refine ⟨[x], ⟨xs, rfl⟩, ?_, ((mem y).1 hy).1⟩
        omega
    · next h =>
      -- the first occurrence of `x`, or one after the second
      simp only [Bool.and_eq_true, List.contains_iff_mem, Bool.not_eq_true', ← Bool.not_eq_true,
        hseen, hreported] at h
      obtain ⟨distinct, mem, ordered⟩ :=
        @ih (x :: seen) reported (front ++ [x])
          (fun y => by by_cases hy : y = x <;> grind) (fun y => by by_cases hy : y = x <;> grind)
      refine ⟨distinct, fun y => ?_, hbehind _ ordered⟩
      rw [mem, ← hsplit]
      by_cases hy : y = x
      · subst hy
        omega
      · rw [hone y hy]

/-- What occurs at least twice, in the order of the second occurrences. -/
theorem occurring_repeated (xs : List α) : Occurring 2 xs (repeated [] [] xs) := by
  obtain ⟨distinct, mem, ordered⟩ :=
    @repeated_behind α _ _ [] [] [] xs (by simp) (by simp)
  exact ⟨distinct, by simpa using mem, by simpa using ordered⟩

/-! ## Parts of a list -/

theorem firstOccurrences_append {xs ys : List α} (h : ∀ x ∈ xs, x ∉ ys) :
    firstOccurrences (xs ++ ys) = firstOccurrences xs ++ firstOccurrences ys := by
  induction xs with
  | nil => rfl
  | cons x xs ih =>
    obtain ⟨hx, hxs⟩ := List.forall_mem_cons.1 h
    have hys : (firstOccurrences ys).filter (· != x) = firstOccurrences ys :=
      List.filter_eq_self.2 fun y hy =>
        bne_iff_ne.2 (ne_of_mem_of_not_mem (mem_firstOccurrences.1 hy) hx)
    rw [List.cons_append, firstOccurrences, ih hxs, List.filter_append, hys]
    rfl

theorem firstOccurrences_filter (p : α → Bool) (xs : List α) :
    firstOccurrences (xs.filter p) = (firstOccurrences xs).filter p := by
  induction xs with
  | nil => rfl
  | cons x xs ih =>
    rw [firstOccurrences]
    by_cases hx : p x
    · rw [List.filter_cons_of_pos hx, List.filter_cons_of_pos hx, firstOccurrences, ih,
        List.filter_filter, List.filter_filter]
      simp only [Bool.and_comm]
    · rw [List.filter_cons_of_neg hx, List.filter_cons_of_neg hx, ih, List.filter_filter]
      refine List.filter_congr fun y _ => ?_
      by_cases hy : y = x
      · simp [hy, hx]
      · simp [hy]

theorem firstOccurrences_map {f : α → β} (hf : ∀ x y, f x = f y → x = y) (xs : List α) :
    firstOccurrences (xs.map f) = (firstOccurrences xs).map f := by
  induction xs with
  | nil => rfl
  | cons x xs ih =>
    rw [List.map_cons, firstOccurrences, firstOccurrences, ih, List.map_cons, List.filter_map]
    congr 2
    refine List.filter_congr fun y _ => ?_
    rw [Function.comp_apply, Bool.eq_iff_iff, bne_iff_ne, bne_iff_ne, ne_eq, ne_eq]
    exact not_congr ⟨hf y x, fun h => h ▸ rfl⟩

end SignalPipeline
