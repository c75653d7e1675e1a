import SignalPipeline.Json.Basic

/-!
# Sorted members

Members sorted by key ascend, and where the keys are distinct nothing is lost.

* `ascending_sortMembers`: the keys ascend.
* `mem_keys_sortMembers`: no key is lost.
* `perm_sortMembers`: members with distinct keys are only put into another order.
* `sortMembers_of_ascending`: members that ascend already stay as they are.
* `lookup_sortMembers_reverse`: a look-up finds the last of the members with its key.
* `lookup_sortMembers`: among distinct keys it finds what it found before.
* `Ascending.eq_of_lookup`: ascending members with the same look-ups are the same.
-/

namespace SignalPipeline

variable {α : Type} {key : String} {value : α} {ms : List (String × α)}

theorem mem_insertMember {m : String × α} (h : m ∈ insertMember key value ms) :
    m = (key, value) ∨ m ∈ ms := by
  induction ms with
  | nil => exact .inl (List.mem_singleton.1 h)
  | cons n ms ih =>
    obtain ⟨k, v⟩ := n
    rw [insertMember] at h
    split at h
    · exact List.mem_cons.1 h
    · split at h
      · exact (List.mem_cons.1 h).imp_right (List.mem_cons_of_mem _)
      · rcases List.mem_cons.1 h with rfl | h
        · exact .inr List.mem_cons_self
        · exact (ih h).imp_right (List.mem_cons_of_mem _)

/-- Putting a member in keeps the keys ascending. -/
theorem ascending_insertMember (h : Ascending ms) : Ascending (insertMember key value ms) := by
  induction ms with
  | nil => simp [Ascending, insertMember]
  | cons n ms ih =>
    obtain ⟨k, v⟩ := n
    rw [Ascending, List.map_cons, List.pairwise_cons] at h
    obtain ⟨hk, hms⟩ := h
    rw [insertMember]
    split
    · next hlt =>
      rw [Ascending, List.map_cons, List.pairwise_cons, List.map_cons]
      refine ⟨fun k' hk' => ?_, List.pairwise_cons.2 ⟨hk, hms⟩⟩
      rcases List.mem_cons.1 hk' with rfl | hk'
      · exact hlt
      · exact String.lt_trans hlt (hk k' hk')
    · next hlt =>
      split
      · next he =>
        subst he
        exact List.pairwise_cons.2 ⟨hk, hms⟩
      · next hne =>
        rw [Ascending, List.map_cons, List.pairwise_cons]
        refine ⟨fun k' hk' => ?_, ih hms⟩
        obtain ⟨m, hm, rfl⟩ := List.mem_map.1 hk'
        rcases mem_insertMember hm with rfl | hm
        · exact Std.lt_of_le_of_ne (Std.not_lt.1 hlt) (Ne.symm hne)
        · exact hk _ (List.mem_map_of_mem hm)

/-- Sorting members invents none. -/
theorem mem_sortMembers {m : String × α} (h : m ∈ sortMembers ms) : m ∈ ms := by
  have hf : ∀ ms acc : List (String × α),
      m ∈ ms.foldl (fun sorted n => insertMember n.1 n.2 sorted) acc → m ∈ acc ∨ m ∈ ms := by
    intro ms
    induction ms with
    | nil => exact fun acc h => .inl h
    | cons n ms ih =>
      intro acc h
      rcases ih _ h with h | h
      · rcases mem_insertMember h with rfl | h
        · exact .inr List.mem_cons_self
        · exact .inl h
      · exact .inr (List.mem_cons_of_mem _ h)
  exact (hf ms [] h).resolve_left List.not_mem_nil

theorem mem_keys_insertMember {k : String} :
    k ∈ (insertMember key value ms).map Prod.fst ↔ k = key ∨ k ∈ ms.map Prod.fst := by
  induction ms with
  | nil => simp [insertMember]
  | cons m ms ih =>
    rw [insertMember]
    split
    · simp
    · split
      · next h => simp [h]
      · rw [List.map_cons, List.mem_cons, ih, List.map_cons, List.mem_cons]
        grind

/-- Sorting members loses no key. -/
theorem mem_keys_sortMembers {k : String} :
    k ∈ (sortMembers ms).map Prod.fst ↔ k ∈ ms.map Prod.fst := by
  have hf : ∀ ms acc : List (String × α),
      k ∈ (ms.foldl (fun sorted m => insertMember m.1 m.2 sorted) acc).map Prod.fst ↔
        k ∈ ms.map Prod.fst ∨ k ∈ acc.map Prod.fst := by
    intro ms
    induction ms with
    | nil => simp
    | cons m ms ih =>
      intro acc
      rw [List.foldl_cons, ih, mem_keys_insertMember, List.map_cons, List.mem_cons]
      grind
  have := hf ms []
  rwa [List.map_nil, or_iff_left List.not_mem_nil] at this

theorem perm_insertMember (h : key ∉ ms.map Prod.fst) :
    (insertMember key value ms).Perm ((key, value) :: ms) := by
  induction ms with
  | nil => exact .refl _
  | cons n ms ih =>
    obtain ⟨k, v⟩ := n
    rw [List.map_cons, List.mem_cons, not_or] at h
    rw [insertMember, if_neg h.1]
    split
    · exact .refl _
    · exact ((ih h.2).cons _).trans (.swap _ _ _)

/-- The keys of sorted members ascend. -/
theorem ascending_sortMembers (ms : List (String × α)) : Ascending (sortMembers ms) := by
  have h : ∀ ms acc : List (String × α), Ascending acc →
      Ascending (ms.foldl (fun sorted m => insertMember m.1 m.2 sorted) acc) := by
    intro ms
    induction ms with
    | nil => exact fun acc h => h
    | cons m ms ih => exact fun acc h => ih _ (ascending_insertMember h)
  exact h ms [] List.Pairwise.nil

/-- Sorting members with distinct keys only changes their order. -/
theorem perm_sortMembers (h : (ms.map Prod.fst).Nodup) : (sortMembers ms).Perm ms := by
  have hf : ∀ ms acc : List (String × α), ((ms ++ acc).map Prod.fst).Nodup →
      (ms.foldl (fun sorted m => insertMember m.1 m.2 sorted) acc).Perm (ms ++ acc) := by
    intro ms
    induction ms with
    | nil => exact fun acc _ => .refl _
    | cons m ms ih =>
      intro acc hd
      have hn : m.1 ∉ acc.map Prod.fst := by
        intro hm
        rw [List.cons_append, List.map_cons, List.nodup_cons, List.map_append] at hd
        exact hd.1 (List.mem_append_right _ hm)
      have hp : (ms ++ insertMember m.1 m.2 acc).Perm (m :: ms ++ acc) :=
        ((perm_insertMember hn).append_left ms).trans List.perm_middle
      exact (ih _ ((hp.map Prod.fst).nodup_iff.2 hd)).trans hp
  have := hf ms [] (by rwa [List.append_nil])
  rwa [List.append_nil] at this

/-- A member with a greater key than all others goes to the end. -/
theorem insertMember_of_lt (h : ∀ k ∈ ms.map Prod.fst, k < key) :
    insertMember key value ms = ms ++ [(key, value)] := by
  induction ms with
  | nil => rfl
  | cons n ms ih =>
    obtain ⟨k, v⟩ := n
    obtain ⟨hk, hms⟩ := List.forall_mem_cons.1 h
    have hne : key ≠ k := fun he => String.lt_irrefl k (he ▸ hk)
    rw [insertMember, if_neg (String.lt_asymm hk), if_neg hne, ih hms]
    rfl

/-- Members that ascend already are sorted. -/
theorem sortMembers_of_ascending (h : Ascending ms) : sortMembers ms = ms := by
  have hf : ∀ ms acc : List (String × α), Ascending (acc ++ ms) →
      ms.foldl (fun sorted m => insertMember m.1 m.2 sorted) acc = acc ++ ms := by
    intro ms
    induction ms with
    | nil => exact fun acc _ => (List.append_nil acc).symm
    | cons m ms ih =>
      intro acc h
      have hlt : ∀ k ∈ acc.map Prod.fst, k < m.1 := by
        rw [Ascending, List.map_append, List.pairwise_append] at h
        exact fun k hk => h.2.2 k hk m.1 List.mem_cons_self
      rw [List.append_cons acc m ms] at h ⊢
      rw [List.foldl_cons, insertMember_of_lt hlt]
      exact ih _ h
  exact hf ms [] h

/-- What a look-up finds among distinct keys. -/
theorem lookup_eq_some_of_mem (hd : (ms.map Prod.fst).Nodup) (h : (key, value) ∈ ms) :
    ms.lookup key = some value := by
  induction ms with
  | nil => cases h
  | cons n ms ih =>
    obtain ⟨k, v⟩ := n
    obtain ⟨hn, hd⟩ := List.nodup_cons.1 hd
    rw [List.lookup_cons]
    rcases List.mem_cons.1 h with he | hm
    · obtain ⟨rfl, rfl⟩ := Prod.mk.inj he
      rw [beq_self_eq_true]
    · have hne : key ≠ k := fun he => hn (List.mem_map.2 ⟨_, hm, he⟩)
      rw [beq_false_of_ne hne]
      exact ih hd hm

theorem mem_of_lookup (h : ms.lookup key = some value) : (key, value) ∈ ms := by
  obtain ⟨before, after, rfl, -⟩ := List.lookup_eq_some_iff.1 h
  exact List.mem_append_right _ List.mem_cons_self

theorem lookup_cons_ite (m : String × α) (ms : List (String × α)) (k : String) :
    (m :: ms).lookup k = if k = m.1 then some m.2 else ms.lookup k := by
  rw [List.lookup_cons]
  by_cases h : k = m.1
  · simp [h]
  · simp [h, beq_false_of_ne h]

theorem lookup_insertMember (ms : List (String × α)) (k : String) :
    (insertMember key value ms).lookup k = if k = key then some value else ms.lookup k := by
  induction ms with
  | nil => exact lookup_cons_ite _ _ k
  | cons n ms ih =>
    rw [insertMember]
    split
    · exact lookup_cons_ite _ _ k
    · split
      · next he => grind [lookup_cons_ite]
      · next hne => grind [lookup_cons_ite]

/-- The last of the members with a key counts. -/
theorem lookup_sortMembers_reverse (ms : List (String × α)) (k : String) :
    (sortMembers ms).lookup k = ms.reverse.lookup k := by
  have hf : ∀ ms acc : List (String × α),
      (ms.foldl (fun sorted m => insertMember m.1 m.2 sorted) acc).lookup k =
        (ms.reverse.lookup k).or (acc.lookup k) := by
    intro ms
    induction ms with
    | nil => exact fun acc => rfl
    | cons m ms ih =>
      intro acc
      rw [List.foldl_cons, ih, lookup_insertMember, List.reverse_cons, List.lookup_append]
      grind [lookup_cons_ite]
  exact (hf ms []).trans (Option.or_none)

/-- Sorting members with distinct keys changes no look-up. -/
theorem lookup_sortMembers (h : (ms.map Prod.fst).Nodup) (key : String) :
    (sortMembers ms).lookup key = ms.lookup key := by
  have hp := perm_sortMembers h
  have hs := (hp.map Prod.fst).nodup_iff.2 h
  cases hl : ms.lookup key with
  | some v => exact lookup_eq_some_of_mem hs (hp.mem_iff.2 (mem_of_lookup hl))
  | none =>
    rcases hr : (sortMembers ms).lookup key with _ | v
    · rfl
    · rw [lookup_eq_some_of_mem h (hp.mem_iff.1 (mem_of_lookup hr))] at hl
      cases hl

theorem Ascending.nodup (h : Ascending ms) : (ms.map Prod.fst).Nodup :=
  List.Pairwise.imp (fun hlt => Std.ne_of_lt hlt) h

theorem Ascending.pairwise (h : Ascending ms) : ms.Pairwise fun m n => m.1 < n.1 :=
  List.pairwise_map.1 h

/-- There is one order in which members ascend. -/
theorem Ascending.eq_of_perm {ns : List (String × α)} (hms : Ascending ms) (hns : Ascending ns)
    (h : ms.Perm ns) : ms = ns :=
  h.eq_of_pairwise (fun _ _ _ _ hab hba => absurd hab (String.lt_asymm hba)) hms.pairwise
    hns.pairwise

/-- Ascending members are the same if every look-up among them finds the same. -/
theorem Ascending.eq_of_lookup {ns : List (String × α)} (hms : Ascending ms) (hns : Ascending ns)
    (h : ∀ key, ms.lookup key = ns.lookup key) : ms = ns := by
  have hmem : ∀ m, m ∈ ms ↔ m ∈ ns := fun m =>
    ⟨fun hm => mem_of_lookup ((h m.1).symm.trans (lookup_eq_some_of_mem hms.nodup hm)),
      fun hm => mem_of_lookup ((h m.1).trans (lookup_eq_some_of_mem hns.nodup hm))⟩
  have hnodup : ∀ {l : List (String × α)}, Ascending l → l.Nodup := fun hl =>
    hl.pairwise.imp fun hlt => mt (congrArg Prod.fst) (Std.ne_of_lt hlt)
  exact hms.eq_of_perm hns ((List.perm_ext_iff_of_nodup (hnodup hms) (hnodup hns)).2 hmem)

end SignalPipeline
