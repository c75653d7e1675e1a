import SignalPipeline.Proofs.Replay.Findings

/-!
# Which classifications a comparison tells apart

Two classifications are compared by their words: the label, and behind it in brackets whether the
signal is a duplicate, and of which one. The words tell classifications apart but for one case.
Where the id of an earlier signal ends in words like those between the brackets, everything in front
of these words may also be a label, and then two classifications that differ read alike.

* `NoveltyInfo.Alike`: two classifications, either of which may be absent, agree but for the time.
* `NoveltyInfo.ReadsAs`: the words of one classification may also be those of the other.
* `NoveltyInfo.stableText_eq_iff`: words are equal exactly in these two cases.
* `Comparison.noveltyLine_exact`: what the line about classifications says.
* `Comparison.noveltyLine_misses`: a difference that it misses.
-/

namespace SignalPipeline

namespace NoveltyInfo

variable {n m : NoveltyInfo}

/-- Classifications agree in everything but the time. -/
def Alike : Option NoveltyInfo → Option NoveltyInfo → Prop
  | none, none => True
  | some n, some m =>
    n.classification = m.classification ∧ n.isDuplicate = m.isDuplicate ∧
      n.duplicateOf = m.duplicateOf
  | _, _ => False

/-- The words between the label and the id of the earlier signal. -/
def lead (duplicate : Bool) : String :=
  s!" (duplicate={duplicate}, of="

/-- The words behind the label, without the closing bracket. -/
def verdict (n : NoveltyInfo) : String :=
  match n.duplicateOf with
  | some earlier => lead n.isDuplicate ++ earlier
  | none => s!" (duplicate={n.isDuplicate}"

/-- The id of the earlier signal ends in the words behind another label, and that label is made of
everything in front of them. -/
def ReadsAs (n m : NoveltyInfo) : Prop :=
  ∃ part, n.duplicateOf = some (part ++ m.verdict) ∧
    m.classification = n.classification ++ lead n.isDuplicate ++ part

/-! ## The words of a classification -/

theorem stableText_eq (n : NoveltyInfo) : n.stableText = n.classification ++ n.verdict ++ ")" := by
  unfold stableText verdict
  cases n.duplicateOf with
  | none =>
    simp only [String.append_assoc]
    rfl
  | some earlier =>
    simp only [lead, String.append_assoc]
    rfl

/-- Whether a signal is a duplicate is read off the words behind its label. -/
theorem duplicate_inj {d d' : Bool} {rest rest' : List Char}
    (h : " (duplicate=".toList ++ (toString d).toList ++ rest =
      " (duplicate=".toList ++ (toString d').toList ++ rest') : d = d' ∧ rest = rest' := by
  rw [List.append_assoc, List.append_assoc] at h
  have htail := List.append_cancel_left h
  cases d <;> cases d'
  · exact ⟨rfl, List.append_cancel_left htail⟩
  · cases htail
  · cases htail
  · exact ⟨rfl, List.append_cancel_left htail⟩

/-- The words behind a label: whether there is a duplicate, and then the earlier signal. -/
theorem toList_verdict (n : NoveltyInfo) : n.verdict.toList =
    " (duplicate=".toList ++ (toString n.isDuplicate).toList ++
      n.duplicateOf.elim [] fun earlier => ", of=".toList ++ earlier.toList := by
  unfold verdict
  cases n.duplicateOf with
  | none =>
    simp only [String.toList_append, Option.elim_none, List.append_nil]
    rfl
  | some earlier =>
    simp only [lead, String.toList_append, Option.elim_some, List.append_assoc]
    rfl

theorem verdict_inj (h : n.verdict = m.verdict) :
    n.isDuplicate = m.isDuplicate ∧ n.duplicateOf = m.duplicateOf := by
  have hchars := congrArg String.toList h
  rw [toList_verdict, toList_verdict] at hchars
  obtain ⟨hduplicate, hearlier⟩ := duplicate_inj hchars
  refine ⟨hduplicate, ?_⟩
  cases ho : n.duplicateOf with
  | none =>
    cases ho' : m.duplicateOf with
    | none => rfl
    | some earlier' => simp [ho, ho'] at hearlier
  | some earlier =>
    cases ho' : m.duplicateOf with
    | none => simp [ho, ho'] at hearlier
    | some earlier' => simpa [ho, ho', String.toList_inj] using hearlier

/-- Where a text has a bracket behind a space, it stands behind every front of the text that has no
bracket and does not end in a space. -/
theorem exists_part_of_append {front behind before after : List Char} (hbracket : '(' ∉ front)
    (hspace : front.getLast? ≠ some ' ')
    (h : front ++ behind = before ++ ' ' :: '(' :: after) :
    ∃ part, before = front ++ part ∧ behind = part ++ ' ' :: '(' :: after := by
  rcases List.append_eq_append_iff.1 h with ⟨part, hbefore, hbehind⟩ | ⟨part, hfront, hafter⟩
  · exact ⟨part, hbefore, hbehind⟩
  · -- the front would have to end inside of the two characters, or behind them
    match part with
    | [] => exact ⟨[], by simpa using hfront.symm, hafter.symm⟩
    | [c] =>
      obtain ⟨rfl, -⟩ := List.cons_eq_cons.1 hafter
      simp [hfront] at hspace
    | c :: c' :: part =>
      simp only [List.cons_append, List.cons.injEq] at hafter
      obtain ⟨rfl, rfl, -⟩ := hafter
      simp [hfront] at hbracket

/-- Words that begin with a bracket behind a space and have no other such bracket, nor an end that
another bracket could stand behind. -/
def Opens (words : List Char) : Prop :=
  ∃ front, words = ' ' :: '(' :: front ∧ '(' ∉ front ∧ front.getLast? ≠ some ' '

theorem opens_lead (duplicate : Bool) : Opens (lead duplicate).toList := by
  cases duplicate with
  | false => exact ⟨"duplicate=false, of=".toList, rfl, by decide, by decide⟩
  | true => exact ⟨"duplicate=true, of=".toList, rfl, by decide, by decide⟩

theorem opens_bare (duplicate : Bool) : Opens (s!" (duplicate={duplicate}").toList := by
  cases duplicate with
  | false => exact ⟨"duplicate=false".toList, rfl, by decide, by decide⟩
  | true => exact ⟨"duplicate=true".toList, rfl, by decide, by decide⟩

/-- Where a text begins with such words and has a bracket behind a space further on, this stands
behind the words. -/
theorem Opens.exists_part {words behind before after : List Char} (hwords : Opens words)
    (hne : before ≠ []) (h : words ++ behind = before ++ ' ' :: '(' :: after) :
    ∃ part, before = words ++ part ∧ behind = part ++ ' ' :: '(' :: after := by
  obtain ⟨front, rfl, hbracket, hspace⟩ := hwords
  match before with
  | [] => exact absurd rfl hne
  | [c] => simp at h
  | c :: c' :: before =>
    simp only [List.cons_append, List.cons.injEq] at h
    obtain ⟨rfl, rfl, h⟩ := h
    obtain ⟨part, rfl, hbehind⟩ := exists_part_of_append hbracket hspace h
    exact ⟨part, rfl, hbehind⟩

theorem verdict_opens (n : NoveltyInfo) : ∃ after, n.verdict.toList = ' ' :: '(' :: after :=
  ⟨_, toList_verdict n⟩

/-- If the words behind a label end in other such words, these lie within the id of the earlier
signal. -/
theorem exists_part_of_verdict {before : List Char} (hne : before ≠ [])
    (h : n.verdict.toList = before ++ m.verdict.toList) :
    ∃ earlier part, n.duplicateOf = some earlier ∧ before = (lead n.isDuplicate).toList ++ part ∧
      earlier.toList = part ++ m.verdict.toList := by
  obtain ⟨after, hafter⟩ := m.verdict_opens
  rw [hafter] at h ⊢
  rw [verdict] at h
  cases ho : n.duplicateOf with
  | none =>
    rw [ho] at h
    obtain ⟨part, -, hbehind⟩ :=
      (opens_bare n.isDuplicate).exists_part hne ((List.append_nil _).trans h)
    simp at hbehind
  | some earlier =>
    rw [ho, String.toList_append] at h
    obtain ⟨part, hbefore, hbehind⟩ := (opens_lead n.isDuplicate).exists_part hne h
    exact ⟨earlier, part, rfl, hbefore, hbehind⟩

/-- If the words behind a label end in those behind another one, and the other label is what stands
in front of these, the classifications agree or one reads as the other. -/
theorem alike_or_readsAs {before : List Char}
    (hlabel : m.classification.toList = n.classification.toList ++ before)
    (h : n.verdict.toList = before ++ m.verdict.toList) :
    Alike (some n) (some m) ∨ n.ReadsAs m := by
  by_cases hne : before = []
  · subst hne
    rw [List.append_nil, String.toList_inj] at hlabel
    exact .inl ⟨hlabel.symm, verdict_inj (String.toList_inj.1 h)⟩
  · obtain ⟨earlier, part, ho, rfl, hearlier⟩ := exists_part_of_verdict hne h
    refine .inr ⟨String.ofList part, ho.trans (congrArg some ?_), ?_⟩
    · simpa [← String.toList_inj] using hearlier
    · simpa [← String.toList_inj] using hlabel

theorem ReadsAs.stableText_eq (h : n.ReadsAs m) : n.stableText = m.stableText := by
  obtain ⟨part, ho, hlabel⟩ := h
  rw [NoveltyInfo.stableText_eq, NoveltyInfo.stableText_eq, hlabel, verdict, ho]
  simp only [String.append_assoc]

/-- A label that takes in the words behind another one is longer. -/
theorem ReadsAs.not_alike (h : n.ReadsAs m) : n.classification ≠ m.classification := by
  obtain ⟨part, -, hlabel⟩ := h
  intro he
  rw [← he] at hlabel
  have hlength := congrArg String.length hlabel
  simp only [String.length_append] at hlength
  have : 0 < (lead n.isDuplicate).length := by cases n.isDuplicate <;> decide
  omega

/-- **Where words fail.** The words of two classifications are equal exactly if the classifications
agree, or if one of them reads as the other. -/
theorem stableText_eq_iff :
    n.stableText = m.stableText ↔ Alike (some n) (some m) ∨ n.ReadsAs m ∨ m.ReadsAs n := by
  constructor
  · intro h
    have hchars : n.classification.toList ++ n.verdict.toList =
        m.classification.toList ++ m.verdict.toList := by
      rw [NoveltyInfo.stableText_eq, NoveltyInfo.stableText_eq] at h
      have htexts := congrArg String.toList h
      simp only [String.toList_append] at htexts
      exact List.append_cancel_right htexts
    rcases List.append_eq_append_iff.1 hchars with
      ⟨part, hlabel, hverdict⟩ | ⟨part, hlabel, hverdict⟩
    · exact (alike_or_readsAs hlabel hverdict).imp_right .inl
    · rcases alike_or_readsAs hlabel hverdict with ⟨h, h', h''⟩ | h
      · exact .inl ⟨h.symm, h'.symm, h''.symm⟩
      · exact .inr (.inr h)
  · rintro (⟨hlabel, hduplicate, hearlier⟩ | h | h)
    · unfold stableText
      rw [hlabel, hduplicate, hearlier]
    · exact h.stableText_eq
    · exact h.stableText_eq.symm

/-- A classification whose earlier signal, if it names one, has an id without words like those
behind a label. -/
def Plain (n : NoveltyInfo) : Prop :=
  ∀ earlier, n.duplicateOf = some earlier → ¬ " (duplicate=".toList <:+: earlier.toList

theorem Plain.not_readsAs (h : n.Plain) : ¬ n.ReadsAs m := by
  rintro ⟨part, ho, -⟩
  refine h _ ho ?_
  rw [String.toList_append, toList_verdict, List.append_assoc]
  exact List.infix_append' _ _ _

end NoveltyInfo

/-! ## The line about classifications -/

theorem Finding.unchanged_line_iff (f : Finding) :
    "unchanged:".toList <+: f.line.toList ↔ f.changed = false := by
  rw [toList_line, ← List.isPrefixOf_iff_prefix]
  cases f.changed with
  | false => exact iff_of_true rfl rfl
  | true => exact iff_of_false Bool.false_ne_true Bool.noConfusion

namespace Comparison

open NoveltyInfo

theorem unchanged_ofNovelty_iff (before after : Option NoveltyInfo) :
    "unchanged:".toList <+: (Finding.ofNovelty before after).line.toList ↔
      before.map stableText = after.map stableText := by
  rw [Finding.unchanged_line_iff, ← Bool.not_eq_true, (Finding.says_ofNovelty before after).changed,
    not_not]

/-- **The line about classifications.** It is the last line of a comparison. It says that nothing
changed exactly if both classifications are absent, or both are present and agree in everything but
the time, or one of them reads as the other; in this last case they differ. So the line is right
wherever no id of an earlier signal has words in it like those behind a label. -/
theorem noveltyLine_exact (stored recomputed : ScoredResult) (epsilon : Float) :
    ∃ line, (ofResults stored recomputed epsilon).lines[6]? = some line ∧
      ("unchanged:".toList <+: line.toList ↔
        Alike stored.novelty recomputed.novelty ∨
          ∃ n m, stored.novelty = some n ∧ recomputed.novelty = some m ∧
            (n.ReadsAs m ∨ m.ReadsAs n)) ∧
      (∀ n m : NoveltyInfo, n.ReadsAs m ∨ m.ReadsAs n → n.classification ≠ m.classification) ∧
      ((∀ n, stored.novelty = some n ∨ recomputed.novelty = some n → n.Plain) →
        ("unchanged:".toList <+: line.toList ↔ Alike stored.novelty recomputed.novelty)) := by
  have hexact : "unchanged:".toList <+:
        (Finding.ofNovelty stored.novelty recomputed.novelty).line.toList ↔
      Alike stored.novelty recomputed.novelty ∨
        ∃ n m, stored.novelty = some n ∧ recomputed.novelty = some m ∧
          (n.ReadsAs m ∨ m.ReadsAs n) := by
    rw [unchanged_ofNovelty_iff]
    cases stored.novelty with
    | none =>
      cases recomputed.novelty with
      | none => simp [Alike]
      | some m => simp [Alike]
    | some n =>
      cases recomputed.novelty with
      | none => simp [Alike]
      | some m => simp [stableText_eq_iff]
  refine ⟨_, rfl, hexact, ?_, fun hplain => hexact.trans (or_iff_left ?_)⟩
  · rintro n m (h | h)
    · exact h.not_alike
    · exact h.not_alike.symm
  · rintro ⟨n, m, hn, hm, h | h⟩
    · exact (hplain n (.inl hn)).not_readsAs h
    · exact (hplain m (.inr hm)).not_readsAs h

/-- Two classifications with brackets in their labels and ids, made at different times: they differ,
and the line says so. -/
theorem noveltyLine_exact_bracketed :
    let n : NoveltyInfo :=
      ⟨"copy (duplicate=true, of=sig-1)", false, some "sig-2", some Fixture.scoredAt⟩
    let m : NoveltyInfo := ⟨"copy", true, some "sig-1) (of sig-2", none⟩
    let stored := { Fixture.outcome.result with novelty := some n }
    let recomputed := { Fixture.outcome.result with novelty := some m }
    (∀ k, stored.novelty = some k ∨ recomputed.novelty = some k → k.Plain) ∧
      ∃ line, (ofResults stored recomputed defaultEpsilon).lines[6]? = some line ∧
        ¬ "unchanged:".toList <+: line.toList := by
  intro n m stored recomputed
  have hplain : ∀ k, stored.novelty = some k ∨ recomputed.novelty = some k → k.Plain := by
    rintro k (⟨⟨⟩⟩ | ⟨⟨⟩⟩) _ ⟨⟨⟩⟩ <;> decide
  obtain ⟨line, hline, -, -, hright⟩ := noveltyLine_exact stored recomputed defaultEpsilon
  refine ⟨hplain, line, hline, fun h => ?_⟩
  have hdifferent : n.classification ≠ m.classification := by decide
  exact hdifferent ((hright hplain).1 h).1

/-- Two classifications of which one is a duplicate of an earlier signal and the other is none: the
line says that nothing changed. -/
theorem noveltyLine_misses :
    let n : NoveltyInfo := ⟨"copy", true, some "sig-1) (duplicate=false", none⟩
    let m : NoveltyInfo := ⟨"copy (duplicate=true, of=sig-1)", false, none, none⟩
    let stored := { Fixture.outcome.result with novelty := some n }
    let recomputed := { Fixture.outcome.result with novelty := some m }
    ∃ line, (ofResults stored recomputed defaultEpsilon).lines[6]? = some line ∧
      "unchanged:".toList <+: line.toList ∧ ¬ Alike stored.novelty recomputed.novelty := by
  intro n m stored recomputed
  have hreads : n.ReadsAs m := ⟨"sig-1)", by decide, by decide⟩
  refine ⟨_, rfl, ?_, fun h => hreads.not_alike h.1⟩
  exact (unchanged_ofNovelty_iff _ _).2 (congrArg some hreads.stableText_eq)

end Comparison
end SignalPipeline
