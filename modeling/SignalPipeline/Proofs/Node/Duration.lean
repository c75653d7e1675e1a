import SignalPipeline.Node.Trace

/-!
# How long an execution took

The entry of an execution that has come to an end has the time of the end and a duration, which is
computed from a count of whole microseconds. The count is that of the time from the start to the
end, and zero where the end comes first. A count that does not fit a signed 64-bit word is lost: it
becomes zero too. Leap seconds count only where the start or the end lies in one, so time that goes
on across a leap second may be counted back.

* `Timestamp.instant`: a timestamp on a line without leap seconds.
* `Timestamp.elapsedMicros_eq`: the count, and when it is lost.
* `Timestamp.elapsedNanos_lt_of_before`, `Timestamp.elapsedNanos_lt_add_of_before`: the time to a
  later end, outside of leap seconds and across them.
* `TraceEntry.duration_exact`: what a finished entry says about its duration.
* `TraceEntry.duration_lost`: a time that is too long, and a leap second.
-/

namespace SignalPipeline

namespace Timestamp

variable {start stop later : Timestamp}

/-! ## Time without leap seconds -/

/-- The nanoseconds from the start of 1970, on a line without leap seconds. -/
def instant (t : Timestamp) : Int :=
  t.seconds * secondNanos + t.nanos

theorem elapsedNanos_eq (start stop : Timestamp) :
    elapsedNanos start stop =
      stop.instant - start.instant + leapSeconds start stop * secondNanos := by
  unfold elapsedNanos instant secondNanos
  omega

theorem leapSeconds_eq_zero (hstart : start.isLeap = false) (hstop : stop.isLeap = false) :
    leapSeconds start stop = 0 := by
  simp [leapSeconds, hstart, hstop]

/-- Outside of leap seconds the line has the order of time. -/
theorem instant_lt_of_before (h : stop.before later = true) (hstop : stop.isLeap = false) :
    stop.instant < later.instant := by
  simp only [before, Bool.or_eq_true, Bool.and_eq_true, decide_eq_true_eq, beq_iff_eq] at h
  simp only [isLeap, decide_eq_false_iff_not] at hstop
  unfold instant
  unfold secondNanos at *
  omega

/-- Outside of leap seconds more time passes to a later end. -/
theorem elapsedNanos_lt_of_before (h : stop.before later = true) (hstart : start.isLeap = false)
    (hstop : stop.isLeap = false) (hlater : later.isLeap = false) :
    elapsedNanos start stop < elapsedNanos start later := by
  have hinstant := instant_lt_of_before h hstop
  rw [elapsedNanos_eq, elapsedNanos_eq, leapSeconds_eq_zero hstart hstop,
    leapSeconds_eq_zero hstart hlater]
  omega

/-! ## Time across leap seconds -/

/-- Across a leap second the line may go back, but not by a whole second. -/
theorem instant_lt_add_of_before (h : stop.before later = true)
    (hstop : stop.nanos < 2 * secondNanos) : stop.instant < later.instant + secondNanos := by
  simp only [before, Bool.or_eq_true, Bool.and_eq_true, decide_eq_true_eq, beq_iff_eq] at h
  unfold instant
  unfold secondNanos at *
  omega

/-- A leap second counts once where the start lies in it, at an earlier time of day than the end,
and is taken back where the end lies in it, at an earlier time of day than the start. -/
theorem leapSeconds_cases (start stop : Timestamp) :
    leapSeconds start stop = 0 ∨
      leapSeconds start stop = 1 ∧ start.secondOfDay < stop.secondOfDay ∨
      leapSeconds start stop = -1 ∧ stop.secondOfDay < start.secondOfDay ∧ stop.isLeap = true := by
  unfold leapSeconds
  split
  · next h => exact .inr (.inl ⟨rfl, by simpa using (Bool.and_eq_true_iff.1 h).1⟩)
  · split
    · next h =>
      obtain ⟨hday, hleap⟩ := Bool.and_eq_true_iff.1 h
      exact .inr (.inr ⟨rfl, by simpa using hday, hleap⟩)
    · exact .inl rfl

/-- An end in a leap second, at an earlier time of day than an end before it, lies in another
second, and the leap second makes up for that of the end before. -/
theorem instant_lt_of_leap (h : stop.before later = true) (hstop : stop.nanos < 2 * secondNanos)
    (hday : later.secondOfDay < stop.secondOfDay) (hlater : later.isLeap = true) :
    stop.instant < later.instant := by
  have hnanos : secondNanos ≤ later.nanos := of_decide_eq_true hlater
  have hne : stop.seconds ≠ later.seconds := by
    intro he
    rw [secondOfDay, secondOfDay, he] at hday
    exact Int.lt_irrefl _ hday
  simp only [before, Bool.or_eq_true, Bool.and_eq_true, decide_eq_true_eq, beq_iff_eq] at h
  unfold instant
  unfold secondNanos at *
  omega

/-- Across leap seconds less time may be counted to a later end, but not two seconds less. -/
theorem elapsedNanos_lt_add_of_before (start : Timestamp) (h : stop.before later = true)
    (hstop : stop.nanos < 2 * secondNanos) :
    elapsedNanos start stop < elapsedNanos start later + 2 * secondNanos := by
  have hline := instant_lt_add_of_before h hstop
  rw [elapsedNanos_eq, elapsedNanos_eq]
  unfold secondNanos at hline ⊢
  rcases leapSeconds_cases start later with hlater | ⟨hlater, -⟩ | ⟨hlater, hday, hleap⟩
  · rcases leapSeconds_cases start stop with hs | ⟨hs, -⟩ | ⟨hs, -⟩ <;> omega
  · rcases leapSeconds_cases start stop with hs | ⟨hs, -⟩ | ⟨hs, -⟩ <;> omega
  · rcases leapSeconds_cases start stop with hs | ⟨hs, hday'⟩ | ⟨hs, -⟩
    · omega
    · -- the start lies in a leap second, and the later end in another one on a later day
      have hahead := instant_lt_of_leap h hstop (Int.lt_trans hday hday') hleap
      omega
    · omega

/-! ## The count of microseconds -/

/-- The whole microseconds from one timestamp to another; none where the second comes first. -/
def wholeMicros (start stop : Timestamp) : Nat :=
  (max 0 (elapsedNanos start stop)).toNat / microNanos

/-- The count is that of the whole microseconds, and zero where it does not fit. -/
theorem elapsedMicros_eq (start stop : Timestamp) :
    elapsedMicros start stop =
      if wholeMicros start stop < signedLimit then wholeMicros start stop else 0 := by
  unfold elapsedMicros elapsedMicros? wholeMicros signedLimit microNanos
  generalize elapsedNanos start stop = nanos
  dsimp only
  rcases Int.le_total 0 nanos with hn | hn
  · -- a quotient of two numbers from zero up
    have hquot : nanos.tdiv (1000 : Nat) = ((max 0 nanos).toNat / 1000 : Nat) := by
      rw [Int.ofNat_tdiv, Int.max_eq_right hn, Int.toNat_of_nonneg hn]
    rw [hquot]
    split
    · rw [if_pos (by omega)]
      rfl
    · rw [if_neg (by omega)]
      rfl
  · have hquot : nanos.tdiv (1000 : Nat) ≤ 0 := by
      have hneg : 0 ≤ (-nanos).tdiv (1000 : Nat) := Int.tdiv_nonneg (by omega) (by decide)
      rw [Int.neg_tdiv] at hneg
      omega
    have hnone : (max 0 nanos).toNat / 1000 = 0 := by omega
    rw [hnone, ite_self]
    split
    · exact Int.toNat_of_nonpos hquot
    · rfl

theorem elapsedMicros_lt (start stop : Timestamp) : elapsedMicros start stop < signedLimit := by
  rw [elapsedMicros_eq]
  split
  · assumption
  · decide

/-- The count is zero if less than a microsecond passed, or if it is lost. -/
theorem elapsedMicros_eq_zero_iff : elapsedMicros start stop = 0 ↔
    elapsedNanos start stop < microNanos ∨ signedLimit ≤ wholeMicros start stop := by
  have hzero : wholeMicros start stop = 0 ↔ elapsedNanos start stop < microNanos := by
    unfold wholeMicros microNanos
    omega
  rw [elapsedMicros_eq, ← hzero]
  split
  · omega
  · exact iff_of_true rfl (.inr (by omega))

theorem elapsedMicros_le_of_wholeMicros {n : Nat} (hfits : wholeMicros start later < signedLimit)
    (h : wholeMicros start stop ≤ wholeMicros start later + n) :
    elapsedMicros start stop ≤ elapsedMicros start later + n := by
  rw [elapsedMicros_eq, elapsedMicros_eq, if_pos hfits]
  split <;> omega

end Timestamp

/-! ## Finished entries -/

namespace TraceEntry

open Timestamp

/-- **What a finished entry says about its duration.** It has the end that it was given, and a
duration that is computed from a count of microseconds. The count is that of the whole microseconds
from the start to the end, none where the end comes first, and it is zero where these do not fit a
signed 64-bit word. So it is zero exactly if less than a microsecond passed or it does not fit. A
later end whose count fits has no smaller count, unless the start or one of the ends lies in a leap
second, and even then it is not smaller by more than two seconds. -/
theorem duration_exact (e : TraceEntry) (stop : Timestamp) (error : String) :
    let count := e.startTime.elapsedMicros stop
    (∀ f : TraceEntry, f = e.completedAt stop ∨ f = e.failedAt stop error →
      f.startTime = e.startTime ∧ f.endTime = some stop ∧
        f.duration = some (count.toUInt64.toFloat / 1000)) ∧
      count.toUInt64.toNat = count ∧
      count = (if e.startTime.wholeMicros stop < signedLimit then e.startTime.wholeMicros stop
        else 0) ∧
      (count = 0 ↔ e.startTime.elapsedNanos stop < microNanos ∨
        signedLimit ≤ e.startTime.wholeMicros stop) ∧
      (e.startTime.isLeap = false → stop.isLeap = false →
        e.startTime.elapsedNanos stop = stop.instant - e.startTime.instant) ∧
      ∀ later, stop.before later = true → e.startTime.wholeMicros later < signedLimit →
        (e.startTime.isLeap = false → stop.isLeap = false → later.isLeap = false →
          count ≤ e.startTime.elapsedMicros later) ∧
        (stop.Valid → count ≤ e.startTime.elapsedMicros later + 2000000) := by
  intro count
  refine ⟨?_, ?_, elapsedMicros_eq _ _, elapsedMicros_eq_zero_iff, fun hstart hstop => ?_,
    fun later hbefore hfits => ⟨fun hstart hstop hlater => ?_, fun hstop => ?_⟩⟩
  · rintro f (rfl | rfl)
    · exact ⟨rfl, rfl, rfl⟩
    · exact ⟨rfl, rfl, rfl⟩
  · have hlt := elapsedMicros_lt e.startTime stop
    unfold signedLimit at hlt
    exact Nat.mod_eq_of_lt (Nat.lt_trans hlt (by decide))
  · rw [elapsedNanos_eq, leapSeconds_eq_zero hstart hstop]
    omega
  · have hmore := elapsedNanos_lt_of_before hbefore hstart hstop hlater
    refine elapsedMicros_le_of_wholeMicros (n := 0) hfits ?_
    unfold wholeMicros microNanos
    omega
  · have hmore := elapsedNanos_lt_add_of_before e.startTime hbefore hstop.2.2.1
    refine elapsedMicros_le_of_wholeMicros hfits ?_
    unfold wholeMicros microNanos
    unfold secondNanos at hmore
    omega

/-- An end in the leap second at the end of 2016, and one right behind it. The first is counted with
the leap second and the second without it. -/
theorem duration_exact_leap :
    let e := startedAt "ta" .enrichment ⟨1483228798, 0⟩
    let stop : Timestamp := ⟨1483228799, 1500000000⟩
    let later : Timestamp := ⟨1483228800, 0⟩
    stop.Valid ∧ stop.before later = true ∧ e.startTime.wholeMicros later < signedLimit ∧
      (e.completedAt stop).endTime = some stop ∧
      (e.failedAt stop "timeout").duration = some ((2500000 : Nat).toUInt64.toFloat / 1000) ∧
      2500000 ≤ e.startTime.elapsedMicros later + 2000000 := by
  intro e stop later
  have hvalid : stop.Valid := ⟨by decide, by decide, by decide, by decide⟩
  have hbefore : stop.before later = true := by decide
  have hfits : e.startTime.wholeMicros later < signedLimit := by decide
  have hcount : e.startTime.elapsedMicros stop = 2500000 := by decide
  obtain ⟨hentry, -, -, -, -, hlater⟩ := duration_exact e stop "timeout"
  refine ⟨hvalid, hbefore, hfits, (hentry _ (.inl rfl)).2.1, ?_, ?_⟩
  · rw [← hcount]
    exact (hentry _ (.inr rfl)).2.2
  · rw [← hcount]
    exact (hlater later hbefore hfits).2 hvalid

/-- From the first timestamp to the last the count is lost, although it is not to the start of 1970;
and behind a leap second it is smaller than in it. -/
theorem duration_lost :
    let first : Timestamp := ⟨secondRange.1, 0⟩
    let last : Timestamp := ⟨secondRange.2, 999999999⟩
    let epoch : Timestamp := ⟨0, 0⟩
    let start : Timestamp := ⟨1483228798, 0⟩
    let stop : Timestamp := ⟨1483228799, 1500000000⟩
    let later : Timestamp := ⟨1483228800, 0⟩
    first.Valid ∧ last.Valid ∧ microNanos ≤ first.elapsedNanos last ∧
      ((startedAt "ta" .enrichment first).completedAt last).duration = some 0 ∧
      epoch.before last = true ∧ first.elapsedMicros last < first.elapsedMicros epoch ∧
      start.Valid ∧ stop.Valid ∧ later.Valid ∧ stop.before later = true ∧
      start.elapsedMicros later < start.elapsedMicros stop := by
  intro first last epoch start stop later
  have hlost : first.elapsedMicros last = 0 := by decide
  refine ⟨⟨by decide, by decide, by decide, by decide⟩,
    ⟨by decide, by decide, by decide, by decide⟩, by decide, ?_, by decide, by decide,
    ⟨by decide, by decide, by decide, by decide⟩,
    ⟨by decide, by decide, by decide, by decide⟩, ⟨by decide, by decide, by decide, by decide⟩,
    by decide, by decide⟩
  show some (elapsedMillis first last) = some 0
  rw [elapsedMillis, hlost]
  rfl

end TraceEntry
end SignalPipeline
