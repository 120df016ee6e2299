import MicroRosArduino.ClockRuns

/-!
# How far behind the clock is

Any run of `clock_gettime`, however sparse its calls: what a call reports is behind the
true time by a whole turn of `micros()` for every rollover that was missed, and by one
microsecond for every rollover that was counted.

* `rolloversMissed` — the rollovers up to an instant that no call noticed.
* `clockTrace_behind` — **exactly how far behind**, and that it is never right again after
  the first rollover.
* `rolloversMissed_eq_zero_iff` — none is missed exactly when no gap is as long as a turn.
* `clockTrace_behind_iff` — **behind by a little or by an hour**: microseconds when no gap
  was that long, at least a whole turn more otherwise.
-/

namespace MicroRosArduino

open SampledCounter

/-- The rollovers counted by the calls up to the instant `T`. -/
def countedUpTo (Ts : List ℕ) (T : ℕ) : ℕ := rolloversCounted (Ts.filter (· ≤ T))

/-- The rollovers up to the instant `T` that none of the calls up to it noticed. -/
def rolloversMissed (Ts : List ℕ) (T : ℕ) : ℕ := T / 2 ^ 32 - countedUpTo Ts T

variable {Ts : List ℕ} {T : ℕ} {tp : Timespec}

theorem countedUpTo_le (hmono : Ts.Pairwise (· ≤ ·)) (T : ℕ) : countedUpTo Ts T ≤ T / 2 ^ 32 := by
  apply rolloversCounted_le (hmono.sublist List.filter_sublist)
  intro t ht
  exact of_decide_eq_true (List.mem_filter.1 ht).2

/-- A call reports its reading, and the credit for the rollovers counted up to it. -/
theorem clockTrace_reports (hmono : Ts.Pairwise (· ≤ ·)) (hroll : rolloversCounted Ts < 2 ^ 31)
    (h : (T, tp) ∈ clockTrace Ts) :
    tp = Timespec.ofMicros (T % 2 ^ 32 + rolloverCredit * countedUpTo Ts T) := by
  obtain ⟨v, rfl, hv⟩ := mem_clockTrace (by omega) h
  rw [Counter.value_of_mem_zip hmono hv]
  simp [countedUpTo, rolloversCounted]

/-- **Exactly how far behind.**  In any run, a call at the instant `T` reports a time that is
behind by `2 ^ 32` microseconds for every rollover missed up to then and by one for every
rollover counted; so it is right exactly when it is made before the first rollover. -/
theorem clockTrace_behind (hmono : Ts.Pairwise (· ≤ ·)) (hroll : rolloversCounted Ts < 2 ^ 31)
    (h : (T, tp) ∈ clockTrace Ts) :
    tp.micros + (2 ^ 32 * rolloversMissed Ts T + countedUpTo Ts T : ℕ) = T ∧
      (tp.Shows T ↔ T < 2 ^ 32) := by
  have hle := countedUpTo_le hmono T
  rw [clockTrace_reports hmono hroll h, Timespec.micros_ofMicros, Timespec.shows_ofMicros_iff]
  simp only [rolloversMissed, rolloverCredit]
  constructor
  · omega
  · omega

/-- A run of three calls of which the second misses a rollover and the third counts one. -/
theorem clockTrace_behind_missed :
    (Timespec.ofMicros 4294967296).micros
        + (2 ^ 32 * rolloversMissed [5, 4294967302, 8589934593] 8589934593
          + countedUpTo [5, 4294967302, 8589934593] 8589934593 : ℕ) = (8589934593 : ℕ) ∧
      ((Timespec.ofMicros 4294967296).Shows 8589934593 ↔ 8589934593 < 2 ^ 32) :=
  clockTrace_behind (by decide) (by decide) (by decide)

/-- No rollover up to `T` is missed exactly when no two successive calls up to it are a whole
turn apart. -/
theorem rolloversMissed_eq_zero_iff (hmono : Ts.Pairwise (· ≤ ·)) (hT : T ∈ Ts) :
    rolloversMissed Ts T = 0 ↔ NoMissedRollover (Ts.filter (· ≤ T)) := by
  have hle := countedUpTo_le hmono T
  have hmono' : (0 :: Ts.filter (· ≤ T)).Pairwise (· ≤ ·) :=
    zero_pairwise (hmono.sublist List.filter_sublist)
  have hlast : ∀ t ∈ 0 :: Ts.filter (· ≤ T), t ≤ T := by
    intro t ht
    rcases List.mem_cons.1 ht with rfl | ht
    · exact Nat.zero_le T
    · exact of_decide_eq_true (List.mem_filter.1 ht).2
  have hmem : T ∈ 0 :: Ts.filter (· ≤ T) :=
    List.mem_cons_of_mem _ (List.mem_filter.2 ⟨hT, by simp⟩)
  have hiff := descents_mod_eq_iff (N := 2 ^ 32) (by norm_num) hmono' hlast hmem
  rw [NoMissedRollover, ← hiff, rolloversMissed]
  simp only [countedUpTo, rolloversCounted, Nat.zero_mod, Nat.zero_div, Nat.add_zero] at hle ⊢
  omega

/-- **Behind by a little or by an hour.**  In any run, a call at the instant `T` is behind by
one microsecond for every rollover exactly when no two successive calls up to it, from boot
on, are a whole turn of `micros()` apart; otherwise it is behind by at least a whole turn,
some 71 minutes. -/
theorem clockTrace_behind_iff (hmono : Ts.Pairwise (· ≤ ·)) (hroll : rolloversCounted Ts < 2 ^ 31)
    (h : (T, tp) ∈ clockTrace Ts) :
    (tp.micros + (T / 2 ^ 32 : ℕ) = T ↔ NoMissedRollover (Ts.filter (· ≤ T))) ∧
      (¬ NoMissedRollover (Ts.filter (· ≤ T)) → tp.micros + 2 ^ 32 ≤ T) := by
  have hT : T ∈ Ts := (List.of_mem_zip h).1
  have hle := countedUpTo_le hmono T
  rw [← rolloversMissed_eq_zero_iff hmono hT, clockTrace_reports hmono hroll h,
    Timespec.micros_ofMicros]
  simp only [rolloversMissed, rolloverCredit]
  constructor
  · omega
  · omega

/-- A run that misses a rollover and one that does not. -/
theorem clockTrace_behind_iff_gaps :
    ((Timespec.ofMicros 10).micros + (4294967306 / 2 ^ 32 : ℕ) = (4294967306 : ℕ) ↔
        NoMissedRollover ([5, 4294967306].filter (· ≤ 4294967306))) ∧
      (¬ NoMissedRollover ([5, 4294967306].filter (· ≤ 4294967306)) →
        (Timespec.ofMicros 10).micros + 2 ^ 32 ≤ (4294967306 : ℕ)) :=
  clockTrace_behind_iff (by decide) (by decide) (by decide)

end MicroRosArduino
