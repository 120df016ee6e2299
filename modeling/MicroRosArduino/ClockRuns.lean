import MicroRosArduino.Clock

/-!
# What whole runs of `clock_gettime` report

The statics of `clock_gettime` carry over from call to call, so what a call
reports depends on the whole run before it.  Everything here is about runs from
the initial statics at nondecreasing true instants, with `micros()` the true
count modulo `2 ^ 32`.

* `clockTrace_drift` — **the credit for a rollover is one short**: a run that
  misses no rollover reports, at `T`, the instant `T - T / 2 ^ 32`.
* `clockTrace_shows_iff` — hence the run is exact precisely up to the first
  rollover, with `clockTrace_first_rollover` the run that shows it.
* `clockTrace_bounds` — however sparsely sampled, the clock never runs backwards
  and never runs fast.
* `clockTrace_sublist` — a run that reads the clock more often reports at least
  as much at every shared instant, and the same when nothing was missed.
-/

namespace MicroRosArduino

open SampledCounter

/-- The calls of a run from the initial statics: the true instant of each, and
the timespec it stored. -/
def clockTrace (Ts : List ℕ) : List (ℕ × Timespec) := Ts.zip (clockGettimeRun {} Ts)

/-- Successive instants, from boot on, less than one rollover apart. -/
def NoMissedRollover (Ts : List ℕ) : Prop :=
  (0 :: Ts).IsChain fun s t => s ≤ t ∧ t < s + 2 ^ 32

instance (Ts : List ℕ) : Decidable (NoMissedRollover Ts) :=
  inferInstanceAs (Decidable (List.IsChain _ _))

/-- Every call of the run has its entry. -/
@[simp] theorem map_fst_clockTrace (Ts : List ℕ) : (clockTrace Ts).map Prod.fst = Ts :=
  List.map_fst_zip (by simp)

theorem NoMissedRollover.pairwise {Ts : List ℕ} (h : NoMissedRollover Ts) :
    (0 :: Ts).Pairwise (· ≤ ·) := (h.imp fun _ _ hst => hst.1).pairwise

theorem zero_pairwise {Ts : List ℕ} (h : Ts.Pairwise (· ≤ ·)) : (0 :: Ts).Pairwise (· ≤ ·) :=
  List.pairwise_cons.2 ⟨fun _ _ => Nat.zero_le _, h⟩

/-- The counter's run behind a run of the clock: the instants and the counts. -/
def counterTrace (Ts : List ℕ) : List (ℕ × ℕ) :=
  Ts.zip ((Counter.exact (2 ^ 32) 0).values rolloverCredit (Ts.map (· % 2 ^ 32)))

/-- **The clock's run is its counter's run**, each count split into a timespec. -/
theorem clockTrace_eq {Ts : List ℕ} (hroll : rolloversCounted Ts < 2 ^ 32) :
    clockTrace Ts = (counterTrace Ts).map fun p => (p.1, Timespec.ofMicros p.2) := by
  have hcount : ({} : ClockStatics).rollover.toNat
      + descents ({} : ClockStatics).lastMeasure.toNat (Ts.map (· % 2 ^ 32)) < 2 ^ 32 := by
    simpa [rolloversCounted] using hroll
  rw [clockTrace, counterTrace, clockGettimeRun_eq hcount, counter_initial, Counter.exact_zero,
    List.zip_map_right]
  rfl

theorem mem_clockTrace {Ts : List ℕ} {T : ℕ} {tp : Timespec}
    (hroll : rolloversCounted Ts < 2 ^ 32) (h : (T, tp) ∈ clockTrace Ts) :
    ∃ v, tp = Timespec.ofMicros v ∧ (T, v) ∈ counterTrace Ts := by
  rw [clockTrace_eq hroll] at h
  obtain ⟨⟨U, v⟩, hmem, heq⟩ := List.mem_map.1 h
  obtain ⟨rfl, rfl⟩ := Prod.mk.inj heq
  exact ⟨v, rfl, hmem⟩

theorem getElem?_clockTrace {Ts : List ℕ} {T i : ℕ} {tp : Timespec}
    (hroll : rolloversCounted Ts < 2 ^ 32) (h : (clockTrace Ts)[i]? = some (T, tp)) :
    ∃ v, tp = Timespec.ofMicros v ∧ (counterTrace Ts)[i]? = some (T, v) := by
  rw [clockTrace_eq hroll, List.getElem?_map, Option.map_eq_some_iff] at h
  obtain ⟨⟨U, v⟩, hget, heq⟩ := h
  obtain ⟨rfl, rfl⟩ := Prod.mk.inj heq
  exact ⟨v, rfl, hget⟩

/-! ## Runs that miss no rollover -/

/-- The rollovers counted are at most the rollovers there were. -/
theorem rolloversCounted_le {Ts : List ℕ} {T : ℕ} (hmono : Ts.Pairwise (· ≤ ·))
    (hT : ∀ t ∈ Ts, t ≤ T) : rolloversCounted Ts ≤ T / 2 ^ 32 := by
  have h := descents_mod_le (2 ^ 32) (zero_pairwise hmono) (T := T) fun t ht => by
    rcases List.mem_cons.1 ht with rfl | ht
    · exact Nat.zero_le _
    · exact hT t ht
  simpa [rolloversCounted] using h

theorem rolloversCounted_lt {Ts : List ℕ} {n : ℕ} (hn : 0 < n) (hmono : Ts.Pairwise (· ≤ ·))
    (hroll : ∀ T ∈ Ts, T / 2 ^ 32 < n) : rolloversCounted Ts < n := by
  rcases List.eq_nil_or_concat' Ts with rfl | ⟨Us, U, rfl⟩
  · simpa [rolloversCounted] using hn
  · apply (rolloversCounted_le hmono _).trans_lt (hroll U (by simp))
    intro t ht
    rcases List.mem_append.1 ht with ht | ht
    · exact (List.pairwise_append.1 hmono).2.2 t ht U (by simp)
    · rw [List.mem_singleton.1 ht]

/-- **One microsecond is lost at every rollover.**  A run that misses no rollover
reports, at the instant `T`, the instant `T - T / 2 ^ 32`. -/
theorem clockTrace_drift {Ts : List ℕ} (hseen : NoMissedRollover Ts)
    (hroll : ∀ T ∈ Ts, T / 2 ^ 32 < 2 ^ 31) :
    clockTrace Ts = Ts.map fun T => (T, Timespec.ofMicros (T - T / 2 ^ 32)) := by
  have hmono := (List.pairwise_cons.1 hseen.pairwise).2
  have hcount := rolloversCounted_lt (by norm_num) hmono hroll
  have hzip : Ts.zip (Ts.map fun T => (Counter.exact (2 ^ 32) T).value rolloverCredit)
      = Ts.map fun T => (T, (Counter.exact (2 ^ 32) T).value rolloverCredit) := by
    rw [List.zip_eq_zipWith, List.zipWith_map_right, List.zipWith_self]
  rw [clockTrace_eq (by omega), counterTrace, Counter.values_exact hseen, hzip, List.map_map]
  apply List.map_congr_left
  intro T _
  have hvalue : (Counter.exact (2 ^ 32) T).value rolloverCredit = T - T / 2 ^ 32 := by
    simp only [Counter.exact, Counter.value, rolloverCredit]
    omega
  rw [Function.comp_apply, hvalue]

/-- **Exact precisely up to the first rollover.**  In a run that misses no
rollover, every call stores the true time if and only if no call was made at or
after `2 ^ 32` microseconds of uptime. -/
theorem clockTrace_shows_iff {Ts : List ℕ} (hseen : NoMissedRollover Ts)
    (hroll : ∀ T ∈ Ts, T / 2 ^ 32 < 2 ^ 31) :
    (∀ p ∈ clockTrace Ts, p.2.Shows p.1) ↔ ∀ T ∈ Ts, T < 2 ^ 32 := by
  rw [clockTrace_drift hseen hroll, List.forall_mem_map]
  apply forall₂_congr
  intro T _
  rw [Timespec.shows_ofMicros_iff]
  omega

/-- A run of two calls with no rollover between them. -/
theorem clockTrace_shows_no_rollover :
    (∀ p ∈ clockTrace [5, 4294967295], p.2.Shows p.1) ↔ ∀ T ∈ [5, 4294967295], T < 2 ^ 32 :=
  clockTrace_shows_iff (by decide) (by decide)

/-- The two calls around the first rollover: the one at `2 ^ 32` stores the time
of the one before it, one microsecond short of the truth. -/
theorem clockTrace_first_rollover :
    NoMissedRollover [4294967295, 4294967296] ∧
      (∀ T ∈ [4294967295, 4294967296], T / 2 ^ 32 < 2 ^ 31) ∧
      ¬ ∀ p ∈ clockTrace [4294967295, 4294967296], p.2.Shows p.1 := by
  refine ⟨by decide, by decide, ?_⟩
  intro h
  have hlast : (4294967296, ⟨4294, 967295000⟩) ∈ clockTrace [4294967295, 4294967296] := by
    decide
  exact absurd (h _ hlast).2 (by decide)

/-! ## Any runs at all -/

/-- **Never backwards, never fast.**  However sparsely the clock is read, every
stored timespec is well formed and at most the true time, and between any two
calls the reported time rises by at most the true time between them and never
falls. -/
theorem clockTrace_bounds {Ts : List ℕ} (hmono : Ts.Pairwise (· ≤ ·))
    (hroll : rolloversCounted Ts < 2 ^ 31) :
    (∀ p ∈ clockTrace Ts, p.2.WellFormed ∧ p.2.micros ≤ p.1) ∧
      ∀ (i j T U : ℕ) (r s : Timespec), i ≤ j →
        (clockTrace Ts)[i]? = some (T, r) → (clockTrace Ts)[j]? = some (U, s) →
        0 ≤ s.micros - r.micros ∧ s.micros - r.micros ≤ U - T ∧ r ≤ s := by
  have hcount : rolloversCounted Ts < 2 ^ 32 := by omega
  have hpair := Counter.values_pairwise (N := 2 ^ 32) (K := rolloverCredit)
    (c := Counter.exact (2 ^ 32) 0) (a := 0) (by norm_num) rfl (by norm_num [rolloverCredit])
    (by norm_num [rolloverCredit]) (zero_pairwise hmono)
  obtain ⟨hfirst, hrest⟩ := List.pairwise_cons.1 hpair
  constructor
  · rintro ⟨T, tp⟩ h
    obtain ⟨v, rfl, hv⟩ := mem_clockTrace hcount h
    have hslow := (hfirst _ hv).2
    simp only [Counter.exact_zero, Counter.value] at hslow
    refine ⟨Timespec.wellFormed_ofMicros v, ?_⟩
    rw [Timespec.micros_ofMicros]
    omega
  · intro i j T U r s hij hi hj
    obtain ⟨u, rfl, hu⟩ := getElem?_clockTrace hcount hi
    obtain ⟨v, rfl, hv⟩ := getElem?_clockTrace hcount hj
    have hstep : u ≤ v ∧ v + T ≤ u + U := by
      rcases Nat.lt_or_eq_of_le hij with hlt | rfl
      · obtain ⟨hi', hu'⟩ := List.getElem?_eq_some_iff.1 hu
        obtain ⟨hj', hv'⟩ := List.getElem?_eq_some_iff.1 hv
        have h := List.pairwise_iff_getElem.1 hrest i j hi' hj' hlt
        change (counterTrace Ts)[i].2 ≤ (counterTrace Ts)[j].2 ∧
          (counterTrace Ts)[j].2 + (counterTrace Ts)[i].1
            ≤ (counterTrace Ts)[i].2 + (counterTrace Ts)[j].1 at h
        rwa [hu', hv'] at h
      · obtain ⟨rfl, rfl⟩ := Prod.mk.inj (Option.some.inj (hu.symm.trans hv))
        omega
    rw [Timespec.micros_ofMicros, Timespec.micros_ofMicros, Timespec.ofMicros_le_ofMicros]
    omega

/-- A run with a repeated instant and two rollovers of which one went unseen. -/
theorem clockTrace_bounds_missed :
    (∀ p ∈ clockTrace [7, 7, 8589934593], p.2.WellFormed ∧ p.2.micros ≤ p.1) ∧
      ∀ (i j T U : ℕ) (r s : Timespec), i ≤ j →
        (clockTrace [7, 7, 8589934593])[i]? = some (T, r) →
        (clockTrace [7, 7, 8589934593])[j]? = some (U, s) →
        0 ≤ s.micros - r.micros ∧ s.micros - r.micros ≤ U - T ∧ r ≤ s :=
  clockTrace_bounds (by decide) (by decide)

/-! ## Two runs over one timeline -/

/-- **Reading the clock more often never disturbs it.**  At every instant two
runs share, the one with the extra calls reports at least as much; and when the
sparser run misses no rollover the two timespecs are equal. -/
theorem clockTrace_sublist {A B : List ℕ} (hsub : A.Sublist B) (hmono : B.Pairwise (· ≤ ·))
    (hA : rolloversCounted A < 2 ^ 31) (hB : rolloversCounted B < 2 ^ 31) :
    (∀ T r s, (T, r) ∈ clockTrace A → (T, s) ∈ clockTrace B → r ≤ s) ∧
      (NoMissedRollover A → ∀ T r s, (T, r) ∈ clockTrace A → (T, s) ∈ clockTrace B → r = s) := by
  constructor
  · intro T r s hr hs
    obtain ⟨u, rfl, hu⟩ := mem_clockTrace (by omega) hr
    obtain ⟨v, rfl, hv⟩ := mem_clockTrace (by omega) hs
    rw [Timespec.ofMicros_le_ofMicros]
    exact Counter.values_le_of_sublist hsub hmono hu hv
  · intro hseen T r s hr hs
    obtain ⟨u, rfl, hu⟩ := mem_clockTrace (by omega) hr
    obtain ⟨v, rfl, hv⟩ := mem_clockTrace (by omega) hs
    rw [Counter.values_eq_of_sublist hsub (zero_pairwise hmono) hseen hu hv]

/-- A run that misses nothing, against one that reads the clock twice more around
the rollover. -/
theorem clockTrace_sublist_rollover :
    (∀ T r s, (T, r) ∈ clockTrace [6, 4294967300] →
        (T, s) ∈ clockTrace [6, 4294967295, 4294967296, 4294967300] → r ≤ s) ∧
      (NoMissedRollover [6, 4294967300] →
        ∀ T r s, (T, r) ∈ clockTrace [6, 4294967300] →
          (T, s) ∈ clockTrace [6, 4294967295, 4294967296, 4294967300] → r = s) :=
  clockTrace_sublist (by decide) (by decide) (by decide) (by decide)

end MicroRosArduino
