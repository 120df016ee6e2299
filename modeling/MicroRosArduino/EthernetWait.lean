import MicroRosArduino.Bench
import MicroRosArduino.Transports

/-!
# The native-Ethernet wait and its deadline

The wait loop of `arduino_native_ethernet_udp_transport_read` runs on
`uxr_millis()`, the milliseconds of `clock_gettime`.  That clock loses a
microsecond at every rollover of `micros()` and is cut to milliseconds, so what a
pass adds to the difference of two readings may be less than the millisecond it
took.

* `ReadsClock`, `PacedEthernetWait` — what the wait relies on: `uxr_millis()` is the
  clock of this repository, computed without overflow, and the checks come at
  least 1000 and fewer than `2 ^ 32` microseconds apart.
* `ethernetWait_clock` — **the clock along a wait**: at every check it has advanced
  by the true time less one microsecond for each rollover.
* `ethernetWait_guardAt_iff` — what a check compares.
* `DeadlineKept`, `ethernetWait_deadlineKept` — the wait ends and keeps its deadline,
  whatever the timeout and the statics of the clock.
-/

namespace MicroRosArduino

open CInt SampledCounter

variable {w : ℕ} {τ : Type} {P : Platform w τ} {now : τ → ℕ} {clock : τ → ClockStatics}
  {timeout : Int32} {s : τ}

/-! ## The clock -/

/-- The microseconds the statics of the clock stand for. -/
def ClockStatics.micros (c : ClockStatics) : ℕ := c.counter.value rolloverCredit

/-- What `clock_gettime` does when `uxr_millis()` is called in `s`; it reads `micros()` at
the time the call returns. -/
def readClock (P : Platform w τ) (now : τ → ℕ) (clock : τ → ClockStatics) (s : τ) :
    GettimeResult :=
  clockGettime (microsAt (now (P.uxrMillis s).2)) (clock s)

/-- The nanoseconds computed from the reading fit an `int64_t`. -/
def ReadFits (P : Platform w τ) (now : τ → ℕ) (clock : τ → ClockStatics) (s : τ) : Prop :=
  (readClock P now clock s).tp.nanos < 2 ^ 63

instance (P : Platform w τ) (now : τ → ℕ) (clock : τ → ClockStatics) (s : τ) :
    Decidable (ReadFits P now clock s) := inferInstanceAs (Decidable (_ < _))

/-- `uxr_millis()` is `(tv_sec * 10^9 + tv_nsec) / 10^6` of `clock_gettime`, as long as
that fits, and nothing else in the wait touches the clock's statics. -/
structure ReadsClock (P : Platform w τ) (now : τ → ℕ) (clock : τ → ClockStatics) : Prop where
  statics : ∀ s, clock (P.uxrMillis s).2 = (readClock P now clock s).statics
  millis : ∀ s, ReadFits P now clock s →
    (P.uxrMillis s).1.toInt = (readClock P now clock s).tp.nanos / 10 ^ 6
  parsePacket : ∀ s, clock (P.parsePacket s).2 = clock s
  delay : ∀ ms s, clock (P.delay ms s).2 = clock s

theorem readClock_tp (hP : ReadsClock P now clock) (s : τ) :
    (readClock P now clock s).tp = Timespec.ofMicros (clock (P.uxrMillis s).2).micros := by
  rw [hP.statics]
  exact clockGettime_tp _ _

/-- A reading that fits is the clock's count in milliseconds. -/
theorem uxrMillis_toInt (hP : ReadsClock P now clock) {s : τ} (h : ReadFits P now clock s) :
    (P.uxrMillis s).1.toInt = ((clock (P.uxrMillis s).2).micros / 1000 : ℕ) ∧
      (clock (P.uxrMillis s).2).micros * 1000 < 2 ^ 63 := by
  have hfits := h
  rw [ReadFits, readClock_tp hP, Timespec.nanos_ofMicros] at hfits
  refine ⟨?_, by exact_mod_cast hfits⟩
  rw [hP.millis s h, readClock_tp hP, Timespec.nanos_ofMicros]
  omega

/-- The clock has just been read at the time shown. -/
def ClockRead (now : τ → ℕ) (clock : τ → ClockStatics) (s : τ) : Prop :=
  (clock s).lastMeasure.toNat = now s % 2 ^ 32

theorem clockRead_uxrMillis (hP : ReadsClock P now clock) (s : τ) :
    ClockRead now clock (P.uxrMillis s).2 := by
  rw [ClockRead, hP.statics]
  exact toNat_microsAt _

/-- **One reading.**  Between two readings less than a rollover apart the count advances
by the true time, less one microsecond for each rollover. -/
theorem micros_uxrMillis (hP : ReadsClock P now clock) {r s : τ}
    (hread : ClockRead now clock r) (hclock : clock s = clock r)
    (hfits : (clock r).micros * 1000 < 2 ^ 63) (hle : now r ≤ now (P.uxrMillis s).2)
    (hlt : now (P.uxrMillis s).2 < now r + 2 ^ 32) :
    (clock (P.uxrMillis s).2).micros + now r + now (P.uxrMillis s).2 / 2 ^ 32
      = (clock r).micros + now (P.uxrMillis s).2 + now r / 2 ^ 32 := by
  have hroll : (clock r).rollover.toNat + 1 < 2 ^ 32 := by
    simp only [ClockStatics.micros, Counter.value, counter_wraps, rolloverCredit] at hfits
    omega
  have hdrop := drop_le_one (clock r).lastMeasure.toNat (microsAt (now (P.uxrMillis s).2)).toNat
  have hnext : (clock (P.uxrMillis s).2).counter
      = (clock r).counter.next (now (P.uxrMillis s).2 % 2 ^ 32) := by
    rw [hP.statics, readClock, hclock, clockGettime_counter (by omega), toNat_microsAt]
  have hlast : (clock r).counter.last = now r % 2 ^ 32 := hread
  have hgap := Counter.value_next_of_gap (K := rolloverCredit) (d := 1) hlast rfl hle hlt
  rw [← hnext, Nat.one_mul, Nat.one_mul] at hgap
  exact hgap

/-! ## The wait -/

/-- The wait loop of a native-Ethernet read called in `s`. -/
abbrev ethernetWait (P : Platform w τ) (timeout : Int32) (s : τ) : PollLoop τ :=
  Transport.nativeEthernet.waitLoop P timeout s

/-- The state in which the wait starts: `start_time` has just been read. -/
abbrev ethernetStart (P : Platform w τ) (s : τ) : τ := Transport.nativeEthernet.waitStart P s

/-- The true time of the `k`-th check. -/
def checkTime (P : Platform w τ) (now : τ → ℕ) (timeout : Int32) (s : τ) (k : ℕ) : ℕ :=
  now ((ethernetWait P timeout s).checked (ethernetStart P s) k)

/-- The clock's count at the `k`-th check. -/
def checkMicros (P : Platform w τ) (clock : τ → ClockStatics) (timeout : Int32) (s : τ) (k : ℕ) :
    ℕ :=
  (clock ((ethernetWait P timeout s).checked (ethernetStart P s) k)).micros

/-- The checks of the wait come 1000 to `2 ^ 32 - 1` microseconds apart, the first one
fewer than `2 ^ 32` after `start_time` was read, and no reading overflows. -/
structure PacedEthernetWait (P : Platform w τ) (now : τ → ℕ) (clock : τ → ClockStatics)
    (timeout : Int32) (s : τ) : Prop where
  paced : (ethernetWait P timeout s).Paced now (ethernetStart P s) (now (ethernetStart P s))
    1000 (2 ^ 32)
  start_fits : ReadFits P now clock s
  fits : ∀ k, (ethernetWait P timeout s).Reaches (ethernetStart P s) k →
    ReadFits P now clock ((ethernetWait P timeout s).stateAt (ethernetStart P s) k)

/-- **The clock along a wait.**  At every check the loop gets to, the clock has advanced by
the true time since `start_time` was read, less one microsecond for each rollover
since. -/
theorem ethernetWait_clock (hP : ReadsClock P now clock)
    (hwait : PacedEthernetWait P now clock timeout s) {k : ℕ}
    (hk : (ethernetWait P timeout s).Reaches (ethernetStart P s) k) :
    checkMicros P clock timeout s k + now (ethernetStart P s)
        + checkTime P now timeout s k / 2 ^ 32
      = (clock (ethernetStart P s)).micros + checkTime P now timeout s k
        + now (ethernetStart P s) / 2 ^ 32 := by
  induction k with
  | zero =>
    exact micros_uxrMillis hP (clockRead_uxrMillis hP s) rfl
      (uxrMillis_toInt hP hwait.start_fits).2 hwait.paced.first_le hwait.paced.first_lt
  | succ k ih =>
    have hreach := hk.mono _ (Nat.le_succ k)
    have hprev := ih hreach
    -- neither the poll nor the pause reads the clock
    have hframe : clock ((ethernetWait P timeout s).stateAt (ethernetStart P s) (k + 1))
        = clock ((ethernetWait P timeout s).checked (ethernetStart P s) k) := by
      rw [PollLoop.stateAt_succ']
      exact (hP.delay 1 _).trans (hP.parsePacket _)
    have hnext := hwait.paced.next_le k hk
    have hstep := micros_uxrMillis hP
      (clockRead_uxrMillis hP ((ethernetWait P timeout s).stateAt (ethernetStart P s) k))
      hframe (uxrMillis_toInt hP (hwait.fits k hreach)).2
      (le_trans (Nat.le_add_right _ _) hnext) (hwait.paced.next_lt k hk)
    change checkMicros P clock timeout s (k + 1) + checkTime P now timeout s k
        + checkTime P now timeout s (k + 1) / 2 ^ 32
      = checkMicros P clock timeout s k + checkTime P now timeout s (k + 1)
        + checkTime P now timeout s k / 2 ^ 32 at hstep
    omega

/-- What a check compares: the difference of two counts cut to milliseconds. -/
theorem ethernetWait_guardAt_iff (hP : ReadsClock P now clock)
    (hwait : PacedEthernetWait P now clock timeout s) {k : ℕ}
    (hk : (ethernetWait P timeout s).Reaches (ethernetStart P s) k) :
    (ethernetWait P timeout s).GuardAt (ethernetStart P s) k ↔
      ((checkMicros P clock timeout s k / 1000 : ℕ) : ℤ)
        < ((clock (ethernetStart P s)).micros / 1000 : ℕ) + timeout.toInt := by
  obtain ⟨hstart, hstartFits⟩ := uxrMillis_toInt hP hwait.start_fits
  obtain ⟨hcheck, hcheckFits⟩ := uxrMillis_toInt hP (hwait.fits k hk)
  have hguard : (ethernetWait P timeout s).GuardAt (ethernetStart P s) k ↔
      (P.uxrMillis ((ethernetWait P timeout s).stateAt (ethernetStart P s) k)).1
        - (P.uxrMillis s).1 < timeout.toInt64 := decide_eq_true_iff
  change (P.uxrMillis ((ethernetWait P timeout s).stateAt (ethernetStart P s) k)).1.toInt
    = (checkMicros P clock timeout s k / 1000 : ℕ) at hcheck
  change checkMicros P clock timeout s k * 1000 < 2 ^ 63 at hcheckFits
  change (P.uxrMillis s).1.toInt = ((clock (ethernetStart P s)).micros / 1000 : ℕ) at hstart
  change (clock (ethernetStart P s)).micros * 1000 < 2 ^ 63 at hstartFits
  rw [hguard, Int64.lt_iff_toInt_lt, Int32.toInt_toInt64, Int64.toInt_sub, hcheck, hstart,
    Int.bmod_eq_of_le (by omega) (by omega)]
  omega

/-! ## The deadline -/

/-- The wait of a read called in `s` ends and keeps its deadline: it ends after at most
`max(timeout, 0) + 1` polls, and after none for a timeout up to 0, by a poll that has
found a packet or with more than `1000 * (timeout - 1)` microseconds over; it starts
no poll once `1000 * timeout` microseconds and one more for each rollover have passed;
and it gives up only after more than `1000 * (timeout - 1)` microseconds. -/
structure DeadlineKept (P : Platform w τ) (now : τ → ℕ) (timeout : Int32) (s : τ) : Prop where
  terminates : ∃ l s', l.polls ≤ timeout.toInt.toNat + 1 ∧
    (timeout.toInt ≤ 0 → l.polls = 0) ∧
    (ethernetWait P timeout s).Outcome (ethernetStart P s) l s' ∧
    (l.found = false → now (ethernetStart P s) + 1000 * (timeout.toInt - 1) < now s') ∧
    ∀ fuel > timeout.toInt.toNat + 1,
      (ethernetWait P timeout s).run fuel (ethernetStart P s) = (some l, s')
  no_late_poll : ∀ k, (ethernetWait P timeout s).Polls (ethernetStart P s) k →
    (checkTime P now timeout s k : ℤ) < now (ethernetStart P s) + 1000 * timeout.toInt
      + (checkTime P now timeout s k / 2 ^ 32 - now (ethernetStart P s) / 2 ^ 32)
  no_early_leave : 0 < timeout.toInt →
    ∀ k, (ethernetWait P timeout s).Expires (ethernetStart P s) k →
      now (ethernetStart P s) + 1000 * (timeout.toInt - 1) < checkTime P now timeout s k

/-- A poll starts before the deadline. -/
theorem ethernetWait_poll_lt (hP : ReadsClock P now clock)
    (hwait : PacedEthernetWait P now clock timeout s) {k : ℕ}
    (hk : (ethernetWait P timeout s).Polls (ethernetStart P s) k) :
    (checkTime P now timeout s k : ℤ) < now (ethernetStart P s) + 1000 * timeout.toInt
      + (checkTime P now timeout s k / 2 ^ 32 - now (ethernetStart P s) / 2 ^ 32) := by
  have hclock := ethernetWait_clock hP hwait hk.1
  have hguard := (ethernetWait_guardAt_iff hP hwait hk.1).1 hk.2
  omega

/-- The wait gives up only when all but the last millisecond of its timeout has passed. -/
theorem ethernetWait_expires_gt (hP : ReadsClock P now clock)
    (hwait : PacedEthernetWait P now clock timeout s) {k : ℕ}
    (hk : (ethernetWait P timeout s).Expires (ethernetStart P s) k) :
    now (ethernetStart P s) + 1000 * (timeout.toInt - 1) < checkTime P now timeout s k := by
  have hclock := ethernetWait_clock hP hwait hk.1
  have hguard := hk.2
  rw [ethernetWait_guardAt_iff hP hwait hk.1] at hguard
  have helapsed : now (ethernetStart P s) + 1000 * k ≤ checkTime P now timeout s k :=
    hwait.paced.elapsed _ hk.1
  omega

/-- The wait ends, and late when it has found nothing. -/
theorem ethernetWait_terminates (hP : ReadsClock P now clock)
    (hwait : PacedEthernetWait P now clock timeout s) :
    ∃ l s', l.polls ≤ timeout.toInt.toNat + 1 ∧ (timeout.toInt ≤ 0 → l.polls = 0) ∧
      (ethernetWait P timeout s).Outcome (ethernetStart P s) l s' ∧
      (l.found = false → now (ethernetStart P s) + 1000 * (timeout.toInt - 1) < now s') ∧
      ∀ fuel > timeout.toInt.toNat + 1,
        (ethernetWait P timeout s).run fuel (ethernetStart P s) = (some l, s') := by
  have hmax := timeout.toInt_lt
  -- each rollover gives the polls one microsecond more, and takes `2 ^ 32` of them
  have hlast : ¬ (ethernetWait P timeout s).Polls (ethernetStart P s)
      (timeout.toInt.toNat + 1) := by
    intro hk
    have helapsed : now (ethernetStart P s) + 1000 * (timeout.toInt.toNat + 1)
      ≤ checkTime P now timeout s (timeout.toInt.toNat + 1) := hwait.paced.elapsed _ hk.1
    have hin := ethernetWait_poll_lt hP hwait hk
    omega
  obtain ⟨l, s', hpolls, hout, hlate, hrun⟩ := PollLoop.run_of_polls_lt
    (Q := fun u => (now (ethernetStart P s) : ℤ) + 1000 * (timeout.toInt - 1) < now u) _ hlast
    fun _ hk => ethernetWait_expires_gt hP hwait hk
  refine ⟨l, s', hpolls, ?_, hout, hlate, hrun⟩
  intro hneg
  refine hout.polls_eq_zero _ fun hk => ?_
  have helapsed : now (ethernetStart P s) ≤ checkTime P now timeout s 0 := hwait.paced.first_le
  have hin := ethernetWait_poll_lt hP hwait hk
  omega

/-- **The wait ends and keeps its deadline**, for every timeout, every state of the clock and
every schedule of arrivals, however many rollovers it spans. -/
theorem ethernetWait_deadlineKept (hP : ReadsClock P now clock)
    (hwait : PacedEthernetWait P now clock timeout s) : DeadlineKept P now timeout s where
  terminates := ethernetWait_terminates hP hwait
  no_late_poll _ hk := ethernetWait_poll_lt hP hwait hk
  no_early_leave _ _ hk := ethernetWait_expires_gt hP hwait hk

/-! ## A wait on the bench -/

theorem bench_readsClock : ReadsClock (Bench.platform w) Bench.now Bench.clock where
  statics _ := rfl
  millis b h := by
    have hnanos : (readClock (Bench.platform w) Bench.now Bench.clock b).tp.nanos
        = _ := congrArg Timespec.nanos (clockGettime_tp _ _)
    rw [Timespec.nanos_ofMicros] at hnanos
    rw [ReadFits] at h
    exact Int64.toInt_ofInt_of_le (n := (readClock (Bench.platform w) Bench.now Bench.clock
      b).tp.nanos / 10 ^ 6) (by omega) (by omega)
  parsePacket _ := rfl
  delay _ _ := rfl

/-- A board 500 microseconds before the first rollover. -/
def nearRollover : Bench :=
  { Bench.scripted [] with now := 4294966796, clock := { lastMeasure := 4294960000 } }

/-- A wait of 2 milliseconds there gets to three checks, the last two after the
rollover. -/
theorem nearRollover_reaches {k : ℕ}
    (hk : (ethernetWait (Bench.platform 32) 2 nearRollover).Reaches
      (ethernetStart (Bench.platform 32) nearRollover) k) : k < 4 := by
  by_contra hlt
  exact absurd (hk 3 (by omega)).1 (by decide)

theorem nearRollover_paced :
    PacedEthernetWait (Bench.platform 32) Bench.now Bench.clock 2 nearRollover := by
  refine ⟨⟨by decide, by decide, ?_, ?_⟩, by decide, ?_⟩
  · intro k hk
    have hlt : k < 3 := Nat.lt_of_succ_lt_succ (nearRollover_reaches hk)
    interval_cases k <;> decide
  · intro k hk
    have hlt : k < 3 := Nat.lt_of_succ_lt_succ (nearRollover_reaches hk)
    interval_cases k <;> decide
  · intro k hk
    have hlt := nearRollover_reaches hk
    interval_cases k <;> decide

/-- A wait of 2 milliseconds across the rollover. -/
theorem ethernetWait_nearRollover : DeadlineKept (Bench.platform 32) Bench.now 2 nearRollover :=
  ethernetWait_deadlineKept bench_readsClock nearRollover_paced

end MicroRosArduino
