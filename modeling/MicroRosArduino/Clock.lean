import MicroRosArduino.Foundation.SampledCounter

/-!
# `clock_gettime`: the board's clock

The clock of `default_transport.cpp`.  The core's `micros()` wraps every
`2 ^ 32` microseconds; `clock_gettime` keeps two statics, the rollovers it has
seen and its last reading, and rebuilds a running count from them.

* `ClockStatics`, `Timespec`, `clockGettime` — the function as the source has
  it, with the reading of `micros()` as an argument; `clockGettimeRun` runs it
  over a list of true instants.
* `Timespec.ofMicros` — the split of a microsecond count into seconds and
  nanoseconds, with `micros_ofMicros` and `ofMicros_le_ofMicros` to read it back.
* `clockGettime_counter`, `clockGettime_tp` — **the refinement**: a call is one
  sample of a `SampledCounter.Counter` that credits `microRolloverUseconds` for
  every wrap; `clockGettimeRun_eq` carries that along a run.
-/

namespace MicroRosArduino

open SampledCounter

/-! ## The source -/

/-- The two `static` variables of `clock_gettime`. -/
structure ClockStatics where
  /-- Rollovers of `micros()` seen so far. -/
  rollover : UInt32 := 0
  /-- The last reading of `micros()`. -/
  lastMeasure : UInt32 := 0
  deriving DecidableEq, Repr

/-- `struct timespec`.  `tv_sec` is taken wide enough for its value, whatever the
target's `time_t`; `tv_nsec` is a `long`, 32 bits on these targets. -/
structure Timespec where
  /-- Whole seconds. -/
  tvSec : ℤ
  /-- Nanoseconds within the second. -/
  tvNsec : Int32
  deriving DecidableEq, Repr

/-- What a call of `clock_gettime` leaves: its return value, the timespec it
stored through `tp`, and its statics. -/
structure GettimeResult where
  /-- The return value. -/
  ret : Int32
  /-- The stored timespec. -/
  tp : Timespec
  /-- The statics after the call. -/
  statics : ClockStatics
  deriving DecidableEq, Repr

/-- `#define micro_rollover_useconds 4294967295`, on a 32-bit target a `long long`. -/
def microRolloverUseconds : Int64 := 4294967295

/-- `clock_gettime`, at a reading `m` of `micros()`.  The product and the sum are
taken in `long long`, the type of the literal; they stay below `2 ^ 63` for
fewer than `2 ^ 31` rollovers. -/
def clockGettime (m : UInt32) (c : ClockStatics) : GettimeResult :=
  let rollover := c.rollover + (if m < c.lastMeasure then 1 else 0)
  let realUs : UInt64 :=
    (m.toUInt64.toInt64 + rollover.toUInt64.toInt64 * microRolloverUseconds).toUInt64
  { ret := 0
    tp := { tvSec := (realUs / 1000000).toNat
            tvNsec := (realUs % 1000000 * 1000).toUInt32.toInt32 }
    statics := { rollover := rollover, lastMeasure := m } }

/-- `micros()` at the true instant `T`, in microseconds since boot. -/
def microsAt (T : ℕ) : UInt32 := UInt32.ofNat T

/-- The timespecs stored by successive calls at the true instants of a list. -/
def clockGettimeRun (c : ClockStatics) : List ℕ → List Timespec
  | [] => []
  | T :: Ts =>
    (clockGettime (microsAt T) c).tp :: clockGettimeRun (clockGettime (microsAt T) c).statics Ts

/-- The rollovers `clock_gettime` counts along a run from its initial statics:
readings below the one before. -/
def rolloversCounted (Ts : List ℕ) : ℕ := descents 0 (Ts.map (· % 2 ^ 32))

@[simp] theorem toNat_microsAt (T : ℕ) : (microsAt T).toNat = T % 2 ^ 32 := UInt32.toNat_ofNat

@[simp] theorem clockGettime_lastMeasure (m : UInt32) (c : ClockStatics) :
    (clockGettime m c).statics.lastMeasure = m := rfl

@[simp] theorem length_clockGettimeRun (c : ClockStatics) (Ts : List ℕ) :
    (clockGettimeRun c Ts).length = Ts.length := by
  induction Ts generalizing c with
  | nil => rfl
  | cons T Ts ih => simp [clockGettimeRun, ih]

/-! ## Timespecs -/

namespace Timespec

/-- The order of two timespecs: by seconds, then by nanoseconds. -/
instance : LE Timespec :=
  ⟨fun a b => a.tvSec < b.tvSec ∨ a.tvSec = b.tvSec ∧ a.tvNsec.toInt ≤ b.tvNsec.toInt⟩

/-- The microseconds a timespec stands for. -/
def micros (t : Timespec) : ℤ := t.tvSec * 10 ^ 6 + t.tvNsec.toInt / 1000

/-- The nanoseconds a timespec stands for. -/
def nanos (t : Timespec) : ℤ := t.tvSec * 10 ^ 9 + t.tvNsec.toInt

/-- A well-formed timespec of a microsecond clock. -/
def WellFormed (t : Timespec) : Prop :=
  0 ≤ t.tvNsec.toInt ∧ t.tvNsec.toInt < 10 ^ 9 ∧ 1000 ∣ t.tvNsec.toInt

/-- The timespec shows the instant `T`, exactly. -/
def Shows (t : Timespec) (T : ℕ) : Prop :=
  t.tvSec = (T / 1000000 : ℕ) ∧ t.tvNsec.toInt = (T % 1000000 * 1000 : ℕ)

/-- The timespec of a microsecond count. -/
def ofMicros (n : ℕ) : Timespec := ⟨(n / 1000000 : ℕ), Int32.ofNat (n % 1000000 * 1000)⟩

theorem le_def (a b : Timespec) :
    a ≤ b ↔ a.tvSec < b.tvSec ∨ a.tvSec = b.tvSec ∧ a.tvNsec.toInt ≤ b.tvNsec.toInt := Iff.rfl

@[simp] theorem tvSec_ofMicros (n : ℕ) : (ofMicros n).tvSec = (n / 1000000 : ℕ) := rfl

/-- A nanosecond field fits a 32-bit `long`. -/
@[simp] theorem tvNsec_ofMicros (n : ℕ) :
    (ofMicros n).tvNsec.toInt = (n % 1000000 * 1000 : ℕ) :=
  Int32.toInt_ofNat_of_lt (by omega)

theorem wellFormed_ofMicros (n : ℕ) : (ofMicros n).WellFormed := by
  simp only [WellFormed, tvNsec_ofMicros]
  omega

@[simp] theorem micros_ofMicros (n : ℕ) : (ofMicros n).micros = n := by
  simp only [micros, tvSec_ofMicros, tvNsec_ofMicros]
  omega

theorem nanos_ofMicros (n : ℕ) : (ofMicros n).nanos = n * 1000 := by
  simp only [nanos, tvSec_ofMicros, tvNsec_ofMicros]
  omega

/-- The order of timespecs is the order of the counts they show. -/
theorem ofMicros_le_ofMicros {m n : ℕ} : ofMicros m ≤ ofMicros n ↔ m ≤ n := by
  simp only [le_def, tvSec_ofMicros, tvNsec_ofMicros]
  omega

/-- A timespec shows one instant only. -/
theorem shows_ofMicros_iff {n T : ℕ} : (ofMicros n).Shows T ↔ n = T := by
  simp only [Shows, tvSec_ofMicros, tvNsec_ofMicros]
  omega

end Timespec

/-! ## The refinement -/

/-- The statics as a sampled counter. -/
def ClockStatics.counter (c : ClockStatics) : Counter := ⟨c.rollover.toNat, c.lastMeasure.toNat⟩

/-- What `clock_gettime` credits for a rollover. -/
def rolloverCredit : ℕ := 2 ^ 32 - 1

@[simp] theorem counter_last (c : ClockStatics) : c.counter.last = c.lastMeasure.toNat := rfl

@[simp] theorem counter_wraps (c : ClockStatics) : c.counter.wraps = c.rollover.toNat := rfl

@[simp] theorem counter_initial : ({} : ClockStatics).counter = ⟨0, 0⟩ := rfl

/-- As long as the rollover count does not wrap itself, a call is one sample. -/
theorem clockGettime_counter {m : UInt32} {c : ClockStatics}
    (h : c.rollover.toNat + drop c.lastMeasure.toNat m.toNat < 2 ^ 32) :
    (clockGettime m c).statics.counter = c.counter.next m.toNat := by
  simp only [clockGettime, ClockStatics.counter, Counter.next, Counter.mk.injEq, and_true]
  by_cases hlt : m < c.lastMeasure
  · rw [drop_of_lt (UInt32.lt_iff_toNat_lt.1 hlt)] at h ⊢
    rw [if_pos hlt, UInt32.toNat_add]
    exact Nat.mod_eq_of_lt h
  · rw [drop_of_le (UInt32.le_iff_toNat_le.1 (UInt32.not_lt.1 hlt)), if_neg hlt]
    simp

/-- The 64-bit count is the exact product and sum: it never reaches `2 ^ 64`. -/
theorem toNat_realUs (m rollover : UInt32) :
    (m.toUInt64.toInt64 + rollover.toUInt64.toInt64 * microRolloverUseconds).toUInt64.toNat
      = m.toNat + rolloverCredit * rollover.toNat := by
  have hm := m.toNat_lt
  have hr := rollover.toNat_lt
  have hconst : microRolloverUseconds.toUInt64 = 4294967295 := rfl
  rw [Int64.toUInt64_add, Int64.toUInt64_mul, hconst, UInt64.toUInt64_toInt64,
    UInt64.toUInt64_toInt64, UInt64.toNat_add, UInt64.toNat_mul, UInt32.toNat_toUInt64,
    UInt32.toNat_toUInt64]
  simp only [rolloverCredit, UInt64.reduceToNat]
  omega

/-- A call stores the timespec of the value of its counter. -/
theorem clockGettime_tp (m : UInt32) (c : ClockStatics) :
    (clockGettime m c).tp
      = Timespec.ofMicros ((clockGettime m c).statics.counter.value rolloverCredit) := by
  have hreal := toNat_realUs m (clockGettime m c).statics.rollover
  simp only [Counter.value, counter_last, counter_wraps, clockGettime_lastMeasure, ← hreal]
  simp only [clockGettime, Timespec.ofMicros, Timespec.mk.injEq, UInt64.toNat_div]
  have hnat : ∀ x : UInt64, (x % 1000000 * 1000).toNat = x.toNat % 1000000 * 1000 := by
    intro x
    simp only [UInt64.toNat_mul, UInt64.toNat_mod, UInt64.reduceToNat]
    omega
  rw [← hnat]
  exact ⟨rfl, rfl⟩

/-- **A run of calls is a run of its counter**, as long as the rollover count
does not wrap itself. -/
theorem clockGettimeRun_eq {c : ClockStatics} {Ts : List ℕ}
    (h : c.rollover.toNat + descents c.lastMeasure.toNat (Ts.map (· % 2 ^ 32)) < 2 ^ 32) :
    clockGettimeRun c Ts
      = (c.counter.values rolloverCredit (Ts.map (· % 2 ^ 32))).map Timespec.ofMicros := by
  induction Ts generalizing c with
  | nil => rfl
  | cons T Ts ih =>
    simp only [List.map_cons, descents_cons] at h
    have hstep := clockGettime_counter (m := microsAt T) (c := c) (by rw [toNat_microsAt]; omega)
    rw [toNat_microsAt] at hstep
    have hwraps := congrArg Counter.wraps hstep
    have hlast := congrArg Counter.last hstep
    simp only [counter_wraps, counter_last, Counter.next_wraps, Counter.next_last] at hwraps hlast
    rw [clockGettimeRun, clockGettime_tp, hstep, ih (by rw [hwraps, hlast]; omega), hstep]
    rfl

end MicroRosArduino
