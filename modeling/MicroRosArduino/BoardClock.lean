import MicroRosArduino.EthernetWait

/-!
# The board's clock over true time

`uxr_millis()` of the XRCE client is the milliseconds of `clock_gettime`, and anything
on the board may read it.  A `BoardClock` is the true time together with the statics
of `clock_gettime`, from boot on and for as long as its nanoseconds fit an `int64_t`
(292 years).

* `BoardClock` — with the invariants of the statics as fields.
* `BoardClock.read`, `Passes`, `Reads` — a reading, time that passes with any number
  of readings in it, and a call of `uxr_millis()`.
* `Access`, `Spends` — what a call does with the clock, and the time it takes.
* `Advances`, `Passes.advances`, `Spends.advances` — **between two instants the clock
  advances by at most the true time**, and never goes back.
* `SeesAll`, `seesAll_read`, `micros_of_seesAll` — a clock that has missed no rollover,
  and what it then shows.
-/

namespace MicroRosArduino

open SampledCounter

/-- The true time, and the statics of `clock_gettime` with what holds of them. -/
structure BoardClock where
  /-- True microseconds since boot. -/
  now : ℕ
  /-- When the clock was last read. -/
  readAt : ℕ
  /-- The statics of `clock_gettime`. -/
  statics : ClockStatics
  /-- The nanoseconds since boot fit an `int64_t`. -/
  now_lt : now * 1000 < 2 ^ 63
  /-- The last reading is past. -/
  readAt_le : readAt ≤ now
  /-- The last reading was of `micros()`. -/
  lastMeasure_eq : statics.lastMeasure.toNat = readAt % 2 ^ 32
  /-- The clock is not ahead. -/
  micros_le : statics.micros ≤ readAt
  deriving DecidableEq

namespace BoardClock

/-- A board that boots. -/
def boot : BoardClock where
  now := 0
  readAt := 0
  statics := {}
  now_lt := by norm_num
  readAt_le := le_refl 0
  lastMeasure_eq := rfl
  micros_le := by decide

/-- The microseconds the clock has shown last. -/
def micros (b : BoardClock) : ℕ := b.statics.micros

/-- What `clock_gettime` does now. -/
def gettime (b : BoardClock) : GettimeResult := clockGettime (microsAt b.now) b.statics

theorem micros_le_now (b : BoardClock) : b.micros ≤ b.now := b.micros_le.trans b.readAt_le

/-- A reading is one sample of the counter behind the statics. -/
theorem gettime_counter (b : BoardClock) :
    b.gettime.statics.counter = b.statics.counter.next (b.now % 2 ^ 32) := by
  have hmicros := b.micros_le_now
  have hnow := b.now_lt
  have hdrop := drop_le_one b.statics.lastMeasure.toNat (microsAt b.now).toNat
  have hwraps : b.statics.rollover.toNat + 1 < 2 ^ 32 := by
    simp only [micros, ClockStatics.micros, Counter.value, counter_wraps, rolloverCredit] at hmicros
    omega
  rw [gettime, clockGettime_counter (by omega), toNat_microsAt]

/-- A reading does not put the clock ahead. -/
theorem gettime_micros_le (b : BoardClock) : b.gettime.statics.micros ≤ b.now := by
  have hfast := Counter.next_value_le (c := b.statics.counter) (K := rolloverCredit)
    b.lastMeasure_eq (by norm_num [rolloverCredit]) b.readAt_le
  have hslow := b.micros_le
  rw [← b.gettime_counter] at hfast
  simp only [ClockStatics.micros] at hslow ⊢
  omega

/-- The clock after a reading at the present time. -/
def read (b : BoardClock) : BoardClock where
  now := b.now
  readAt := b.now
  statics := b.gettime.statics
  now_lt := b.now_lt
  readAt_le := le_refl _
  lastMeasure_eq := toNat_microsAt b.now
  micros_le := b.gettime_micros_le

/-- The clock at a later time, not read since. -/
def wait (b : BoardClock) (t : ℕ) (hle : b.now ≤ t) (hlt : t * 1000 < 2 ^ 63) : BoardClock where
  now := t
  readAt := b.readAt
  statics := b.statics
  now_lt := hlt
  readAt_le := b.readAt_le.trans hle
  lastMeasure_eq := b.lastMeasure_eq
  micros_le := b.micros_le

@[simp] theorem read_now (b : BoardClock) : b.read.now = b.now := rfl

/-- The clock `t` microseconds later, as long as that fits. -/
def later (b : BoardClock) (t : ℕ) : BoardClock :=
  if h : (b.now + t) * 1000 < 2 ^ 63 then b.wait (b.now + t) (Nat.le_add_right _ _) h else b

/-! ## Time that passes -/

/-- Time passes, and the clock is left alone. -/
def Waits (a b : BoardClock) : Prop :=
  a.now ≤ b.now ∧ b.readAt = a.readAt ∧ b.statics = a.statics

theorem waits_later (b : BoardClock) (t : ℕ) : b.Waits (b.later t) := by
  unfold later
  split
  · exact ⟨Nat.le_add_right _ _, rfl, rfl⟩
  · exact ⟨le_refl _, rfl, rfl⟩

theorem later_now_le (b : BoardClock) (t : ℕ) : (b.later t).now ≤ b.now + t := by
  unfold later
  split
  · exact le_refl _
  · exact Nat.le_add_right _ _

/-- Time passes, and the clock is read any number of times. -/
inductive Passes : BoardClock → BoardClock → Prop
  | refl (b : BoardClock) : Passes b b
  | wait {a b c : BoardClock} : Waits a b → Passes b c → Passes a c
  | read {a c : BoardClock} : Passes a.read c → Passes a c

/-- What a call that answers with an `ρ` does with the clock. -/
inductive Access (ρ : Type)
  /-- It leaves it alone. -/
  | leaves
  /-- It reads it as often as it likes. -/
  | mayRead
  /-- It reads it once, at its end, and its answer shows the reading so. -/
  | reads (Shows : GettimeResult → ρ → Prop)

/-- A call takes the clock from `a` to `b`, and answers `r`. -/
def Spends {ρ : Type} (a : BoardClock) : Access ρ → ρ → BoardClock → Prop
  | .leaves, _, b => a.Waits b
  | .mayRead, _, b => a.Passes b
  | .reads Shows, r, b => ∃ c, a.Waits c ∧ b = c.read ∧ Shows c.gettime r

/-- `uxr_millis()` shows the milliseconds of its reading. -/
def Access.uxrMillis : Access Int64 := .reads fun g r => r.toInt = g.tp.nanos / 10 ^ 6

/-- A call of `uxr_millis()`: time passes, and the clock is read. -/
abbrev Reads (a : BoardClock) (r : Int64) (b : BoardClock) : Prop := a.Spends .uxrMillis r b

/-- The clock has gone on: not back, and by no more than the true time between the last
readings. -/
structure Advances (a b : BoardClock) : Prop where
  now_le : a.now ≤ b.now
  readAt_le : a.readAt ≤ b.readAt
  not_back : a.micros ≤ b.micros
  not_fast : b.micros + a.readAt ≤ a.micros + b.readAt

@[refl] theorem Advances.refl (a : BoardClock) : Advances a a := by
  constructor <;> exact le_refl _

theorem Advances.trans {a b c : BoardClock} (hab : Advances a b) (hbc : Advances b c) :
    Advances a c := by
  obtain ⟨h₁, h₂, h₃, h₄⟩ := hab
  obtain ⟨h₁', h₂', h₃', h₄'⟩ := hbc
  constructor <;> omega

theorem Waits.advances {a b : BoardClock} (h : Waits a b) : Advances a b := by
  obtain ⟨hnow, hread, hstatics⟩ := h
  have hmicros : b.micros = a.micros := congrArg ClockStatics.micros hstatics
  constructor <;> omega

/-- **A reading never moves the clock back, nor further than the truth moved.** -/
theorem advances_read (b : BoardClock) : Advances b b.read := by
  have hmod := Nat.mod_lt b.readAt (show 0 < 2 ^ 32 by norm_num)
  have hlast : b.statics.counter.last ≤ rolloverCredit := by
    rw [counter_last, b.lastMeasure_eq, rolloverCredit]
    omega
  have hback := Counter.value_le_next (b.now % 2 ^ 32) hlast
  have hfast := Counter.next_value_le (c := b.statics.counter) (K := rolloverCredit)
    b.lastMeasure_eq (by norm_num [rolloverCredit]) b.readAt_le
  rw [← b.gettime_counter] at hback hfast
  exact ⟨le_refl _, b.readAt_le, hback, hfast⟩

/-- **Never backwards, never fast**, however often the clock is read on the way. -/
theorem Passes.advances {a b : BoardClock} (h : Passes a b) : Advances a b := by
  induction h with
  | refl b => exact .refl b
  | wait hwait _ ih => exact hwait.advances.trans ih
  | @read a c _ ih => exact a.advances_read.trans ih

/-- Whatever is called, the clock goes on. -/
theorem Spends.advances {ρ : Type} {a b : BoardClock} {access : Access ρ} {r : ρ}
    (h : a.Spends access r b) : Advances a b := by
  cases access with
  | leaves => exact Waits.advances h
  | mayRead => exact Passes.advances h
  | reads Shows =>
    obtain ⟨c, hwait, rfl, -⟩ := h
    exact hwait.advances.trans c.advances_read

theorem Reads.advances {a b : BoardClock} {r : Int64} (h : Reads a r b) : Advances a b :=
  Spends.advances h

theorem Reads.readAt_eq {a b : BoardClock} {r : Int64} (h : Reads a r b) : b.readAt = b.now := by
  obtain ⟨c, -, rfl, -⟩ := h
  rfl

/-- What `uxr_millis()` returns is the clock's count in milliseconds. -/
theorem Reads.toInt {a b : BoardClock} {r : Int64} (h : Reads a r b) :
    r.toInt = (b.micros / 1000 : ℕ) := by
  obtain ⟨c, -, rfl, hr⟩ := h
  have htp : c.gettime.tp = Timespec.ofMicros c.read.micros := clockGettime_tp _ _
  rw [hr, htp, Timespec.nanos_ofMicros]
  omega

/-! ## A clock that misses nothing -/

/-- Every rollover of `micros()` so far was noticed. -/
def SeesAll (b : BoardClock) : Prop := b.statics.rollover.toNat = b.readAt / 2 ^ 32

instance (b : BoardClock) : Decidable b.SeesAll := inferInstanceAs (Decidable (_ = _))

/-- Read again within a rollover, the clock still misses nothing. -/
theorem seesAll_read {b : BoardClock} (h : b.SeesAll) (hgap : b.now < b.readAt + 2 ^ 32) :
    b.read.SeesAll := by
  have hexact : b.statics.counter = Counter.exact (2 ^ 32) b.readAt := by
    rw [ClockStatics.counter, h, b.lastMeasure_eq, Counter.exact]
  have hnext := b.gettime_counter
  rw [hexact, Counter.next_exact b.readAt_le hgap] at hnext
  exact congrArg Counter.wraps hnext

/-- It shows the time of its last reading less a microsecond for each rollover. -/
theorem micros_of_seesAll {b : BoardClock} (h : b.SeesAll) :
    b.micros + b.readAt / 2 ^ 32 = b.readAt := by
  have hlast := b.lastMeasure_eq
  rw [SeesAll] at h
  simp only [micros, ClockStatics.micros, Counter.value, counter_last, counter_wraps,
    rolloverCredit, hlast, h]
  omega

end BoardClock

end MicroRosArduino
