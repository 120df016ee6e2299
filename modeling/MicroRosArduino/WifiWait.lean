import MicroRosArduino.Bench
import MicroRosArduino.Transports

/-!
# The Wi-Fi wait and its timeout

The wait loop of `arduino_wifi_transport_read` subtracts two readings of
`millis()` modulo `2 ^ 32` and compares the difference with its `int` timeout.
The difference is a `uint32_t`, so the timeout is converted to one: a negative
timeout becomes `2 ^ 31` milliseconds or more.

* `CountsMillis`, `PacedWifiWait` — what the wait relies on: the counter counts true
  milliseconds, and its checks come at least 1 and fewer than `2 ^ 31`
  milliseconds apart.
* `wifiWait_guardAt_iff` — **the difference is the true time elapsed**, whatever
  the phase of the counter, for every check the loop gets to.
* `WaitHonoured`, `wifiWait_honoured_iff` — the timeout is honoured exactly when it
  is not negative.
* `negative_timeout_waits` — a wait with timeout -1.
-/

namespace MicroRosArduino

open CInt

variable {w : ℕ} {τ : Type} {P : Platform w τ} {now : τ → ℕ} {timeout : Int32} {s : τ}

/-- `millis()` is the true count of milliseconds modulo `2 ^ 32`, at the time it
returns. -/
def CountsMillis (P : Platform w τ) (now : τ → ℕ) : Prop :=
  ∀ s, (P.millis s).1.toNat = now (P.millis s).2 % 2 ^ 32

/-- The wait loop of a Wi-Fi read called in `s`. -/
abbrev wifiWait (P : Platform w τ) (timeout : Int32) (s : τ) : PollLoop τ :=
  Transport.wifi.waitLoop P timeout s

/-- The state in which the wait starts: `start_time` has just been read. -/
abbrev wifiStart (P : Platform w τ) (s : τ) : τ := Transport.wifi.waitStart P s

/-- The checks of the wait come 1 to `2 ^ 31 - 1` milliseconds apart, and the first
one fewer than `2 ^ 31` after `start_time` was read. -/
def PacedWifiWait (P : Platform w τ) (now : τ → ℕ) (timeout : Int32) (s : τ) : Prop :=
  (wifiWait P timeout s).Paced now (wifiStart P s) (now (wifiStart P s)) 1 (2 ^ 31)

/-! ## The comparison -/

/-- The guard compares the true time elapsed, as long as that is below a full turn of
the counter. -/
theorem wifiWait_guardAt_iff (hP : CountsMillis P now) {k : ℕ}
    (hle : now (wifiStart P s) ≤ now ((wifiWait P timeout s).checked (wifiStart P s) k))
    (hlt : now ((wifiWait P timeout s).checked (wifiStart P s) k)
      < now (wifiStart P s) + 2 ^ 32) :
    (wifiWait P timeout s).GuardAt (wifiStart P s) k ↔
      now ((wifiWait P timeout s).checked (wifiStart P s) k)
        < now (wifiStart P s) + timeout.toUInt32.toNat := by
  have hstart : (P.millis s).1.toNat = now (wifiStart P s) % 2 ^ 32 := hP s
  have hcheck : (P.millis ((wifiWait P timeout s).stateAt (wifiStart P s) k)).1.toNat
      = now ((wifiWait P timeout s).checked (wifiStart P s) k) % 2 ^ 32 := hP _
  have hguard : (wifiWait P timeout s).GuardAt (wifiStart P s) k ↔
      (P.millis ((wifiWait P timeout s).stateAt (wifiStart P s) k)).1 - (P.millis s).1
        < timeout.toUInt32 := decide_eq_true_iff
  rw [hguard, UInt32.lt_iff_toNat_lt, UInt32.toNat_sub, hstart, hcheck]
  omega

/-- **Never a full turn.**  At a check the loop gets to with a timeout from 0 up, fewer
than `2 ^ 32` milliseconds have passed: fewer than the timeout at the check before,
and fewer than `2 ^ 31` since. -/
theorem wifiWait_lt_turn (hP : CountsMillis P now) (hpace : PacedWifiWait P now timeout s)
    (htimeout : 0 ≤ timeout.toInt) {k : ℕ}
    (hk : (wifiWait P timeout s).Reaches (wifiStart P s) k) :
    now ((wifiWait P timeout s).checked (wifiStart P s) k) < now (wifiStart P s) + 2 ^ 32 := by
  induction k with
  | zero =>
    have hfirst := hpace.first_lt
    omega
  | succ k ih =>
    obtain ⟨hreach, hguard, -⟩ := (PollLoop.reaches_succ _ _ k).1 hk
    have helapsed := hpace.elapsed _ hreach
    rw [wifiWait_guardAt_iff hP (by omega) (ih hreach)] at hguard
    have hconv := toNat_toUInt32 timeout
    rw [if_neg (by omega)] at hconv
    have hmax := timeout.toInt_lt
    have hnext := hpace.next_lt k hk
    omega

/-! ## Honouring the timeout -/

/-- The wait of a read called in `s` honours its timeout: it ends, after at most
`max(timeout, 0)` polls, by a poll that has found a packet or with so many
milliseconds over; it starts no poll once they have passed, and it gives up at no
check before that. -/
structure WaitHonoured (P : Platform w τ) (now : τ → ℕ) (timeout : Int32) (s : τ) : Prop where
  terminates : ∃ l s', l.polls ≤ timeout.toInt.toNat ∧
    (wifiWait P timeout s).Outcome (wifiStart P s) l s' ∧
    (l.found = false → now (wifiStart P s) + timeout.toInt.toNat ≤ now s') ∧
    ∀ fuel > timeout.toInt.toNat, (wifiWait P timeout s).run fuel (wifiStart P s) = (some l, s')
  no_late_poll : ∀ k, (wifiWait P timeout s).Polls (wifiStart P s) k →
    now ((wifiWait P timeout s).checked (wifiStart P s) k)
      < now (wifiStart P s) + timeout.toInt.toNat
  no_early_leave : ∀ k, (wifiWait P timeout s).Expires (wifiStart P s) k →
    now (wifiStart P s) + timeout.toInt.toNat
      ≤ now ((wifiWait P timeout s).checked (wifiStart P s) k)

/-- At a timeout from 0 up, the guard holds until the timeout is over. -/
theorem wifiWait_guardAt_iff_timeout (hP : CountsMillis P now)
    (hpace : PacedWifiWait P now timeout s) (htimeout : 0 ≤ timeout.toInt) {k : ℕ}
    (hk : (wifiWait P timeout s).Reaches (wifiStart P s) k) :
    (wifiWait P timeout s).GuardAt (wifiStart P s) k ↔
      now ((wifiWait P timeout s).checked (wifiStart P s) k)
        < now (wifiStart P s) + timeout.toInt.toNat := by
  have hconv := toNat_toUInt32 timeout
  rw [if_neg (by omega)] at hconv
  have helapsed := hpace.elapsed _ hk
  rw [wifiWait_guardAt_iff hP (by omega) (wifiWait_lt_turn hP hpace htimeout hk)]
  omega

theorem waitHonoured_of_nonneg (hP : CountsMillis P now) (hpace : PacedWifiWait P now timeout s)
    (htimeout : 0 ≤ timeout.toInt) : WaitHonoured P now timeout s := by
  have hguard : ∀ k, (wifiWait P timeout s).Reaches (wifiStart P s) k →
      ((wifiWait P timeout s).GuardAt (wifiStart P s) k ↔
        now ((wifiWait P timeout s).checked (wifiStart P s) k)
          < now (wifiStart P s) + timeout.toInt.toNat) := by
    intro k hk
    exact wifiWait_guardAt_iff_timeout hP hpace htimeout hk
  have hleave : ∀ k, (wifiWait P timeout s).Expires (wifiStart P s) k →
      now (wifiStart P s) + timeout.toInt.toNat
        ≤ now ((wifiWait P timeout s).checked (wifiStart P s) k) := by
    intro k hk
    rw [← not_lt, ← hguard k hk.1]
    exact hk.2
  refine ⟨PollLoop.run_of_polls_lt _ ?_ hleave, ?_, hleave⟩
  · intro hk
    have helapsed := hpace.elapsed _ hk.1
    have hin := (hguard _ hk.1).1 hk.2
    omega
  · intro k hk
    exact (hguard k hk.1).1 hk.2

/-- At a negative timeout the first check lets a poll start. -/
theorem polls_of_neg (hP : CountsMillis P now) (hpace : PacedWifiWait P now timeout s)
    (htimeout : timeout.toInt < 0) : (wifiWait P timeout s).Polls (wifiStart P s) 0 := by
  have hconv := toNat_toUInt32 timeout
  rw [if_pos htimeout] at hconv
  have hmin := timeout.le_toInt
  have hfirst := hpace.first_lt
  refine ⟨PollLoop.reaches_zero _ _, ?_⟩
  rw [wifiWait_guardAt_iff hP hpace.first_le (by omega)]
  omega

/-- **When the timeout is honoured.**  For every timeout, every phase of the counter and
every schedule of arrivals, exactly when the timeout is not negative. -/
theorem wifiWait_honoured_iff (hP : CountsMillis P now) (hpace : PacedWifiWait P now timeout s) :
    WaitHonoured P now timeout s ↔ 0 ≤ timeout.toInt := by
  constructor
  · intro h
    by_contra hneg
    have hlate := h.no_late_poll 0 (polls_of_neg hP hpace (by omega))
    have hfirst := hpace.first_le
    omega
  · exact waitHonoured_of_nonneg hP hpace

/-! ## Waits on the bench -/

theorem bench_countsMillis : CountsMillis (Bench.platform w) fun b => b.now / 1000 :=
  fun _ => UInt32.toNat_ofNat

/-- On a board to which nothing else happens, a pass takes the millisecond of its
`delay(1)`. -/
theorem bench_wifi_pass {b : Bench} (hb : b.script = []) (start : UInt32) (timeout : Int32) :
    ((wifiLoop (Bench.platform w) start timeout).pass b).now = b.now + 1000 ∧
      ((wifiLoop (Bench.platform w) start timeout).pass b).script = [] := by
  have hnow : ((wifiLoop (Bench.platform w) start timeout).pass b).now
      = b.now + (b.script.headD .quiet).elapse + (b.script.tail.headD .quiet).elapse
        + (b.script.tail.tail.headD .quiet).elapse + 1000 := rfl
  have hscript : ((wifiLoop (Bench.platform w) start timeout).pass b).script
      = b.script.tail.tail.tail := rfl
  rw [hnow, hscript, hb]
  exact ⟨rfl, rfl⟩

theorem bench_wifi_checked {b : Bench} (hb : b.script = []) (start : UInt32) (timeout : Int32)
    (k : ℕ) :
    ((wifiLoop (Bench.platform w) start timeout).checked b k).now = b.now + 1000 * k := by
  have hstate : ((wifiLoop (Bench.platform w) start timeout).stateAt b k).now
        = b.now + 1000 * k ∧
      ((wifiLoop (Bench.platform w) start timeout).stateAt b k).script = [] := by
    induction k with
    | zero => exact ⟨rfl, hb⟩
    | succ k ih =>
      obtain ⟨hnow, hscript⟩ := bench_wifi_pass (w := w) ih.2 start timeout
      rw [PollLoop.stateAt_succ']
      exact ⟨by rw [hnow, ih.1]; ring, hscript⟩
  have hguard : ∀ c : Bench, ((wifiLoop (Bench.platform w) start timeout).guard c).2.now
      = c.now + (c.script.headD .quiet).elapse := fun _ => rfl
  rw [PollLoop.checked, hguard, hstate.1, hstate.2]
  rfl

theorem bench_pacedWifiWait {b : Bench} (hb : b.script = []) (timeout : Int32) :
    PacedWifiWait (Bench.platform w) (fun b => b.now / 1000) timeout b := by
  have hstart : (wifiStart (Bench.platform w) b).script = [] := by
    show b.script.tail = []
    rw [hb]
    rfl
  have hchecked : ∀ k, ((wifiWait (Bench.platform w) timeout b).checked
      (wifiStart (Bench.platform w) b) k).now
        = (wifiStart (Bench.platform w) b).now + 1000 * k :=
    fun k => bench_wifi_checked hstart _ timeout k
  refine ⟨?_, ?_, fun k _ => ?_, fun k _ => ?_⟩ <;> simp only [hchecked] <;> omega

/-- A wait with timeout 5 on an idle board. -/
theorem wifiWait_honoured_five :
    WaitHonoured (Bench.platform 32) (fun b => b.now / 1000) 5 (.scripted []) ↔
      0 ≤ (5 : Int32).toInt :=
  wifiWait_honoured_iff bench_countsMillis (bench_pacedWifiWait rfl 5)

/-- **A negative timeout waits.**  With timeout -1 the loop starts a poll, where it should
start none. -/
theorem negative_timeout_waits :
    CountsMillis (Bench.platform 32) (fun b => b.now / 1000) ∧
      PacedWifiWait (Bench.platform 32) (fun b => b.now / 1000) (-1) (.scripted []) ∧
      ¬ WaitHonoured (Bench.platform 32) (fun b => b.now / 1000) (-1) (.scripted []) := by
  have hpace := bench_pacedWifiWait (w := 32) (b := .scripted []) rfl (-1)
  refine ⟨bench_countsMillis, hpace, ?_⟩
  intro h
  have hlate := h.no_late_poll 0 (polls_of_neg bench_countsMillis hpace (by decide))
  exact absurd hlate (by decide)

end MicroRosArduino
