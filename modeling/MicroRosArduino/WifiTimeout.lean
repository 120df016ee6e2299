import MicroRosArduino.Foundation.CounterWait
import MicroRosArduino.WifiWait

/-!
# How long a Wi-Fi read waits

`arduino_wifi_transport_read` compares the milliseconds since its start, counted modulo
`2 ^ 32`, with its timeout as a `uint32_t`.  For a timeout below 0 that leaves a window
of only `-timeout` milliseconds, once a turn of the counter, in which the wait can end.

* `wifiWait_deadline` — **the deadline it does keep**: the timeout as a `uint32_t`, as
  long as its checks are no further apart than the window is wide.
* `wifiRead_returns_iff` — **whether it returns at all**: on a silent socket, exactly
  when its checks get into the window.
* `wifiRead_never_returns` — a board on which a read with timeout -1 does not.
-/

namespace MicroRosArduino

open PollLoop

variable {w : ℕ} {τ : Type} {P : Platform w τ} {now : τ → ℕ} {timeout : Int32} {s : τ}

/-- The guard compares the true time elapsed modulo `2 ^ 32`. -/
theorem wifiWait_countsTo (hP : CountsMillis P now)
    (hle : ∀ k, (wifiWait P timeout s).Reaches (wifiStart P s) k →
      now (wifiStart P s) ≤ now ((wifiWait P timeout s).checked (wifiStart P s) k)) :
    (wifiWait P timeout s).CountsTo now (wifiStart P s) (now (wifiStart P s)) (2 ^ 32)
      timeout.toUInt32.toNat := by
  intro k hk
  have hstart : (P.millis s).1.toNat = now (wifiStart P s) % 2 ^ 32 := hP s
  have hcheck : (P.millis ((wifiWait P timeout s).stateAt (wifiStart P s) k)).1.toNat
      = now ((wifiWait P timeout s).checked (wifiStart P s) k) % 2 ^ 32 := hP _
  have hguard : (wifiWait P timeout s).GuardAt (wifiStart P s) k ↔
      (P.millis ((wifiWait P timeout s).stateAt (wifiStart P s) k)).1 - (P.millis s).1
        < timeout.toUInt32 := decide_eq_true_iff
  have hmono := hle k hk
  have hdiff : (2 ^ 32 - now (wifiStart P s) % 2 ^ 32
        + now ((wifiWait P timeout s).checked (wifiStart P s) k) % 2 ^ 32) % 2 ^ 32
      = (now ((wifiWait P timeout s).checked (wifiStart P s) k) - now (wifiStart P s))
        % 2 ^ 32 := by
    omega
  rw [hguard, UInt32.lt_iff_toNat_lt, UInt32.toNat_sub, hstart, hcheck, hdiff]

/-- **The deadline a Wi-Fi read keeps** is its timeout as a `uint32_t`, whatever the sign:
with checks at least 1 millisecond apart and no further than the window is wide, the wait
is left after so many polls at most, starts no poll once so many milliseconds have passed,
and gives up at no check before. -/
theorem wifiWait_deadline (hP : CountsMillis P now)
    (hpace : (wifiWait P timeout s).Paced now (wifiStart P s) (now (wifiStart P s)) 1
      (2 ^ 32 - timeout.toUInt32.toNat + 1)) :
    (wifiWait P timeout s).KeepsDeadline now (wifiStart P s) (now (wifiStart P s))
      timeout.toUInt32.toNat := by
  have hcounts : (wifiWait P timeout s).CountsTo now (wifiStart P s) (now (wifiStart P s))
      (2 ^ 32) timeout.toUInt32.toNat :=
    wifiWait_countsTo hP fun k hk => le_trans (Nat.le_add_right _ _) (hpace.elapsed _ hk)
  exact hcounts.keepsDeadline (UInt32.toNat_lt _).le Nat.one_pos hpace

/-- A wait with timeout -1 on a board to which nothing happens, where the checks come every
millisecond: it lasts for `2 ^ 32 - 1` milliseconds. -/
theorem wifiWait_deadline_negative :
    (wifiWait (Bench.platform 32) (-1) (.scripted [])).KeepsDeadline (fun b => b.now / 1000)
      (wifiStart (Bench.platform 32) (.scripted [])) 0 (2 ^ 32 - 1) := by
  apply wifiWait_deadline bench_countsMillis
  have hchecked : ∀ k, ((wifiWait (Bench.platform 32) (-1) (.scripted [])).checked
      (wifiStart (Bench.platform 32) (.scripted [])) k).now = 1000 * k := by
    intro k
    exact (bench_wifi_checked rfl _ _ k).trans (Nat.zero_add _)
  have hstart : (wifiStart (Bench.platform 32) (.scripted [])).now = 0 := rfl
  have hwindow : (-1 : Int32).toUInt32.toNat = 2 ^ 32 - 1 := rfl
  refine ⟨?_, ?_, fun k _ => ?_, fun k _ => ?_⟩ <;> simp only [hchecked, hstart, hwindow] <;> omega

/-! ## On a silent socket -/

/-- A Wi-Fi read returns exactly when its wait is left. -/
theorem wifiRead_returns_iff_left (len : BitVec w) :
    (∃ fuel r s', Transport.wifi.readCallback P fuel len timeout s = (some r, s')) ↔
      ∃ fuel l s', (wifiWait P timeout s).run fuel (wifiStart P s) = (some l, s') := by
  constructor
  · rintro ⟨fuel, r, s', h⟩
    rw [Transport.readCallback_eq] at h
    cases hrun : (Transport.wifi.waitLoop P timeout s).run fuel (Transport.wifi.waitStart P s) with
    | mk left t =>
      cases left with
      | none =>
        rw [hrun] at h
        exact absurd (congrArg Prod.fst h) (by simp)
      | some l => exact ⟨fuel, l, t, hrun⟩
  · rintro ⟨fuel, l, s', h⟩
    refine ⟨fuel, (Transport.wifi.afterWait P len s').2.1, (Transport.wifi.afterWait P len s').2.2,
      ?_⟩
    rw [Transport.readCallback_eq, h]

/-- **Whether a Wi-Fi read returns at all.**  On a silent socket, checked `e` milliseconds
after its start and then every `d` milliseconds, exactly when one of these times falls,
modulo `2 ^ 32`, on the timeout as a `uint32_t` or later. -/
theorem wifiRead_returns_iff (hP : CountsMillis P now) (hsilent : ∀ u, (P.parsePacket u).1 = 0)
    {e d : ℕ} (hsteady : ∀ k, (wifiWait P timeout s).Reaches (wifiStart P s) k →
      now ((wifiWait P timeout s).checked (wifiStart P s) k) = now (wifiStart P s) + e + d * k)
    (len : BitVec w) :
    (∃ fuel r s', Transport.wifi.readCallback P fuel len timeout s = (some r, s')) ↔
      timeout.toUInt32.toNat + d.gcd (2 ^ 32) ≤ 2 ^ 32 + e % d.gcd (2 ^ 32) := by
  have hcounts : (wifiWait P timeout s).CountsTo now (wifiStart P s) (now (wifiStart P s))
      (2 ^ 32) timeout.toUInt32.toNat := by
    apply wifiWait_countsTo hP
    intro k hk
    rw [hsteady k hk]
    omega
  have hpoll : ∀ u, ((wifiWait P timeout s).poll u).1 = false := by
    intro u
    show decide ((P.parsePacket u).1 ≠ 0) = false
    simp [hsilent]
  rw [wifiRead_returns_iff_left]
  exact hcounts.left_iff_of_steady (by norm_num) hpoll hsteady

/-- On the silent board, with a `delay(1)` of 2 milliseconds, a read with timeout -1 never returns. -/
theorem wifiRead_never_returns :
    ¬ ∃ fuel r s', Transport.wifi.readCallback (silentBoard 32 2) fuel 512#32 (-1) 0
      = (some r, s') := by
  have hpass : ∀ k, (wifiWait (silentBoard 32 2) (-1) 0).checked 0 k = 0 + 0 + 2 * k := by
    intro k
    have hstate : (wifiWait (silentBoard 32 2) (-1) 0).stateAt 0 k = 2 * k := by
      induction k with
      | zero => rfl
      | succ k ih =>
        rw [PollLoop.stateAt_succ', ih]
        rfl
    rw [PollLoop.checked, hstate]
    show 2 * k = _
    omega
  have hmillis : CountsMillis (silentBoard 32 2) id := fun _ => UInt32.toNat_ofNat
  rw [wifiRead_returns_iff hmillis (fun _ => rfl) (fun k _ => hpass k)]
  decide

end MicroRosArduino
