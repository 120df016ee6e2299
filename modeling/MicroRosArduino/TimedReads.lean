import MicroRosArduino.EthernetWait
import MicroRosArduino.ReadQueue
import MicroRosArduino.WifiWait

/-!
# Reads on a board whose time passes

The wait of a read, and what the read hands over, put together: on a board whose
clock and socket behave, a read with its first check in time returns after a
bounded number of polls and is one read of the queue.

* `wifi_checksInTime_iff`, `ethernet_checksInTime` — the first check in true time.
* `wifiRead_refines`, `ethernetRead_refines` — **a read ends and takes from the
  queue**.
-/

namespace MicroRosArduino

variable {w : ℕ} {τ : Type} {P : Platform w τ} {sock : τ → Socket} {now : τ → ℕ}
  {clock : τ → ClockStatics} {timeout : Int32} {s : τ} {len : BitVec w}

/-- Over Wi-Fi the first check is in time when it comes before the timeout is over. -/
theorem wifi_checksInTime_iff (hmillis : CountsMillis P now)
    (hpace : PacedWifiWait P now timeout s) (htimeout : 0 ≤ timeout.toInt) :
    Transport.wifi.ChecksInTime P timeout s ↔
      now ((wifiWait P timeout s).checked (wifiStart P s) 0)
        < now (wifiStart P s) + timeout.toInt.toNat := by
  rw [← guardAt_zero_iff]
  exact wifiWait_guardAt_iff_timeout hmillis hpace htimeout (PollLoop.reaches_zero _ _)

/-- Over native Ethernet the first check is in time when it comes a millisecond before the
timeout is over: the two readings are cut to milliseconds. -/
theorem ethernet_checksInTime (hclock : ReadsClock P now clock)
    (hwait : PacedEthernetWait P now clock timeout s)
    (hfirst : (checkTime P now timeout s 0 : ℤ) + 1000
      ≤ now (ethernetStart P s) + 1000 * timeout.toInt) :
    Transport.nativeEthernet.ChecksInTime P timeout s := by
  have hreach := (ethernetWait P timeout s).reaches_zero (ethernetStart P s)
  have hmicros := ethernetWait_clock hclock hwait hreach
  have hle : now (ethernetStart P s) ≤ checkTime P now timeout s 0 := hwait.paced.first_le
  rw [← guardAt_zero_iff]
  apply (ethernetWait_guardAt_iff hclock hwait hreach).2
  omega

/-- **A read over Wi-Fi.**  With its first check in time it returns, after at most `timeout`
polls, and is one read of the queue. -/
theorem wifiRead_refines (hw : 32 ≤ w) (hP : ReceivesPackets P sock)
    (hmillis : CountsMillis P now) (hpace : PacedWifiWait P now timeout s)
    (htimeout : 0 ≤ timeout.toInt)
    (hfirst : now ((wifiWait P timeout s).checked (wifiStart P s) 0)
      < now (wifiStart P s) + timeout.toInt.toNat) :
    ∃ r s', (∀ fuel > timeout.toInt.toNat,
        Transport.wifi.readCallback P fuel len timeout s = (some r, s')) ∧
      ReadCall.RefinesQueue sock ⟨len, timeout, s, r, s'⟩ := by
  obtain ⟨l, t, -, -, -, hrun⟩ := (waitHonoured_of_nonneg hmillis hpace htimeout).terminates
  obtain ⟨r, s', hread⟩ := Transport.readCallback_of_left len hrun
  refine ⟨r, s', hread, ?_⟩
  apply refinesQueue_of_inTimeOrEmpty hw hP (hread _ (Nat.lt_succ_self _))
  exact Or.inl ((wifi_checksInTime_iff hmillis hpace htimeout).2 hfirst)

/-- A read over Wi-Fi with two datagrams queued and room for two bytes. -/
theorem wifiRead_refines_twoQueued :
    ∃ r s', (∀ fuel > 1000,
        Transport.wifi.readCallback (Bench.platform 32) fuel 2#32 1000 twoQueued
          = (some r, s')) ∧
      ReadCall.RefinesQueue Bench.socket ⟨2#32, 1000, twoQueued, r, s'⟩ :=
  wifiRead_refines (le_refl 32) bench_receivesPackets bench_countsMillis
    (bench_pacedWifiWait rfl 1000) (by decide) (by decide)

/-- **A read over native Ethernet.**  With its first check in time it returns, after at most
`timeout + 1` polls, and is one read of the queue. -/
theorem ethernetRead_refines (hw : 32 ≤ w) (hP : ReceivesPackets P sock)
    (hclock : ReadsClock P now clock) (hwait : PacedEthernetWait P now clock timeout s)
    (hfirst : (checkTime P now timeout s 0 : ℤ) + 1000
      ≤ now (ethernetStart P s) + 1000 * timeout.toInt) :
    ∃ r s', (∀ fuel > timeout.toInt.toNat + 1,
        Transport.nativeEthernet.readCallback P fuel len timeout s = (some r, s')) ∧
      ReadCall.RefinesQueue sock ⟨len, timeout, s, r, s'⟩ := by
  obtain ⟨l, t, -, -, -, -, hrun⟩ := ethernetWait_terminates hclock hwait
  obtain ⟨r, s', hread⟩ := Transport.readCallback_of_left len hrun
  refine ⟨r, s', hread, ?_⟩
  apply refinesQueue_of_inTimeOrEmpty hw hP (hread _ (Nat.lt_succ_self _))
  exact Or.inl (ethernet_checksInTime hclock hwait hfirst)

/-- A read over native Ethernet that waits across a rollover and finds nothing. -/
theorem ethernetRead_refines_nearRollover :
    ∃ r s', (∀ fuel > 3,
        Transport.nativeEthernet.readCallback (Bench.platform 32) fuel 2#32 2 nearRollover
          = (some r, s')) ∧
      ReadCall.RefinesQueue Bench.socket ⟨2#32, 2, nearRollover, r, s'⟩ :=
  ethernetRead_refines (le_refl 32) bench_receivesPackets bench_readsClock nearRollover_paced
    (by decide)

end MicroRosArduino
