import MicroRosArduino.NativeEthernetTransport
import MicroRosArduino.WifiTransport

/-!
# The two UDP transports under one name

* `Transport` — which of the two, with `openCallback`, `closeCallback`,
  `writeCallback` and `readCallback` its callbacks.
* `waitStart`, `waitLoop`, `afterWait`, `readCallback_eq` — **a read callback is a
  wait and what follows it**; the two transports differ in each half, and what
  holds of both is proved from the halves.
* `readCallback_of_left` — a read returns as soon as its wait is left.
-/

namespace MicroRosArduino

open CInt

variable {w : ℕ} {τ : Type}

/-- The two UDP transports. -/
inductive Transport
  | wifi
  | nativeEthernet
  deriving DecidableEq, Repr

namespace Transport

/-- The open callback. -/
def openCallback : Transport → Platform w τ → MicroRosAgentLocator → StateM τ Bool
  | wifi => arduinoWifiTransportOpen
  | nativeEthernet => arduinoNativeEthernetUdpTransportOpen

/-- The close callback. -/
def closeCallback : Transport → Platform w τ → StateM τ Bool
  | wifi => arduinoWifiTransportClose
  | nativeEthernet => arduinoNativeEthernetUdpTransportClose

/-- The write callback. -/
def writeCallback :
    Transport → Platform w τ → MicroRosAgentLocator → Buffer w → StateM τ (BitVec w)
  | wifi => arduinoWifiTransportWrite
  | nativeEthernet => arduinoNativeEthernetUdpTransportWrite

/-- The read callback. -/
def readCallback :
    Transport → Platform w τ → ℕ → BitVec w → Int32 → StateM τ (Option (Received w))
  | wifi => arduinoWifiTransportRead
  | nativeEthernet => arduinoNativeEthernetUdpTransportRead

/-- The state in which a read callback, called in `s`, makes its first check. -/
def waitStart (tr : Transport) (P : Platform w τ) (s : τ) : τ :=
  match tr with
  | wifi => (P.millis s).2
  | nativeEthernet => (P.uxrMillis s).2

/-- The wait loop of a read callback called in `s`. -/
def waitLoop (tr : Transport) (P : Platform w τ) (timeout : Int32) (s : τ) : PollLoop τ :=
  match tr with
  | wifi => wifiLoop P (P.millis s).1 timeout
  | nativeEthernet => ethernetLoop P (P.uxrMillis s).1 timeout

/-- What a read callback does once its wait loop is left: the result of
`udp_client.read` when it is called, the callback's own result, and the state. -/
def afterWait (tr : Transport) (P : Platform w τ) (len : BitVec w) (s : τ) :
    Option Int32 × Received w × τ :=
  match tr with
  | wifi =>
    let r := P.read len s
    (some r.1.1, ⟨sizeOfInt w (if r.1.1 < 0 then 0 else r.1.1), r.1.2⟩, r.2)
  | nativeEthernet =>
    let a := P.available s
    if a.1 ≠ 0 then
      let r := P.read len a.2
      (some r.1.1, ⟨sizeOfInt w r.1.1, r.1.2⟩, r.2)
    else
      (none, ⟨0#w, []⟩, a.2)

/-- **A read callback is its wait loop and what follows it.** -/
theorem readCallback_eq (tr : Transport) (P : Platform w τ) (fuel : ℕ) (len : BitVec w)
    (timeout : Int32) (s : τ) :
    tr.readCallback P fuel len timeout s =
      match (tr.waitLoop P timeout s).run fuel (tr.waitStart P s) with
      | (none, s') => (none, s')
      | (some _, s') => (some (tr.afterWait P len s').2.1, (tr.afterWait P len s').2.2) := by
  cases tr with
  | wifi =>
    simp only [readCallback, arduinoWifiTransportRead, stateM_bind_apply, waitLoop, waitStart]
    cases hrun : (wifiLoop P (P.millis s).1 timeout).run fuel (P.millis s).2 with
    | mk left s' => cases left <;> rfl
  | nativeEthernet =>
    simp only [readCallback, arduinoNativeEthernetUdpTransportRead, stateM_bind_apply, waitLoop,
      waitStart]
    cases hrun : (ethernetLoop P (P.uxrMillis s).1 timeout).run fuel (P.uxrMillis s).2 with
    | mk left s' =>
      cases left with
      | none => rfl
      | some l =>
        simp only [afterWait, stateM_bind_apply, not_lt_zero_size, if_false]
        split <;> rfl

/-- A read whose wait is left, with any fuel above a bound, returns with any fuel above
that bound. -/
theorem readCallback_of_left {tr : Transport} {P : Platform w τ} {timeout : Int32} {s t : τ}
    {l : PollLoop.Left} {n : ℕ} (len : BitVec w)
    (h : ∀ fuel > n, (tr.waitLoop P timeout s).run fuel (tr.waitStart P s) = (some l, t)) :
    ∃ r s', ∀ fuel > n, tr.readCallback P fuel len timeout s = (some r, s') := by
  refine ⟨(tr.afterWait P len t).2.1, (tr.afterWait P len t).2.2, ?_⟩
  intro fuel hfuel
  rw [readCallback_eq, h fuel hfuel]

end Transport

end MicroRosArduino
