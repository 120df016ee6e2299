import MicroRosArduino.Platform

/-!
# `wifi_transport.cpp`: the Wi-Fi callbacks

The four callbacks of the Wi-Fi transport, over any `Platform`.

* `arduinoWifiTransportOpen`, `arduinoWifiTransportClose` — both report success
  whatever the UDP client says.
* `arduinoWifiTransportWrite` — reports what `udp_client.write` took.
* `wifiLoop`, `arduinoWifiTransportRead` — the wait loop, and the read around
  it; the read takes a bound on the checks of the loop and returns `none` when
  the loop is still going after them.
-/

namespace MicroRosArduino

open CInt

variable {w : ℕ} {τ : Type}

/-- `udp_client.begin(locator->port); return true;` -/
def arduinoWifiTransportOpen (P : Platform w τ) (locator : MicroRosAgentLocator) :
    StateM τ Bool := do
  let _ ← P.begin (toUInt16 locator.port)
  return true

/-- `udp_client.stop(); return true;` -/
def arduinoWifiTransportClose (P : Platform w τ) : StateM τ Bool := do
  P.stop
  return true

/-- `arduino_wifi_transport_write`: the results of `beginPacket` and `endPacket`
are dropped. -/
def arduinoWifiTransportWrite (P : Platform w τ) (locator : MicroRosAgentLocator)
    (buf : Buffer w) : StateM τ (BitVec w) := do
  let _ ← P.beginPacket locator.address (toUInt16 locator.port)
  let sent ← P.write buf
  let _ ← P.endPacket
  P.flush
  return sent

/-- `while(millis() - start_time < timeout && udp_client.parsePacket() == 0) delay(1);`
The left side is a `uint32_t`, so `timeout` is converted to one. -/
def wifiLoop (P : Platform w τ) (startTime : UInt32) (timeout : Int32) : PollLoop τ where
  guard := do return (← P.millis) - startTime < timeout.toUInt32
  poll := do return (← P.parsePacket) ≠ 0
  pause := P.delay 1

/-- `arduino_wifi_transport_read`: whatever ended the loop, `udp_client.read` is called. -/
def arduinoWifiTransportRead (P : Platform w τ) (fuel : ℕ) (len : BitVec w) (timeout : Int32) :
    StateM τ (Option (Received w)) := do
  let startTime ← P.millis
  match ← (wifiLoop P startTime timeout).run fuel with
  | none => return none
  | some _ =>
    let (readed, stored) ← P.read len
    return some ⟨sizeOfInt w (if readed < 0 then 0 else readed), stored⟩

end MicroRosArduino
