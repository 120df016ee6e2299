import MicroRosArduino.Platform

/-!
# `native_ethernet_transport.cpp`: the Ethernet callbacks

The four callbacks of the native-Ethernet transport, over any `Platform`.

* `arduinoNativeEthernetUdpTransportOpen` — reports what `udp_client.begin` said.
* `arduinoNativeEthernetUdpTransportWrite` — writes only into a packet that was
  begun, and reports what `udp_client.write` took.
* `ethernetLoop`, `arduinoNativeEthernetUdpTransportRead` — the wait loop, on
  the clock of `uxr_millis()`, and the read around it; the read takes a bound on
  the checks of the loop and returns `none` when the loop is still going after
  them.
-/

namespace MicroRosArduino

open CInt

variable {w : ℕ} {τ : Type}

/-- `return 1 == udp_client.begin(locator->port);` -/
def arduinoNativeEthernetUdpTransportOpen (P : Platform w τ) (locator : MicroRosAgentLocator) :
    StateM τ Bool := do
  return 1 == (← P.begin (toUInt16 locator.port))

/-- `udp_client.stop(); return true;` -/
def arduinoNativeEthernetUdpTransportClose (P : Platform w τ) : StateM τ Bool := do
  P.stop
  return true

/-- `arduino_native_ethernet_udp_transport_write`: the packet is written and ended
only when `beginPacket` returned 1; the result of `endPacket` is dropped. -/
def arduinoNativeEthernetUdpTransportWrite (P : Platform w τ) (locator : MicroRosAgentLocator)
    (buf : Buffer w) : StateM τ (BitVec w) := do
  let sent ←
    if 1 == (← P.beginPacket locator.address (toUInt16 locator.port)) then do
      let sent ← P.write buf
      let _ ← P.endPacket
      pure sent
    else
      pure 0
  P.flush
  return sent

/-- `while ((uxr_millis() - start_time) < ((int64_t)timeout) && udp_client.parsePacket() == 0)
delay(1);` -/
def ethernetLoop (P : Platform w τ) (startTime : Int64) (timeout : Int32) : PollLoop τ where
  guard := do return (← P.uxrMillis) - startTime < timeout.toInt64
  poll := do return (← P.parsePacket) ≠ 0
  pause := P.delay 1

/-- `arduino_native_ethernet_udp_transport_read`: `udp_client.read` is called when
`udp_client.available()` is not 0, and its result goes through a `size_t` before
the test for a negative one. -/
def arduinoNativeEthernetUdpTransportRead (P : Platform w τ) (fuel : ℕ) (len : BitVec w)
    (timeout : Int32) : StateM τ (Option (Received w)) := do
  let startTime ← P.uxrMillis
  match ← (ethernetLoop P startTime timeout).run fuel with
  | none => return none
  | some _ =>
    let (available, stored) ←
      if (← P.available) ≠ 0 then do
        let (readed, stored) ← P.read len
        pure (sizeOfInt w readed, stored)
      else
        pure (0#w, [])
    return some ⟨if available < 0#w then 0 else available, stored⟩

end MicroRosArduino
