import MicroRosArduino.Foundation.CInt
import MicroRosArduino.Foundation.PollLoop

/-!
# What the transports call: the Arduino core and the UDP client

The transports call `millis()` and `delay()` of the Arduino core, `uxr_millis()`
of the XRCE client, which the repository only declares, and the methods of the
`WiFiUDP` / `EthernetUDP` object that each keeps as its `static ... udp_client`.
The code of none of these is in the repository, so it is a parameter: a
`Platform` is any implementation of these functions over any state `τ`, and `w`
is the width of the target's `size_t`.  What a result needs of them is a
hypothesis of that result.
-/

namespace MicroRosArduino

/-- The address half of an agent's locator; only passed on. -/
structure IPAddress where
  /-- The address bytes. -/
  octets : List UInt8
  deriving DecidableEq, Repr

/-- `struct micro_ros_agent_locator`, what `transport->args` points to. -/
structure MicroRosAgentLocator where
  /-- The agent's address. -/
  address : IPAddress
  /-- The agent's port, an `int` in the source. -/
  port : Int32
  deriving DecidableEq, Repr

/-- A buffer handed to a write callback: `const uint8_t *buf, size_t len`. -/
structure Buffer (w : ℕ) where
  /-- The bytes from `buf[0]` to `buf[len - 1]`. -/
  bytes : List UInt8
  /-- The length is a `size_t`. -/
  length_lt : bytes.length < 2 ^ w

/-- What a read callback leaves its caller: the returned `size_t`, and the bytes
`udp_client.read` stored from `buf[0]` on (none when it was not called). -/
structure Received (w : ℕ) where
  /-- The returned length. -/
  ret : BitVec w
  /-- The bytes stored in the caller's buffer. -/
  stored : List UInt8
  deriving DecidableEq, Repr

/-- The message the caller takes: the first `ret` bytes of its buffer. -/
def Received.message {w : ℕ} (r : Received w) : List UInt8 := r.stored.take r.ret.toNat

/-- The functions the transports call, over the machine state `τ`. -/
structure Platform (w : ℕ) (τ : Type) where
  /-- `unsigned long millis()`, 32 bits wide on these targets. -/
  millis : StateM τ UInt32
  /-- `void delay(unsigned long)`. -/
  delay : UInt32 → StateM τ Unit
  /-- `int64_t uxr_millis(void)`. -/
  uxrMillis : StateM τ Int64
  /-- `uint8_t udp_client.begin(uint16_t port)`. -/
  begin : UInt16 → StateM τ UInt8
  /-- `void udp_client.stop()`. -/
  stop : StateM τ Unit
  /-- `int udp_client.beginPacket(IPAddress ip, uint16_t port)`. -/
  beginPacket : IPAddress → UInt16 → StateM τ Int32
  /-- `size_t udp_client.write(const uint8_t *buf, size_t len)`. -/
  write : Buffer w → StateM τ (BitVec w)
  /-- `int udp_client.endPacket()`. -/
  endPacket : StateM τ Int32
  /-- `void udp_client.flush()`. -/
  flush : StateM τ Unit
  /-- `int udp_client.parsePacket()`. -/
  parsePacket : StateM τ Int32
  /-- `int udp_client.available()`. -/
  available : StateM τ Int32
  /-- `int udp_client.read(uint8_t *buf, size_t len)`: the result, and the bytes
  it stored from `buf[0]` on. -/
  read : BitVec w → StateM τ (Int32 × List UInt8)

end MicroRosArduino
