import MicroRosArduino.Platform

/-!
# The sending half of the UDP client

What the open and write callbacks rely on of `udp_client`: a packet is staged
between `beginPacket()` and `endPacket()`, and every step may fail on every call.

* `Sender` — whether the socket is bound, the staged bytes, and the datagrams
  accepted for sending.
* `SendsPackets` — a `Platform` whose sending functions act on a sender this way.
-/

namespace MicroRosArduino

/-- The sending state of a UDP socket. -/
structure Sender where
  /-- The socket is bound to a port. -/
  bound : Bool := false
  /-- The bytes staged for the next datagram. -/
  staging : List UInt8 := []
  /-- The datagrams accepted for sending, in order. -/
  accepted : List (List UInt8) := []
  deriving DecidableEq, Repr

variable {w : ℕ} {τ : Type}

/-- The sending functions act on the sender as the UDP client's do, each free to
fail on each call. -/
structure SendsPackets (P : Platform w τ) (tx : τ → Sender) : Prop where
  /-- `begin()` returns 1 exactly when the socket is bound. -/
  begin : ∀ port s, (P.begin port s).1 = 1 ↔ (tx (P.begin port s).2).bound = true
  /-- `begin()` sends nothing. -/
  begin_accepted : ∀ port s, (tx (P.begin port s).2).accepted = (tx s).accepted
  /-- `beginPacket()` empties the stage and returns 1, or returns 0. -/
  beginPacket : ∀ ip port s,
    (P.beginPacket ip port s).1 = 1 ∧
        tx (P.beginPacket ip port s).2 = { tx s with staging := [] } ∨
      (P.beginPacket ip port s).1 = 0 ∧ tx (P.beginPacket ip port s).2 = tx s
  /-- `write(buf, len)` stages the first bytes of `buf` and returns how many. -/
  write : ∀ buf s, ∃ k ≤ buf.bytes.length, (P.write buf s).1.toNat = k ∧
    tx (P.write buf s).2 = { tx s with staging := (tx s).staging ++ buf.bytes.take k }
  /-- `endPacket()` has the staged bytes accepted and returns 1, or returns 0. -/
  endPacket : ∀ s,
    (P.endPacket s).1 = 1 ∧
        (tx (P.endPacket s).2).accepted = (tx s).accepted ++ [(tx s).staging] ∨
      (P.endPacket s).1 = 0 ∧ tx (P.endPacket s).2 = tx s
  /-- `flush()` sends nothing and stages nothing. -/
  flush : ∀ s, tx (P.flush s).2 = tx s

end MicroRosArduino
