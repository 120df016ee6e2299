import MicroRosArduino.Foundation.PacketQueue
import MicroRosArduino.Platform

/-!
# The receiving half of the UDP client

What the read callbacks rely on of `udp_client` and of the network: arriving
datagrams join a queue, `parsePacket()` moves on to the oldest of them, and
`available()` and `read()` work on the datagram moved to.

* `Socket` — the queue, the unread rest of the current datagram, and every
  datagram that has arrived so far.
* `ReceivesPackets` — a `Platform` whose receiving functions act on a socket this
  way.  Datagrams may arrive and time may pass during every call into it.
-/

namespace MicroRosArduino

open PacketQueue

/-- A datagram with something in it. -/
abbrev Datagram := Packet UInt8

/-- The receiving state of a UDP socket. -/
structure Socket where
  /-- Every datagram that has arrived, in order. -/
  arrived : List Datagram := []
  /-- The datagrams waiting, in order. -/
  queue : List Datagram := []
  /-- What is unread of the current datagram. -/
  current : List UInt8 := []
  deriving DecidableEq

namespace Socket

/-- Datagrams arrive. -/
def arrive (k : Socket) (ds : List Datagram) : Socket :=
  ⟨k.arrived ++ ds, k.queue ++ ds, k.current⟩

/-- `parsePacket()`: the rest of the current datagram is dropped, and the oldest
waiting one becomes current. -/
def next (k : Socket) : Socket :=
  match k.queue with
  | [] => ⟨k.arrived, [], []⟩
  | d :: q => ⟨k.arrived, q, d.payload⟩

/-- `read(buf, n)`: up to `n` bytes of the current datagram are consumed. -/
def consume (k : Socket) (n : ℕ) : Socket := ⟨k.arrived, k.queue, k.current.drop n⟩

@[simp] theorem arrive_arrived (k : Socket) (ds : List Datagram) :
    (k.arrive ds).arrived = k.arrived ++ ds := rfl

@[simp] theorem arrive_queue (k : Socket) (ds : List Datagram) :
    (k.arrive ds).queue = k.queue ++ ds := rfl

@[simp] theorem arrive_current (k : Socket) (ds : List Datagram) :
    (k.arrive ds).current = k.current := rfl

@[simp] theorem arrive_nil (k : Socket) : k.arrive [] = k := by simp [arrive]

theorem arrive_arrive (k : Socket) (ds es : List Datagram) :
    (k.arrive ds).arrive es = k.arrive (ds ++ es) := by simp [arrive]

@[simp] theorem consume_arrived (k : Socket) (n : ℕ) : (k.consume n).arrived = k.arrived := rfl

@[simp] theorem consume_queue (k : Socket) (n : ℕ) : (k.consume n).queue = k.queue := rfl

@[simp] theorem consume_current (k : Socket) (n : ℕ) :
    (k.consume n).current = k.current.drop n := rfl

@[simp] theorem next_arrived (k : Socket) : k.next.arrived = k.arrived := by
  unfold next
  split <;> rfl

theorem next_of_queue_nil {k : Socket} (h : k.queue = []) : k.next = ⟨k.arrived, [], []⟩ := by
  rw [next, h]

theorem next_of_queue_cons {k : Socket} {d : Datagram} {q : List Datagram}
    (h : k.queue = d :: q) : k.next = ⟨k.arrived, q, d.payload⟩ := by
  rw [next, h]

/-- `parsePacket()` moves to an empty datagram only when none was waiting. -/
theorem next_current_eq_nil {k : Socket} : k.next.current = [] ↔ k.queue = [] := by
  cases hq : k.queue with
  | nil => simp [next_of_queue_nil hq]
  | cons d q => simp [next_of_queue_cons hq, d.payload_ne]

end Socket

variable {w : ℕ} {τ : Type}

/-- A command during which datagrams may arrive and nothing else happens to the
socket. -/
def OnlyArrivals {α : Type} (sock : τ → Socket) (f : StateM τ α) : Prop :=
  ∀ s, ∃ ds, sock (f s).2 = (sock s).arrive ds

/-- The receiving functions act on the socket as the UDP client's do. -/
structure ReceivesPackets (P : Platform w τ) (sock : τ → Socket) : Prop where
  /-- Reading a clock leaves the socket alone. -/
  millis : OnlyArrivals sock P.millis
  /-- Reading a clock leaves the socket alone. -/
  uxrMillis : OnlyArrivals sock P.uxrMillis
  /-- Waiting leaves the socket alone. -/
  delay : ∀ ms, OnlyArrivals sock (P.delay ms)
  /-- `parsePacket()` moves on and returns the length of what it moved to. -/
  parsePacket : ∀ s, ∃ ds, sock (P.parsePacket s).2 = ((sock s).arrive ds).next ∧
    (P.parsePacket s).1.toInt = (sock (P.parsePacket s).2).current.length
  /-- `available()` is the number of unread bytes. -/
  available : OnlyArrivals sock P.available ∧
    ∀ s, (P.available s).1.toInt = (sock s).current.length
  /-- `read(buf, n)` hands over and consumes up to `n` unread bytes, or returns a
  value from 0 down when there are none. -/
  read : ∀ n s, ∃ ds, sock (P.read n s).2 = ((sock s).arrive ds).consume n.toNat ∧
    if (sock s).current = [] then (P.read n s).1.1.toInt ≤ 0
    else (P.read n s).1.1.toInt = min n.toNat (sock s).current.length ∧
      (P.read n s).1.2 = (sock s).current.take n.toNat

end MicroRosArduino
