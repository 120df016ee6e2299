import MicroRosArduino.Clock
import MicroRosArduino.Sender
import MicroRosArduino.Socket

/-!
# A board on the bench

One `Platform` that can be run: a board with a true clock, a socket and a sender,
and a script of what happens to it during each call into the platform.  It shows
that what the results ask of a platform can be had together
(`bench_receivesPackets`, `bench_sendsPackets`), and it is there to run the
callbacks on.  `silentBoard` is a second one, on which nothing happens but that time
passes.
-/

namespace MicroRosArduino

/-! ## The board -/

/-- A socket whose datagrams have a length that fits an `int`. -/
def Socket.Small (k : Socket) : Prop :=
  (∀ d ∈ k.queue, d.payload.length < 2 ^ 31) ∧ k.current.length < 2 ^ 31

instance (k : Socket) : Decidable k.Small := inferInstanceAs (Decidable (_ ∧ _))

/-- What happens to the board during one call into its platform. -/
structure Happening where
  /-- True microseconds that pass before the call takes effect. -/
  elapse : ℕ := 0
  /-- Datagrams that arrive before it does. -/
  arrivals : List Datagram := []
  /-- Their lengths fit an `int`. -/
  small : ∀ d ∈ arrivals, d.payload.length < 2 ^ 31 := by decide
  /-- Whether a step of the UDP client that can fail succeeds. -/
  succeeds : Bool := true
  /-- How many bytes a `write` stages at most. -/
  room : ℕ := 2 ^ 32
  deriving DecidableEq

/-- Nothing happens. -/
def Happening.quiet : Happening := {}

/-- A step of the UDP client fails. -/
def Happening.failure : Happening := { succeeds := false }

/-- The state of the board. -/
structure Bench where
  /-- True microseconds since boot. -/
  now : ℕ := 0
  /-- The statics of `clock_gettime`. -/
  clock : ClockStatics := {}
  /-- The receiving half of the UDP client. -/
  socket : Socket := {}
  /-- Its datagrams have a length that fits an `int`. -/
  small : socket.Small := by decide
  /-- The sending half of the UDP client. -/
  sender : Sender := {}
  /-- What is still to happen, call by call. -/
  script : List Happening := []
  deriving DecidableEq

theorem Socket.Small.arrive {k : Socket} (h : k.Small) {ds : List Datagram}
    (hds : ∀ d ∈ ds, d.payload.length < 2 ^ 31) : (k.arrive ds).Small := by
  refine ⟨?_, h.2⟩
  intro d hd
  rcases List.mem_append.1 hd with hd | hd
  · exact h.1 d hd
  · exact hds d hd

theorem Socket.Small.next {k : Socket} (h : k.Small) : k.next.Small := by
  cases hq : k.queue with
  | nil => simp [Socket.next_of_queue_nil hq, Socket.Small]
  | cons d q =>
    have hsmall := h.1
    rw [hq, List.forall_mem_cons] at hsmall
    rw [Socket.next_of_queue_cons hq]
    exact ⟨hsmall.2, hsmall.1⟩

theorem Socket.Small.consume {k : Socket} (h : k.Small) (n : ℕ) : (k.consume n).Small := by
  refine ⟨h.1, ?_⟩
  have hlen := h.2
  rw [Socket.consume_current, List.length_drop]
  omega

namespace Bench

/-- A board just booted, with its script. -/
def scripted (script : List Happening) : Bench := { script := script }

/-- What happens during the next call, and nothing once the script is over. -/
def happening (b : Bench) : Happening := b.script.headD .quiet

/-- The board once that has happened. -/
def advance (b : Bench) : Bench :=
  { b with
    now := b.now + b.happening.elapse
    socket := b.socket.arrive b.happening.arrivals
    small := b.small.arrive b.happening.small
    script := b.script.tail }

/-- The board as a platform. -/
def platform (w : ℕ) : Platform w Bench where
  millis b := (UInt32.ofNat (b.advance.now / 1000), b.advance)
  delay ms b := ((), { b.advance with now := b.advance.now + 1000 * ms.toNat })
  uxrMillis b :=
    let r := clockGettime (microsAt b.advance.now) b.clock
    (Int64.ofInt (r.tp.nanos / 10 ^ 6), { b.advance with clock := r.statics })
  begin _ b :=
    (if b.happening.succeeds then 1 else 0,
      { b.advance with sender := { b.sender with bound := b.happening.succeeds } })
  stop b := ((), { b.advance with sender := { b.sender with bound := false } })
  beginPacket _ _ b :=
    if b.happening.succeeds then
      (1, { b.advance with sender := { b.sender with staging := [] } })
    else (0, b.advance)
  write buf b :=
    let k := min b.happening.room buf.bytes.length
    (BitVec.ofNat w k,
      { b.advance with
        sender := { b.sender with staging := b.sender.staging ++ buf.bytes.take k } })
  endPacket b :=
    if b.happening.succeeds then
      (1, { b.advance with
        sender := { b.sender with accepted := b.sender.accepted ++ [b.sender.staging] } })
    else (0, b.advance)
  flush b := ((), b.advance)
  parsePacket b :=
    (Int32.ofNat b.advance.socket.next.current.length,
      { b.advance with socket := b.advance.socket.next, small := b.advance.small.next })
  available b := (Int32.ofNat b.socket.current.length, b.advance)
  read n b :=
    ((Int32.ofNat (min n.toNat b.socket.current.length), b.socket.current.take n.toNat),
      { b.advance with
        socket := b.advance.socket.consume n.toNat
        small := b.advance.small.consume n.toNat })

end Bench

/-! ## What it satisfies -/

variable {w : ℕ}

theorem bench_receivesPackets : ReceivesPackets (Bench.platform w) Bench.socket where
  millis b := ⟨b.happening.arrivals, rfl⟩
  uxrMillis b := ⟨b.happening.arrivals, rfl⟩
  delay ms b := ⟨b.happening.arrivals, rfl⟩
  parsePacket b := by
    refine ⟨b.happening.arrivals, rfl, ?_⟩
    exact Int32.toInt_ofNat_of_lt b.advance.small.next.2
  available := ⟨fun b => ⟨b.happening.arrivals, rfl⟩, fun b => Int32.toInt_ofNat_of_lt b.small.2⟩
  read n b := by
    have hlen := b.small.2
    have hret : (Int32.ofNat (min n.toNat b.socket.current.length)).toInt
        = (min n.toNat b.socket.current.length : ℕ) := Int32.toInt_ofNat_of_lt (by omega)
    refine ⟨b.happening.arrivals, rfl, ?_⟩
    split
    · rename_i hnil
      simp [Bench.platform, hnil]
    · exact ⟨hret, rfl⟩

theorem bench_sendsPackets : SendsPackets (Bench.platform w) Bench.sender where
  begin port b := by
    simp only [Bench.platform]
    cases b.happening.succeeds <;> decide
  begin_accepted port b := rfl
  beginPacket ip port b := by
    simp only [Bench.platform]
    cases b.happening.succeeds
    · exact Or.inr ⟨rfl, rfl⟩
    · exact Or.inl ⟨rfl, rfl⟩
  write buf b := by
    refine ⟨min b.happening.room buf.bytes.length, Nat.min_le_right _ _, ?_, rfl⟩
    have hlt := buf.length_lt
    exact (BitVec.toNat_ofNat _ _).trans (Nat.mod_eq_of_lt (by omega))
  endPacket b := by
    simp only [Bench.platform]
    cases b.happening.succeeds
    · exact Or.inr ⟨rfl, rfl⟩
    · exact Or.inl ⟨rfl, rfl⟩
  flush b := rfl

/-! ## Without a script -/

/-- A board on a silent network, whose state is the true time in milliseconds, of which
`delay(1)` takes `d`. -/
def silentBoard (w d : ℕ) : Platform w ℕ where
  millis now := (UInt32.ofNat now, now)
  delay ms now := ((), now + d * ms.toNat)
  uxrMillis now := (Int64.ofNat now, now)
  begin _ now := (1, now)
  stop now := ((), now)
  beginPacket _ _ now := (1, now)
  write buf now := (BitVec.ofNat w buf.bytes.length, now)
  endPacket now := (1, now)
  flush now := ((), now)
  parsePacket now := (0, now)
  available now := (0, now)
  read _ now := ((0, []), now)

end MicroRosArduino
