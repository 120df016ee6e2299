import MicroRosArduino.SerialTransport

/-!
# A session over the serial port

The client reads and writes through one `Serial`, in any order.

* `SendsBytes` — the sending half of the port: a write may take less than it is given.
* `SerialSession` — reads and writes in any order, at any lengths and timeouts.
* `serial_both_ways` — **two streams**: the reads are what arrived, each byte once and in
  order, and what went out is what the writes reported of their buffers, in order.
* `Loopback` — a port whose two ends are joined, to run the callbacks on.
-/

namespace MicroRosArduino

open CInt

variable {w : ℕ} {τ : Type} {S : SerialPort w τ} {stream : τ → ByteStream}
  {sent : τ → List UInt8}

/-- The sending functions act on the bytes sent as `Serial`'s do: `write` sends the first
bytes of its buffer and returns how many. -/
structure SendsBytes (S : SerialPort w τ) (stream : τ → ByteStream) (sent : τ → List UInt8) :
    Prop where
  setTimeout : ∀ ms s, sent (S.setTimeout ms s).2 = sent s
  readBytes : ∀ len s, sent (S.readBytes len s).2 = sent s
  write : ∀ buf s, (∃ bs, stream (S.write buf s).2 = (stream s).receive bs 0) ∧
    (S.write buf s).1.toNat ≤ buf.bytes.length ∧
    sent (S.write buf s).2 = sent s ++ buf.bytes.take (S.write buf s).1.toNat

/-- A write, and what it reported. -/
structure SerialWrite (w : ℕ) where
  /-- The buffer. -/
  buf : Buffer w
  /-- The returned length. -/
  ret : BitVec w

/-- The first bytes of the buffer, as many as were reported. -/
def SerialWrite.reported (c : SerialWrite w) : List UInt8 := c.buf.bytes.take c.ret.toNat

/-- Reads and writes through one port, in any order; between two calls bytes arrive, and
anything happens that leaves the port alone. -/
inductive SerialSession (S : SerialPort w τ) (stream : τ → ByteStream) (sent : τ → List UInt8) :
    τ → List (Received w) → List (SerialWrite w) → τ → Prop
  | done (s : τ) : SerialSession S stream sent s [] [] s
  | idle {s s' t : τ} {reads : List (Received w)} {writes : List (SerialWrite w)}
      (bs : List UInt8) :
      stream s' = (stream s).receive bs 0 → sent s' = sent s →
      SerialSession S stream sent s' reads writes t →
      SerialSession S stream sent s reads writes t
  | read {s t : τ} {reads : List (Received w)} {writes : List (SerialWrite w)} (len : BitVec w)
      (timeout : Int32) :
      SerialSession S stream sent (arduinoTransportRead S len timeout s).2 reads writes t →
      SerialSession S stream sent s ((arduinoTransportRead S len timeout s).1 :: reads) writes t
  | write {s t : τ} {reads : List (Received w)} {writes : List (SerialWrite w)}
      (buf : Buffer w) :
      SerialSession S stream sent (arduinoTransportWrite S buf s).2 reads writes t →
      SerialSession S stream sent s reads
        (⟨buf, (arduinoTransportWrite S buf s).1⟩ :: writes) t

/-- To the reads of a session, its writes are pauses. -/
theorem SerialSession.serialRun (hS : SendsBytes S stream sent) {s t : τ}
    {reads : List (Received w)} {writes : List (SerialWrite w)}
    (h : SerialSession S stream sent s reads writes t) : SerialRun S stream s reads t := by
  induction h with
  | done s => exact .done s
  | idle bs hbs _ _ ih => exact .idle bs hbs ih
  | read len timeout _ ih => exact .read len timeout ih
  | @write s t reads writes buf _ ih =>
    obtain ⟨bs, hbs⟩ := (hS.write buf s).1
    exact .idle bs hbs ih

/-- What a session sends is what its writes report, and none reports more than it was
given. -/
theorem SerialSession.sent_eq (hS : SendsBytes S stream sent) {s t : τ}
    {reads : List (Received w)} {writes : List (SerialWrite w)}
    (h : SerialSession S stream sent s reads writes t) :
    (∀ c ∈ writes, c.ret.toNat ≤ c.buf.bytes.length) ∧
      sent t = sent s ++ writes.flatMap SerialWrite.reported := by
  induction h with
  | done s => exact ⟨List.forall_mem_nil _, (List.append_nil _).symm⟩
  | idle bs _ hsent _ ih => exact ⟨ih.1, by rw [ih.2, hsent]⟩
  | @read s t reads writes len timeout _ ih =>
    have hkept : sent (arduinoTransportRead S len timeout s).2 = sent s := by
      show sent (S.readBytes len (S.setTimeout timeout.toUInt32 s).2).2 = sent s
      rw [hS.readBytes, hS.setTimeout]
    exact ⟨ih.1, by rw [ih.2, hkept]⟩
  | @write s t reads writes buf _ ih =>
    obtain ⟨-, hle, hwrite⟩ := hS.write buf s
    refine ⟨List.forall_mem_cons.2 ⟨hle, ih.1⟩, ?_⟩
    rw [ih.2]
    show sent (S.write buf s).2 ++ _ = _
    rw [hwrite, List.append_assoc]
    rfl

/-- **Two streams.**  In a session over the serial port, at any lengths and timeouts and
with reads and writes in any order, what was unread and what arrived is what the reads
handed over, followed by what is still unread; and what was sent is, in order, the part of
each write's buffer that the write reported. -/
theorem serial_both_ways (hR : StreamsBytes S stream) (hS : SendsBytes S stream sent) {s t : τ}
    {reads : List (Received w)} {writes : List (SerialWrite w)}
    (h : SerialSession S stream sent s reads writes t) :
    (∃ bs, (stream t).arrived = (stream s).arrived ++ bs ∧
        (stream s).unread ++ bs = reads.flatMap Received.message ++ (stream t).unread) ∧
      (∀ c ∈ writes, c.ret.toNat ≤ c.buf.bytes.length) ∧
      sent t = sent s ++ writes.flatMap SerialWrite.reported :=
  ⟨(h.serialRun hS).delivered hR, h.sent_eq hS⟩

/-! ## A port with its ends joined -/

/-- A port that receives what it sends, and takes up to `room` bytes of a write. -/
structure Loopback where
  /-- The receiving half. -/
  stream : ByteStream := {}
  /-- The bytes sent. -/
  sent : List UInt8 := []
  /-- How many bytes a write sends at most. -/
  room : ℕ := 2
  deriving DecidableEq

/-- The functions of that port. -/
def Loopback.port (w : ℕ) : SerialPort w Loopback where
  begin _ b := ((), b)
  stop b := ((), b)
  write buf b :=
    (BitVec.ofNat w (min b.room buf.bytes.length),
      { b with
        stream := b.stream.receive (buf.bytes.take b.room) 0
        sent := b.sent ++ buf.bytes.take b.room })
  setTimeout _ b := ((), b)
  readBytes len b :=
    let n := min len.toNat b.stream.unread.length
    (⟨BitVec.ofNat w n, b.stream.unread.take n⟩, { b with stream := b.stream.receive [] n })

theorem toNat_ofNat_min {n m : ℕ} (h : m < 2 ^ w) : (BitVec.ofNat w (min n m)).toNat = min n m :=
  (BitVec.toNat_ofNat _ _).trans (Nat.mod_eq_of_lt (by omega))

theorem loopback_streamsBytes : StreamsBytes (Loopback.port w) Loopback.stream where
  setTimeout _ b := ⟨[], by simp [Loopback.port, ByteStream.receive]⟩
  readBytes len b := by
    have hret : (BitVec.ofNat w (min len.toNat b.stream.unread.length)).toNat
        = min len.toNat b.stream.unread.length := by
      rw [Nat.min_comm]
      exact toNat_ofNat_min len.isLt
    refine ⟨[], min len.toNat b.stream.unread.length, Nat.min_le_left _ _, ?_, rfl, hret, ?_⟩
    · rw [List.append_nil]
      exact Nat.min_le_right _ _
    · rw [List.append_nil]
      rfl

theorem loopback_sendsBytes :
    SendsBytes (Loopback.port w) Loopback.stream Loopback.sent where
  setTimeout _ _ := rfl
  readBytes _ _ := rfl
  write buf b := by
    have hret : ((Loopback.port w).write buf b).1.toNat = min b.room buf.bytes.length :=
      toNat_ofNat_min buf.length_lt
    refine ⟨⟨_, rfl⟩, ?_, ?_⟩
    · rw [hret]
      exact Nat.min_le_right _ _
    · rw [hret]
      show b.sent ++ buf.bytes.take b.room = _
      rw [← List.take_take, List.take_length]

/-- Three bytes to send. -/
def serialBytes : Buffer 32 := ⟨[7, 8, 9], by decide⟩

/-- The port after they are written. -/
def afterSerialWrite : Loopback :=
  (arduinoTransportWrite (Loopback.port 32) serialBytes {}).2

/-- Three bytes written to a port with room for two, and read back from it. -/
theorem serial_both_ways_loopback :
    (∃ bs, (arduinoTransportRead (Loopback.port 32) 4#32 100 afterSerialWrite).2.stream.arrived
          = [] ++ bs ∧
        [] ++ bs = [(⟨2#32, [7, 8]⟩ : Received 32)].flatMap Received.message ++
          (arduinoTransportRead (Loopback.port 32) 4#32 100 afterSerialWrite).2.stream.unread) ∧
      (∀ c ∈ [(⟨serialBytes, 2#32⟩ : SerialWrite 32)], c.ret.toNat ≤ c.buf.bytes.length) ∧
      (arduinoTransportRead (Loopback.port 32) 4#32 100 afterSerialWrite).2.sent
        = [] ++ [(⟨serialBytes, 2#32⟩ : SerialWrite 32)].flatMap SerialWrite.reported :=
  serial_both_ways loopback_streamsBytes loopback_sendsBytes
    (.write serialBytes (.read 4#32 100 (.done _)))

end MicroRosArduino
