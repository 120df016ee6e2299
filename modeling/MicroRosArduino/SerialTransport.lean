import MicroRosArduino.Foundation.CInt
import MicroRosArduino.Foundation.PollLoop
import MicroRosArduino.Platform

/-!
# `default_transport.cpp`: the serial callbacks

The default transport, over the core's `Serial` object.  It is registered in
framing mode: a read hands over bytes of a stream, and messages are found in the
stream by the client.

* `arduinoTransportOpen`, `arduinoTransportClose`, `arduinoTransportWrite`,
  `arduinoTransportRead` — the four callbacks, over any `SerialPort`.
* `toNat_setTimeout_iff` — the timeout `Serial` is given is the caller's exactly when
  that is not negative.
* `StreamsBytes`, `SerialRun.delivered` — **the reads of a run are the stream**: what
  they hand over is what arrived, each byte once and in order.
-/

namespace MicroRosArduino

open CInt

variable {w : ℕ} {τ : Type}

/-- The `Serial` object of the Arduino core, over the machine state `τ`. -/
structure SerialPort (w : ℕ) (τ : Type) where
  /-- `void Serial.begin(unsigned long baud)`. -/
  begin : UInt32 → StateM τ Unit
  /-- `void Serial.end()`. -/
  stop : StateM τ Unit
  /-- `size_t Serial.write(const uint8_t *buf, size_t len)`. -/
  write : Buffer w → StateM τ (BitVec w)
  /-- `void Serial.setTimeout(unsigned long timeout)`. -/
  setTimeout : UInt32 → StateM τ Unit
  /-- `size_t Serial.readBytes(char *buf, size_t len)`: the result, and the bytes it
  stored from `buf[0]` on. -/
  readBytes : BitVec w → StateM τ (Received w)

/-- `Serial.begin(115200); return true;` -/
def arduinoTransportOpen (P : SerialPort w τ) : StateM τ Bool := do
  P.begin 115200
  return true

/-- `Serial.end(); return true;` -/
def arduinoTransportClose (P : SerialPort w τ) : StateM τ Bool := do
  P.stop
  return true

/-- `size_t sent = Serial.write(buf, len); return sent;` -/
def arduinoTransportWrite (P : SerialPort w τ) (buf : Buffer w) : StateM τ (BitVec w) := do
  let sent ← P.write buf
  return sent

/-- `Serial.setTimeout(timeout); return Serial.readBytes((char *)buf, len);`  The timeout
is an `int`, converted to `unsigned long`. -/
def arduinoTransportRead (P : SerialPort w τ) (len : BitVec w) (timeout : Int32) :
    StateM τ (Received w) := do
  P.setTimeout timeout.toUInt32
  P.readBytes len

/-- The timeout `Serial` is given is the caller's exactly when that is not negative. -/
theorem toNat_setTimeout_iff (timeout : Int32) :
    (timeout.toUInt32.toNat : ℤ) = timeout.toInt ↔ 0 ≤ timeout.toInt := by
  rw [toNat_toUInt32]
  split <;> omega

/-! ## The stream -/

/-- The receiving state of a serial port. -/
structure ByteStream where
  /-- Every byte that has arrived, in order. -/
  arrived : List UInt8 := []
  /-- The bytes not yet read, in order. -/
  unread : List UInt8 := []
  deriving DecidableEq, Repr

/-- Bytes arrive, and the first `n` unread ones are read. -/
def ByteStream.receive (b : ByteStream) (bs : List UInt8) (n : ℕ) : ByteStream :=
  ⟨b.arrived ++ bs, (b.unread ++ bs).drop n⟩

/-- The receiving functions act on the stream as `Serial`'s do: `readBytes` hands over
the oldest unread bytes, at most `len` of them. -/
structure StreamsBytes (P : SerialPort w τ) (stream : τ → ByteStream) : Prop where
  setTimeout : ∀ ms s, ∃ bs, stream (P.setTimeout ms s).2 = (stream s).receive bs 0
  readBytes : ∀ len s, ∃ bs n, n ≤ len.toNat ∧ n ≤ ((stream s).unread ++ bs).length ∧
    stream (P.readBytes len s).2 = (stream s).receive bs n ∧
    (P.readBytes len s).1.ret.toNat = n ∧
    (P.readBytes len s).1.stored = ((stream s).unread ++ bs).take n

/-- **One read.**  It hands over at most `len` bytes, the oldest unread ones. -/
theorem arduinoTransportRead_stream {P : SerialPort w τ} {stream : τ → ByteStream}
    (hP : StreamsBytes P stream) (len : BitVec w) (timeout : Int32) (s : τ) :
    (arduinoTransportRead P len timeout s).1.ret.toNat ≤ len.toNat ∧
      ∃ bs, (stream (arduinoTransportRead P len timeout s).2).arrived
          = (stream s).arrived ++ bs ∧
        (stream s).unread ++ bs = (arduinoTransportRead P len timeout s).1.message ++
          (stream (arduinoTransportRead P len timeout s).2).unread := by
  obtain ⟨as, has⟩ := hP.setTimeout timeout.toUInt32 s
  obtain ⟨bs, n, hlen, hn, hstream, hret, hstored⟩ :=
    hP.readBytes len (P.setTimeout timeout.toUInt32 s).2
  have hread : arduinoTransportRead P len timeout s
      = P.readBytes len (P.setTimeout timeout.toUInt32 s).2 := rfl
  have hunread : (stream (P.setTimeout timeout.toUInt32 s).2).unread
      = (stream s).unread ++ as := by
    rw [has]
    exact List.drop_zero
  rw [hread, hstream, Received.message, hret, hstored, ByteStream.receive, hunread, has]
  refine ⟨hlen, as ++ bs, List.append_assoc _ _ _, ?_⟩
  rw [← List.append_assoc, List.take_take, Nat.min_self, List.take_append_drop]

/-- A run of read calls, with what each handed over; between two calls bytes arrive and
anything happens that leaves the port alone. -/
inductive SerialRun (P : SerialPort w τ) (stream : τ → ByteStream) :
    τ → List (Received w) → τ → Prop
  | done (s : τ) : SerialRun P stream s [] s
  | idle {s s' t : τ} {reads : List (Received w)} (bs : List UInt8) :
      stream s' = (stream s).receive bs 0 → SerialRun P stream s' reads t →
      SerialRun P stream s reads t
  | read {s t : τ} {reads : List (Received w)} (len : BitVec w) (timeout : Int32) :
      SerialRun P stream (arduinoTransportRead P len timeout s).2 reads t →
      SerialRun P stream s ((arduinoTransportRead P len timeout s).1 :: reads) t

/-- **Each byte once, in order.**  What was unread and what arrived during a run is what
its reads handed over, followed by what is still unread. -/
theorem SerialRun.delivered {P : SerialPort w τ} {stream : τ → ByteStream}
    (hP : StreamsBytes P stream) {s t : τ} {reads : List (Received w)}
    (h : SerialRun P stream s reads t) :
    ∃ bs, (stream t).arrived = (stream s).arrived ++ bs ∧
      (stream s).unread ++ bs = reads.flatMap Received.message ++ (stream t).unread := by
  induction h with
  | done s => exact ⟨[], by simp, by simp⟩
  | idle bs hbs _ ih =>
    obtain ⟨cs, harr, hunread⟩ := ih
    rw [hbs] at harr hunread
    refine ⟨bs ++ cs, by rw [harr, ByteStream.receive, List.append_assoc], ?_⟩
    rw [← hunread, ByteStream.receive, List.drop_zero, List.append_assoc]
  | @read s t reads len timeout _ ih =>
    obtain ⟨-, bs, harr, hunread⟩ := arduinoTransportRead_stream hP len timeout s
    obtain ⟨cs, harr', hunread'⟩ := ih
    refine ⟨bs ++ cs, by rw [harr', harr, List.append_assoc], ?_⟩
    rw [List.flatMap_cons, List.append_assoc, ← hunread', ← List.append_assoc, hunread,
      List.append_assoc]

end MicroRosArduino
