import Mathlib

/-!
# A queue read one packet at a time

The meaning of a packet-mode receiver: packets wait in a queue in the order of
their arrival, and one read takes one packet from the front and hands over as
much of it as the reader has room for.  The rest of that packet is gone.

* `Read` — one read, during which further packets may arrive: with a packet
  waiting it hands over the oldest, and on an empty queue it either hands over
  nothing or waits for the first packet to arrive.
* `Read.front` — a read hands over the front of the queue and its arrivals, or
  nothing at all; `Read.pops` says a waiting packet is always taken.
* `Run`, `Run.delivered` — **the reads of a run are its packets**: what they hand
  over are the first bytes of the packets taken from the queue, each packet once,
  in the order of arrival, and what is left is left for later.
-/

namespace PacketQueue

variable {α : Type*}

/-- A packet with something in it. -/
structure Packet (α : Type*) where
  /-- What the packet carries. -/
  payload : List α
  /-- It carries something. -/
  payload_ne : payload ≠ []
  deriving DecidableEq

/-- One read with room for `len`: the queue before, the packets that arrive during
the read, what is handed over, and the queue after. -/
inductive Read (len : ℕ) :
    List (Packet α) → List (Packet α) → List α → List (Packet α) → Prop
  /-- The oldest waiting packet is taken. -/
  | oldest (d : Packet α) (q arr : List (Packet α)) :
      Read len (d :: q) arr (d.payload.take len) (q ++ arr)
  /-- Nothing was waiting, and the first packet to arrive is taken. -/
  | arrived (d : Packet α) (arr : List (Packet α)) :
      Read len [] (d :: arr) (d.payload.take len) arr
  /-- Nothing was waiting and nothing is taken. -/
  | nothing (arr : List (Packet α)) : Read len [] arr [] arr

/-- A run: the queue before, the arrivals, the reads with their room and what each
handed over, and the queue after. -/
inductive Run :
    List (Packet α) → List (Packet α) → List (ℕ × List α) → List (Packet α) → Prop
  | done (q : List (Packet α)) : Run q [] [] q
  /-- Packets arrive between two reads. -/
  | arrive {q arr q' : List (Packet α)} {reads : List (ℕ × List α)} (ds : List (Packet α)) :
      Run (q ++ ds) arr reads q' → Run q (ds ++ arr) reads q'
  /-- A read is made. -/
  | read {q arr q₁ arr₁ q' : List (Packet α)} {len : ℕ} {msg : List α}
      {reads : List (ℕ × List α)} :
      Read len q arr₁ msg q₁ → Run q₁ arr reads q' →
      Run q (arr₁ ++ arr) ((len, msg) :: reads) q'

/-- The reads that handed something over. -/
def nonempty (reads : List (ℕ × List α)) : List (ℕ × List α) :=
  reads.filter fun r => !r.2.isEmpty

theorem Packet.take_ne_nil (d : Packet α) {len : ℕ} (hlen : 0 < len) :
    d.payload.take len ≠ [] := by
  rw [Ne, List.take_eq_nil_iff, not_or]
  exact ⟨by omega, d.payload_ne⟩

/-- A read hands over the front of the queue and its arrivals, or nothing. -/
theorem Read.front {len : ℕ} {q arr q' : List (Packet α)} {msg : List α}
    (h : Read len q arr msg q') :
    (msg = [] ∧ q ++ arr = q') ∨ ∃ d, q ++ arr = d :: q' ∧ msg = d.payload.take len := by
  cases h with
  | oldest d q arr => exact Or.inr ⟨d, rfl, rfl⟩
  | arrived d arr => exact Or.inr ⟨d, rfl, rfl⟩
  | nothing arr => exact Or.inl ⟨rfl, rfl⟩

/-- Taking the front of the queue and its arrivals is a read. -/
theorem Read.of_front {len : ℕ} {q arr q' : List (Packet α)} {d : Packet α}
    (h : q ++ arr = d :: q') : Read len q arr (d.payload.take len) q' := by
  cases q with
  | nil =>
    subst h
    exact .arrived d q'
  | cons e q =>
    obtain ⟨rfl, rfl⟩ := List.cons.inj h
    exact .oldest e q arr

/-- A read of a queue with a packet waiting takes it. -/
theorem Read.pops {len : ℕ} {d : Packet α} {q arr q' : List (Packet α)} {msg : List α}
    (h : Read len (d :: q) arr msg q') : msg = d.payload.take len ∧ q' = q ++ arr := by
  cases h with
  | oldest => exact ⟨rfl, rfl⟩

/-- A read that takes no packet met an empty queue and hands over nothing. -/
theorem Read.eq_nil {len : ℕ} {q arr : List (Packet α)} {msg : List α}
    (h : Read len q arr msg (q ++ arr)) : q = [] ∧ msg = [] := by
  cases q with
  | nil =>
    rcases h.front with ⟨hmsg, -⟩ | ⟨d, hd, -⟩
    · exact ⟨rfl, hmsg⟩
    · exact absurd (congrArg List.length hd) (by simp)
  | cons d q => exact absurd (congrArg List.length h.pops.2) (by simp)

/-- **Each packet once, in order, and nothing else.**  The packets that were
waiting and that arrived are those the reads took followed by those still
waiting, and the reads that handed something over handed over the packets taken,
each cut to the room of its read. -/
theorem Run.delivered {q arr q' : List (Packet α)} {reads : List (ℕ × List α)}
    (h : Run q arr reads q') (hlen : ∀ r ∈ reads, 0 < r.1) :
    ∃ taken, q ++ arr = taken ++ q' ∧
      List.Forall₂ (fun d r => r.2 = d.payload.take r.1) taken (nonempty reads) := by
  induction h with
  | done q => exact ⟨[], by simp, .nil⟩
  | arrive ds _ ih =>
    obtain ⟨taken, heq, hall⟩ := ih hlen
    exact ⟨taken, by rw [← heq, List.append_assoc], hall⟩
  | @read q arr q₁ arr₁ q' len msg reads hread _ ih =>
    obtain ⟨taken, heq, hall⟩ := ih fun r hr => hlen r (List.mem_cons_of_mem _ hr)
    have hpos : 0 < len := hlen (len, msg) List.mem_cons_self
    rcases hread.front with ⟨rfl, hq⟩ | ⟨d, hq, rfl⟩
    · refine ⟨taken, by rw [← heq, ← hq, List.append_assoc], ?_⟩
      rwa [nonempty, List.filter_cons_of_neg (by simp)]
    · refine ⟨d :: taken, ?_, ?_⟩
      · rw [List.cons_append, ← heq, ← List.append_assoc, hq, List.cons_append]
      · rw [nonempty, List.filter_cons_of_pos (by simpa using d.take_ne_nil hpos)]
        exact .cons rfl hall

end PacketQueue
