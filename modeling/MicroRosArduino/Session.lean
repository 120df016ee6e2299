import MicroRosArduino.ReadQueue
import MicroRosArduino.SendOutcomes

/-!
# A session: reads and writes in any order

The client reads and writes through one `udp_client`, in any order.  The results on runs
of reads and on runs of writes carry over to such a session, as long as the two halves of
the client leave each other alone.

* `Apart` — what that asks of the platform: reading sends nothing, and sending takes no
  datagram from the queue, though it may drop the rest of the current one (the `flush`
  of some cores does).
* `SessionRun` — reads and writes in any order.
* `SessionRun.sendRun`, `SessionRun.queueRun` — its two halves.
* `session_both_ways` — **both directions at once**: datagrams handed over once each and
  in order, and reports that are right.
-/

namespace MicroRosArduino

open CInt PacketQueue

variable {w : ℕ} {τ : Type} {sock : τ → Socket} {tx : τ → Sender} {P : Platform w τ}

/-! ## The two halves -/

/-- The sender is as it was. -/
def SameSender (tx : τ → Sender) (s s' : τ) : Prop := tx s' = tx s

/-- Datagrams have joined the queue, and none has left it. -/
def QueueGrows (sock : τ → Socket) (s s' : τ) : Prop :=
  ∃ ds, (sock s').arrived = (sock s).arrived ++ ds ∧ (sock s').queue = (sock s).queue ++ ds

instance : IsPreorder τ (SameSender tx) where
  refl _ := rfl
  trans _ _ _ hab hbc := Eq.trans hbc hab

instance : IsPreorder τ (QueueGrows sock) where
  refl _ := ⟨[], by simp, by simp⟩
  trans a b c := by
    rintro ⟨ds, harr, hqueue⟩ ⟨es, harr', hqueue'⟩
    refine ⟨ds ++ es, ?_, ?_⟩
    · rw [harr', harr, List.append_assoc]
    · rw [hqueue', hqueue, List.append_assoc]

/-- The two halves of the UDP client leave each other alone. -/
structure Apart (P : Platform w τ) (sock : τ → Socket) (tx : τ → Sender) : Prop where
  millis : Keeps (SameSender tx) P.millis
  uxrMillis : Keeps (SameSender tx) P.uxrMillis
  delay : ∀ ms, Keeps (SameSender tx) (P.delay ms)
  parsePacket : Keeps (SameSender tx) P.parsePacket
  available : Keeps (SameSender tx) P.available
  read : ∀ n, Keeps (SameSender tx) (P.read n)
  beginPacket : ∀ ip port, Keeps (QueueGrows sock) (P.beginPacket ip port)
  write : ∀ buf, Keeps (QueueGrows sock) (P.write buf)
  endPacket : Keeps (QueueGrows sock) P.endPacket
  flush : Keeps (QueueGrows sock) P.flush

/-- A read callback sends nothing. -/
theorem readCallback_keeps (hP : Apart P sock tx) (tr : Transport) (fuel : ℕ) (len : BitVec w)
    (timeout : Int32) : Keeps (SameSender tx) (tr.readCallback P fuel len timeout) := by
  cases tr with
  | wifi =>
    refine hP.millis.bind fun start => Keeps.bind ?_ fun left => ?_
    · exact PollLoop.run_keeps _ (hP.millis.bind fun _ => .pure _)
        (hP.parsePacket.bind fun _ => .pure _) (hP.delay 1) fuel
    · cases left with
      | none => exact .pure _
      | some l => exact (hP.read len).bind fun _ => .pure _
  | nativeEthernet =>
    refine hP.uxrMillis.bind fun start => Keeps.bind ?_ fun left => ?_
    · exact PollLoop.run_keeps _ (hP.uxrMillis.bind fun _ => .pure _)
        (hP.parsePacket.bind fun _ => .pure _) (hP.delay 1) fuel
    · cases left with
      | none => exact .pure _
      | some l =>
        refine hP.available.bind fun a => ?_
        by_cases ha : a ≠ 0
        · simp only [if_pos ha]
          exact (hP.read len).bind fun _ => .pure _
        · simp only [if_neg ha]
          exact .pure _

/-- A write callback takes no datagram from the queue. -/
theorem writeCallback_keeps (hP : Apart P sock tx) (tr : Transport)
    (locator : MicroRosAgentLocator) (buf : Buffer w) :
    Keeps (QueueGrows sock) (tr.writeCallback P locator buf) := by
  cases tr with
  | wifi =>
    refine (hP.beginPacket _ _).bind fun _ => (hP.write buf).bind fun _ => ?_
    exact hP.endPacket.bind fun _ => hP.flush.bind fun _ => .pure _
  | nativeEthernet =>
    refine (hP.beginPacket _ _).bind fun b => ?_
    by_cases hb : (1 == b) = true
    · simp only [if_pos hb]
      refine (hP.write buf).bind fun _ => hP.endPacket.bind fun _ => ?_
      exact hP.flush.bind fun _ => .pure _
    · simp only [if_neg hb]
      exact hP.flush.bind fun _ => .pure _

/-! ## Sessions -/

/-- Reads and writes through one UDP client, in any order: the reads by a client with
room for something and the writes of at least one byte.  Between two calls datagrams
arrive, and anything happens that sends nothing and takes nothing from the queue. -/
inductive SessionRun (tr : Transport) (P : Platform w τ) (sock : τ → Socket) (tx : τ → Sender) :
    τ → List (ReadCall w τ) → List (SendCall w τ) → τ → Prop
  | done (s : τ) : SessionRun tr P sock tx s [] [] s
  | idle {s s' t : τ} {reads : List (ReadCall w τ)} {writes : List (SendCall w τ)} :
      QueueGrows sock s s' → SameSender tx s s' → SessionRun tr P sock tx s' reads writes t →
      SessionRun tr P sock tx s reads writes t
  | read {s s' t : τ} {reads : List (ReadCall w τ)} {writes : List (SendCall w τ)} (fuel : ℕ)
      {len : BitVec w} {timeout : Int32} {r : Received w} :
      0 < len.toNat → tr.readCallback P fuel len timeout s = (some r, s') →
      SessionRun tr P sock tx s' reads writes t →
      SessionRun tr P sock tx s (⟨len, timeout, s, r, s'⟩ :: reads) writes t
  | write {s t : τ} {reads : List (ReadCall w τ)} {writes : List (SendCall w τ)}
      (locator : MicroRosAgentLocator) {buf : Buffer w} :
      buf.bytes ≠ [] →
      SessionRun tr P sock tx (tr.writeCallback P locator buf s).2 reads writes t →
      SessionRun tr P sock tx s reads (.writeCall locator buf s :: writes) t

namespace SessionRun

variable {tr : Transport} {s t : τ} {reads : List (ReadCall w τ)} {writes : List (SendCall w τ)}

/-- To the sender, the reads of a session are pauses. -/
theorem sendRun (hP : Apart P sock tx) (h : SessionRun tr P sock tx s reads writes t) :
    SendRun tr P tx s writes t := by
  induction h with
  | done s => exact .done s
  | idle _ htx _ ih => exact .idle htx ih
  | @read s s' t reads writes fuel len timeout r _ hcall _ ih =>
    have hkeeps := readCallback_keeps hP tr fuel len timeout s
    rw [hcall] at hkeeps
    exact .idle hkeeps ih
  | write locator hbuf _ ih => exact .writeCall locator hbuf ih

theorem refinesQueue_iff (hw : 32 ≤ w) (hR : ReceivesPackets P sock)
    (h : SessionRun tr P sock tx s reads writes t) :
    ∀ c ∈ reads, (c.RefinesQueue sock ↔ c.InTimeOrEmpty tr P sock) := by
  induction h with
  | done s => exact List.forall_mem_nil _
  | idle _ _ _ ih => exact ih
  | read fuel hlen hcall _ ih =>
    exact List.forall_mem_cons.2 ⟨MicroRosArduino.refinesQueue_iff hw hR hlen hcall, ih⟩
  | write _ _ _ ih => exact ih

theorem len_pos (h : SessionRun tr P sock tx s reads writes t) :
    ∀ c ∈ reads, 0 < c.len.toNat := by
  induction h with
  | done s => exact List.forall_mem_nil _
  | idle _ _ _ ih => exact ih
  | read _ hlen _ _ ih => exact List.forall_mem_cons.2 ⟨hlen, ih⟩
  | write _ _ _ ih => exact ih

/-- To the queue, the writes of a session are pauses. -/
theorem queueRun (hP : Apart P sock tx) (h : SessionRun tr P sock tx s reads writes t)
    (hall : ∀ c ∈ reads, c.RefinesQueue sock) :
    ∃ arr, (sock t).arrived = (sock s).arrived ++ arr ∧
      Run (sock s).queue arr (reads.map fun c => (c.len.toNat, c.received.message))
        (sock t).queue := by
  have hgrow : ∀ {a b c : τ} {reads : List (ReadCall w τ)}, QueueGrows sock a b →
      (∃ arr, (sock c).arrived = (sock b).arrived ++ arr ∧
        Run (sock b).queue arr (reads.map fun c => (c.len.toNat, c.received.message))
          (sock c).queue) →
      ∃ arr, (sock c).arrived = (sock a).arrived ++ arr ∧
        Run (sock a).queue arr (reads.map fun c => (c.len.toNat, c.received.message))
          (sock c).queue := by
    rintro a b c reads ⟨ds, harr, hqueue⟩ ⟨arr, harr', hrun⟩
    rw [hqueue] at hrun
    exact ⟨ds ++ arr, by rw [harr', harr, List.append_assoc], .arrive ds hrun⟩
  induction h with
  | done s => exact ⟨[], (List.append_nil _).symm, .done _⟩
  | idle hqueue _ _ ih => exact hgrow hqueue (ih hall)
  | read fuel hlen hcall _ ih =>
    obtain ⟨⟨-, bs, hbs, hread⟩, hrest⟩ := List.forall_mem_cons.1 hall
    obtain ⟨arr, harr, hrun⟩ := ih hrest
    exact ⟨bs ++ arr, by rw [harr, hbs, List.append_assoc], .read hread hrun⟩
  | write locator _ _ ih => exact hgrow (writeCallback_keeps hP tr locator _ _) (ih hall)

end SessionRun

/-- **Both directions at once.**  In a session whose reads are all in time or meet an empty
socket, whatever the writes do, the reads that hand something over hand over the datagrams
taken from the queue, each once and in the order of arrival; and in a session whose writes
are all undisturbed, whatever the reads do, what the client takes for sent was accepted, in
order and undivided. -/
theorem session_both_ways (hw : 32 ≤ w) (hR : ReceivesPackets P sock) (hS : SendsPackets P tx)
    (hP : Apart P sock tx) {tr : Transport} {s t : τ} {reads : List (ReadCall w τ)}
    {writes : List (SendCall w τ)} (h : SessionRun tr P sock tx s reads writes t) :
    ((∀ c ∈ reads, c.InTimeOrEmpty tr P sock) →
        ∃ arr taken, (sock t).arrived = (sock s).arrived ++ arr ∧
          (sock s).queue ++ arr = taken ++ (sock t).queue ∧
          List.Forall₂ (fun d r => r.2 = d.payload.take r.1) taken
            (nonempty (reads.map fun c => (c.len.toNat, c.received.message)))) ∧
      ((∀ c ∈ writes, c.Undisturbed tr P tx) →
        ∃ ds, (tx t).accepted = (tx s).accepted ++ ds ∧
          (writes.flatMap fun c => c.believed tr P).Sublist ds) := by
  constructor
  · intro hin
    have hrefines : ∀ c ∈ reads, c.RefinesQueue sock := fun c hc =>
      (h.refinesQueue_iff hw hR c hc).2 (hin c hc)
    obtain ⟨arr, harr, hrun⟩ := h.queueRun hP hrefines
    obtain ⟨taken, htaken, hall⟩ := hrun.delivered (List.forall_mem_map.2 h.len_pos)
    exact ⟨arr, taken, harr, htaken, hall⟩
  · intro hall
    have hrun := h.sendRun hP
    apply hrun.believed_sublist hS
    intro c hc
    exact (hrun.honest_iff_undisturbed hS c hc).2 (hall c hc)

/-! ## On the bench -/

theorem bench_apart : Apart (Bench.platform w) Bench.socket Bench.sender := by
  have hgrow : ∀ b : Bench, QueueGrows Bench.socket b b.advance :=
    fun b => ⟨b.happening.arrivals, rfl, rfl⟩
  refine ⟨fun _ => rfl, fun _ => rfl, fun _ _ => rfl, fun _ => rfl, fun _ => rfl, fun _ _ => rfl,
    ?_, fun _ b => hgrow b, ?_, hgrow⟩
  · intro _ _ b
    simp only [Bench.platform]
    cases b.happening.succeeds
    · exact hgrow b
    · exact hgrow b
  · intro b
    simp only [Bench.platform]
    cases b.happening.succeeds
    · exact hgrow b
    · exact hgrow b

/-- The board of two datagrams after a first read and a write over native Ethernet. -/
def afterWrite : Bench :=
  (Transport.nativeEthernet.writeCallback (Bench.platform 32) agent threeBytes oneUnread).2

/-- The board after a second read. -/
def afterSession : Bench :=
  (Transport.nativeEthernet.readCallback (Bench.platform 32) 1 2#32 1000 afterWrite).2

/-- The two reads. -/
def sessionReads : List (ReadCall 32 Bench) :=
  [⟨2#32, 1000, twoQueued, ⟨2#32, [1, 2]⟩, oneUnread⟩,
    ⟨2#32, 1000, afterWrite, ⟨1#32, [4]⟩, afterSession⟩]

theorem sessionRun_bench :
    SessionRun .nativeEthernet (Bench.platform 32) Bench.socket Bench.sender twoQueued
      sessionReads [.writeCall agent threeBytes oneUnread] afterSession := by
  refine .read 1 (by decide) (read_twoQueued .nativeEthernet) ?_
  refine .write agent (by decide) (.read 1 (by decide) ?_ (.done _))
  rfl

theorem sessionReads_inTime :
    ∀ c ∈ sessionReads,
      c.InTimeOrEmpty .nativeEthernet (Bench.platform 32) Bench.socket := by
  intro c hc
  simp only [sessionReads, List.mem_cons, List.not_mem_nil, or_false] at hc
  rcases hc with rfl | rfl
  · exact Or.inl (by unfold Transport.ChecksInTime; decide)
  · exact Or.inl (by unfold Transport.ChecksInTime; decide)

/-- A read, a write and a read over native Ethernet. -/
theorem session_both_ways_bench :
    (∃ arr taken, afterSession.socket.arrived = twoQueued.socket.arrived ++ arr ∧
        twoQueued.socket.queue ++ arr = taken ++ afterSession.socket.queue ∧
        List.Forall₂ (fun d r => r.2 = d.payload.take r.1) taken
          (nonempty (sessionReads.map fun c => (c.len.toNat, c.received.message)))) ∧
      ((∀ c ∈ [SendCall.writeCall agent threeBytes oneUnread],
          c.Undisturbed .nativeEthernet (Bench.platform 32) Bench.sender) →
        ∃ ds, afterSession.sender.accepted = twoQueued.sender.accepted ++ ds ∧
          ([SendCall.writeCall agent threeBytes oneUnread].flatMap fun c =>
            c.believed .nativeEthernet (Bench.platform 32)).Sublist ds) :=
  (session_both_ways (le_refl 32) bench_receivesPackets bench_sendsPackets bench_apart
    sessionRun_bench).imp_left fun hreads => hreads sessionReads_inTime

end MicroRosArduino
