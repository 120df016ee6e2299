import MicroRosArduino.Bench
import MicroRosArduino.Transports

/-!
# The read callbacks as a packet queue

Both UDP transports are registered in packet mode, so the client takes what a
read callback returns for one whole message.  This file compares the callbacks,
over any platform whose UDP client receives packets, with the queue of
`PacketQueue`.

* `PollsSocket` — a wait loop that polls a socket, with `PollsSocket.reaches` its
  invariant: only the first poll can meet the rest of an earlier datagram.
* `readCallback_socket` — **what one read does**: with its first check in time
  it is one read of the queue; with its first check too late it polls nothing
  and hands over whatever an earlier read left.
* `refinesQueue_iff`, `readRun_refines_iff` — hence a read refines the queue
  exactly when its first check is in time or the socket is empty, and a run
  exactly when every read of it does.
* `ReadRun.delivered` — what such a run hands over: each datagram once, in order.
* `stale_rest_delivered` — the run that shows how it goes wrong.
-/

namespace MicroRosArduino

open CInt PacketQueue

variable {w : ℕ} {τ : Type} {sock : τ → Socket} {P : Platform w τ}

theorem OnlyArrivals.bind {α β : Type} {f : StateM τ α} {g : α → StateM τ β}
    (hf : OnlyArrivals sock f) (hg : ∀ a, OnlyArrivals sock (g a)) :
    OnlyArrivals sock (f >>= g) := by
  intro s
  obtain ⟨ds, hds⟩ := hf s
  obtain ⟨es, hes⟩ := hg (f s).1 (f s).2
  refine ⟨ds ++ es, ?_⟩
  rw [stateM_bind_apply, hes, hds, Socket.arrive_arrive]

theorem OnlyArrivals.pure {α : Type} (a : α) : OnlyArrivals sock (pure a : StateM τ α) :=
  fun s => ⟨[], by rw [stateM_pure_apply, Socket.arrive_nil]⟩

/-! ## Waiting -/

/-- A loop that polls a socket, and otherwise only lets datagrams arrive. -/
structure PollsSocket (L : PollLoop τ) (sock : τ → Socket) : Prop where
  guard : OnlyArrivals sock L.guard
  poll : ∀ s, ∃ ds, sock (L.poll s).2 = ((sock s).arrive ds).next ∧
    ((L.poll s).1 = true ↔ (sock s).queue ++ ds ≠ [])
  pause : OnlyArrivals sock L.pause

/-- Both wait loops poll the socket. -/
theorem waitLoop_pollsSocket (hP : ReceivesPackets P sock) (tr : Transport) (timeout : Int32)
    (s : τ) : PollsSocket (tr.waitLoop P timeout s) sock := by
  have hpoll : ∀ t, ∃ ds, sock (P.parsePacket t).2 = ((sock t).arrive ds).next ∧
      (decide ((P.parsePacket t).1 ≠ 0) = true ↔ (sock t).queue ++ ds ≠ []) := by
    intro t
    obtain ⟨ds, hsock, hret⟩ := hP.parsePacket t
    refine ⟨ds, hsock, ?_⟩
    rw [decide_eq_true_iff, not_iff_not, ← Socket.arrive_queue, ← Socket.next_current_eq_nil,
      ← hsock, ← Int32.toInt_inj, hret, Int32.toInt_zero, Int.natCast_eq_zero,
      List.length_eq_zero_iff]
  cases tr with
  | wifi => exact ⟨hP.millis.bind fun _ => .pure _, hpoll, hP.delay 1⟩
  | nativeEthernet => exact ⟨hP.uxrMillis.bind fun _ => .pure _, hpoll, hP.delay 1⟩

/-- **The invariant of the wait.**  At a check after the first, nothing was waiting
when the loop started and nothing is left of an earlier datagram; whatever has
arrived since is waiting. -/
theorem PollsSocket.reaches {L : PollLoop τ} (hL : PollsSocket L sock) {s : τ} {k : ℕ}
    (h : L.Reaches s k) :
    ∃ arr, (sock (L.stateAt s k)).arrived = (sock s).arrived ++ arr ∧
      (sock (L.stateAt s k)).queue = (sock s).queue ++ arr ∧
      (k = 0 ∧ (sock (L.stateAt s k)).current = (sock s).current ∨
        (sock s).queue = [] ∧ (sock (L.stateAt s k)).current = []) := by
  induction k with
  | zero => exact ⟨[], by simp, by simp, Or.inl ⟨rfl, rfl⟩⟩
  | succ k ih =>
    obtain ⟨hk, -, hpoll⟩ := (L.reaches_succ s k).1 h
    obtain ⟨arr, harr, hqueue, -⟩ := ih hk
    obtain ⟨ds, hds⟩ := hL.guard (L.stateAt s k)
    obtain ⟨es, hes, hfound⟩ := hL.poll (L.checked s k)
    obtain ⟨fs, hfs⟩ := hL.pause (L.poll (L.checked s k)).2
    have hchecked : sock (L.checked s k) = (sock (L.stateAt s k)).arrive ds := hds
    -- an unsuccessful poll met an empty queue, so there was nothing to drop behind it
    have hempty : (sock s).queue = [] ∧ arr = [] ∧ ds = [] ∧ es = [] := by
      have hnil := not_not.1 fun hne => hpoll (hfound.2 hne)
      rw [hchecked, Socket.arrive_queue, hqueue] at hnil
      simpa using hnil
    obtain ⟨hq, rfl, rfl, rfl⟩ := hempty
    have hnext : sock (L.poll (L.checked s k)).2 = ⟨(sock s).arrived, [], []⟩ := by
      rw [hes, hchecked, Socket.arrive_nil, Socket.arrive_nil,
        Socket.next_of_queue_nil (by rw [hqueue, hq]; rfl), harr, List.append_nil]
    have hpass : sock (L.stateAt s (k + 1)) = ⟨(sock s).arrived ++ fs, fs, []⟩ := by
      rw [L.stateAt_succ', PollLoop.pass]
      refine hfs.trans ?_
      rw [hnext]
      rfl
    exact ⟨fs, by rw [hpass], by rw [hpass, hq]; rfl, Or.inr ⟨hq, by rw [hpass]⟩⟩

/-- **What a wait leaves behind.**  Left by its first guard, it has touched nothing;
left later, the socket is at the datagram it found or at none. -/
theorem PollsSocket.run {L : PollLoop τ} (hL : PollsSocket L sock) {s s' : τ} {fuel : ℕ}
    {l : PollLoop.Left} (h : L.run fuel s = (some l, s')) :
    ∃ arr, (sock s').arrived = (sock s).arrived ++ arr ∧
      (¬ L.GuardAt s 0 ∧ (sock s').queue = (sock s).queue ++ arr ∧
          (sock s').current = (sock s).current ∨
        L.GuardAt s 0 ∧ ((sock s).queue = [] ∧ (sock s').queue = arr ∧ (sock s').current = [] ∨
          ∃ d, (sock s).queue ++ arr = d :: (sock s').queue ∧
            (sock s').current = d.payload)) := by
  rcases L.outcome_of_run h with ⟨he, -, rfl⟩ | ⟨k, hf, -, rfl⟩
  · obtain ⟨arr, harr, hqueue, hcur⟩ := hL.reaches he.1
    obtain ⟨ds, hds⟩ := hL.guard (L.stateAt s l.polls)
    have hchecked : sock (L.checked s l.polls) = (sock (L.stateAt s l.polls)).arrive ds := hds
    refine ⟨arr ++ ds, by rw [hchecked, Socket.arrive_arrived, harr, List.append_assoc], ?_⟩
    have hqueue' : (sock (L.checked s l.polls)).queue = (sock s).queue ++ (arr ++ ds) := by
      rw [hchecked, Socket.arrive_queue, hqueue, List.append_assoc]
    rcases Nat.eq_zero_or_pos l.polls with hk | hk
    · -- the first guard failed
      rw [hk] at he hcur hchecked hqueue' ⊢
      refine Or.inl ⟨he.2, hqueue', ?_⟩
      rw [hchecked]
      rfl
    · obtain ⟨hk', -⟩ | ⟨hq, hcur⟩ := hcur
      · omega
      · refine Or.inr ⟨(he.1 0 hk).1, Or.inl ⟨hq, by rw [hqueue', hq]; rfl, ?_⟩⟩
        rw [hchecked, Socket.arrive_current, hcur]
  · obtain ⟨arr, harr, hqueue, -⟩ := hL.reaches hf.1.1
    obtain ⟨ds, hds⟩ := hL.guard (L.stateAt s k)
    obtain ⟨es, hes, hfound⟩ := hL.poll (L.checked s k)
    have hchecked : sock (L.checked s k) = (sock (L.stateAt s k)).arrive ds := hds
    have hne := hfound.1 hf.2
    have hqueue' : ((sock (L.checked s k)).arrive es).queue
        = (sock s).queue ++ (arr ++ ds ++ es) := by
      rw [Socket.arrive_queue, hchecked, Socket.arrive_queue, hqueue, List.append_assoc,
        List.append_assoc, List.append_assoc]
    obtain ⟨d, q, hq⟩ : ∃ d q, (sock s).queue ++ (arr ++ ds ++ es) = d :: q :=
      List.exists_cons_of_ne_nil (by rw [← hqueue', Socket.arrive_queue]; exact hne)
    have hguard : L.GuardAt s 0 := by
      rcases Nat.eq_zero_or_pos k with rfl | hk
      · exact hf.1.2
      · exact (hf.1.1 0 hk).1
    refine ⟨arr ++ ds ++ es, ?_, Or.inr ⟨hguard, Or.inr ⟨d, ?_, ?_⟩⟩⟩
    · rw [hes, Socket.next_arrived, Socket.arrive_arrived, hchecked, Socket.arrive_arrived, harr,
        List.append_assoc, List.append_assoc, List.append_assoc]
    · rw [hes, Socket.next_of_queue_cons (hqueue'.trans hq), hq]
    · rw [hes, Socket.next_of_queue_cons (hqueue'.trans hq)]

/-! ## Reading -/

/-- The bytes of a read are handed over when its result fits what it stored. -/
theorem message_of_read (hw : 32 ≤ w) {i : Int32} {n : ℕ} {cur : List UInt8}
    (hi : i.toInt = min n cur.length) :
    (sizeOfInt w i).toNat = (Received.mk (sizeOfInt w i) (cur.take n)).message.length ∧
      (Received.mk (sizeOfInt w i) (cur.take n)).message = cur.take n := by
  have hret : (sizeOfInt w i).toNat = min n cur.length := by
    have h := toNat_sizeOfInt_of_nonneg hw (i := i) (by omega)
    omega
  have hmsg : (Received.mk (sizeOfInt w i) (cur.take n)).message = cur.take n := by
    rw [Received.message, hret, ← List.length_take, List.take_length]
  exact ⟨by rw [hmsg, hret, List.length_take], hmsg⟩

/-- A returned length of 0 hands over nothing. -/
theorem message_of_zero (stored : List UInt8) :
    (0#w).toNat = (Received.mk (0#w) stored).message.length ∧
      (Received.mk (0#w) stored).message = [] := by
  simp [Received.message]

/-- **Reading what the wait left.**  Whatever follows the wait hands over, and
consumes, as much of the current datagram as there is room for. -/
theorem afterWait_socket (hw : 32 ≤ w) (hP : ReceivesPackets P sock) (tr : Transport)
    (len : BitVec w) (s : τ) :
    ∃ ds, sock (tr.afterWait P len s).2.2 = ((sock s).arrive ds).consume len.toNat ∧
      (tr.afterWait P len s).2.1.ret.toNat = (tr.afterWait P len s).2.1.message.length ∧
      (tr.afterWait P len s).2.1.message = (sock s).current.take len.toNat := by
  cases tr with
  | wifi =>
    obtain ⟨ds, hsock, hread⟩ := hP.read len s
    refine ⟨ds, hsock, ?_⟩
    by_cases hnil : (sock s).current = []
    · -- nothing to read: a result below 0 is turned into 0
      rw [if_pos hnil] at hread
      have hzero : (if (P.read len s).1.1 < 0 then 0 else (P.read len s).1.1) = 0 := by
        split
        · rfl
        · rename_i hneg
          rw [lt_zero_iff] at hneg
          rw [← Int32.toInt_inj, Int32.toInt_zero]
          omega
      simp only [Transport.afterWait, hzero, hnil, List.take_nil, sizeOfInt_zero]
      exact message_of_zero _
    · obtain ⟨hret, hstored⟩ := (if_neg hnil).mp hread
      have hpos : ¬ (P.read len s).1.1 < 0 := by
        rw [lt_zero_iff]
        omega
      simp only [Transport.afterWait, if_neg hpos, hstored]
      exact message_of_read hw hret
  | nativeEthernet =>
    obtain ⟨havail, hlen⟩ := hP.available
    obtain ⟨ds, hds⟩ := havail s
    have hzero : (P.available s).1 = 0 ↔ (sock s).current = [] := by
      rw [← Int32.toInt_inj, hlen, Int32.toInt_zero, Int.natCast_eq_zero,
        List.length_eq_zero_iff]
    by_cases hnil : (sock s).current = []
    · have hafter : Transport.nativeEthernet.afterWait P len s
          = (none, ⟨0#w, []⟩, (P.available s).2) := if_neg (not_not.2 (hzero.2 hnil))
      rw [hafter]
      refine ⟨ds, ?_, by rw [hnil, List.take_nil]; exact message_of_zero []⟩
      rw [hds, Socket.consume, Socket.arrive_current, hnil, List.drop_nil]
      exact congrArg (Socket.mk _ _) hnil
    · have hafter : Transport.nativeEthernet.afterWait P len s
          = (some (P.read len (P.available s).2).1.1,
              ⟨sizeOfInt w (P.read len (P.available s).2).1.1,
                (P.read len (P.available s).2).1.2⟩,
              (P.read len (P.available s).2).2) := if_pos fun h => hnil (hzero.1 h)
      obtain ⟨es, hes, hread⟩ := hP.read len (P.available s).2
      rw [hds, Socket.arrive_current, if_neg hnil] at hread
      rw [hafter]
      refine ⟨ds ++ es, by rw [hes, hds, Socket.arrive_arrive], ?_⟩
      simp only [hread.2]
      exact message_of_read hw hread.1

/-- The first check of the wait finds that fewer than `timeout` milliseconds have
passed since the call read its start time. -/
def Transport.ChecksInTime (tr : Transport) (P : Platform w τ) (timeout : Int32) (s : τ) :
    Prop :=
  match tr with
  | wifi => (P.millis (P.millis s).2).1 - (P.millis s).1 < timeout.toUInt32
  | nativeEthernet => (P.uxrMillis (P.uxrMillis s).2).1 - (P.uxrMillis s).1 < timeout.toInt64

theorem guardAt_zero_iff (tr : Transport) (timeout : Int32) (s : τ) :
    (tr.waitLoop P timeout s).GuardAt (tr.waitStart P s) 0 ↔ tr.ChecksInTime P timeout s := by
  cases tr <;> exact decide_eq_true_iff

/-- Reading the start time leaves the socket alone. -/
theorem waitStart_onlyArrivals (hP : ReceivesPackets P sock) (tr : Transport) (s : τ) :
    ∃ ds, sock (tr.waitStart P s) = (sock s).arrive ds := by
  cases tr with
  | wifi => exact hP.millis s
  | nativeEthernet => exact hP.uxrMillis s

/-- **What one read does.**  With its first check in time it is one read of the queue.
With its first check too late it polls nothing, and hands over whatever an earlier
read left. -/
theorem readCallback_socket (hw : 32 ≤ w) (hP : ReceivesPackets P sock) {tr : Transport}
    {fuel : ℕ} {len : BitVec w} {timeout : Int32} {s s' : τ} {r : Received w}
    (h : tr.readCallback P fuel len timeout s = (some r, s')) :
    r.ret.toNat = r.message.length ∧
      ∃ arr, (sock s').arrived = (sock s).arrived ++ arr ∧
        (tr.ChecksInTime P timeout s ∧
            Read len.toNat (sock s).queue arr r.message (sock s').queue ∨
          ¬ tr.ChecksInTime P timeout s ∧ (sock s').queue = (sock s).queue ++ arr ∧
            r.message = (sock s).current.take len.toNat) := by
  rw [tr.readCallback_eq] at h
  obtain ⟨as, has⟩ := waitStart_onlyArrivals hP tr s
  cases hrun : (tr.waitLoop P timeout s).run fuel (tr.waitStart P s) with
  | mk left t =>
    rw [hrun] at h
    cases left with
    | none => exact absurd (congrArg Prod.fst h) (by simp)
    | some l =>
      obtain ⟨hr, rfl⟩ := Prod.mk.inj h
      obtain rfl := Option.some.inj hr
      obtain ⟨bs, hbs, hwait⟩ := (waitLoop_pollsSocket hP tr timeout s).run hrun
      obtain ⟨cs, hcs, hlen, hmsg⟩ := afterWait_socket hw hP tr len t
      rw [guardAt_zero_iff, has, Socket.arrive_queue, Socket.arrive_current] at hwait
      refine ⟨hlen, as ++ bs ++ cs, ?_, ?_⟩
      · rw [hcs, Socket.consume_arrived, Socket.arrive_arrived, hbs, has, Socket.arrive_arrived]
        simp only [List.append_assoc]
      have hqueue : (sock (tr.afterWait P len t).2.2).queue = (sock t).queue ++ cs := by
        rw [hcs, Socket.consume_queue, Socket.arrive_queue]
      rw [hmsg, hqueue]
      rcases hwait with ⟨hlate, hq, hcur⟩ | ⟨htime, ⟨hnil, hq, hcur⟩ | ⟨d, hq, hcur⟩⟩
      · refine Or.inr ⟨hlate, ?_, by rw [hcur]⟩
        rw [hq]
        simp only [List.append_assoc]
      · obtain ⟨hempty, rfl⟩ := List.append_eq_nil_iff.1 hnil
        rw [hempty, hq, hcur, List.take_nil, List.nil_append]
        exact Or.inl ⟨htime, .nothing _⟩
      · rw [hcur]
        refine Or.inl ⟨htime, .of_front ?_⟩
        rw [← List.append_assoc, ← List.append_assoc, hq, List.cons_append]

/-- A read called with a datagram queued returns, whatever the clock does. -/
theorem readCallback_returns (hP : ReceivesPackets P sock) (tr : Transport) {s : τ}
    (hs : (sock s).queue ≠ []) (len : BitVec w) (timeout : Int32) :
    ∃ r s', ∀ fuel > 0, tr.readCallback P fuel len timeout s = (some r, s') := by
  obtain ⟨as, has⟩ := waitStart_onlyArrivals hP tr s
  have hL := waitLoop_pollsSocket hP tr timeout s
  by_cases hg : (tr.waitLoop P timeout s).GuardAt (tr.waitStart P s) 0
  · obtain ⟨ds, hds⟩ := hL.guard (tr.waitStart P s)
    obtain ⟨es, -, hfound⟩ := hL.poll ((tr.waitLoop P timeout s).checked (tr.waitStart P s) 0)
    have hpoll : (tr.waitLoop P timeout s).PollAt (tr.waitStart P s) 0 := by
      apply hfound.2
      show (sock ((tr.waitLoop P timeout s).guard (tr.waitStart P s)).2).queue ++ es ≠ []
      rw [hds, has]
      simp [hs]
    apply Transport.readCallback_of_left
    intro fuel hfuel
    exact PollLoop.run_of_finds _ ⟨⟨PollLoop.reaches_zero _ _, hg⟩, hpoll⟩ hfuel
  · apply Transport.readCallback_of_left
    intro fuel hfuel
    exact PollLoop.run_of_expires _ ⟨PollLoop.reaches_zero _ _, hg⟩ hfuel

/-! ## Runs -/

/-- A read call of a run. -/
structure ReadCall (w : ℕ) (τ : Type) where
  /-- The length of the caller's buffer. -/
  len : BitVec w
  /-- The timeout, in milliseconds. -/
  timeout : Int32
  /-- The machine when the call starts. -/
  before : τ
  /-- What the call hands over. -/
  received : Received w
  /-- The machine when the call returns. -/
  after : τ
  deriving DecidableEq

/-- A run of read calls by a client with room for something, at any timeouts;
between two calls datagrams arrive and anything happens that leaves the socket
alone. -/
inductive ReadRun (tr : Transport) (P : Platform w τ) (sock : τ → Socket) :
    τ → List (ReadCall w τ) → τ → Prop
  | done (s : τ) : ReadRun tr P sock s [] s
  | idle {s s' t : τ} {calls : List (ReadCall w τ)} (ds : List Datagram) :
      sock s' = (sock s).arrive ds → ReadRun tr P sock s' calls t → ReadRun tr P sock s calls t
  | call {s s' t : τ} {calls : List (ReadCall w τ)} (fuel : ℕ) {len : BitVec w}
      {timeout : Int32} {r : Received w} :
      0 < len.toNat → tr.readCallback P fuel len timeout s = (some r, s') →
      ReadRun tr P sock s' calls t → ReadRun tr P sock s (⟨len, timeout, s, r, s'⟩ :: calls) t

/-- A call refines the queue: the returned length is that of the message handed
over, and the message is one read of the queue and of the datagrams that arrived
during the call. -/
def ReadCall.RefinesQueue (sock : τ → Socket) (c : ReadCall w τ) : Prop :=
  c.received.ret.toNat = c.received.message.length ∧
    ∃ arr, (sock c.after).arrived = (sock c.before).arrived ++ arr ∧
      Read c.len.toNat (sock c.before).queue arr c.received.message (sock c.after).queue

/-- The call's first check is in time, or it finds the socket empty: nothing queued,
and nothing left of an earlier datagram. -/
def ReadCall.InTimeOrEmpty (tr : Transport) (P : Platform w τ) (sock : τ → Socket)
    (c : ReadCall w τ) : Prop :=
  tr.ChecksInTime P c.timeout c.before ∨
    (sock c.before).queue = [] ∧ (sock c.before).current = []

/-- A call whose first check is in time, or that meets an empty socket, refines the queue,
whatever room it has. -/
theorem refinesQueue_of_inTimeOrEmpty (hw : 32 ≤ w) (hP : ReceivesPackets P sock)
    {tr : Transport} {fuel : ℕ} {len : BitVec w} {timeout : Int32} {s s' : τ} {r : Received w}
    (h : tr.readCallback P fuel len timeout s = (some r, s'))
    (hin : ReadCall.InTimeOrEmpty tr P sock ⟨len, timeout, s, r, s'⟩) :
    ReadCall.RefinesQueue sock ⟨len, timeout, s, r, s'⟩ := by
  obtain ⟨hret, arr, harr, hread⟩ := readCallback_socket hw hP h
  refine ⟨hret, arr, harr, ?_⟩
  rcases hread with ⟨-, hread⟩ | ⟨hlate, hq, hmsg⟩
  · exact hread
  · obtain ⟨hqueue, hcur⟩ := hin.resolve_left hlate
    show Read len.toNat (sock s).queue arr r.message (sock s').queue
    rw [hmsg, hq, hqueue, hcur, List.take_nil, List.nil_append]
    exact .nothing arr

/-- **One call.**  With room for something it refines the queue exactly when its first check
is in time or the socket is empty. -/
theorem refinesQueue_iff (hw : 32 ≤ w) (hP : ReceivesPackets P sock) {tr : Transport}
    {fuel : ℕ} {len : BitVec w} {timeout : Int32} {s s' : τ} {r : Received w}
    (hlen : 0 < len.toNat) (h : tr.readCallback P fuel len timeout s = (some r, s')) :
    ReadCall.RefinesQueue sock ⟨len, timeout, s, r, s'⟩ ↔
      ReadCall.InTimeOrEmpty tr P sock ⟨len, timeout, s, r, s'⟩ := by
  refine ⟨?_, refinesQueue_of_inTimeOrEmpty hw hP h⟩
  obtain ⟨-, arr, harr, hread⟩ := readCallback_socket hw hP h
  rintro ⟨-, arr', harr', hread'⟩
  obtain rfl := List.append_cancel_left (harr.symm.trans harr')
  rcases hread with ⟨htime, -⟩ | ⟨-, hq, hmsg⟩
  · exact Or.inl htime
  · -- nothing left the queue, so nothing was there and the message is empty
    simp only [hq] at hread'
    obtain ⟨hqueue, hnil⟩ := hread'.eq_nil
    refine Or.inr ⟨hqueue, ?_⟩
    rcases List.take_eq_nil_iff.1 (hmsg.symm.trans hnil) with h0 | hcur
    · omega
    · exact hcur

/-- A run whose calls all refine the queue is a run of the queue. -/
theorem ReadRun.queueRun {tr : Transport} {s t : τ} {calls : List (ReadCall w τ)}
    (h : ReadRun tr P sock s calls t) (hall : ∀ c ∈ calls, c.RefinesQueue sock) :
    ∃ arr, (sock t).arrived = (sock s).arrived ++ arr ∧
      Run (sock s).queue arr (calls.map fun c => (c.len.toNat, c.received.message))
        (sock t).queue := by
  induction h with
  | done s => exact ⟨[], (List.append_nil _).symm, .done _⟩
  | idle ds hds _ ih =>
    obtain ⟨arr, harr, hrun⟩ := ih hall
    rw [hds] at harr hrun
    exact ⟨ds ++ arr, by rw [harr, Socket.arrive_arrived, List.append_assoc], .arrive ds hrun⟩
  | call fuel hlen hcall _ ih =>
    obtain ⟨⟨-, bs, hbs, hread⟩, hrest⟩ := List.forall_mem_cons.1 hall
    obtain ⟨arr, harr, hrun⟩ := ih hrest
    exact ⟨bs ++ arr, by rw [harr, hbs, List.append_assoc], .read hread hrun⟩

theorem ReadRun.refinesQueue_iff (hw : 32 ≤ w) (hP : ReceivesPackets P sock) {tr : Transport}
    {s t : τ} {calls : List (ReadCall w τ)} (h : ReadRun tr P sock s calls t) :
    ∀ c ∈ calls, (c.RefinesQueue sock ↔ c.InTimeOrEmpty tr P sock) := by
  induction h with
  | done s => exact List.forall_mem_nil _
  | idle ds _ _ ih => exact ih
  | call fuel hlen hcall _ ih =>
    exact List.forall_mem_cons.2 ⟨MicroRosArduino.refinesQueue_iff hw hP hlen hcall, ih⟩

/-- **Runs of reads.**  Every call of a run refines the queue if and only if each has
its first check in time or meets an empty socket; and then the whole run is a run
of the queue.  A call that meets a queued datagram returns in any case. -/
theorem readRun_refines_iff (hw : 32 ≤ w) (hP : ReceivesPackets P sock) (tr : Transport)
    {s t : τ} {calls : List (ReadCall w τ)} (h : ReadRun tr P sock s calls t) :
    ((∀ c ∈ calls, c.RefinesQueue sock) ↔ ∀ c ∈ calls, c.InTimeOrEmpty tr P sock) ∧
      ((∀ c ∈ calls, c.InTimeOrEmpty tr P sock) →
        ∃ arr, (sock t).arrived = (sock s).arrived ++ arr ∧
          Run (sock s).queue arr (calls.map fun c => (c.len.toNat, c.received.message))
            (sock t).queue) ∧
      ∀ u, (sock u).queue ≠ [] → ∀ (len : BitVec w) (timeout : Int32),
        ∃ r u', ∀ fuel > 0, tr.readCallback P fuel len timeout u = (some r, u') := by
  have hcall := h.refinesQueue_iff hw hP
  refine ⟨forall₂_congr hcall, ?_, ?_⟩
  · intro hin
    apply h.queueRun
    intro c hc
    exact (hcall c hc).2 (hin c hc)
  · intro u hu
    exact readCallback_returns hP tr hu

theorem ReadRun.len_pos {tr : Transport} {s t : τ} {calls : List (ReadCall w τ)}
    (h : ReadRun tr P sock s calls t) : ∀ c ∈ calls, 0 < c.len.toNat := by
  induction h with
  | done s => exact List.forall_mem_nil _
  | idle _ _ _ ih => exact ih
  | call _ hlen _ _ ih => exact List.forall_mem_cons.2 ⟨hlen, ih⟩

/-- **Each datagram once, in order.**  In a run whose calls are all in time or meet an
empty socket, the calls that hand something over hand over the datagrams taken from
the socket, in the order of arrival, each cut to the room of its call. -/
theorem ReadRun.delivered (hw : 32 ≤ w) (hP : ReceivesPackets P sock) {tr : Transport} {s t : τ}
    {calls : List (ReadCall w τ)} (h : ReadRun tr P sock s calls t)
    (hin : ∀ c ∈ calls, c.InTimeOrEmpty tr P sock) :
    ∃ arr taken, (sock t).arrived = (sock s).arrived ++ arr ∧
      (sock s).queue ++ arr = taken ++ (sock t).queue ∧
      List.Forall₂ (fun d r => r.2 = d.payload.take r.1) taken
        (nonempty (calls.map fun c => (c.len.toNat, c.received.message))) := by
  obtain ⟨arr, harr, hrun⟩ :=
    h.queueRun fun c hc => (h.refinesQueue_iff hw hP c hc).2 (hin c hc)
  obtain ⟨taken, htaken, hall⟩ := hrun.delivered (List.forall_mem_map.2 h.len_pos)
  exact ⟨arr, taken, harr, htaken, hall⟩

/-! ## A run of two reads -/

/-- A board with two datagrams queued, the first with three bytes and the second with
one. -/
def twoQueued : Bench where
  socket :=
    { arrived := [⟨[1, 2, 3], by decide⟩, ⟨[4], by decide⟩]
      queue := [⟨[1, 2, 3], by decide⟩, ⟨[4], by decide⟩] }

/-- The board once the first datagram is current and two of its bytes are read. -/
def oneUnread : Bench where
  socket :=
    { arrived := [⟨[1, 2, 3], by decide⟩, ⟨[4], by decide⟩]
      queue := [⟨[4], by decide⟩]
      current := [3] }

/-- The board once the third byte is read as well. -/
def noneUnread : Bench where
  socket :=
    { arrived := [⟨[1, 2, 3], by decide⟩, ⟨[4], by decide⟩]
      queue := [⟨[4], by decide⟩] }

theorem read_twoQueued (tr : Transport) :
    tr.readCallback (Bench.platform 32) 1 2#32 1000 twoQueued
      = (some ⟨2#32, [1, 2]⟩, oneUnread) := by
  cases tr <;> rfl

theorem read_oneUnread (tr : Transport) :
    tr.readCallback (Bench.platform 32) 1 2#32 0 oneUnread
      = (some ⟨1#32, [3]⟩, noneUnread) := by
  cases tr <;> rfl

/-- Two reads with room for two bytes, the second at timeout 0. -/
def twoReads : List (ReadCall 32 Bench) :=
  [⟨2#32, 1000, twoQueued, ⟨2#32, [1, 2]⟩, oneUnread⟩,
    ⟨2#32, 0, oneUnread, ⟨1#32, [3]⟩, noneUnread⟩]

theorem readRun_twoReads (tr : Transport) :
    ReadRun tr (Bench.platform 32) Bench.socket twoQueued twoReads noneUnread :=
  .call 1 (by decide) (read_twoQueued tr) (.call 1 (by decide) (read_oneUnread tr) (.done _))

/-- The second of the two reads takes nothing from the queue, and hands over what the
first has left. -/
theorem twoReads_not_refinesQueue : ¬ ∀ c ∈ twoReads, c.RefinesQueue Bench.socket := by
  intro h
  obtain ⟨-, arr, harr, hread⟩ := h _ (List.mem_cons_of_mem _ List.mem_cons_self)
  obtain rfl := List.self_eq_append_right.1 harr
  exact absurd hread.eq_nil.1 (List.cons_ne_nil _ _)

/-- **A stale rest is taken for a message**, over either transport, while a datagram
waits. -/
theorem stale_rest_delivered :
    ReceivesPackets (Bench.platform 32) Bench.socket ∧
      (ReadRun .wifi (Bench.platform 32) Bench.socket twoQueued twoReads noneUnread ∧
        ¬ ∀ c ∈ twoReads, c.RefinesQueue Bench.socket) ∧
      (ReadRun .nativeEthernet (Bench.platform 32) Bench.socket twoQueued twoReads noneUnread ∧
        ¬ ∀ c ∈ twoReads, c.RefinesQueue Bench.socket) :=
  ⟨bench_receivesPackets, ⟨readRun_twoReads .wifi, twoReads_not_refinesQueue⟩,
    readRun_twoReads .nativeEthernet, twoReads_not_refinesQueue⟩

/-- The run of the two reads over Wi-Fi. -/
theorem readRun_refines_twoReads :
    ((∀ c ∈ twoReads, c.RefinesQueue Bench.socket) ↔
        ∀ c ∈ twoReads, c.InTimeOrEmpty .wifi (Bench.platform 32) Bench.socket) ∧
      ((∀ c ∈ twoReads, c.InTimeOrEmpty .wifi (Bench.platform 32) Bench.socket) →
        ∃ arr, noneUnread.socket.arrived = twoQueued.socket.arrived ++ arr ∧
          Run twoQueued.socket.queue arr
            (twoReads.map fun c => (c.len.toNat, c.received.message)) noneUnread.socket.queue) ∧
      ∀ u : Bench, u.socket.queue ≠ [] → ∀ (len : BitVec 32) (timeout : Int32),
        ∃ r u', ∀ fuel > 0, Transport.wifi.readCallback (Bench.platform 32) fuel len timeout u
          = (some r, u') :=
  readRun_refines_iff (le_refl 32) bench_receivesPackets .wifi (readRun_twoReads .wifi)

end MicroRosArduino
