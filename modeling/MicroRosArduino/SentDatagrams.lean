import MicroRosArduino.SendOutcomes

/-!
# What goes out on the wire

Not what a write reports, but what the agent receives: the datagrams that are accepted
during a run of opens and writes.

* `SendCall.accepts` — the datagrams by which a call has made the sender's list grow.
* `SendCall.carried`, `SendCall.Unmixed` — the bytes a write has reported, the first of
  its buffer; and a write that has those accepted as a datagram, or nothing.
* `SendCall.StartsFresh` — what keeps bytes of an earlier write out of a datagram: over
  native Ethernet nothing needs to, over Wi-Fi a `beginPacket` that succeeds or finds
  nothing staged, or an `endPacket` that fails.
* `unmixed_iff`, `SendRun.accepted_eq` — one write, and a run.
* `ethernet_datagrams_unmixed`, `wifi_datagrams_unmixed_iff` — **every datagram is the
  reported part of one write's buffer**: always, and exactly when every write starts
  fresh.
-/

namespace MicroRosArduino

open CInt

variable {w : ℕ} {τ : Type} {tx : τ → Sender} {P : Platform w τ}

namespace SendCall

variable (tr : Transport) (P : Platform w τ) (tx : τ → Sender)

/-- The first bytes of a write's buffer, as many as it reports. -/
def carried : SendCall w τ → List (List UInt8)
  | openCall _ _ => []
  | writeCall locator buf s => [buf.bytes.take (tr.writeCallback P locator buf s).1.toNat]

/-- The machine a call is made on. -/
def before : SendCall w τ → τ
  | openCall _ s => s
  | writeCall _ _ s => s

/-- The machine once it has returned. -/
def after : SendCall w τ → τ
  | openCall locator s => (tr.openCallback P locator s).2
  | writeCall locator buf s => (tr.writeCallback P locator buf s).2

/-- The datagrams a call has accepted: what the sender's list has grown by. -/
def accepts (c : SendCall w τ) : List (List UInt8) :=
  (tx (c.after tr P)).accepted.drop (tx c.before).accepted.length

/-- The call has what it carries accepted as a datagram of its own, or nothing. -/
def Unmixed (c : SendCall w τ) : Prop := (c.accepts tr P tx).Sublist (c.carried tr P)

/-- No bytes of an earlier write get into a datagram of this one. -/
def StartsFresh : SendCall w τ → Prop
  | openCall _ _ => True
  | writeCall locator buf s =>
    tr = .wifi → (writeSteps P locator buf s).ended = true →
      (writeSteps P locator buf s).begun = true ∨ (tx s).staging = []

end SendCall

theorem accepts_openCall (hP : SendsPackets P tx) (tr : Transport)
    (locator : MicroRosAgentLocator) (s : τ) :
    (SendCall.openCall locator s).accepts tr P tx = [] := by
  rw [SendCall.accepts, SendCall.after, openCallback_eq, hP.begin_accepted]
  exact List.drop_length

/-- A write has accepted what its steps say. -/
theorem accepts_writeCall (hP : SendsPackets P tx) (tr : Transport)
    (locator : MicroRosAgentLocator) (buf : Buffer w) (s : τ) :
    (SendCall.writeCall locator buf s).accepts tr P tx =
      (writeSteps P locator buf s).delivered tr (tx s).staging buf.bytes := by
  rw [SendCall.accepts, SendCall.after, writeCallback_accepted hP]
  exact List.drop_left

/-- **One write** accepts a datagram of its own, or nothing, exactly when it starts fresh. -/
theorem unmixed_iff (hP : SendsPackets P tx) {tr : Transport} (c : SendCall w τ) :
    c.Unmixed tr P tx ↔ c.StartsFresh tr P tx := by
  cases c with
  | openCall => simp [SendCall.Unmixed, accepts_openCall hP, SendCall.StartsFresh]
  | writeCall locator buf s =>
    rw [SendCall.Unmixed, accepts_writeCall hP, SendCall.carried, SendCall.StartsFresh,
      writeCallback_reported, WriteSteps.delivered, WriteSteps.reported]
    by_cases hgoes : (writeSteps P locator buf s).GoesOn tr
    · by_cases hended : (writeSteps P locator buf s).ended = true
      · -- the datagram is what was stale and what was taken
        have hstale : (writeSteps P locator buf s).stale (tx s).staging = [] ↔
            ((writeSteps P locator buf s).begun = true ∨ (tx s).staging = []) := by
          unfold WriteSteps.stale
          split <;> simp_all
        have hsingle : ∀ x y : List UInt8, [x ++ y].Sublist [y] ↔ x = [] := by
          intro x y
          simp
        rw [if_pos ⟨hgoes, hended⟩, if_pos hgoes, hsingle, hstale]
        rcases hgoes with hwifi | hbegun
        · simp [hwifi, hended]
        · simp [hbegun]
      · simp [hended]
    · have hwifi : tr ≠ .wifi := fun h => hgoes (Or.inl h)
      simp [hgoes, hwifi]

/-- **A run** has accepted what its calls have. -/
theorem SendRun.accepted_eq (hP : SendsPackets P tx) {tr : Transport} {s t : τ}
    {calls : List (SendCall w τ)} (h : SendRun tr P tx s calls t) :
    (tx t).accepted = (tx s).accepted ++ calls.flatMap fun c => c.accepts tr P tx := by
  induction h with
  | done s => simp
  | idle htx _ ih => rw [ih, htx]
  | @openCall s t calls locator _ ih =>
    rw [ih, openCallback_eq, hP.begin_accepted, List.flatMap_cons, accepts_openCall hP]
    rfl
  | @writeCall s t calls locator buf _ _ ih =>
    rw [ih, writeCallback_accepted hP, List.append_assoc, List.flatMap_cons,
      accepts_writeCall hP]

/-- When no call mixes, the datagrams are what the writes carry. -/
theorem flatMap_accepts_sublist {tr : Transport} {calls : List (SendCall w τ)}
    (h : ∀ c ∈ calls, c.Unmixed tr P tx) :
    (calls.flatMap fun c => c.accepts tr P tx).Sublist
      (calls.flatMap fun c => c.carried tr P) := by
  induction calls with
  | nil => exact .slnil
  | cons c calls ih =>
    obtain ⟨hthis, hrest⟩ := List.forall_mem_cons.1 h
    exact hthis.append (ih hrest)

/-- **Over native Ethernet no datagram is mixed.**  Whatever fails, the datagrams accepted
during a run are what its writes report of their buffers: each write's at most once, in
order, and nothing else. -/
theorem ethernet_datagrams_unmixed (hP : SendsPackets P tx) {s t : τ}
    {calls : List (SendCall w τ)} (h : SendRun .nativeEthernet P tx s calls t) :
    ∃ ds, (tx t).accepted = (tx s).accepted ++ ds ∧
      ds.Sublist (calls.flatMap fun c => c.carried .nativeEthernet P) := by
  refine ⟨_, h.accepted_eq hP, flatMap_accepts_sublist ?_⟩
  intro c _
  rw [unmixed_iff hP]
  cases c with
  | openCall => trivial
  | writeCall => exact fun hwifi => by cases hwifi

/-- Three bytes written over native Ethernet while `endPacket` fails, and again. -/
theorem ethernet_datagrams_failingEndPacket :
    ∃ ds, (Transport.nativeEthernet.writeCallback (Bench.platform 32) agent threeBytes
          (Transport.nativeEthernet.writeCallback (Bench.platform 32) agent threeBytes
            failingEndPacket).2).2.sender.accepted = failingEndPacket.sender.accepted ++ ds ∧
      ds.Sublist ([SendCall.writeCall agent threeBytes failingEndPacket,
          .writeCall agent threeBytes (Transport.nativeEthernet.writeCallback
            (Bench.platform 32) agent threeBytes failingEndPacket).2].flatMap
        fun c => c.carried .nativeEthernet (Bench.platform 32)) :=
  ethernet_datagrams_unmixed bench_sendsPackets
    (.writeCall agent (by decide) (.writeCall agent (by decide) (.done _)))

/-- **Over Wi-Fi datagrams are unmixed exactly when every write starts fresh**: in a run
whose writes do, the datagrams accepted are what they report of their buffers, each
write's at most once and in order. -/
theorem wifi_datagrams_unmixed_iff (hP : SendsPackets P tx) {s t : τ}
    {calls : List (SendCall w τ)} (h : SendRun .wifi P tx s calls t) :
    ((∀ c ∈ calls, c.Unmixed .wifi P tx) ↔ ∀ c ∈ calls, c.StartsFresh .wifi P tx) ∧
      ((∀ c ∈ calls, c.StartsFresh .wifi P tx) →
        ∃ ds, (tx t).accepted = (tx s).accepted ++ ds ∧
          ds.Sublist (calls.flatMap fun c => c.carried .wifi P)) := by
  have hiff : (∀ c ∈ calls, c.Unmixed .wifi P tx) ↔ ∀ c ∈ calls, c.StartsFresh .wifi P tx :=
    forall₂_congr fun c _ => unmixed_iff hP c
  exact ⟨hiff, fun hfresh => ⟨_, h.accepted_eq hP, flatMap_accepts_sublist (hiff.2 hfresh)⟩⟩

/-- A board on which a first `endPacket` and a second `beginPacket` are going to fail. -/
def failingTwice : Bench :=
  .scripted [.quiet, .quiet, .failure, .quiet, .failure, .quiet, .quiet, .quiet]

/-- The board after the first of two writes. -/
def afterFailing : Bench :=
  (Transport.wifi.writeCallback (Bench.platform 32) agent threeBytes failingTwice).2

/-- Two writes over Wi-Fi, of which the second sends the bytes of the first as well. -/
theorem wifi_datagrams_failingTwice :
    (Transport.wifi.writeCallback (Bench.platform 32) agent threeBytes
        afterFailing).2.sender.accepted = [[1, 2, 3, 1, 2, 3]] ∧
    ((∀ c ∈ [SendCall.writeCall agent threeBytes failingTwice,
          .writeCall agent threeBytes afterFailing],
        c.Unmixed .wifi (Bench.platform 32) Bench.sender) ↔
      ∀ c ∈ [SendCall.writeCall agent threeBytes failingTwice,
          .writeCall agent threeBytes afterFailing],
        c.StartsFresh .wifi (Bench.platform 32) Bench.sender) ∧
      ((∀ c ∈ [SendCall.writeCall agent threeBytes failingTwice,
            .writeCall agent threeBytes afterFailing],
          c.StartsFresh .wifi (Bench.platform 32) Bench.sender) →
        ∃ ds, (Transport.wifi.writeCallback (Bench.platform 32) agent threeBytes
              afterFailing).2.sender.accepted = failingTwice.sender.accepted ++ ds ∧
          ds.Sublist ([SendCall.writeCall agent threeBytes failingTwice,
              .writeCall agent threeBytes afterFailing].flatMap
            fun c => c.carried .wifi (Bench.platform 32))) :=
  ⟨by decide, wifi_datagrams_unmixed_iff bench_sendsPackets
    (.writeCall agent (by decide) (.writeCall agent (by decide) (.done _)))⟩

end MicroRosArduino
