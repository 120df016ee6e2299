import MicroRosArduino.Bench
import MicroRosArduino.Transports

/-!
# What a reported success means

A session takes a `true` from an open callback for a bound socket, and a returned
`len` from a write callback for a datagram on its way.  Every step below the
callbacks may fail on every call, and this file says when the reports are right.

* `WriteSteps` — how the steps of a write come out, and when what it then reports
  is what it has done (`reported_iff_delivered`).
* `openCallback_eq`, `writeCallback_reported`, `writeCallback_accepted` — the
  callbacks do what their steps say, bytes left on the stage included.
* `SendRun.honest_iff_undisturbed`, `sendRun_honest_iff` — **when the reports of a
  run are right**: the Wi-Fi callbacks drop the results of `begin`, `beginPacket` and
  `endPacket`, the native-Ethernet write callback that of `endPacket`.
* `failed_send_reported` — the runs that show the difference.
-/

namespace MicroRosArduino

open CInt

variable {w : ℕ} {τ : Type} {tx : τ → Sender} {P : Platform w τ}

/-! ## The steps of a write -/

/-- How the steps of a write come out, each made after the one before. -/
structure WriteSteps where
  /-- `beginPacket` returns 1. -/
  begun : Bool
  /-- What `write` returns. -/
  taken : ℕ
  /-- `endPacket` returns 1. -/
  ended : Bool
  deriving DecidableEq, Repr

namespace WriteSteps

variable (o : WriteSteps) (tr : Transport) (staging buf : List UInt8)

/-- The bytes on the stage once `beginPacket` has returned. -/
def stale : List UInt8 := if o.begun then [] else staging

/-- The Wi-Fi write goes on whatever `beginPacket` returned, the native-Ethernet one
only when it returned 1. -/
def GoesOn : Prop := tr = .wifi ∨ o.begun = true

instance : Decidable (o.GoesOn tr) := inferInstanceAs (Decidable (_ ∨ _))

/-- What the write reports. -/
def reported : ℕ := if o.GoesOn tr then o.taken else 0

/-- The datagrams the write has accepted. -/
def delivered : List (List UInt8) :=
  if o.GoesOn tr ∧ o.ended = true then [o.stale staging ++ buf.take o.taken] else []

/-- Nothing comes between what the write reports and what it does.  Over Wi-Fi a
`write` that takes the whole buffer starts from an empty stage and its packet is
accepted, and one that takes less does not make up for it with what was on the
stage.  Over native Ethernet a packet begun and filled with the whole buffer is
accepted. -/
def Undisturbed : Prop :=
  match tr with
  | .wifi =>
    if o.taken = buf.length then o.stale staging = [] ∧ o.ended = true
    else ¬ (o.ended = true ∧ o.stale staging ++ buf.take o.taken = buf)
  | .nativeEthernet => o.begun = true → o.taken = buf.length → o.ended = true

theorem delivered_eq_iff :
    o.delivered tr staging buf = [buf] ↔
      (o.GoesOn tr ∧ o.ended = true) ∧ o.stale staging ++ buf.take o.taken = buf := by
  unfold delivered
  by_cases h : o.GoesOn tr ∧ o.ended = true
  · simp [h]
  · simp [h]

/-- A write is right about its buffer exactly when nothing comes between. -/
theorem reported_iff_delivered (hbuf : buf ≠ []) (hle : o.taken ≤ buf.length) :
    (o.reported tr = buf.length ↔ o.delivered tr staging buf = [buf]) ↔
      o.Undisturbed tr staging buf := by
  have hpos : 0 < buf.length := List.length_pos_iff.2 hbuf
  rw [delivered_eq_iff]
  cases tr with
  | wifi =>
    by_cases hall : o.taken = buf.length
    · simp [reported, GoesOn, Undisturbed, hall, and_comm]
    · simp [reported, GoesOn, Undisturbed, hall]
  | nativeEthernet =>
    have htake : buf.take o.taken = buf ↔ o.taken = buf.length := by
      rw [List.take_eq_self_iff]
      omega
    by_cases hb : o.begun = true
    · simp only [reported, GoesOn, Undisturbed, stale, hb, htake, reduceCtorEq, or_true,
        true_and, if_true, List.nil_append, true_implies]
      tauto
    · simp [reported, GoesOn, Undisturbed, hb]
      omega

end WriteSteps

/-- The steps of a write called in `s`. -/
def writeSteps (P : Platform w τ) (locator : MicroRosAgentLocator) (buf : Buffer w) (s : τ) :
    WriteSteps :=
  let b := P.beginPacket locator.address (toUInt16 locator.port) s
  let n := P.write buf b.2
  let e := P.endPacket n.2
  ⟨1 == b.1, n.1.toNat, 1 == e.1⟩

/-! ## What the callbacks report -/

/-- An open callback reports success always, or when `begin` returned 1. -/
theorem openCallback_eq (tr : Transport) (locator : MicroRosAgentLocator) (s : τ) :
    tr.openCallback P locator s =
      (decide (tr = .wifi) || 1 == (P.begin (toUInt16 locator.port) s).1,
        (P.begin (toUInt16 locator.port) s).2) := by
  cases tr with
  | wifi => rfl
  | nativeEthernet => rfl

/-- A write callback reports what `write` took, when it goes on to `write` at all. -/
theorem writeCallback_reported (tr : Transport) (locator : MicroRosAgentLocator)
    (buf : Buffer w) (s : τ) :
    (tr.writeCallback P locator buf s).1.toNat = (writeSteps P locator buf s).reported tr := by
  cases tr with
  | wifi => rfl
  | nativeEthernet =>
    simp only [Transport.writeCallback, arduinoNativeEthernetUdpTransportWrite,
      stateM_bind_apply, writeSteps, WriteSteps.reported, WriteSteps.GoesOn, reduceCtorEq,
      false_or]
    split
    · rfl
    · exact BitVec.toNat_ofNat 0 w

/-- The stage after `beginPacket` and `write`. -/
theorem tx_write (hP : SendsPackets P tx) (locator : MicroRosAgentLocator) (buf : Buffer w)
    (s : τ) :
    (writeSteps P locator buf s).taken ≤ buf.bytes.length ∧
      tx (P.write buf (P.beginPacket locator.address (toUInt16 locator.port) s).2).2
        = { tx s with
            staging := (writeSteps P locator buf s).stale (tx s).staging ++
              buf.bytes.take (writeSteps P locator buf s).taken } := by
  have hbegin : tx (P.beginPacket locator.address (toUInt16 locator.port) s).2
      = { tx s with staging := (writeSteps P locator buf s).stale (tx s).staging } := by
    rcases hP.beginPacket locator.address (toUInt16 locator.port) s with ⟨hb, htx⟩ | ⟨hb, htx⟩
    · rw [htx]
      simp [writeSteps, WriteSteps.stale, hb]
    · rw [htx]
      simp [writeSteps, WriteSteps.stale, hb]
  obtain ⟨k, hk, htaken, hwrite⟩ :=
    hP.write buf (P.beginPacket locator.address (toUInt16 locator.port) s).2
  obtain rfl : (writeSteps P locator buf s).taken = k := htaken
  rw [hbegin] at hwrite
  exact ⟨hk, hwrite⟩

/-- **What a write has accepted.**  When `endPacket` succeeds, one datagram: what was on
the stage, and the bytes taken. -/
theorem writeCallback_accepted (hP : SendsPackets P tx) (tr : Transport)
    (locator : MicroRosAgentLocator) (buf : Buffer w) (s : τ) :
    (tx (tr.writeCallback P locator buf s).2).accepted = (tx s).accepted ++
      (writeSteps P locator buf s).delivered tr (tx s).staging buf.bytes := by
  obtain ⟨-, hwrite⟩ := tx_write hP locator buf s
  have hend : (tx (P.endPacket (P.write buf (P.beginPacket locator.address
      (toUInt16 locator.port) s).2).2).2).accepted = (tx s).accepted ++
        if (writeSteps P locator buf s).ended = true then
          [(writeSteps P locator buf s).stale (tx s).staging ++
            buf.bytes.take (writeSteps P locator buf s).taken]
        else [] := by
    rcases hP.endPacket (P.write buf (P.beginPacket locator.address
      (toUInt16 locator.port) s).2).2 with ⟨he, htx⟩ | ⟨he, htx⟩
    · have hended : (writeSteps P locator buf s).ended = true := by simp [writeSteps, he]
      rw [if_pos hended, htx, hwrite]
    · have hended : ¬ (writeSteps P locator buf s).ended = true := by simp [writeSteps, he]
      rw [if_neg hended, htx, hwrite, List.append_nil]
  cases tr with
  | wifi =>
    show (tx (P.flush _).2).accepted = _
    rw [hP.flush, hend]
    simp [WriteSteps.delivered, WriteSteps.GoesOn]
  | nativeEthernet =>
    simp only [Transport.writeCallback, arduinoNativeEthernetUdpTransportWrite,
      stateM_bind_apply]
    split
    · rename_i hb
      have hbegun : (writeSteps P locator buf s).begun = true := hb
      show (tx (P.flush _).2).accepted = _
      rw [hP.flush, hend]
      simp [WriteSteps.delivered, WriteSteps.GoesOn, hbegun]
    · rename_i hb
      have hbegun : ¬ (writeSteps P locator buf s).begun = true := hb
      rcases hP.beginPacket locator.address (toUInt16 locator.port) s with ⟨h1, -⟩ | ⟨-, htx⟩
      · exact absurd (by rw [h1]; rfl) hb
      · show (tx (P.flush _).2).accepted = _
        rw [hP.flush, htx]
        simp [WriteSteps.delivered, WriteSteps.GoesOn, hbegun]

/-! ## Runs -/

/-- A call of a run, with the machine it is made on. -/
inductive SendCall (w : ℕ) (τ : Type)
  | openCall (locator : MicroRosAgentLocator) (before : τ)
  | writeCall (locator : MicroRosAgentLocator) (buf : Buffer w) (before : τ)

namespace SendCall

variable (tr : Transport) (P : Platform w τ) (tx : τ → Sender)

/-- The call's report is right: an open reports success if and only if `begin` returned
1, and a write reports the whole buffer if and only if one datagram was accepted,
exactly that buffer. -/
def Honest : SendCall w τ → Prop
  | openCall locator s =>
    (tr.openCallback P locator s).1 = true ↔ (P.begin (toUInt16 locator.port) s).1 = 1
  | writeCall locator buf s =>
    (tr.writeCallback P locator buf s).1.toNat = buf.bytes.length ↔
      (tx (tr.writeCallback P locator buf s).2).accepted = (tx s).accepted ++ [buf.bytes]

/-- Over Wi-Fi an open is undisturbed when `begin` returns 1, over native Ethernet
always; a write is when its steps are. -/
def Undisturbed : SendCall w τ → Prop
  | openCall locator s => tr = .wifi → (P.begin (toUInt16 locator.port) s).1 = 1
  | writeCall locator buf s =>
    (writeSteps P locator buf s).Undisturbed tr (tx s).staging buf.bytes

/-- The buffer of a write that reported the whole of it: what the client takes for
sent. -/
def believed : SendCall w τ → List (List UInt8)
  | openCall _ _ => []
  | writeCall locator buf s =>
    if (tr.writeCallback P locator buf s).1.toNat = buf.bytes.length then [buf.bytes] else []

end SendCall

/-- A run of open and write calls, the writes of at least one byte; between two calls
anything happens that leaves the sender alone. -/
inductive SendRun (tr : Transport) (P : Platform w τ) (tx : τ → Sender) :
    τ → List (SendCall w τ) → τ → Prop
  | done (s : τ) : SendRun tr P tx s [] s
  | idle {s s' t : τ} {calls : List (SendCall w τ)} :
      tx s' = tx s → SendRun tr P tx s' calls t → SendRun tr P tx s calls t
  | openCall {s t : τ} {calls : List (SendCall w τ)} (locator : MicroRosAgentLocator) :
      SendRun tr P tx (tr.openCallback P locator s).2 calls t →
      SendRun tr P tx s (.openCall locator s :: calls) t
  | writeCall {s t : τ} {calls : List (SendCall w τ)} (locator : MicroRosAgentLocator)
      {buf : Buffer w} :
      buf.bytes ≠ [] → SendRun tr P tx (tr.writeCallback P locator buf s).2 calls t →
      SendRun tr P tx s (.writeCall locator buf s :: calls) t

theorem openCall_honest_iff (tr : Transport) (locator : MicroRosAgentLocator) (s : τ) :
    (SendCall.openCall locator s).Honest tr P tx ↔
      (SendCall.openCall locator s).Undisturbed tr P tx := by
  rw [SendCall.Honest, SendCall.Undisturbed, openCallback_eq]
  cases tr with
  | wifi => simp
  | nativeEthernet => simpa using eq_comm

theorem writeCall_honest_iff (hP : SendsPackets P tx) (tr : Transport)
    (locator : MicroRosAgentLocator) {buf : Buffer w} (hbuf : buf.bytes ≠ []) (s : τ) :
    (SendCall.writeCall locator buf s).Honest tr P tx ↔
      (SendCall.writeCall locator buf s).Undisturbed tr P tx := by
  rw [SendCall.Honest, writeCallback_reported, writeCallback_accepted hP,
    List.append_right_inj]
  exact WriteSteps.reported_iff_delivered _ tr _ _ hbuf (tx_write hP locator buf s).1

/-- Every report of a run is right exactly when its call is undisturbed. -/
theorem SendRun.honest_iff_undisturbed (hP : SendsPackets P tx) {tr : Transport} {s t : τ}
    {calls : List (SendCall w τ)} (h : SendRun tr P tx s calls t) :
    ∀ c ∈ calls, (c.Honest tr P tx ↔ c.Undisturbed tr P tx) := by
  induction h with
  | done s => exact List.forall_mem_nil _
  | idle _ _ ih => exact ih
  | openCall locator _ ih =>
    exact List.forall_mem_cons.2 ⟨openCall_honest_iff tr locator _, ih⟩
  | writeCall locator hbuf _ ih =>
    exact List.forall_mem_cons.2 ⟨writeCall_honest_iff hP tr locator hbuf _, ih⟩

/-- When the reports are right, what the client takes for sent was accepted, in order. -/
theorem SendRun.believed_sublist (hP : SendsPackets P tx) {tr : Transport} {s t : τ}
    {calls : List (SendCall w τ)} (h : SendRun tr P tx s calls t)
    (hall : ∀ c ∈ calls, c.Honest tr P tx) :
    ∃ ds, (tx t).accepted = (tx s).accepted ++ ds ∧
      (calls.flatMap fun c => c.believed tr P).Sublist ds := by
  induction h with
  | done s => exact ⟨[], (List.append_nil _).symm, .slnil⟩
  | idle htx _ ih =>
    obtain ⟨ds, hds, hsub⟩ := ih hall
    exact ⟨ds, by rw [hds, htx], hsub⟩
  | @openCall s t calls locator _ ih =>
    obtain ⟨ds, hds, hsub⟩ := ih (List.forall_mem_cons.1 hall).2
    refine ⟨ds, ?_, hsub⟩
    rw [hds, openCallback_eq, hP.begin_accepted]
  | @writeCall s t calls locator buf _ _ ih =>
    obtain ⟨hhonest, hrest⟩ := List.forall_mem_cons.1 hall
    obtain ⟨ds, hds, hsub⟩ := ih hrest
    rw [List.flatMap_cons]
    by_cases hret : (tr.writeCallback P locator buf s).1.toNat = buf.bytes.length
    · refine ⟨[buf.bytes] ++ ds, ?_, ?_⟩
      · rw [hds, hhonest.1 hret, List.append_assoc]
      · rw [SendCall.believed, if_pos hret]
        exact hsub.append_left _
    · refine ⟨(writeSteps P locator buf s).delivered tr (tx s).staging buf.bytes ++ ds, ?_, ?_⟩
      · rw [hds, writeCallback_accepted hP, List.append_assoc]
      · rw [SendCall.believed, if_neg hret]
        exact hsub.trans (List.sublist_append_right _ _)

/-- **Runs of opens and writes.**  Every report of a run is right if and only if every
call of it is undisturbed; and then what the client takes for sent was accepted, in
order and undivided. -/
theorem sendRun_honest_iff (hP : SendsPackets P tx) (tr : Transport) {s t : τ}
    {calls : List (SendCall w τ)} (h : SendRun tr P tx s calls t) :
    ((∀ c ∈ calls, c.Honest tr P tx) ↔ ∀ c ∈ calls, c.Undisturbed tr P tx) ∧
      ((∀ c ∈ calls, c.Undisturbed tr P tx) →
        ∃ ds, (tx t).accepted = (tx s).accepted ++ ds ∧
          (calls.flatMap fun c => c.believed tr P).Sublist ds) := by
  have hcall := h.honest_iff_undisturbed hP
  refine ⟨forall₂_congr hcall, ?_⟩
  intro hall
  apply h.believed_sublist hP
  intro c hc
  exact (hcall c hc).2 (hall c hc)

/-! ## Failures on the bench -/

/-- An agent. -/
def agent : MicroRosAgentLocator := ⟨⟨[192, 168, 1, 113]⟩, 8888⟩

/-- Three bytes to send. -/
def threeBytes : Buffer 32 := ⟨[1, 2, 3], by decide⟩

/-- A board on which `begin` is going to fail. -/
def failingBegin : Bench := .scripted [.failure]

/-- A board on which `endPacket` is going to fail. -/
def failingEndPacket : Bench := .scripted [.quiet, .quiet, .failure]

/-- **A failed send is reported as a success**: over Wi-Fi an open whose `begin` failed
and a write whose `endPacket` failed, over native Ethernet a write whose `endPacket`
failed. -/
theorem failed_send_reported :
    SendsPackets (Bench.platform 32) Bench.sender ∧
      (∃ t, SendRun .wifi (Bench.platform 32) Bench.sender failingBegin
          [.openCall agent failingBegin] t ∧
        ¬ (SendCall.openCall agent failingBegin).Honest .wifi (Bench.platform 32)
          Bench.sender) ∧
      ∀ tr, ∃ t, SendRun tr (Bench.platform 32) Bench.sender failingEndPacket
          [.writeCall agent threeBytes failingEndPacket] t ∧
        ¬ (SendCall.writeCall agent threeBytes failingEndPacket).Honest tr
          (Bench.platform 32) Bench.sender := by
  refine ⟨bench_sendsPackets, ⟨_, .openCall agent (.done _), ?_⟩, ?_⟩
  · intro h
    exact absurd (h.1 rfl) (by decide)
  · intro tr
    refine ⟨_, .writeCall agent (by decide) (.done _), ?_⟩
    intro h
    cases tr <;> exact absurd (h.1 rfl) (by decide)

/-- A write over native Ethernet whose `endPacket` fails. -/
theorem sendRun_honest_failingEndPacket :
    ((∀ c ∈ [SendCall.writeCall agent threeBytes failingEndPacket],
        c.Honest .nativeEthernet (Bench.platform 32) Bench.sender) ↔
      ∀ c ∈ [SendCall.writeCall agent threeBytes failingEndPacket],
        c.Undisturbed .nativeEthernet (Bench.platform 32) Bench.sender) ∧
      ((∀ c ∈ [SendCall.writeCall agent threeBytes failingEndPacket],
          c.Undisturbed .nativeEthernet (Bench.platform 32) Bench.sender) →
        ∃ ds, (Transport.nativeEthernet.writeCallback (Bench.platform 32) agent threeBytes
              failingEndPacket).2.sender.accepted = failingEndPacket.sender.accepted ++ ds ∧
          ([SendCall.writeCall agent threeBytes failingEndPacket].flatMap fun c =>
            c.believed .nativeEthernet (Bench.platform 32)).Sublist ds) :=
  sendRun_honest_iff bench_sendsPackets .nativeEthernet
    (.writeCall agent (by decide) (.done _))

end MicroRosArduino
