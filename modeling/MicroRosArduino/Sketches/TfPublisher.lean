import MicroRosArduino.BoardClock
import MicroRosArduino.Sketches.Checked

/-!
# `micro-ros_tf_publisher.ino`

The sketch that calibrates its IMU and then publishes a message in every pass, with two
transforms: the first is stamped with the board's clock, the second is never written to.
The message is taken to be where `tf_message` points, though `setup` has its memory made
at the address of that pointer.

* `setupStart`, `setupRest`, `loop`, `turn` — its functions; the loop of `setup` that waits
  for the calibration is a phase of its own.
* `World`, `Allowed` — an account of its calls on a `BoardClock`, and those that respect it.
* `Told` — the messages handed to `rcl_publish`, and the readings of the clock they carry.
* `tf_stamps` — **stamps never go back, never run fast**, over every run, and the second
  transform's never change.
-/

namespace MicroRosArduino.Sketches.TfPublisher

open CallOut Prog

/-! ## The source -/

/-- Where the sketch is. -/
inductive Phase
  /-- In the loop of `setup`. -/
  | calibrating
  /-- In `loop`, with the stamp that `transforms.data[1]` has come with. -/
  | running (second : Stamp)
  /-- In `error_loop`. -/
  | stopped
  deriving DecidableEq, Repr

/-- `setup`, up to its loop. -/
def setupStart : SketchM Phase := do
  runAll [.setMicrorosTransports, .imuBegin, .accCaliStart]
  return .calibrating

/-- `setup`, after its loop.  The frames of the transforms are constants. -/
def setupRest : SketchM Phase := do
  runAll (ledOn ledPin)
  let ready : Option Stamp ← checkAll
    [.rclcSupportInit, .rclcNodeInitDefault "micro_ros_arduino_node" "",
      .rclcPublisherInitDefault "tf2_msgs/msg/TFMessage" "/tf",
      .rclcTimerInitDefault (rclMsToNs 1000), .rclcExecutorInit 1] do
    -- `if (!...) error_loop();`
    ask .createTransformsMemory
  match ready with
  | none => return .stopped
  | some second => return .running second

/-- `loop`; the rotation that it computes from the IMU is left out. -/
def loop (second : Stamp) : SketchM Unit := do
  let tv : Timespec ← ask .clockGettime
  let _ ← ask .imuUpdate
  let first : Stamp := ⟨Int32.ofInt tv.tvSec, tv.tvNsec.toUInt32⟩
  rcsoftcheck (ask (.publishTransforms first second))

/-- One turn: a pass of the loop that the sketch is in. -/
def turn : Phase → SketchM Phase
  | .calibrating => do
    let done : Bool ← ask .accCaliGetDone
    if done = false then
      let _ ← ask .imuUpdate
      return .calibrating
    else
      setupRest
  | .running second => do
    loop second
    return .running second
  | .stopped => do
    errorLoop ledPin
    return .stopped

/-! ## The account -/

/-- The microseconds of a stamp. -/
def stampMicros (t : Stamp) : ℤ := t.sec.toInt * 10 ^ 6 + (t.nanosec.toNat / 1000 : ℕ)

/-- The stamp that the clock has shown. -/
def ofClock (b : BoardClock) : Stamp where
  sec := Int32.ofInt (Timespec.ofMicros b.micros).tvSec
  nanosec := (Timespec.ofMicros b.micros).tvNsec.toUInt32

/-- A message handed to `rcl_publish`. -/
structure Message where
  /-- The stamp of `transforms.data[0]`. -/
  first : Stamp
  /-- The stamp of `transforms.data[1]`. -/
  second : Stamp
  /-- The board's clock when the sketch had last read it. -/
  clock : BoardClock
  deriving DecidableEq

/-- The true time of that reading. -/
def Message.readAt (t : Message) : ℕ := t.clock.readAt

/-- What the calls so far have come to. -/
structure World where
  /-- The true time, and the board's clock. -/
  clock : BoardClock
  /-- A check has failed. -/
  failed : Bool := false
  /-- The stamp of `transforms.data[1]` in the memory of the message, once that is there. -/
  memory : Option Stamp := none
  /-- The clock, just after the sketch last read it. -/
  sample : Option BoardClock := none
  /-- The calls of `rcl_publish`, in order. -/
  handed : List (Handed Message) := []
  deriving DecidableEq

/-- The messages handed over. -/
def World.messages (m : World) : List Message := m.handed.map Handed.message

/-- How a call that has been answered changes the account. -/
def World.note (m : World) : (c : Call) → Answer c → World
  | .init _, rc => if rc = rclRetOk then m else { m with failed := true }
  | .createTransformsMemory, some second => { m with memory := some second }
  | .createTransformsMemory, none => { m with failed := true }
  | .clockGettime, _ => { m with sample := some m.clock }
  | .publishTransforms first second, rc =>
    { m with handed := m.handed ++ m.sample.toList.map fun b => ⟨⟨first, second, b⟩, rc⟩ }
  | _, _ => m

/-- After a failed check only the calls of `error_loop` are made; the memory of the message
is made once; and a message is handed over with the stamp of the last reading, and the one
that the second transform has come with. -/
def Allowed (m : World) (c : Call) : Prop :=
  (m.failed = true → c.Blinks ledPin) ∧
    match c with
    | .createTransformsMemory => m.memory = none
    | .publishTransforms first second =>
      m.memory = some second ∧ ∃ b ∈ m.sample, first = ofClock b
    | _ => True

/-- What a call does with the clock: any may read it as it likes. -/
def access : (c : Call) → BoardClock.Access (Answer c)
  | .clockGettime => .reads fun g tp => tp = g.tp
  | _ => .mayRead

/-- The world allows such calls, takes its time for each, and answers in any way. -/
def contract : Contract Call Answer World where
  Allows := Allowed
  Answers m c r m' :=
    ∃ b, m.clock.Spends (access c) r b ∧ m' = World.note { m with clock := b } c r

/-- Between two turns: where the sketch is, by what has happened. -/
def Inv : Phase → World → Prop
  | .calibrating, m => m.failed = false ∧ m.memory = none
  | .running second, m => m.failed = false ∧ m.memory = some second
  | .stopped, m => m.failed = true

variable {m : World}

/-! ## What is handed over -/

/-- The messages handed over carry the stamps of readings, in the order of these, and the one
that the second transform has come with. -/
structure Told (m : World) : Prop where
  first : ∀ t ∈ m.messages, t.first = ofClock t.clock
  second : ∀ t ∈ m.messages, m.memory = some t.second
  ordered : (m.messages.map Message.clock ++ m.sample.toList).Pairwise BoardClock.Advances
  past : ∀ b ∈ m.messages.map Message.clock ++ m.sample.toList, b.Advances m.clock

theorem Told.later {b : BoardClock} (h : Told m) (hb : m.clock.Advances b) :
    Told { m with clock := b } :=
  ⟨h.first, h.second, h.ordered, fun a ha => (h.past a ha).trans hb⟩

/-- The clock is read. -/
theorem Told.sampled (h : Told m) : Told { m with sample := some m.clock } := by
  have hpub := List.pairwise_append.1 h.ordered
  have hpast : ∀ a ∈ m.messages.map Message.clock, a.Advances m.clock :=
    fun a ha => h.past a (List.mem_append_left _ ha)
  refine ⟨h.first, h.second,
    List.pairwise_append.2 ⟨hpub.1, List.pairwise_singleton _ _, ?_⟩, ?_⟩
  · intro a ha b hb
    rw [Option.toList_some, List.mem_singleton] at hb
    rw [hb]
    exact hpast a ha
  · intro a ha
    rcases List.mem_append.1 ha with ha | ha
    · exact hpast a ha
    · rw [Option.toList_some, List.mem_singleton] at ha
      rw [ha]

/-- The memory of the message is made, before any is handed over. -/
theorem Told.created (h : Told m) (hnone : m.memory = none) (second : Stamp) :
    Told { m with memory := some second } := by
  have hempty : ∀ t, t ∉ m.messages := by
    intro t ht
    exact absurd (hnone.symm.trans (h.second t ht)) (by simp)
  exact ⟨h.first, fun t ht => absurd ht (hempty t), h.ordered, h.past⟩

/-- A message with the stamp of the last reading is handed over. -/
theorem Told.publish {b : BoardClock} {second : Stamp} (h : Told m) (hb : m.sample = some b)
    (hsecond : m.memory = some second) (rc : Int32) :
    Told { m with handed := m.handed ++ [⟨⟨ofClock b, second, b⟩, rc⟩] } := by
  have hmessages : World.messages { m with handed := m.handed ++ [⟨⟨ofClock b, second, b⟩, rc⟩] }
      = m.messages ++ [⟨ofClock b, second, b⟩] := by simp [World.messages]
  have hsample : b ∈ m.sample.toList := by simp [hb]
  have hordered := h.ordered
  rw [hb] at hordered
  refine ⟨?_, ?_, ?_, ?_⟩
  · intro t ht
    rw [hmessages] at ht
    rcases List.mem_append.1 ht with ht | ht
    · exact h.first t ht
    · obtain rfl := List.mem_singleton.1 ht
      rfl
  · intro t ht
    rw [hmessages] at ht
    rcases List.mem_append.1 ht with ht | ht
    · exact h.second t ht
    · obtain rfl := List.mem_singleton.1 ht
      exact hsecond
  · rw [hmessages, List.map_append]
    simp only [hb]
    refine List.pairwise_append.2 ⟨hordered, List.pairwise_singleton _ _, ?_⟩
    intro a ha c hc
    obtain rfl := List.mem_singleton.1 hc
    rcases List.mem_append.1 ha with ha | ha
    · exact (List.pairwise_append.1 hordered).2.2 a ha c (List.mem_singleton.2 rfl)
    · obtain rfl := List.mem_singleton.1 ha
      rfl
  · intro a ha
    simp only [hmessages, List.map_append, List.append_assoc, List.mem_append] at ha
    rcases ha with ha | ha | ha
    · exact h.past a (List.mem_append_left _ ha)
    · obtain rfl := List.mem_singleton.1 ha
      exact h.past _ (List.mem_append_right _ hsample)
    · exact h.past a (List.mem_append_right _ ha)

/-- **Every allowed call** keeps it. -/
theorem told_note {c : Call} {r : Answer c} {m' : World} (hallowed : contract.Allows m c)
    (hr : contract.Answers m c r m') (h : Told m) : Told m' := by
  obtain ⟨b, hb, rfl⟩ := hr
  have hlater := h.later hb.advances
  cases c with
  | clockGettime => exact hlater.sampled
  | publishTransforms first second =>
    obtain ⟨-, hmemory, s, hs, rfl⟩ := hallowed
    have hsample : m.sample = some s := hs
    have hnote : World.note { m with clock := b } (.publishTransforms (ofClock s) second) r
        = { m with
            clock := b, handed := m.handed ++ [⟨⟨ofClock s, second, s⟩, r⟩] } := by
      simp [World.note, hsample]
    rw [hnote]
    exact hlater.publish hsample hmemory r
  | init i =>
    simp only [World.note]
    split <;> exact ⟨hlater.first, hlater.second, hlater.ordered, hlater.past⟩
  | createTransformsMemory =>
    cases r with
    | none => exact ⟨hlater.first, hlater.second, hlater.ordered, hlater.past⟩
    | some second => exact hlater.created hallowed.2 second
  | _ => exact hlater

/-! ## One turn -/

/-- A call that leaves the account as it is, but for the time. -/
def plain : Call → Bool
  | .init _ => false
  | .createTransformsMemory => false
  | .clockGettime => false
  | .publishTransforms _ _ => false
  | _ => true

theorem allowed_of_plain {c : Call} (hc : plain c = true)
    (hm : m.failed = true → c.Blinks ledPin) : Allowed m c := by
  refine ⟨hm, ?_⟩
  cases c with
  | createTransformsMemory => cases hc
  | publishTransforms => cases hc
  | _ => trivial

theorem note_of_plain {c : Call} (hc : plain c = true) (r : Answer c) : m.note c r = m := by
  cases c with
  | init => cases hc
  | createTransformsMemory => cases hc
  | clockGettime => cases hc
  | publishTransforms => cases hc
  | _ => rfl

/-- Plain calls keep what does not depend on the time. -/
theorem wp_plain {c : Call} {Q : World → Prop} (hc : plain c = true)
    (hm : m.failed = true → c.Blinks ledPin) (hQ : ∀ b, Q { m with clock := b }) :
    (ask c).wp contract (fun _ => Q) m := by
  refine wp_perform.2 ⟨allowed_of_plain hc hm, ?_⟩
  rintro r _ ⟨b, -, rfl⟩
  rw [note_of_plain hc]
  exact hQ b

/-- Plain calls, one after the other, before the memory of the message is made. -/
theorem wp_runAll_plain {cs : List Call} (hcs : ∀ c ∈ cs, plain c = true)
    (hm : Inv .calibrating m) : (runAll cs).wp contract (fun _ => Inv .calibrating) m := by
  refine wp_runAll_keeps ?_ hm
  intro c hc m hm
  refine ⟨allowed_of_plain (hcs c hc) (by simp [hm.1]), ?_⟩
  rintro r _ ⟨b, -, rfl⟩
  rw [note_of_plain (hcs c hc)]
  exact hm

theorem wp_setupStart : setupStart.wp contract Inv { clock := .boot } := by
  rw [setupStart, wp_bind]
  exact wp_mono (wp_runAll_plain (by decide) ⟨rfl, rfl⟩) fun _ _ hm => hm

/-- The entities and the memory are made, or a check has failed. -/
theorem wp_setupRest (hm : Inv .calibrating m) : setupRest.wp contract Inv m := by
  rw [setupRest, wp_bind]
  refine wp_mono (wp_runAll_plain (by decide) hm) fun _ m hm => ?_
  rw [wp_bind]
  refine wp_checkAll_keeps (I := Inv .calibrating) ?_ ?_ hm
  · intro i _ m hm
    refine ⟨⟨by simp [hm.1], trivial⟩, ?_⟩
    rintro rc _ ⟨b, -, rfl⟩
    by_cases hok : rc = rclRetOk
    · simp only [World.note, if_pos hok]
      exact hm
    · simp only [World.note, if_neg hok]
      rfl
  · intro m hm
    refine wp_perform.2 ⟨⟨by simp [hm.1], hm.2⟩, ?_⟩
    rintro made _ ⟨b, -, rfl⟩
    cases made with
    | none => rfl
    | some second => exact ⟨hm.1, rfl⟩

/-- A pass of `loop` hands over what the clock has just shown. -/
theorem wp_loop {second : Stamp} (hm : Inv (.running second) m) :
    (loop second).wp contract (fun _ => Inv (.running second)) m := by
  obtain ⟨hok, hmemory⟩ := hm
  rw [loop, wp_bind]
  refine wp_perform.2 ⟨⟨by simp [hok], trivial⟩, ?_⟩
  rintro tv _ ⟨_, ⟨c, -, rfl, rfl⟩, rfl⟩
  rw [wp_bind]
  refine wp_plain rfl (by simp [World.note, hok]) fun b => ?_
  rw [rcsoftcheck, wp_bind]
  have hstamp : c.gettime.tp = Timespec.ofMicros c.read.micros := clockGettime_tp _ _
  refine wp_perform.2 ⟨⟨by simp [World.note, hok], hmemory, c.read, rfl, ?_⟩, ?_⟩
  · rw [hstamp]
    rfl
  · rintro rc _ ⟨b', -, rfl⟩
    rw [ite_self]
    exact ⟨hok, hmemory⟩

/-- **One turn** keeps the invariant. -/
theorem wp_turn (g : Phase) (m : World) (h : Inv g m) : (turn g).wp contract Inv m := by
  cases g with
  | calibrating =>
    have hm : m.failed = false := h.1
    rw [turn, wp_bind]
    refine wp_perform.2 ⟨allowed_of_plain rfl (by simp [hm]), ?_⟩
    rintro done _ ⟨b, -, rfl⟩
    cases done with
    | false => exact wp_plain (Q := Inv .calibrating) rfl (by simp [World.note, hm]) fun _ => h
    | true => exact wp_setupRest h
  | running second =>
    rw [turn, wp_bind]
    exact wp_mono (wp_loop h) fun _ _ h' => h'
  | stopped =>
    rw [turn, wp_bind]
    refine wp_mono (wp_errorLoop_keeps (I := fun m : World => m.failed = true) ?_ h) ?_
    · intro c hc m hm
      have hplain : plain c = true := by cases hc <;> rfl
      refine ⟨allowed_of_plain hplain fun _ => hc, ?_⟩
      rintro r _ ⟨b, -, rfl⟩
      rw [note_of_plain hplain]
      exact hm
    · intro _ m hm
      exact hm

/-! ## Runs -/

/-- From boot the sketch can get to where it has `p` left to do, in the world `m`. -/
abbrev Reaches (p : SketchM Phase) (m : World) : Prop :=
  Steps contract turn (setupStart, { clock := .boot }) (p, m)

theorem told_of_reaches {p : SketchM Phase} (h : Reaches p m) : Told m :=
  keeps_of_steps wp_setupStart wp_turn (fun _ _ _ _ => told_note)
    ⟨nofun, nofun, List.Pairwise.nil, nofun⟩ h

/-- A stamp of the first `2 ^ 31` seconds is a time in seconds and nanoseconds, and shows
the clock's count. -/
theorem stamp_ofClock {b : BoardClock} (hb : b.micros < 2 ^ 31 * 10 ^ 6) :
    0 ≤ (ofClock b).sec.toInt ∧ (ofClock b).nanosec.toNat < 10 ^ 9 ∧
      stampMicros (ofClock b) = b.micros := by
  have hsec : (ofClock b).sec.toInt = (b.micros / 1000000 : ℕ) :=
    Int32.toInt_ofInt_of_le (by rw [Timespec.tvSec_ofMicros]; omega)
      (by rw [Timespec.tvSec_ofMicros]; omega)
  have hnanosec : (ofClock b).nanosec.toNat = b.micros % 1000000 * 1000 := by
    have hconv := CInt.toNat_toUInt32 (Timespec.ofMicros b.micros).tvNsec
    rw [Timespec.tvNsec_ofMicros, if_neg (by omega)] at hconv
    exact_mod_cast hconv
  rw [stampMicros, hsec, hnanosec]
  omega

/-- **Stamps never go back and never run fast.**  At every point of a run of less than
`2 ^ 31` seconds, the first transform of each message handed to `rcl_publish` carries a
proper stamp, of a time that is past; from one message to any later one these stamps
never go back, nor further on than the true time between the readings; and the second
transform carries in every message the stamp that it came with. -/
theorem tf_stamps {p : SketchM Phase} (h : Reaches p m) (hnow : m.clock.now < 2 ^ 31 * 10 ^ 6) :
    (∀ t ∈ m.messages, 0 ≤ t.first.sec.toInt ∧ t.first.nanosec.toNat < 10 ^ 9 ∧
      stampMicros t.first ≤ t.readAt ∧ t.readAt ≤ m.clock.now) ∧
      m.messages.Pairwise (fun a b =>
        a.readAt ≤ b.readAt ∧ stampMicros a.first ≤ stampMicros b.first ∧
          stampMicros b.first + (a.readAt : ℤ) ≤ stampMicros a.first + (b.readAt : ℤ)) ∧
      ∀ t ∈ m.messages, m.memory = some t.second := by
  have htold := told_of_reaches h
  have hpast : ∀ t ∈ m.messages, t.clock.Advances m.clock := fun t ht =>
    htold.past t.clock (List.mem_append_left _ (List.mem_map_of_mem ht))
  have hstamp : ∀ t ∈ m.messages, 0 ≤ t.first.sec.toInt ∧ t.first.nanosec.toNat < 10 ^ 9 ∧
      stampMicros t.first = t.clock.micros := by
    intro t ht
    have hle := (hpast t ht).now_le
    have hmicros := t.clock.micros_le_now
    rw [htold.first t ht]
    exact stamp_ofClock (by omega)
  refine ⟨?_, ?_, htold.second⟩
  · intro t ht
    obtain ⟨hsec, hnanosec, hmicros⟩ := hstamp t ht
    have hread : t.clock.readAt ≤ m.clock.now :=
      (hpast t ht).readAt_le.trans m.clock.readAt_le
    have hslow : t.clock.micros ≤ t.clock.readAt := t.clock.micros_le
    refine ⟨hsec, hnanosec, ?_, hread⟩
    rw [hmicros]
    exact_mod_cast hslow
  · have hordered := List.pairwise_map.1 (List.pairwise_append.1 htold.ordered).1
    refine hordered.imp_of_mem ?_
    intro a b ha hb hab
    rw [(hstamp a ha).2.2, (hstamp b hb).2.2, Message.readAt, Message.readAt]
    obtain ⟨-, hread, hback, hfast⟩ := hab
    exact ⟨hread, by exact_mod_cast hback, by exact_mod_cast hfast⟩

/-- What the calls answer on the bench, where each takes 300 ms. -/
def tfReply (b : BoardClock) : (c : Call) → Answer c
  | .clockGettime => (b.later 300000).gettime.tp
  | c => benchReply (.timer true) c

/-- The clock after a call. -/
def tfClock (b : BoardClock) : Call → BoardClock
  | .clockGettime => (b.later 300000).read
  | _ => b.later 300000

/-- A world that answers so. -/
def tfAnswer (c : Call) : StateM World (Answer c) := fun m =>
  (tfReply m.clock c, World.note { m with clock := tfClock m.clock c } c (tfReply m.clock c))

theorem spends_tf (b : BoardClock) (c : Call) :
    b.Spends (access c) (tfReply b c) (tfClock b c) := by
  cases c with
  | clockGettime => exact ⟨b.later 300000, b.waits_later 300000, rfl, rfl⟩
  | _ => exact .wait (b.waits_later 300000) (.refl _)

theorem obeys_tfAnswer : Obeys tfAnswer (fun _ => True) contract :=
  fun c m _ => ⟨⟨tfClock m.clock c, spends_tf m.clock c, rfl⟩, trivial⟩

/-- The run of that world after `n` steps. -/
def tfRun (n : ℕ) : SketchM Phase × World :=
  runSteps tfAnswer turn n (setupStart, { clock := .boot })

theorem reaches_tfRun (n : ℕ) : Reaches (tfRun n).1 (tfRun n).2 :=
  (steps_run obeys_tfAnswer trivial n).1

/-- Two messages, 900 ms apart. -/
theorem tf_stamps_second :
    (tfRun 22).2.messages.map (fun t => (t.first, t.second))
        = [(⟨4, 200000000⟩, ⟨0, 0⟩), (⟨5, 100000000⟩, ⟨0, 0⟩)] ∧
      (∀ t ∈ (tfRun 22).2.messages, 0 ≤ t.first.sec.toInt ∧ t.first.nanosec.toNat < 10 ^ 9 ∧
        stampMicros t.first ≤ t.readAt ∧ t.readAt ≤ (tfRun 22).2.clock.now) ∧
      (tfRun 22).2.messages.Pairwise (fun a b =>
        a.readAt ≤ b.readAt ∧ stampMicros a.first ≤ stampMicros b.first ∧
          stampMicros b.first + (a.readAt : ℤ) ≤ stampMicros a.first + (b.readAt : ℤ)) ∧
      ∀ t ∈ (tfRun 22).2.messages, (tfRun 22).2.memory = some t.second :=
  ⟨by decide, tf_stamps (reaches_tfRun 22) (by decide)⟩

end MicroRosArduino.Sketches.TfPublisher
