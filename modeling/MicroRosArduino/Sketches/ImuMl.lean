import MicroRosArduino.Sketches.Checked

/-!
# `micro-ros_IMU_ML.ino`

The sketch that an interrupt of the IMU tells to look at it.  The interrupt may be taken
any number of times between two calls of the sketch; all it does is to set `mems_event`.

* `setup`, `handleEvent`, `loop`, `turn` — the functions of the sketch, and
  `World.int1EventCb` the interrupt's.
* `World`, `Interrupted`, `contract` — an account of the calls, the interrupts between them,
  and the calls that respect it.
* `Remembers` — **the flag remembers**: what is kept by every call and every interrupt.
* `imu_no_interrupt_lost` — every interrupt is followed by a look at the IMU.
* `imu_serves` — what is read is handed to `rcl_publish`, in order and once, and published
  unless that fails.
-/

namespace MicroRosArduino.Sketches.ImuMl

open CallOut Prog

/-! ## The source -/

/-- `ucf_line_t`. -/
structure UcfLine where
  address : UInt8
  data : UInt8
  deriving DecidableEq, Repr

/-- What `setup` does once the publishers are there, with the program of the IMU.  Whether
the memory of the message is there is not looked at. -/
def setupImu (lines : List UcfLine) : List Call :=
  .createMessageMemory :: .wireBegin :: .accGyrBegin :: .enableX :: .enableG ::
    lines.map (fun line => .writeReg line.address line.data) ++
    [.enablePedometer, .pinModeInput]

/-- `setup`. -/
def setup (lines : List UcfLine) : SketchM (Option Unit) := do
  runAll [.setMicrorosWifiTransports "WIFI SSID" "WIFI PASS" "192.168.1.57" 8888,
    .pinMode ledPin, .digitalWrite ledPin 1, .delay 100]
  checkAll [.rclcSupportInit, .rclcNodeInitDefault "IMU_node" "",
      .rclcPublisherInitDefault "std_msgs/msg/String" "detection",
      .rclcPublisherInitDefault "std_msgs/msg/Int32" "pedometer"] do
    runAll (setupImu lines)
    let _ ← ask .attachInterrupt
    return some ()

/-- The text for `mlc_out[0]`. -/
def detection (out : UInt8) : String :=
  match out with
  | 0 => "Stationary"
  | 1 => "Walking"
  | 4 => "Jogging"
  | 8 => "Biking"
  | 12 => "Driving"
  | _ => "Unknown"

/-- What follows a set `status.is_mlc1`. -/
def publishDetection : SketchM Unit := do
  let out : UInt8 ← ask .getMlcOutput
  rcsoftcheck (ask (.publishString (detection out)))

/-- What follows a set `event_status.StepStatus`. -/
def publishSteps : SketchM Unit := do
  let stepCount : UInt16 ← ask .getStepCount
  rcsoftcheck (ask (.rclPublish stepCount.toUInt32.toInt32))

/-- What follows a set `mems_event`. -/
def handleEvent : SketchM Unit := do
  let _ ← ask (.setMemsEvent 0)
  let isMlc1 : Bool ← ask .getMlcStatus
  let stepStatus : Bool ← ask .getXEventStatus
  (if isMlc1 then publishDetection else return ())
  (if stepStatus then publishSteps else return ())

/-- `loop`. -/
def loop : SketchM Unit := do
  let event : Int32 ← ask .memsEvent
  if event ≠ 0 then
    handleEvent

/-- One turn: a pass of `loop`, or of `error_loop`. -/
def turn : Option Unit → SketchM (Option Unit)
  | some _ => do
    loop
    return some ()
  | none => do
    errorLoop ledPin
    return none

/-! ## The account -/

/-- What the sketch reads of the IMU. -/
inductive Reading
  | mlcOutput (out : UInt8)
  | stepCount (n : UInt16)
  deriving DecidableEq, Repr

/-- A message of the sketch. -/
inductive Output
  | detection (text : String)
  | pedometer (data : Int32)
  deriving DecidableEq, Repr

/-- What a reading is published as. -/
def Reading.output : Reading → Output
  | mlcOutput out => .detection (ImuMl.detection out)
  | stepCount n => .pedometer n.toUInt32.toInt32

/-- What the calls and the interrupts so far have come to. -/
structure World where
  /-- A check has failed. -/
  failed : Bool := false
  /-- The lines of the program that were written to the IMU. -/
  written : List UcfLine := []
  /-- The interrupt is attached. -/
  attached : Bool := false
  /-- `mems_event`. -/
  memsEvent : Int32 := 0
  /-- The interrupts taken. -/
  taken : ℕ := 0
  /-- Those of them taken when `mems_event` was last written by the sketch. -/
  cleared : ℕ := 0
  /-- Those taken when the status of the MLC was last read. -/
  mlcRead : ℕ := 0
  /-- Those taken when the status of the events was last read. -/
  eventRead : ℕ := 0
  /-- What was read of the IMU, in order. -/
  readings : List Reading := []
  /-- The calls of `rcl_publish`, on either publisher, in order. -/
  handed : List (Handed Output) := []
  deriving DecidableEq

/-- `INT1Event_cb`. -/
def World.int1EventCb (m : World) : World := { m with memsEvent := 1, taken := m.taken + 1 }

/-- The interrupt is taken, any number of times. -/
inductive Interrupted : World → World → Prop
  | refl (m : World) : Interrupted m m
  | int1 {m m' : World} : m.attached = true → Interrupted m.int1EventCb m' → Interrupted m m'

/-- How a call that has been answered changes the account. -/
def World.note (m : World) : (c : Call) → Answer c → World
  | .init _, rc => if rc = rclRetOk then m else { m with failed := true }
  | .writeReg address data, _ => { m with written := m.written ++ [⟨address, data⟩] }
  | .attachInterrupt, _ => { m with attached := true }
  | .setMemsEvent value, _ => { m with memsEvent := value, cleared := m.taken }
  | .getMlcStatus, _ => { m with mlcRead := m.taken }
  | .getXEventStatus, _ => { m with eventRead := m.taken }
  | .getMlcOutput, out => { m with readings := m.readings ++ [.mlcOutput out] }
  | .getStepCount, n => { m with readings := m.readings ++ [.stepCount n] }
  | .publishString text, rc => { m with handed := m.handed ++ [⟨.detection text, rc⟩] }
  | .rclPublish data, rc => { m with handed := m.handed ++ [⟨.pedometer data, rc⟩] }
  | _, _ => m

/-- What a call may answer: the flag is a variable of the sketch. -/
def Fits (m : World) : (c : Call) → Answer c → Prop
  | .memsEvent, event => event = m.memsEvent
  | _, _ => True

/-- After a failed check only the calls of `error_loop` are made; and the interrupt is
attached once the IMU has its whole program. -/
def Allowed (lines : List UcfLine) (m : World) (c : Call) : Prop :=
  (m.failed = true → c.Blinks ledPin) ∧ (c = .attachInterrupt → m.written = lines)

/-- The world allows such calls, answers in any way, and takes the interrupt after each call
as often as it likes. -/
def contract (lines : List UcfLine) : Contract Call Answer World where
  Allows := Allowed lines
  Answers m c r m' := Fits m c r ∧ Interrupted (m.note c r) m'

/-! ## The flag remembers -/

/-- The flag is set when the interrupt was taken since the sketch last cleared it. -/
structure Remembers (m : World) : Prop where
  flag : m.memsEvent = 0 → m.taken = m.cleared
  cleared_le : m.cleared ≤ m.taken

variable {lines : List UcfLine} {m m' : World}

/-- What an interrupt leaves alone. -/
structure Frame (m m' : World) : Prop where
  failed : m'.failed = m.failed
  written : m'.written = m.written
  cleared : m'.cleared = m.cleared
  mlcRead : m'.mlcRead = m.mlcRead
  eventRead : m'.eventRead = m.eventRead
  readings : m'.readings = m.readings
  handed : m'.handed = m.handed
  taken_le : m.taken ≤ m'.taken

theorem Interrupted.frame (h : Interrupted m m') : Frame m m' := by
  induction h with
  | refl m => exact ⟨rfl, rfl, rfl, rfl, rfl, rfl, rfl, le_refl _⟩
  | int1 _ _ ih =>
    exact ⟨ih.failed, ih.written, ih.cleared, ih.mlcRead, ih.eventRead, ih.readings, ih.handed,
      (Nat.le_succ _).trans ih.taken_le⟩

theorem Interrupted.remembers (h : Interrupted m m') (hm : Remembers m) : Remembers m' := by
  induction h with
  | refl m => exact hm
  | @int1 m m' _ _ ih =>
    apply ih
    constructor
    · intro hflag
      cases hflag
    · exact hm.cleared_le.trans (Nat.le_succ _)

/-- **Every call and every interrupt** keeps it. -/
theorem remembers_note {c : Call} {r : Answer c} (h : Interrupted (m.note c r) m')
    (hm : Remembers m) : Remembers m' := by
  refine h.remembers ?_
  cases c with
  | setMemsEvent value => exact ⟨fun _ => rfl, le_refl _⟩
  | init i =>
    simp only [World.note]
    split <;> exact ⟨hm.flag, hm.cleared_le⟩
  | _ => exact ⟨hm.flag, hm.cleared_le⟩

/-! ## One turn -/

/-- Between two turns that no failed check has stopped: both statuses were read since the
flag was last cleared, and what was read was handed over. -/
structure Settled (lines : List UcfLine) (m : World) : Prop where
  failed : m.failed = false
  written : m.written = lines
  mlcRead : m.cleared ≤ m.mlcRead
  eventRead : m.cleared ≤ m.eventRead
  publishes : PublishesInOrder m.handed (m.readings.map Reading.output)

/-- Between any two turns. -/
def Inv (lines : List UcfLine) : Option Unit → World → Prop
  | some _, m => Settled lines m ∧ Remembers m
  | none, m => m.failed = true

theorem allowed_of_ok (hm : m.failed = false) {c : Call} (hc : c ≠ .attachInterrupt) :
    Allowed lines m c :=
  ⟨by simp [hm], fun h => absurd h hc⟩

theorem Settled.interrupted (hm : Settled lines m) (h : Interrupted m m') : Settled lines m' := by
  have hframe := h.frame
  constructor
  · rw [hframe.failed, hm.failed]
  · rw [hframe.written, hm.written]
  · rw [hframe.cleared, hframe.mlcRead]
    exact hm.mlcRead
  · rw [hframe.cleared, hframe.eventRead]
    exact hm.eventRead
  · rw [hframe.handed, hframe.readings]
    exact hm.publishes

/-- What is read and then handed over leaves the sketch settled. -/
theorem Settled.publish {reading : Reading} {rc : Int32} {m₁ m₂ : World} (hm : Settled lines m)
    (h₁ : Interrupted { m with readings := m.readings ++ [reading] } m₁)
    (h₂ : Interrupted { m₁ with handed := m₁.handed ++ [⟨reading.output, rc⟩] } m₂) :
    Settled lines m₂ ∧ m₂.cleared = m.cleared := by
  have hread := h₁.frame
  have hpublished := h₂.frame
  have hcleared : m₂.cleared = m.cleared := hpublished.cleared.trans hread.cleared
  refine ⟨Settled.interrupted ?_ h₂, hcleared⟩
  constructor
  · exact hread.failed.trans hm.failed
  · exact hread.written.trans hm.written
  · exact (hread.cleared.le.trans hm.mlcRead).trans hread.mlcRead.ge
  · exact (hread.cleared.le.trans hm.eventRead).trans hread.eventRead.ge
  · show PublishesInOrder (m₁.handed ++ [Handed.mk reading.output rc])
      (m₁.readings.map Reading.output)
    rw [hread.handed, hread.readings, List.map_append]
    exact hm.publishes.push _ rc

/-- A reading is made and handed over. -/
theorem wp_readAndPublish {c : Call} {publish : Answer c → SketchM Int32}
    {f : Answer c → Reading} {n : ℕ} (hc : c ≠ .attachInterrupt)
    (hread : ∀ (m : World) r, m.note c r = { m with readings := m.readings ++ [f r] })
    (hpublish : ∀ r (m : World) (Q : Int32 → World → Prop), m.failed = false →
      (∀ rc m', Interrupted { m with handed := m.handed ++ [⟨(f r).output, rc⟩] } m' →
        Q rc m') →
      (publish r).wp (contract lines) Q m)
    (hm : Inv lines (some ()) m) (hn : n ≤ m.cleared) :
    (do let r ← ask c; rcsoftcheck (publish r) : SketchM Unit).wp (contract lines)
      (fun _ m' => Inv lines (some ()) m' ∧ n ≤ m'.cleared) m := by
  obtain ⟨hset, hrem⟩ := hm
  rw [wp_bind]
  refine wp_perform.2 ⟨allowed_of_ok hset.failed hc, ?_⟩
  rintro r m₁ ⟨-, h₁⟩
  have hrem₁ := remembers_note h₁ hrem
  rw [hread] at h₁
  rw [rcsoftcheck, wp_bind]
  refine hpublish r m₁ _ (h₁.frame.failed.trans hset.failed) fun rc m₂ h₂ => ?_
  obtain ⟨hset₂, hcleared⟩ := hset.publish h₁ h₂
  rw [ite_self, wp_pure, hcleared]
  exact ⟨⟨hset₂, h₂.remembers ⟨hrem₁.flag, hrem₁.cleared_le⟩⟩, hn⟩

/-- A label is read and handed over. -/
theorem wp_publishDetection {n : ℕ} (hm : Inv lines (some ()) m) (hn : n ≤ m.cleared) :
    publishDetection.wp (contract lines)
      (fun _ m' => Inv lines (some ()) m' ∧ n ≤ m'.cleared) m := by
  refine wp_readAndPublish (f := .mlcOutput) (by simp) (fun _ _ => rfl) ?_ hm hn
  intro out m Q hm hQ
  exact wp_perform.2 ⟨allowed_of_ok hm (by simp), fun rc m' h => hQ rc m' h.2⟩

/-- A step count is read and handed over. -/
theorem wp_publishSteps {n : ℕ} (hm : Inv lines (some ()) m) (hn : n ≤ m.cleared) :
    publishSteps.wp (contract lines)
      (fun _ m' => Inv lines (some ()) m' ∧ n ≤ m'.cleared) m := by
  refine wp_readAndPublish (f := .stepCount) (by simp) (fun _ _ => rfl) ?_ hm hn
  intro count m Q hm hQ
  exact wp_perform.2 ⟨allowed_of_ok hm (by simp), fun rc m' h => hQ rc m' h.2⟩

/-- The flag is cleared, and then the IMU is looked at. -/
theorem wp_handleEvent (hm : Inv lines (some ()) m) :
    handleEvent.wp (contract lines)
      (fun _ m' => Inv lines (some ()) m' ∧ m.taken ≤ m'.cleared) m := by
  obtain ⟨hset, hrem⟩ := hm
  rw [handleEvent, wp_bind]
  refine wp_perform.2 ⟨allowed_of_ok hset.failed (by simp), ?_⟩
  rintro _ m₁ ⟨-, h₁⟩
  have hrem₁ := remembers_note h₁ hrem
  have hframe₁ := h₁.frame
  have hok₁ : m₁.failed = false := hframe₁.failed.trans hset.failed
  rw [wp_bind]
  refine wp_perform.2 ⟨allowed_of_ok hok₁ (by simp), ?_⟩
  rintro isMlc1 m₂ ⟨-, h₂⟩
  have hrem₂ := remembers_note h₂ hrem₁
  have hframe₂ := h₂.frame
  have hok₂ : m₂.failed = false := hframe₂.failed.trans hok₁
  rw [wp_bind]
  refine wp_perform.2 ⟨allowed_of_ok hok₂ (by simp), ?_⟩
  rintro stepStatus m₃ ⟨-, h₃⟩
  have hrem₃ := remembers_note h₃ hrem₂
  have hcleared₂ : m₂.cleared = m.taken := hframe₂.cleared.trans hframe₁.cleared
  have hset₃ : Settled lines m₃ := by
    refine Settled.interrupted ?_ h₃
    constructor
    · exact hok₂
    · exact (hframe₂.written.trans hframe₁.written).trans hset.written
    · -- The status is read after the flag was cleared.
      calc m₂.cleared = m₁.cleared := hframe₂.cleared
        _ ≤ m₁.taken := hrem₁.cleared_le
        _ = m₂.mlcRead := hframe₂.mlcRead.symm
    · exact hrem₂.cleared_le
    · show PublishesInOrder m₂.handed (m₂.readings.map Reading.output)
      rw [hframe₂.handed, hframe₂.readings]
      show PublishesInOrder m₁.handed (m₁.readings.map Reading.output)
      rw [hframe₁.handed, hframe₁.readings]
      exact hset.publishes
  have hcleared₃ : m.taken ≤ m₃.cleared := (h₃.frame.cleared.trans hcleared₂).ge
  have hsteps : ∀ m₄, Inv lines (some ()) m₄ ∧ m.taken ≤ m₄.cleared →
      (if stepStatus then publishSteps else return ()).wp (contract lines)
        (fun _ m' => Inv lines (some ()) m' ∧ m.taken ≤ m'.cleared) m₄ := by
    rintro m₄ ⟨hinv₄, hcleared₄⟩
    cases stepStatus with
    | false => exact ⟨hinv₄, hcleared₄⟩
    | true => exact wp_publishSteps hinv₄ hcleared₄
  rw [wp_bind]
  cases isMlc1 with
  | false => exact hsteps m₃ ⟨⟨hset₃, hrem₃⟩, hcleared₃⟩
  | true =>
    exact wp_mono (wp_publishDetection ⟨hset₃, hrem₃⟩ hcleared₃) fun _ m₄ h₄ => hsteps m₄ h₄

/-- **A pass of `loop`** looks at the IMU for every interrupt taken before it. -/
theorem wp_loop (hm : Inv lines (some ()) m) :
    loop.wp (contract lines)
      (fun _ m' => Inv lines (some ()) m' ∧ m.taken ≤ m'.cleared) m := by
  obtain ⟨hset, hrem⟩ := hm
  rw [loop, wp_bind]
  refine wp_perform.2 ⟨allowed_of_ok hset.failed (by simp), ?_⟩
  rintro event m₁ ⟨hevent, h₁⟩
  have hrem₁ := remembers_note h₁ hrem
  have hset₁ : Settled lines m₁ := hset.interrupted h₁
  have hframe := h₁.frame
  by_cases hzero : event = 0
  · -- Not set: no interrupt was taken since the flag was cleared.
    have htaken : m.taken = m.cleared := hrem.flag (hevent.symm.trans hzero)
    rw [if_neg (not_not.2 hzero), wp_pure]
    exact ⟨⟨hset₁, hrem₁⟩, (htaken.trans hframe.cleared.symm).le⟩
  · rw [if_pos hzero]
    refine wp_mono (wp_handleEvent ⟨hset₁, hrem₁⟩) ?_
    rintro _ m₂ ⟨hinv, hcleared⟩
    exact ⟨hinv, hframe.taken_le.trans hcleared⟩

/-! ## Setting up -/

/-- The line that a call writes to the IMU. -/
def line : Call → Option UcfLine
  | .writeReg address data => some ⟨address, data⟩
  | _ => none

/-- A call of `setup` that nothing is checked of. -/
def quiet : Call → Bool
  | .setMicrorosWifiTransports _ _ _ _ => true
  | .pinMode _ => true
  | .digitalWrite _ _ => true
  | .delay _ => true
  | .createMessageMemory => true
  | .wireBegin => true
  | .accGyrBegin => true
  | .enableX => true
  | .enableG => true
  | .writeReg _ _ => true
  | .enablePedometer => true
  | .pinModeInput => true
  | _ => false

theorem note_of_quiet {c : Call} (hc : quiet c = true) (r : Answer c) :
    m.note c r = { m with written := m.written ++ (line c).toList } := by
  cases c <;> first | exact absurd hc Bool.false_ne_true | simp [World.note, line]

/-- Nothing is taken before the interrupt is attached. -/
theorem Interrupted.eq_of_not_attached (h : Interrupted m m') (hm : m.attached = false) :
    m' = m := by
  cases h with
  | refl => rfl
  | int1 hattached => exact absurd (hm.symm.trans hattached) (by simp)

/-- Calls before the interrupt is attached write their lines, in order. -/
theorem wp_runAll_quiet {cs : List Call} (hcs : ∀ c ∈ cs, quiet c = true)
    (hm : m.failed = false) (hattached : m.attached = false) :
    (runAll cs).wp (contract lines)
      (fun _ m' => m' = { m with written := m.written ++ cs.filterMap line }) m := by
  induction cs generalizing m with
  | nil =>
    show m = { m with written := m.written ++ [] }
    rw [List.append_nil]
  | cons c cs ih =>
    obtain ⟨hc, hcs⟩ := List.forall_mem_cons.1 hcs
    rw [runAll, wp_bind]
    have hplain : c ≠ .attachInterrupt := by
      rintro rfl
      cases hc
    refine wp_perform.2 ⟨allowed_of_ok hm hplain, ?_⟩
    rintro r m' ⟨-, h⟩
    rw [note_of_quiet hc] at h
    obtain rfl := h.eq_of_not_attached hattached
    refine wp_mono (ih hcs hm hattached) ?_
    rintro _ _ rfl
    simp only [List.append_assoc, List.filterMap_cons]
    cases line c <;> rfl

theorem quiet_setupImu {c : Call} (hc : c ∈ setupImu lines) : quiet c = true := by
  simp only [setupImu, List.cons_append, List.mem_cons, List.mem_append, List.mem_map,
    List.not_mem_nil, or_false] at hc
  rcases hc with rfl | rfl | rfl | rfl | rfl | ⟨l, -, rfl⟩ | rfl | rfl <;> rfl

theorem lines_setupImu (lines : List UcfLine) : (setupImu lines).filterMap line = lines := by
  simp only [setupImu, List.filterMap_append, List.filterMap_map, List.filterMap_cons, line,
    List.filterMap_nil, List.append_nil]
  exact List.filterMap_some

/-- **Setting up** fails, or attaches the interrupt to an IMU that has its program. -/
theorem wp_setup : (setup lines).wp (contract lines) (Inv lines) {} := by
  rw [setup, wp_bind]
  refine wp_mono (wp_runAll_quiet (by decide) rfl rfl) ?_
  rintro _ _ rfl
  refine wp_checkAll_keeps (I := fun m : World => m = {}) ?_ ?_ rfl
  · rintro i - _ rfl
    refine ⟨allowed_of_ok rfl (by simp), ?_⟩
    rintro rc m' ⟨-, h⟩
    by_cases hok : rc = rclRetOk
    · rw [World.note, if_pos hok] at h
      rw [if_pos hok]
      exact h.eq_of_not_attached rfl
    · rw [World.note, if_neg hok] at h
      rw [if_neg hok, h.eq_of_not_attached rfl]
      rfl
  · rintro _ rfl
    rw [wp_bind]
    refine wp_mono (wp_runAll_quiet (fun c => quiet_setupImu) rfl rfl) ?_
    rintro _ _ rfl
    rw [lines_setupImu, wp_bind]
    refine wp_perform.2 ⟨⟨by simp, fun _ => rfl⟩, ?_⟩
    rintro r m' ⟨-, h⟩
    refine ⟨Settled.interrupted ⟨rfl, rfl, le_refl _, le_refl _, .nil⟩ h, ?_⟩
    exact remembers_note h ⟨fun _ => rfl, le_refl _⟩

/-! ## Runs -/

/-- **One turn** keeps the invariant. -/
theorem wp_turn (g : Option Unit) (m : World) (h : Inv lines g m) :
    (turn g).wp (contract lines) (Inv lines) m := by
  cases g with
  | some _ =>
    rw [turn, wp_bind]
    exact wp_mono (wp_loop h) fun _ _ h' => h'.1
  | none =>
    rw [turn, wp_bind]
    refine wp_mono (wp_errorLoop_keeps (I := fun m : World => m.failed = true) ?_ h) ?_
    · intro c hc m hm
      refine ⟨⟨fun _ => hc, ?_⟩, ?_⟩
      · rintro rfl
        cases hc
      · rintro r m' ⟨-, h'⟩
        refine h'.frame.failed.trans ?_
        cases hc <;> exact hm
    · intro _ m' hm'
      exact hm'

/-- From boot the sketch can get to where it has `p` left to do, in the world `m`. -/
abbrev Reaches (lines : List UcfLine) (p : SketchM (Option Unit)) (m : World) : Prop :=
  Steps (contract lines) turn (setup lines, {}) (p, m)

theorem inv_of_reaches {g : Option Unit} (h : Reaches lines (.done g) m) : Inv lines g m :=
  inv_of_steps wp_setup wp_turn h

/-! ## A run with interrupts -/

/-- What the calls answer on the bench: the IMU tells of 7 steps on a bicycle, and the number
of steps is not published. -/
def imuReply (m : World) : (c : Call) → Answer c
  | .memsEvent => m.memsEvent
  | .getMlcOutput => 8
  | .getStepCount => 7
  | .rclPublish _ => 1
  | c => benchReply (.timer true) c

/-- The interrupt is taken right after it is attached, and after each time that the flag is
cleared. -/
def imuNote (m : World) : (c : Call) → Answer c → World
  | .attachInterrupt, r => (m.note .attachInterrupt r).int1EventCb
  | .setMemsEvent value, r =>
    if m.attached then (m.note (.setMemsEvent value) r).int1EventCb
    else m.note (.setMemsEvent value) r
  | c, r => m.note c r

/-- A world that does so. -/
def imuAnswer (c : Call) : StateM World (Answer c) := fun m =>
  (imuReply m c, imuNote m c (imuReply m c))

theorem obeys_imuAnswer : Obeys imuAnswer (fun _ => True) (contract lines) := by
  intro c m _
  refine ⟨⟨?_, ?_⟩, trivial⟩
  · cases c with
    | memsEvent => rfl
    | _ => trivial
  · cases c with
    | attachInterrupt => exact .int1 rfl (.refl _)
    | setMemsEvent value =>
      show Interrupted _ (if m.attached then _ else _)
      split
      next hattached => exact .int1 hattached (.refl _)
      next => exact .refl _
    | _ => exact .refl _

/-- The run of that world, with a program of one line, after `n` steps. -/
def imuRun (n : ℕ) : SketchM (Option Unit) × World :=
  runSteps imuAnswer turn n (setup [⟨0x10, 0⟩], {})

theorem reaches_imuRun (n : ℕ) : Reaches [⟨0x10, 0⟩] (imuRun n).1 (imuRun n).2 :=
  (steps_run obeys_imuAnswer trivial n).1

/-! ## What holds of every run -/

/-- **No interrupt is lost.**  Wherever the interrupts fall, every interrupt taken before a
pass of `loop` has been followed, when the pass is over, by a reading of both statuses. -/
theorem imu_no_interrupt_lost {g : Option Unit} (h : Reaches lines (.done (some ())) m)
    (hturn : Turn (contract lines) turn (some (), m) (g, m')) :
    m.taken ≤ m'.mlcRead ∧ m.taken ≤ m'.eventRead := by
  have hpost : (turn (some ())).wp (contract lines)
      (fun _ m' => Inv lines (some ()) m' ∧ m.taken ≤ m'.cleared) m := by
    rw [turn, wp_bind]
    exact wp_mono (wp_loop (inv_of_reaches h)) fun _ _ h' => h'
  obtain ⟨⟨hset, -⟩, hcleared⟩ := hturn.post hpost
  exact ⟨hcleared.trans hset.mlcRead, hcleared.trans hset.eventRead⟩

/-- The interrupt is taken between the flag's being cleared and the statuses' being read, and
is looked at again in the next pass. -/
theorem imu_no_interrupt_lost_afterClear :
    (imuRun 26).2.taken = 2 ∧ (imuRun 26).2.cleared = 1 ∧
      (imuRun 26).2.taken ≤ (imuRun 35).2.mlcRead ∧
      (imuRun 26).2.taken ≤ (imuRun 35).2.eventRead := by
  have hreach : Reaches [⟨0x10, 0⟩] (.done (some ())) (imuRun 26).2 := reaches_imuRun 26
  have hturn : Turn (contract [⟨0x10, 0⟩]) turn (some (), (imuRun 26).2)
      (some (), (imuRun 35).2) :=
    (returns_run obeys_imuAnswer (turn (some ())) trivial).1
  exact ⟨rfl, rfl, imu_no_interrupt_lost hreach hturn⟩

/-- **What is read is handed over**, or a check has failed.  Between any two turns of any run
the sketch is in `error_loop` exactly when a check has failed; until then the IMU has its
whole program, and what was read of it was handed to `rcl_publish`, in order and once: a
reading that `rcl_publish` fails to take is dropped, and no other is. -/
theorem imu_serves {g : Option Unit} (h : Reaches lines (.done g) m) :
    (g = none ↔ m.failed = true) ∧
      (g = some () → m.written = lines ∧
        PublishesInOrder m.handed (m.readings.map Reading.output)) := by
  have hinv := inv_of_reaches h
  cases g with
  | none => exact ⟨⟨fun _ => hinv, fun _ => rfl⟩, by simp⟩
  | some _ =>
    have hok := hinv.1.failed
    exact ⟨by simp [hok], fun _ => ⟨hinv.1.written, hinv.1.publishes⟩⟩

/-- A pass of which one message is published, and one is not. -/
theorem imu_serves_biking :
    (imuRun 26).2.handed = [⟨.detection "Biking", 0⟩, ⟨.pedometer 7, 1⟩] ∧
      published (imuRun 26).2.handed = [.detection "Biking"] ∧
      (some () = none ↔ (imuRun 26).2.failed = true) ∧
      (some () = some () → (imuRun 26).2.written = [⟨0x10, 0⟩] ∧
        PublishesInOrder (imuRun 26).2.handed ((imuRun 26).2.readings.map Reading.output)) := by
  have hreach : Reaches [⟨0x10, 0⟩] (.done (some ())) (imuRun 26).2 := reaches_imuRun 26
  exact ⟨rfl, rfl, imu_serves hreach⟩

end MicroRosArduino.Sketches.ImuMl
