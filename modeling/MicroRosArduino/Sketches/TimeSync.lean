import MicroRosArduino.Foundation.Printf
import MicroRosArduino.Sketches.Checked

/-!
# `micro-ros_time_sync.ino`

The sketch that asks the agent for the time and prints it, to the millisecond.

* `setup`, `loop`, `turn` — its functions, and one turn of the board.  The arguments of its
  `sprintf` are calls of the time library, made in any `ArgOrder`.
* `fraction` — the milliseconds it prints: of the time cut to 32 bits.
* `fraction_eq_iff` — **right only now and then**: when 125 divides the time in units of
  `2 ^ 32` milliseconds.
* `World`, `Allowed` — an account of its calls, and those that respect it.
* `timeSync_prints_date`, `timeSync_prints_error` — what it prints over every run.
-/

namespace MicroRosArduino.Sketches.TimeSync

open CallOut Prog Printf

/-! ## The source -/

/-- `const int timeout_ms = 1000`. -/
def timeoutMs : Int32 := 1000

/-- `(uint) time_ms % 1000`: the cast comes first. -/
def fraction (timeMs : Int64) : UInt32 := timeMs.toUInt64.toUInt32 % 1000

/-- `sprintf(time_str, "%02d.%02d.%04d %02d:%02d:%02d.%03d", ...)`. -/
def dateText (date : DateField → Int32) (ms : UInt32) : List Char :=
  printfD 2 (date .day).toInt ++ '.' :: printfD 2 (date .month).toInt ++ '.' ::
    printfD 4 (date .year).toInt ++ ' ' :: printfD 2 (date .hour).toInt ++ ':' ::
    printfD 2 (date .minute).toInt ++ ':' :: printfD 2 (date .second).toInt ++ '.' ::
    printfD 3 ms.toInt32.toInt

/-- `char time_str[25]`, which holds the text and the byte that ends it. -/
def timeStrSize : ℕ := 25

/-- `setup`. -/
def setup : SketchM (Option Unit) := do
  runAll (.setMicrorosTransports :: .serialBegin 115200 :: ledOn ledPin)
  rccheck (ask (.init .rclcSupportInit)) (return some ())

/-- An order in which the calls among the arguments of `sprintf` are made: which one, is up
to the compiler. -/
structure ArgOrder where
  /-- The parts of the time, as they are asked for. -/
  fields : List DateField
  /-- Each is asked for once. -/
  perm : fields.Perm [.day, .month, .year, .hour, .minute, .second]

/-- The calls, one after the other. -/
def askFields : List DateField → (DateField → Int32) → SketchM (DateField → Int32)
  | [], date => return date
  | f :: fs, date => do
    let v : Int32 ← ask (.dateField f)
    askFields fs (Function.update date f v)

/-- The part of `loop` that follows a positive `time_ms`.  A `time_t` is taken to be 64 bits
wide. -/
def printDate (order : ArgOrder) (timeMs : Int64) : SketchM Unit := do
  let _ ← ask (.setTime (timeMs / 1000))
  let date ← askFields order.fields fun _ => 0
  let timeStr := dateText date (fraction timeMs)
  let _ ← ask (.serialPrint "Agent date: ")
  let _ ← ask (.serialPrintln timeStr)
  return ()

/-- The part that follows any other. -/
def printError (timeMs : Int64) : SketchM Unit := do
  let _ ← ask (.serialPrint "Session sync failed, error code: ")
  let _ ← ask (.serialPrintlnInt timeMs.toInt32)
  return ()

/-- `loop`. -/
def loop (order : ArgOrder) : SketchM (Option Unit) :=
  rccheck (ask (.rmwUrosSyncSession timeoutMs)) do
    let timeMs : Int64 ← ask .rmwUrosEpochMillis
    if 0 < timeMs then
      printDate order timeMs
    else
      printError timeMs
    let _ ← ask (.delay 1001)
    return some ()

/-- One turn: a pass of `loop`, or of `error_loop`. -/
def turn (order : ArgOrder) : Option Unit → SketchM (Option Unit)
  | some _ => loop order
  | none => do
    errorLoop ledPin
    return none

/-! ## The milliseconds -/

theorem toNat_fraction {t : Int64} (ht : 0 ≤ t.toInt) :
    ((fraction t).toNat : ℤ) = t.toInt % 2 ^ 32 % 1000 := by
  have hlow : (fraction t).toNat = t.toUInt64.toNat % 2 ^ 32 % 1000 := rfl
  have hval : (t.toUInt64.toNat : ℤ) = t.toInt := by
    rw [Int64.toNat_toUInt64_of_le (by rwa [Int64.le_iff_toInt_le, Int64.toInt_zero])]
    exact Int.toNat_of_nonneg ht
  rw [hlow]
  push_cast
  rw [hval]

/-- **Right only now and then.**  The milliseconds printed are those of the time exactly
when 125 divides the number of times that 32 bits have overflowed. -/
theorem fraction_eq_iff {t : Int64} (ht : 0 ≤ t.toInt) :
    ((fraction t).toNat : ℤ) = t.toInt % 1000 ↔ 125 ∣ t.toInt / 2 ^ 32 := by
  rw [toNat_fraction ht]
  omega

theorem fraction_lt (t : Int64) : (fraction t).toNat < 1000 :=
  Nat.mod_lt _ (by norm_num)

/-! ## The account -/

/-- What the calls so far have come to. -/
structure World where
  /-- A check has failed. -/
  failed : Bool := false
  /-- The time last read from the session, with no synchronisation begun since. -/
  timeMs : Option Int64 := none
  /-- The time the time library was set to since. -/
  clockSet : Option Int64 := none
  /-- What the time library has answered since. -/
  fields : DateField → Option Int32 := fun _ => none

/-- How a call that has been answered changes the account. -/
def World.note (m : World) : (c : Call) → Answer c → World
  | .init _, rc => if rc = rclRetOk then m else { m with failed := true }
  | .rmwUrosSyncSession _, rc =>
    { failed := m.failed || rc != rclRetOk }
  | .rmwUrosEpochMillis, t => { m with timeMs := some t }
  | .setTime t, _ => { m with clockSet := some t, fields := fun _ => none }
  | .dateField f, v => { m with fields := Function.update m.fields f (some v) }
  | _, _ => m

/-- The range of a part of the time, for the years that have four digits. -/
def InRange : DateField → Int32 → Prop
  | .day, v => 0 ≤ v.toInt ∧ v.toInt ≤ 31
  | .month, v => 0 ≤ v.toInt ∧ v.toInt ≤ 12
  | .year, v => 0 ≤ v.toInt ∧ v.toInt ≤ 9999
  | .hour, v => 0 ≤ v.toInt ∧ v.toInt ≤ 23
  | .minute, v => 0 ≤ v.toInt ∧ v.toInt ≤ 59
  | .second, v => 0 ≤ v.toInt ∧ v.toInt ≤ 59

instance : (f : DateField) → (v : Int32) → Decidable (InRange f v)
  | .day, _ => inferInstanceAs (Decidable (_ ∧ _))
  | .month, _ => inferInstanceAs (Decidable (_ ∧ _))
  | .year, _ => inferInstanceAs (Decidable (_ ∧ _))
  | .hour, _ => inferInstanceAs (Decidable (_ ∧ _))
  | .minute, _ => inferInstanceAs (Decidable (_ ∧ _))
  | .second, _ => inferInstanceAs (Decidable (_ ∧ _))

/-- What the time library may answer. -/
def Fits : (c : Call) → Answer c → Prop
  | .dateField f, v => InRange f v
  | _, _ => True

/-- The text of the date: of a positive time that the session has given, with the time
library set to it and then asked for each part. -/
def DateOf (m : World) (t : Int64) (text : List Char) : Prop :=
  m.timeMs = some t ∧ 0 < t.toInt ∧ (∃ s ∈ m.clockSet, s.toInt = t.toInt / 1000) ∧
    ∃ date : DateField → Int32, (∀ f, m.fields f = some (date f)) ∧
      text = dateText date (fraction t) ∧ text.length < timeStrSize

/-- After a failed check only the calls of `error_loop` are made; and what is printed is
the date of a positive time, or the low 32 bits of one that is not. -/
def Allowed (m : World) (c : Call) : Prop :=
  (m.failed = true → c.Blinks ledPin) ∧
    match c with
    | .serialPrintln text => ∃ t, DateOf m t text
    | .serialPrintlnInt n => ∃ t ∈ m.timeMs, t.toInt ≤ 0 ∧ n = t.toInt32
    | _ => True

/-- The world allows such calls, and answers in any way that the time library's ranges
leave. -/
def contract : Contract Call Answer World where
  Allows := Allowed
  Answers m c r m' := Fits c r ∧ m' = m.note c r

/-- Between two turns the sketch is in `error_loop` exactly when a check has failed. -/
def Inv (g : Option Unit) (m : World) : Prop := g = none ↔ m.failed = true

variable {m : World}

/-- A date with four digits for the year fits its buffer. -/
theorem length_dateText {date : DateField → Int32} {ms : UInt32}
    (hdate : ∀ f, InRange f (date f)) (hms : ms.toNat < 1000) :
    (dateText date ms).length = 23 := by
  have hmillis : ms.toInt32.toInt = ms.toNat := by
    have hconv := CInt.toNat_toUInt32 ms.toInt32
    rw [UInt32.toUInt32_toInt32] at hconv
    have hmin := ms.toInt32.le_toInt
    split at hconv
    · omega
    · exact hconv.symm
  obtain ⟨hday, hday'⟩ : InRange .day _ := hdate .day
  obtain ⟨hmonth, hmonth'⟩ : InRange .month _ := hdate .month
  obtain ⟨hyear, hyear'⟩ : InRange .year _ := hdate .year
  obtain ⟨hhour, hhour'⟩ : InRange .hour _ := hdate .hour
  obtain ⟨hminute, hminute'⟩ : InRange .minute _ := hdate .minute
  obtain ⟨hsecond, hsecond'⟩ : InRange .second _ := hdate .second
  simp only [dateText, List.length_append, List.length_cons, hmillis]
  rw [length_printfD hday (by omega), length_printfD hmonth (by omega),
    length_printfD hyear (by omega), length_printfD hhour (by omega),
    length_printfD hminute (by omega), length_printfD hsecond (by omega),
    length_printfD (by omega) (by omega)]

/-! ## One turn -/

/-- A call that prints what the sketch has read. -/
def printsTime : Call → Bool
  | .serialPrintln _ => true
  | .serialPrintlnInt _ => true
  | _ => false

theorem allowed_of_ok (h : m.failed = false) {c : Call} (hc : printsTime c = false) :
    Allowed m c := by
  refine ⟨by simp [h], ?_⟩
  cases c with
  | serialPrintln text => cases hc
  | serialPrintlnInt n => cases hc
  | _ => trivial

theorem wp_setup : setup.wp contract Inv {} := by
  rw [setup, wp_bind]
  refine wp_mono (wp_runAll_keeps (I := fun m : World => m.failed = false) ?_ rfl) ?_
  · intro c hc m hm
    simp only [ledOn, List.mem_cons, List.not_mem_nil, or_false] at hc
    rcases hc with rfl | rfl | rfl | rfl | rfl <;>
      exact ⟨allowed_of_ok hm rfl, by rintro _ _ ⟨-, rfl⟩; exact hm⟩
  intro _ m hm
  apply wp_rccheck
  refine wp_perform.2 ⟨allowed_of_ok hm rfl, ?_⟩
  rintro rc _ ⟨-, rfl⟩
  by_cases hrc : rc = rclRetOk
  · rw [if_pos hrc, World.note, if_pos hrc]
    simp [Inv, hm]
  · rw [if_neg hrc, World.note, if_neg hrc]
    simp [Inv]

/-- Once each part has been asked for, each is known. -/
theorem wp_askFields (fs : List DateField) {date : DateField → Int32} (hm : m.failed = false)
    (hknown : ∀ f ∉ fs, m.fields f = some (date f) ∧ InRange f (date f)) :
    (askFields fs date).wp contract (fun date' m' => (∃ fields, m' = { m with fields := fields }) ∧
      ∀ f, m'.fields f = some (date' f) ∧ InRange f (date' f)) m := by
  induction fs generalizing date m with
  | nil => exact ⟨⟨_, rfl⟩, fun f => hknown f List.not_mem_nil⟩
  | cons f fs ih =>
    rw [askFields, wp_bind]
    refine wp_perform.2 ⟨allowed_of_ok hm rfl, ?_⟩
    rintro v _ ⟨hfits, rfl⟩
    have hv : InRange f v := hfits
    refine wp_mono (ih (m := m.note (.dateField f) v) hm ?_) ?_
    · intro g hg
      by_cases hgf : g = f
      · subst hgf
        simpa [World.note] using hv
      · simpa [World.note, hgf] using hknown g (by simp [hgf, hg])
    · rintro date' _ ⟨⟨fields, rfl⟩, hall⟩
      exact ⟨⟨_, rfl⟩, hall⟩

theorem ArgOrder.mem_fields (order : ArgOrder) (f : DateField) : f ∈ order.fields := by
  rw [order.perm.mem_iff]
  cases f <;> decide

/-- The date is printed once the time library has been set and asked. -/
theorem wp_printDate (order : ArgOrder) {t : Int64} (hm : m.failed = false)
    (htime : m.timeMs = some t) (ht : 0 < t.toInt) :
    (printDate order t).wp contract (fun _ m' => m'.failed = false) m := by
  have hdiv : (t / 1000).toInt = t.toInt / 1000 := by
    rw [Int64.toInt_div_of_ne_right _ _ (by decide)]
    exact Int.tdiv_eq_ediv_of_nonneg ht.le
  rw [printDate, wp_bind]
  refine wp_perform.2 ⟨allowed_of_ok hm rfl, ?_⟩
  rintro _ _ ⟨-, rfl⟩
  rw [wp_bind]
  refine wp_mono (wp_askFields order.fields (m := m.note (.setTime (t / 1000)) ()) hm
    fun f hf => absurd (order.mem_fields f) hf) ?_
  rintro date _ ⟨⟨fields, rfl⟩, hall⟩
  rw [wp_bind]
  refine wp_perform.2 ⟨allowed_of_ok hm rfl, ?_⟩
  rintro _ _ ⟨-, rfl⟩
  rw [wp_bind]
  refine wp_perform.2
    ⟨⟨by simp [World.note, hm], t, htime, ht, ⟨_, rfl, hdiv⟩, date, ?_, rfl, ?_⟩, ?_⟩
  · exact fun f => (hall f).1
  · rw [length_dateText (fun f => (hall f).2) (fraction_lt t)]
    decide
  · rintro _ _ ⟨-, rfl⟩
    exact hm

/-- The code is printed of a time that is not positive. -/
theorem wp_printError {t : Int64} (hm : m.failed = false) (htime : m.timeMs = some t)
    (ht : t.toInt ≤ 0) : (printError t).wp contract (fun _ m' => m'.failed = false) m := by
  rw [printError, wp_bind]
  refine wp_perform.2 ⟨allowed_of_ok hm rfl, ?_⟩
  rintro _ _ ⟨-, rfl⟩
  rw [wp_bind]
  refine wp_perform.2 ⟨⟨by simp [hm], t, htime, ht, rfl⟩, ?_⟩
  rintro _ _ ⟨-, rfl⟩
  exact hm

/-- The end of `loop`. -/
theorem wp_delay (hm : m.failed = false) :
    (do let _ ← ask (.delay 1001); return some () : SketchM (Option Unit)).wp contract Inv m := by
  rw [wp_bind]
  refine wp_perform.2 ⟨allowed_of_ok hm rfl, ?_⟩
  rintro _ _ ⟨-, rfl⟩
  simp [Inv, hm]

/-- A pass of `loop` prints one or the other, or ends in a failure. -/
theorem wp_loop (order : ArgOrder) (hm : m.failed = false) :
    (loop order).wp contract Inv m := by
  apply wp_rccheck
  refine wp_perform.2 ⟨allowed_of_ok hm rfl, ?_⟩
  rintro rc _ ⟨-, rfl⟩
  by_cases hrc : rc = rclRetOk
  · subst hrc
    rw [if_pos rfl, wp_bind]
    refine wp_perform.2 ⟨allowed_of_ok (by simp [World.note, hm]) rfl, ?_⟩
    rintro t _ ⟨-, rfl⟩
    set m' := (m.note (.rmwUrosSyncSession timeoutMs) rclRetOk).note .rmwUrosEpochMillis t with hm'
    have hok : m'.failed = false := by simp [hm', World.note, hm]
    by_cases ht : 0 < t
    · have hpos : 0 < t.toInt := by rwa [Int64.lt_iff_toInt_lt] at ht
      rw [if_pos ht, wp_bind]
      exact wp_mono (wp_printDate order hok rfl hpos) fun _ _ => wp_delay
    · have hneg : t.toInt ≤ 0 := by rwa [Int64.lt_iff_toInt_lt, not_lt] at ht
      rw [if_neg ht, wp_bind]
      exact wp_mono (wp_printError hok rfl hneg) fun _ _ => wp_delay
  · rw [if_neg hrc]
    simp [Inv, World.note, hrc]

/-- **One turn** keeps the invariant. -/
theorem wp_turn (order : ArgOrder) (g : Option Unit) (m : World) (h : Inv g m) :
    (turn order g).wp contract Inv m := by
  cases g with
  | some _ =>
    apply wp_loop
    simpa [Inv] using h
  | none =>
    rw [turn, wp_bind]
    refine wp_mono (wp_errorLoop_keeps (I := fun m : World => m.failed = true) ?_ (h.1 rfl)) ?_
    · intro c hc m hm
      refine ⟨⟨fun _ => hc, by cases hc <;> trivial⟩, ?_⟩
      rintro r _ ⟨-, rfl⟩
      cases hc <;> exact hm
    · intro _ m' hm'
      exact ⟨fun _ => hm', fun _ => rfl⟩

/-! ## Runs -/

/-- From boot the sketch can get to where it has `p` left to do, in the world `m`. -/
abbrev Reaches (order : ArgOrder) (p : SketchM (Option Unit)) (m : World) : Prop :=
  Steps contract (turn order) (setup, {}) (p, m)

/-- What the calls answer at a time of the agent's, `t`: the time library the parts of
1700000000 seconds. -/
def agentReply (t : Int64) : (c : Call) → Answer c
  | .rmwUrosEpochMillis => t
  | .dateField .day => 14
  | .dateField .month => 11
  | .dateField .year => 2023
  | .dateField .hour => 22
  | .dateField .minute => 13
  | .dateField .second => 20
  | c => benchReply (.timer true) c

/-- A world that answers so. -/
def agentAnswer (t : Int64) (c : Call) : StateM World (Answer c) :=
  fun m => (agentReply t c, m.note c (agentReply t c))

theorem fits_agentReply (t : Int64) (c : Call) : Fits c (agentReply t c) := by
  cases c with
  | dateField f =>
    cases f with
    | day => exact (by decide : InRange .day 14)
    | month => exact (by decide : InRange .month 11)
    | year => exact (by decide : InRange .year 2023)
    | hour => exact (by decide : InRange .hour 22)
    | minute => exact (by decide : InRange .minute 13)
    | second => exact (by decide : InRange .second 20)
  | _ => trivial

theorem obeys_agentAnswer (t : Int64) : Obeys (agentAnswer t) (fun _ => True) contract :=
  fun c _ _ => ⟨⟨fits_agentReply t c, rfl⟩, trivial⟩

/-- The run of that world after `n` steps. -/
def agentRun (order : ArgOrder) (t : Int64) (n : ℕ) : SketchM (Option Unit) × World :=
  runSteps (agentAnswer t) (turn order) n (setup, {})

theorem reaches_agentRun (order : ArgOrder) (t : Int64) (n : ℕ) :
    Reaches order (agentRun order t n).1 (agentRun order t n).2 :=
  (steps_run (obeys_agentAnswer t) trivial n).1

variable {order : ArgOrder}

/-- **The date.**  Whenever the sketch is about to print a date, it is that of a positive
time it has read from the session since it last synchronised, which the time library was
set to and then asked for each part, in whatever order; it fits `time_str`; and its
milliseconds are those of that time exactly when 125 divides the number of times that 32
bits of milliseconds have overflowed. -/
theorem timeSync_prints_date {p : SketchM (Option Unit)} {text : List Char}
    (h : Reaches order p m) (hp : p.pending = some (.serialPrintln text)) :
    ∃ t, DateOf m t text ∧
      (((fraction t).toNat : ℤ) = t.toInt % 1000 ↔ 125 ∣ t.toInt / 2 ^ 32) := by
  obtain ⟨-, t, ht⟩ := allows_of_steps wp_setup (wp_turn order) h hp
  exact ⟨t, ht, fraction_eq_iff ht.2.1.le⟩

/-- From the last argument to the first. -/
def ArgOrder.lastFirst : ArgOrder where
  fields := [.day, .month, .year, .hour, .minute, .second].reverse
  perm := List.reverse_perm _

/-- 123 milliseconds after the second, the sketch prints 203. -/
theorem timeSync_prints_date_wrong :
    ∃ t, DateOf (agentRun .lastFirst 1700000000123 17).2 t "14.11.2023 22:13:20.203".toList ∧
      (((fraction t).toNat : ℤ) = t.toInt % 1000 ↔ 125 ∣ t.toInt / 2 ^ 32) :=
  timeSync_prints_date (reaches_agentRun .lastFirst 1700000000123 17) rfl

end MicroRosArduino.Sketches.TimeSync
