import MicroRosArduino.Reconnection.World

/-!
# The reconnecting sketch on the bench

One world that can be run: every call but those into the core takes 300 ms and reads
the clock, every `init` and `rcl_publish` succeeds, every spin makes one callback, and
the agent answers or does not.

* `benchAnswer` — what the world does at a call.
* `bench_obeys` — it is one of the worlds of the `contract`.
-/

namespace MicroRosArduino.Reconnection

open CallOut

/-- What the world answers at the clock `b`. -/
def benchReply (agent : Bool) (b : BoardClock) : (c : Call) → Answer c
  | .uxrMillis => Int64.ofInt ((b.later 300000).gettime.tp.nanos / 10 ^ 6)
  | .rmwUrosPingAgent _ _ => if agent then 0 else 1
  | .rclcSupportInit => 0
  | .rclcNodeInitDefault _ _ => 0
  | .rclcPublisherInitBestEffort _ _ => 0
  | .rclcTimerInitDefault _ => 0
  | .rclcExecutorInit _ => 0
  | .rclcExecutorAddTimer => 0
  | .rclcExecutorSpinSome _ => [{}]
  | .setMicrorosTransports => ()
  | .pinMode _ => ()
  | .digitalWrite _ _ => ()
  | .setDestroySessionTimeout _ => ()
  | .rclPublisherFini => ()
  | .rclTimerFini => ()
  | .rclcExecutorFini => ()
  | .rclNodeFini => ()
  | .rclcSupportFini => ()
  | .rclPublish _ => 0

/-- The clock after a call. -/
def benchClock (b : BoardClock) : Call → BoardClock
  | .pinMode _ => b
  | .digitalWrite _ _ => b
  | _ => (b.later 300000).read

/-- What the world does at a call. -/
def benchAnswer (agent : Bool) (c : Call) : StateM World (Answer c) := fun m =>
  (benchReply agent m.clock c,
    World.note { m with clock := benchClock m.clock c } c (benchReply agent m.clock c))

/-- The clock has just been read, and has missed nothing. -/
def Steady (m : World) : Prop := m.clock.SeesAll ∧ m.clock.now = m.clock.readAt

theorem clock_note (m : World) (c : Call) (r : Answer c) : (m.note c r).clock = m.clock := by
  cases c <;> simp only [World.note, World.initialised, World.finalised, World.answered]
    <;> split <;> rfl

theorem spends_bench (agent : Bool) (b : BoardClock) (c : Call) :
    b.Spends c.access (benchReply agent b c) (benchClock b c) := by
  have hpasses : b.Passes (b.later 300000).read := .wait (b.waits_later 300000) (.read (.refl _))
  cases c with
  | uxrMillis =>
    refine ⟨b.later 300000, b.waits_later 300000, rfl, ?_⟩
    have htp : (b.later 300000).gettime.tp = Timespec.ofMicros (b.later 300000).read.micros :=
      clockGettime_tp _ _
    have hmicros := (b.later 300000).read.micros_le_now
    have hnow := (b.later 300000).now_lt
    have hnanos : (b.later 300000).gettime.tp.nanos = (b.later 300000).read.micros * 1000 := by
      rw [htp, Timespec.nanos_ofMicros]
    apply Int64.toInt_ofInt_of_le
    · omega
    · rw [BoardClock.read_now] at hmicros
      omega
  | pinMode => exact ⟨le_refl _, rfl, rfl⟩
  | digitalWrite => exact ⟨le_refl _, rfl, rfl⟩
  | _ => exact hpasses

/-- The world of the bench is one of the contract. -/
theorem bench_obeys {A : Assumption} {agent : Bool}
    (hA : ∀ a b c, BoardClock.SeesAll b → A b c (benchReply agent a c)) :
    Obeys (benchAnswer agent) Steady (contract A) := by
  intro c m ⟨hsees, hread⟩
  have hclock : (benchAnswer agent c m).2.clock = benchClock m.clock c := clock_note _ _ _
  have hlater : (m.clock.later 300000).read.SeesAll := by
    obtain ⟨-, hreadAt, hstatics⟩ := m.clock.waits_later 300000
    apply BoardClock.seesAll_read
    · rw [BoardClock.SeesAll, hreadAt, hstatics]
      exact hsees
    · have hle := m.clock.later_now_le 300000
      omega
  have hsteady : (benchClock m.clock c).SeesAll ∧
      (benchClock m.clock c).now = (benchClock m.clock c).readAt := by
    cases c with
    | pinMode => exact ⟨hsees, hread⟩
    | digitalWrite => exact ⟨hsees, hread⟩
    | _ => exact ⟨hlater, rfl⟩
  refine ⟨⟨benchClock m.clock c, spends_bench agent m.clock c, hA _ _ c hsteady.1, rfl⟩, ?_⟩
  rw [Steady, hclock]
  exact hsteady

theorem steady_boot : Steady World.boot := ⟨rfl, rfl⟩

end MicroRosArduino.Reconnection
