import MicroRosArduino.Reconnection.BenchWorld
import MicroRosArduino.Reconnection.Turn

/-!
# What the reconnecting sketch never does

Over every run of the sketch from boot, at every point of it, whatever its calls have
answered and however long they have taken.

* `Reaches` — where the sketch can get.
* `sketch_orderly` — **entities come and go in order**: none is initialised twice, or
  without what it needs, or finalised under one that needs it; and the executor spins
  and the publisher publishes only when everything is there.  Of `destroy_entities` no
  more is said: after a failed `create_entities` it finalises entities, and sets the
  session timeout of a support, that were never initialised.
* `sketch_states` — between two turns the state says what is there, and the LED says
  the state.
* `sketch_pings_paced` — **pings keep their distance, in true time**, on a clock that
  loses time.
* `sketch_publishes_in_sequence` — the values handed to `rcl_publish` are 0, 1, 2 and so
  on, across all sessions, and those published are all of them that it has taken.
-/

namespace MicroRosArduino.Reconnection

open CallOut Prog

variable {A : Assumption} {p : SketchM Sketch} {c : Call} {m : World}

/-- From boot the sketch can get to where it has `p` left to do, in the world `m`. -/
abbrev Reaches (A : Assumption) (p : SketchM Sketch) (m : World) : Prop :=
  Steps (contract A) loop (setup, World.boot) (p, m)

theorem allows_of_reaches (h : Reaches A p m) (hc : p.pending = some c) :
    Orderly m c ∧ Paced m c ∧ Counted m c :=
  allows_of_steps wp_setup (fun _ m hg => wp_loop_inv m hg) h hc

theorem inv_of_reaches {g : Sketch} (h : Reaches A (.done g) m) : Inv g m :=
  inv_of_steps wp_setup (fun _ m hg => wp_loop_inv m hg) h

/-- The run of the bench after `n` steps. -/
def benchRun (n : ℕ) : SketchM Sketch × World :=
  runSteps (benchAnswer true) loop n (setup, World.boot)

theorem benchRun_spec (n : ℕ) :
    Reaches anything (benchRun n).1 (benchRun n).2 ∧ Steady (benchRun n).2 :=
  steps_run (bench_obeys fun _ _ _ _ => trivial) steady_boot n

theorem reaches_benchRun (n : ℕ) : Reaches anything (benchRun n).1 (benchRun n).2 :=
  (benchRun_spec n).1

/-! ## Entities -/

/-- **In order.**  Whenever the sketch is about to make a call, the call is in order. -/
theorem sketch_orderly (h : Reaches A p m) (hc : p.pending = some c) : Orderly m c :=
  (allows_of_reaches h hc).1

/-- The executor is about to be initialised. -/
theorem sketch_orderly_executor : Orderly (benchRun 16).2 (.rclcExecutorInit 1) :=
  sketch_orderly (reaches_benchRun 16) rfl

/-- **Between two turns** every entity is there in the states with a session, and none in
the others; and the LED, once written, is on exactly in `AGENT_CONNECTED`. -/
theorem sketch_states {g : Sketch} (h : Reaches A (.done g) m) :
    (if g.state.inSession then m.Up else m.Down) ∧ ∀ v ∈ m.led, v = g.led :=
  ⟨(inv_of_reaches h).entities, (inv_of_reaches h).led⟩

/-- A session after its first turn. -/
theorem sketch_states_connected :
    (if (⟨.agentConnected, 1, 1800, 4800⟩ : Sketch).state.inSession then (benchRun 27).2.Up
      else (benchRun 27).2.Down) ∧
      ∀ v ∈ (benchRun 27).2.led, v = (⟨.agentConnected, 1, 1800, 4800⟩ : Sketch).led :=
  sketch_states (reaches_benchRun 27)

/-! ## Pings -/

/-- **Paced.**  Whenever the sketch is about to ping, more than 500 ms of true time have
passed since its last ping without a session returned, when it has none, and more than
200 ms since its last ping within one, when it has one. -/
theorem sketch_pings_paced (h : Reaches A p m) (hc : p.pending = some c) : Paced m c :=
  (allows_of_reaches h hc).2.1

/-- The second ping of a session. -/
theorem sketch_pings_paced_second :
    (benchRun 29).2.pinged true = some 4500000 ∧
      Paced (benchRun 29).2 (.rmwUrosPingAgent 100 1) :=
  ⟨by decide +kernel, sketch_pings_paced (reaches_benchRun 29) rfl⟩

/-! ## Values -/

/-- A call that is allowed keeps the values in sequence. -/
theorem publishes_note {r : Answer c} {b : BoardClock} (hc : Counted m c)
    (hm : PublishesInOrder m.handed (counting m.handed.length)) :
    PublishesInOrder (World.note { m with clock := b } c r).handed
      (counting (World.note { m with clock := b } c r).handed.length) := by
  cases c with
  | rclPublish data =>
    have hdata : data = Int32.ofNat m.handed.length := hc
    show PublishesInOrder (m.handed ++ [Handed.mk data r])
      (counting (m.handed ++ [Handed.mk data r]).length)
    rw [List.length_append, List.length_singleton, hdata]
    exact hm.count r
  | digitalWrite pin value =>
    simp only [World.note]
    split <;> exact hm
  | _ => first | exact hm | (simp only [World.note, World.initialised]; split <;> exact hm)

/-- **In sequence.**  At every point of every run the values handed to `rcl_publish` are 0,
1, 2 and so on, whatever sessions were lost on the way, and a value about to be handed to
it is the next.  Those published are in this order, and all of them exactly when no
`rcl_publish` has failed. -/
theorem sketch_publishes_in_sequence (h : Reaches A p m) :
    PublishesInOrder m.handed (counting m.handed.length) ∧
      ∀ data, p.pending = some (.rclPublish data) → data = Int32.ofNat m.handed.length := by
  refine ⟨keeps_of_steps (P := fun m : World =>
    PublishesInOrder m.handed (counting m.handed.length))
    wp_setup (fun _ m hg => wp_loop_inv m hg) ?_ .nil h, ?_⟩
  · rintro m c r m' hallows ⟨b, -, -, rfl⟩ hm
    exact publishes_note hallows.2.2 hm
  · intro data hc
    exact (allows_of_reaches h hc).2.2

/-- The second value is about to be handed over. -/
theorem sketch_publishes_second :
    (benchRun 32).2.handed = [⟨0, 0⟩] ∧ (benchRun 32).1.pending = some (.rclPublish 1) ∧
      PublishesInOrder (benchRun 32).2.handed (counting (benchRun 32).2.handed.length) ∧
      ∀ data, (benchRun 32).1.pending = some (.rclPublish data) →
        data = Int32.ofNat (benchRun 32).2.handed.length :=
  ⟨by decide +kernel, by decide +kernel, sketch_publishes_in_sequence (reaches_benchRun 32)⟩

end MicroRosArduino.Reconnection
