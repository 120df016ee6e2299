import MicroRosArduino.Reconnection.Safety

/-!
# How soon the reconnecting sketch responds

What the sketch comes to when the agent answers, and when it stops answering, counted
in true time from any point of any run at which the clock has missed no rollover.

* `agentUp`, `agentGone` — from now on no checked call fails; from now on no ping is
  answered.
* `TooSoon.now_lt` — **a check that does nothing is early**: the clock it compares is
  behind the true time by a millisecond's cut and a microsecond for a rollover at most.
* `agentUp_connects` — the agent found waiting for the sketch is connected to within
  501.001 ms and two turns.
* `agentGone_disconnects` — the agent that stops answering is given up within 201.001 ms
  and two turns, with nothing left of the session.
-/

namespace MicroRosArduino.Reconnection

open CallOut Prog

variable {A : Assumption} {x₁ x y z : Sketch × World}

/-- No call that the sketch checks fails, and the clock is read often enough to see every
rollover. -/
def agentUp : Assumption := fun b c r => b.SeesAll ∧ ¬ Fails c r

/-- No ping is answered, and the clock is read often enough to see every rollover. -/
def agentGone : Assumption := fun b c r =>
  b.SeesAll ∧ (c = .rmwUrosPingAgent 100 1 → Fails c r)

/-- The clock is read often enough to see every rollover. -/
def Watched (A : Assumption) : Prop := ∀ b c r, A b c r → b.SeesAll

/-- A check against a static that was set by `m₁` finds it too soon only when it starts
within the time to the next ping. -/
theorem TooSoon.now_lt {g g' : Sketch} {m₁ m : World} {s : Bool} (hA : Watched A)
    (h : TooSoon A g m g' s) (hset : g.init s ≠ -1)
    (hinit : (g.init s).toInt ≤ (m₁.clock.micros / 1000 : ℕ)) (hsees : m₁.clock.SeesAll)
    (hadv : m₁.clock.Advances m.clock) :
    m.clock.now < m₁.clock.readAt + 1000 * pingEvery s + 1001 := by
  obtain ⟨b, hcheck, hle⟩ := h
  obtain ⟨r, hr⟩ := hcheck.assumed
  have hthen := BoardClock.micros_of_seesAll hsees
  have hnow := BoardClock.micros_of_seesAll (hA _ _ _ hr)
  have hread := hcheck.readAt_eq
  have hmono := (hadv.trans hcheck.advances).readAt_le
  have hlater := hcheck.advances.now_le
  rw [hcheck.kept hset] at hle
  cases s with
  | false =>
    simp only [pingEvery] at hle ⊢
    omega
  | true =>
    simp only [pingEvery] at hle ⊢
    omega

/-- One turn from a world in which the invariant holds. -/
theorem turn_post (h : Turn (contract A) loop x y) (hx : Inv x.1 x.2) :
    Inv y.1 y.2 ∧ y.2.led = some y.1.led ∧ x.2.clock.Advances y.2.clock ∧
      Moves A x.1 x.2 y.1 := by
  have hreturns : Returns (contract A) (loop x.1) x.2 y.1 y.2 := h
  exact hreturns.post (wp_loop hx)

/-- A static that is set was set before now. -/
theorem Held.init_le {g : Sketch} {m : World} {s : Bool} (h : Held g m) (hset : g.init s ≠ -1) :
    (g.init s).toInt ≤ (m.clock.micros / 1000 : ℕ) := by
  rcases h.started s with ⟨hne, -⟩ | ⟨a, hadv, hinit, -⟩
  · exact absurd hne hset
  · have hback := hadv.not_back
    omega

/-! ## From one state to another -/

/-- Under `A` the sketch stays in `st` only while it is too soon for a ping, goes on to `mid`,
and from there to `fin`, where it stays. -/
structure Leads (A : Assumption) (s : Bool) (st mid fin : States) : Prop where
  watched : Watched A
  first : ∀ {g g' : Sketch} {m : World}, Moves A g m g' → g.state = st →
    TooSoon A g m g' s ∧ g'.state = st ∨ g'.state = mid
  last : ∀ {g g' : Sketch} {m : World}, Moves A g m g' → g.state = mid ∨ g.state = fin →
    g'.state = fin

variable {s : Bool} {st mid fin : States}

/-- What holds between the turns of a sketch that was in `st` at `x₁`. -/
structure Since (s : Bool) (st mid fin : States) (x₁ x : Sketch × World) : Prop where
  inv : Inv x.1 x.2
  advances : x₁.2.clock.Advances x.2.clock
  state : x.1.state = st ∧ x.1.init s = x₁.1.init s ∨ x.1.state = mid ∨ x.1.state = fin

/-- A turn keeps it, -/
theorem Since.turn (h : Since s st mid fin x₁ x) (hA : Leads A s st mid fin)
    (hset : x₁.1.init s ≠ -1) (hturn : Turn (contract A) loop x y) : Since s st mid fin x₁ y := by
  obtain ⟨hinv, -, hadv, hmoves⟩ := turn_post hturn h.inv
  refine ⟨hinv, h.advances.trans hadv, ?_⟩
  rcases h.state with ⟨hstate, hinit⟩ | hstate
  · rcases hA.first hmoves hstate with ⟨⟨b, hcheck, -⟩, hstate'⟩ | hstate'
    · refine Or.inl ⟨hstate', ?_⟩
      rw [hcheck.kept (by rwa [hinit]), hinit]
    · exact Or.inr (Or.inl hstate')
  · exact Or.inr (Or.inr (hA.last hmoves hstate))

/-- and so do any number of them. -/
theorem Since.turns (h : Since s st mid fin x₁ x₁) (hA : Leads A s st mid fin)
    (hset : x₁.1.init s ≠ -1) (hturns : Turns (contract A) loop x₁ x) :
    Since s st mid fin x₁ x := by
  induction hturns with
  | refl => exact h
  | tail _ hturn ih => exact ih.turn hA hset hturn

/-- **The response.**  A turn that begins when the time to the next ping is over is at most
one turn short of `fin`. -/
theorem Leads.response {A' : Assumption} (hA : Leads A s st mid fin)
    (hreach : Reaches A' (.done x₁.1) x₁.2) (hstate : x₁.1.state = st) (hset : x₁.1.init s ≠ -1)
    (hsees : x₁.2.clock.SeesAll) (hturns : Turns (contract A) loop x₁ x)
    (hlate : x₁.2.clock.readAt + 1000 * pingEvery s + 1001 ≤ x.2.clock.now)
    (hy : Turn (contract A) loop x y) (hz : Turn (contract A) loop y z) :
    z.1.state = fin ∧ Inv z.1 z.2 ∧ z.2.led = some z.1.led := by
  have hinv := inv_of_reaches hreach
  have h₁ : Since s st mid fin x₁ x₁ := ⟨hinv, .refl _, Or.inl ⟨hstate, rfl⟩⟩
  have hx := h₁.turns hA hset hturns
  obtain ⟨hinvy, -, -, hmovesx⟩ := turn_post hy hx.inv
  obtain ⟨hinvz, hled, -, hmovesy⟩ := turn_post hz hinvy
  have hgone : y.1.state = mid ∨ y.1.state = fin := by
    rcases hx.state with ⟨hstatex, hinit⟩ | hstatex
    · rcases hA.first hmovesx hstatex with ⟨hsoon, -⟩ | hstatey
      · -- too late for a check that does nothing
        have hle := hinv.toHeld.init_le hset
        rw [← hinit] at hle hset
        have hlt := hsoon.now_lt hA.watched hset hle hsees hx.advances
        omega
      · exact Or.inl hstatey
    · exact Or.inr (hA.last hmovesx hstatex)
  exact ⟨hA.last hmovesy hgone, hinvz, hled⟩

/-! ## The agent answers -/

theorem leads_agentUp : Leads agentUp false .waitingAgent .agentAvailable .agentConnected := by
  have hping : ∀ rc, CanPing agentUp rc → rclRetOk = rc := by
    rintro rc ⟨b, -, hok⟩
    exact (not_not.1 hok).symm
  refine ⟨fun _ _ _ h => h.1, ?_, ?_⟩
  · intro g g' m h hg
    rw [Moves, hg] at h
    rcases h with h | ⟨rc, hrc, hstate⟩
    · exact Or.inl h
    · rw [if_pos (hping rc hrc)] at hstate
      exact Or.inr hstate
  · rintro g g' m h (hg | hg)
    · rw [Moves, hg] at h
      rcases h with h | ⟨⟨b, c, r, ⟨-, hok⟩, hfails⟩, -⟩
      · exact h
      · exact absurd hfails hok
    · rw [Moves, hg] at h
      rcases h with h | ⟨rc, hrc, hstate⟩
      · exact h.2
      · rwa [if_pos (hping rc hrc)] at hstate

/-- **An agent that answers is connected to.**  From any point of any run at which the sketch
waits, its clock has missed no rollover and its check has been made before: while no
checked call fails, a turn that begins 501.001 ms or more after the last reading of the clock is
at most one turn short of a session, and the session stays. -/
theorem agentUp_connects (hreach : Reaches A (.done x₁.1) x₁.2)
    (hstate : x₁.1.state = .waitingAgent) (hset : x₁.1.waitingInit ≠ -1)
    (hsees : x₁.2.clock.SeesAll) (hturns : Turns (contract agentUp) loop x₁ x)
    (hlate : x₁.2.clock.readAt + 501001 ≤ x.2.clock.now)
    (hy : Turn (contract agentUp) loop x y) (hz : Turn (contract agentUp) loop y z) :
    z.1.state = .agentConnected ∧ z.2.Up ∧ z.2.led = some 1 := by
  obtain ⟨hstatez, hinvz, hled⟩ :=
    leads_agentUp.response hreach hstate hset hsees hturns hlate hy hz
  refine ⟨hstatez, hinvz.toHeld.up (by rw [hstatez]; rfl), ?_⟩
  rw [hled, Sketch.led, if_pos hstatez]

theorem agentUp_bench : Obeys (benchAnswer true) Steady (contract agentUp) := by
  apply bench_obeys
  intro a b c hsees
  refine ⟨hsees, ?_⟩
  cases c <;> simp [Fails, benchReply, rclRetOk]

/-- The bench with an agent that answers, from the end of its first turn. -/
def benchUp (n : ℕ) : Sketch × World :=
  runTurns (benchAnswer true) loop n (⟨.waitingAgent, 0, 600, -1⟩, (benchRun 6).2)

/-- The session is there three turns later. -/
theorem agentUp_connects_bench :
    (benchUp 3).1.state = .agentConnected ∧ (benchUp 3).2.Up ∧ (benchUp 3).2.led = some 1 :=
  have hreach : Reaches anything (.done (benchUp 0).1) (benchUp 0).2 := reaches_benchRun 6
  have hsteady : Steady (benchUp 0).2 := (benchRun_spec 6).2
  have hturns : Turns (contract agentUp) loop (benchUp 0) (benchUp 1) :=
    (turns_run agentUp_bench hsteady 1).1
  have hy : Turn (contract agentUp) loop (benchUp 1) (benchUp 2) :=
    turn_run agentUp_bench hsteady 1
  have hz : Turn (contract agentUp) loop (benchUp 2) (benchUp 3) :=
    turn_run agentUp_bench hsteady 2
  agentUp_connects hreach rfl (by decide) hsteady.1 hturns (by decide +kernel) hy hz

/-! ## The agent is gone -/

theorem leads_agentGone :
    Leads agentGone true .agentConnected .agentDisconnected .waitingAgent := by
  have hping : ∀ rc, CanPing agentGone rc → rclRetOk ≠ rc := by
    rintro rc ⟨b, -, hfails⟩ rfl
    exact hfails rfl rfl
  refine ⟨fun _ _ _ h => h.1, ?_, ?_⟩
  · intro g g' m h hg
    rw [Moves, hg] at h
    rcases h with h | ⟨rc, hrc, hstate⟩
    · exact Or.inl h
    · rw [if_neg (hping rc hrc)] at hstate
      exact Or.inr hstate
  · rintro g g' m h (hg | hg)
    · rwa [Moves, hg] at h
    · rw [Moves, hg] at h
      rcases h with h | ⟨rc, hrc, hstate⟩
      · exact h.2
      · rwa [if_neg (hping rc hrc)] at hstate

/-- **An agent that stops answering is given up.**  From any point of any run at which the
sketch is connected, its clock has missed no rollover and its check has been made in a
session before: while no ping is answered, a turn that begins 201.001 ms or more after
the last reading of the clock is at most one turn short of the end of the session, and
nothing of it is left. -/
theorem agentGone_disconnects (hreach : Reaches A (.done x₁.1) x₁.2)
    (hstate : x₁.1.state = .agentConnected) (hset : x₁.1.connectedInit ≠ -1)
    (hsees : x₁.2.clock.SeesAll) (hturns : Turns (contract agentGone) loop x₁ x)
    (hlate : x₁.2.clock.readAt + 201001 ≤ x.2.clock.now)
    (hy : Turn (contract agentGone) loop x y) (hz : Turn (contract agentGone) loop y z) :
    z.1.state = .waitingAgent ∧ z.2.Down ∧ z.2.led = some 0 := by
  obtain ⟨hstatez, hinvz, hled⟩ :=
    leads_agentGone.response hreach hstate hset hsees hturns hlate hy hz
  refine ⟨hstatez, hinvz.toHeld.down (by rw [hstatez]; rfl), ?_⟩
  rw [hled, Sketch.led, if_neg (by rw [hstatez]; decide)]

theorem agentGone_bench : Obeys (benchAnswer false) Steady (contract agentGone) := by
  apply bench_obeys
  rintro a b c hsees
  refine ⟨hsees, ?_⟩
  rintro rfl
  exact (by decide : (1 : Int32) ≠ rclRetOk)

/-- The bench with an agent that is gone, from the end of a first turn in a session. -/
def benchGone (n : ℕ) : Sketch × World :=
  runTurns (benchAnswer false) loop n (⟨.agentConnected, 1, 1800, 4800⟩, (benchRun 27).2)

/-- The session is over three turns later. -/
theorem agentGone_disconnects_bench :
    (benchGone 3).1.state = .waitingAgent ∧ (benchGone 3).2.Down ∧
      (benchGone 3).2.led = some 0 :=
  have hreach : Reaches anything (.done (benchGone 0).1) (benchGone 0).2 := reaches_benchRun 27
  have hsteady : Steady (benchGone 0).2 := (benchRun_spec 27).2
  have hturns : Turns (contract agentGone) loop (benchGone 0) (benchGone 1) :=
    (turns_run agentGone_bench hsteady 1).1
  have hy : Turn (contract agentGone) loop (benchGone 1) (benchGone 2) :=
    turn_run agentGone_bench hsteady 1
  have hz : Turn (contract agentGone) loop (benchGone 2) (benchGone 3) :=
    turn_run agentGone_bench hsteady 2
  agentGone_disconnects hreach rfl (by decide) hsteady.1 hturns (by decide +kernel) hy hz

end MicroRosArduino.Reconnection
