import MicroRosArduino.Reconnection.Entities

/-!
# One turn of the reconnecting sketch

What a call of `loop` does, whatever its calls answer and however long they take.

* `Started`, `Check`, `wp_executeEveryNMs` — the static of an `EXECUTE_EVERY_N_MS` is a
  reading made since its last execution, and `Check.elapsed` turns the comparison of two
  readings into true time.
* `Held`, `Inv` — what holds when a `case` is over, and between two turns.
* `Moves`, `wp_loop` — **what a turn can do**: the invariant is kept, and the state goes
  only where the answers lead.
-/

namespace MicroRosArduino.Reconnection

open CallOut Prog

variable {A : Assumption} {m : World}

/-! ## Every so many milliseconds -/

/-- The static `init` of an `EXECUTE_EVERY_N_MS`, at the clock `b`: not set yet, with
nothing executed, or read since the last execution ended. -/
def Started (b : BoardClock) (init : Int64) (last : Option ℕ) : Prop :=
  init = -1 ∧ last = none ∨
    ∃ a, BoardClock.Advances a b ∧ init.toInt = (a.micros / 1000 : ℕ) ∧ ∀ t ∈ last, t ≤ a.readAt

theorem Started.mono {a b : BoardClock} {init : Int64} {last : Option ℕ}
    (h : Started a init last) (hab : a.Advances b) : Started b init last := by
  rcases h with h | ⟨a₀, hadv, hinit, hlast⟩
  · exact Or.inl h
  · exact Or.inr ⟨a₀, hadv.trans hab, hinit, hlast⟩

/-- A static that has just been read. -/
theorem started_of_reads {a b : BoardClock} {r : Int64} {last : Option ℕ} (h : a.Reads r b)
    (hlast : ∀ t ∈ last, t ≤ a.now) : Started b r last := by
  refine Or.inr ⟨b, .refl b, h.toInt, ?_⟩
  intro t ht
  have hnow := h.advances.now_le
  have hle := hlast t ht
  rw [h.readAt_eq]
  omega

/-- A check of an `EXECUTE_EVERY_N_MS`, from the clock `a` and the static `init` to the clock
`b` it compares and the static `init'` it compares with. -/
structure Check (A : Assumption) (a : BoardClock) (init : Int64) (last : Option ℕ)
    (b : BoardClock) (init' : Int64) : Prop where
  advances : a.Advances b
  started : ∃ a₀, BoardClock.Advances a₀ b ∧ init'.toInt = (a₀.micros / 1000 : ℕ) ∧
    ∀ t ∈ last, t ≤ a₀.readAt
  kept : init ≠ -1 → init' = init
  readAt_eq : b.readAt = b.now
  assumed : ∃ r, A b .uxrMillis r

/-- What is executed is executed more than `ms` milliseconds after the time before. -/
theorem Check.elapsed {a b : BoardClock} {init init' : Int64} {last : Option ℕ} {ms : ℕ}
    (h : Check A a init last b init') (hlt : init'.toInt + ms < (b.micros / 1000 : ℕ)) :
    ∀ t ∈ last, t + 1000 * ms < b.now := by
  obtain ⟨a₀, hadv, hinit, hlast⟩ := h.started
  intro t ht
  have hle := hlast t ht
  have hfast := hadv.not_fast
  rw [h.readAt_eq] at hfast
  rw [hinit] at hlt
  omega

theorem allowed_uxrMillis (m : World) :
    Orderly m .uxrMillis ∧ Paced m .uxrMillis ∧ Counted m .uxrMillis := by
  simp [Orderly, Paced, Counted, Call.inits, Call.finis]

/-- The comparison of two readings is exact. -/
theorem lt_sub_iff {a b : BoardClock} {ms now init : Int64}
    (hnow : now.toInt = (b.micros / 1000 : ℕ)) (hinit : init.toInt = (a.micros / 1000 : ℕ)) :
    ms < now - init ↔ init.toInt + ms.toInt < (b.micros / 1000 : ℕ) := by
  have ha := a.micros_le_now
  have hb := b.micros_le_now
  have ha' := a.now_lt
  have hb' := b.now_lt
  rw [Int64.lt_iff_toInt_lt, Int64.toInt_sub, hnow, hinit,
    Int.bmod_eq_of_le (by omega) (by omega)]
  omega

/-- **`EXECUTE_EVERY_N_MS`.**  It checks the clock against its static, which it sets first if
it has not been, and either executes nothing or executes and sets its static anew. -/
theorem wp_executeEveryNMs {α : Type} {ms : Int64} {x : SketchM α} {init : Int64}
    {last : Option ℕ} {Q : Option α × Int64 → World → Prop}
    (hstart : Started m.clock init last)
    (hskip : ∀ b init', Check A m.clock init last b init' →
      (b.micros / 1000 : ℕ) ≤ init'.toInt + ms.toInt → Q (none, init') { m with clock := b })
    (hexec : ∀ b init', Check A m.clock init last b init' →
      init'.toInt + ms.toInt < (b.micros / 1000 : ℕ) →
      x.wp (contract A) (fun a m' => ∀ r b', m'.clock.Reads r b' → Q (some a, r)
        { m' with clock := b' }) { m with clock := b }) :
    (executeEveryNMs ms x init).wp (contract A) Q m := by
  have hcheck : ∀ (c : BoardClock) (init' : Int64), m.clock.Advances c →
      (init ≠ -1 → init' = init) →
      (∃ a₀, BoardClock.Advances a₀ c ∧ init'.toInt = (a₀.micros / 1000 : ℕ) ∧
        ∀ t ∈ last, t ≤ a₀.readAt) →
      Prog.wp (contract A) (do
        let now ← ask .uxrMillis
        if ms < now - init' then
          let a ← x
          let init ← ask .uxrMillis
          return (some a, init)
        else
          return (none, init')) Q { m with clock := c } := by
    intro c init' hc hkept ⟨a₀, hadv, hinit, hlast⟩
    rw [wp_bind]
    refine wp_perform.2 ⟨allowed_uxrMillis _, ?_⟩
    rintro now _ ⟨b, hb, hA, rfl⟩
    have hreads : c.Reads now b := hb
    have hCheck : Check A m.clock init last b init' :=
      ⟨hc.trans hreads.advances, ⟨a₀, hadv.trans hreads.advances, hinit, hlast⟩, hkept,
        hreads.readAt_eq, now, hA⟩
    by_cases hlt : ms < now - init'
    · rw [if_pos hlt, wp_bind]
      refine wp_mono (hexec b init' hCheck ((lt_sub_iff hreads.toInt hinit).1 hlt)) ?_
      intro a m' hQ
      rw [wp_bind]
      refine wp_perform.2 ⟨allowed_uxrMillis _, ?_⟩
      rintro r _ ⟨b', hb', -, rfl⟩
      exact hQ r b' hb'
    · rw [if_neg hlt]
      exact hskip b init' hCheck (not_lt.1 fun h => hlt ((lt_sub_iff hreads.toInt hinit).2 h))
  unfold executeEveryNMs
  rcases hstart with ⟨rfl, rfl⟩ | ⟨a₀, hadv, hinit, hlast⟩
  · rw [if_pos rfl, wp_bind]
    refine wp_perform.2 ⟨allowed_uxrMillis _, ?_⟩
    rintro r _ ⟨b, hb, -, rfl⟩
    have hreads : m.clock.Reads r b := hb
    exact hcheck b r hreads.advances (fun h => absurd rfl h) ⟨b, .refl b, hreads.toInt, by simp⟩
  · have hne : init ≠ -1 := by
      rintro rfl
      have hneg : (-1 : Int64).toInt = -1 := rfl
      omega
    rw [if_neg hne, wp_bind]
    exact hcheck m.clock init (.refl _) (fun _ => rfl) ⟨a₀, hadv, hinit, hlast⟩

/-! ## Between two turns -/

/-- The static of the check without a session (`false`), and of the one within one. -/
def Sketch.init (g : Sketch) : Bool → Int64
  | false => g.waitingInit
  | true => g.connectedInit

/-- The states in which there is a session. -/
def States.inSession : States → Bool
  | .agentConnected | .agentDisconnected => true
  | .waitingAgent | .agentAvailable => false

/-- What holds of the sketch and the world when a `case` is over: the entities are all there
or all gone, `msg.data` counts the values handed over, and each check knows when its last
ping was. -/
structure Held (g : Sketch) (m : World) : Prop where
  entities : if g.state.inSession then m.Up else m.Down
  data : g.msgData = Int32.ofNat m.handed.length
  started : ∀ s, Started m.clock (g.init s) (m.pinged s)

theorem Held.up {g : Sketch} (h : Held g m) (hg : g.state.inSession = true) : m.Up := by
  have hent := h.entities
  rwa [if_pos hg] at hent

theorem Held.down {g : Sketch} (h : Held g m) (hg : g.state.inSession = false) : m.Down := by
  have hent := h.entities
  rwa [if_neg (by simp [hg])] at hent

theorem Held.inSession_eq {g : Sketch} (h : Held g m) : m.inSession = g.state.inSession := by
  cases hg : g.state.inSession with
  | false => simp [World.inSession, (h.down hg).1]
  | true =>
    have hne : (Finset.univ : Finset Entity) ≠ ∅ := by decide
    simp [World.inSession, (h.up hg).1, hne]

/-- A check, with a ping or without, holds on to it. -/
theorem Held.poll {g g' : Sketch} {b : BoardClock} {last : Bool → Option ℕ} {s : Bool}
    (h : Held g m) (hadv : m.clock.Advances b) (hside : g'.state.inSession = g.state.inSession)
    (hdata : g'.msgData = g.msgData) (hthis : Started b (g'.init s) (last s))
    (hother : ∀ s' ≠ s, g'.init s' = g.init s' ∧ last s' = m.pinged s') :
    Held g' { m with clock := b, pinged := last } where
  entities := by rw [hside]; exact h.entities
  data := hdata.trans h.data
  started s' := by
    by_cases hs : s' = s
    · rw [hs]
      exact hthis
    · obtain ⟨hinit, hlast⟩ := hother s' hs
      show Started b (g'.init s') (last s')
      rw [hinit, hlast]
      exact (h.started s').mono hadv

/-- So does time that passes, -/
theorem Held.pass {g : Sketch} {b : BoardClock} (h : Held g m) (hadv : m.clock.Advances b) :
    Held g { m with clock := b } :=
  ⟨h.entities, h.data, fun s => (h.started s).mono hadv⟩

/-- a value that is handed over, -/
theorem Held.publish {g : Sketch} {b : BoardClock} (h : Held g m) (hadv : m.clock.Advances b)
    (rc : Int32) :
    Held { g with msgData := g.msgData + 1 }
      { m with clock := b, handed := m.handed ++ [⟨g.msgData, rc⟩] } where
  entities := h.entities
  data := by
    show g.msgData + 1 = Int32.ofNat (m.handed ++ [Handed.mk g.msgData rc]).length
    rw [h.data, List.length_append, Int32.ofNat_add]
    rfl
  started s := (h.started s).mono hadv

/-- and entities that come or go as the next state has it. -/
theorem Held.stage {g : Sketch} {m' : World} {l : Finset Entity} {a : Bool} {st : States}
    (h : Held g m) (hm : Stage m m' l a) (hent : if st.inSession then m'.Up else m'.Down) :
    Held { g with state := st } m' where
  entities := hent
  data := by
    rw [hm.handed]
    exact h.data
  started s := by
    rw [hm.pinged]
    exact (h.started s).mono hm.advances

/-- What the LED shows. -/
def Sketch.led (g : Sketch) : UInt8 := if g.state = .agentConnected then 1 else 0

/-- What holds between two turns. -/
structure Inv (g : Sketch) (m : World) : Prop extends Held g m where
  led : ∀ v ∈ m.led, v = g.led

/-- It was too soon for a ping. -/
def TooSoon (A : Assumption) (g : Sketch) (m : World) (g' : Sketch) (s : Bool) : Prop :=
  ∃ b, Check A m.clock (g.init s) (m.pinged s) b (g'.init s) ∧
    (b.micros / 1000 : ℕ) ≤ (g'.init s).toInt + pingEvery s

/-- A ping can be answered so. -/
def CanPing (A : Assumption) (rc : Int32) : Prop := ∃ b, A b (.rmwUrosPingAgent 100 1) rc

/-- **What a turn can do.** -/
def Moves (A : Assumption) (g : Sketch) (m : World) (g' : Sketch) : Prop :=
  match g.state with
  | .waitingAgent =>
    TooSoon A g m g' false ∧ g'.state = .waitingAgent ∨
      ∃ rc, CanPing A rc ∧ g'.state = if rclRetOk = rc then .agentAvailable else .waitingAgent
  | .agentAvailable => g'.state = .agentConnected ∨ CanFail A ∧ g'.state = .waitingAgent
  | .agentConnected =>
    TooSoon A g m g' true ∧ g'.state = .agentConnected ∨
      ∃ rc, CanPing A rc ∧
        g'.state = if rclRetOk = rc then .agentConnected else .agentDisconnected
  | .agentDisconnected => g'.state = .waitingAgent

/-- The check of a `case`, and the ping in it. -/
theorem wp_poll {g : Sketch} {ms : Int64} {up down : States} {s : Bool}
    {Q : Option States × Int64 → World → Prop} (hs : m.inSession = s)
    (hms : ms.toInt = pingEvery s) (hstart : Started m.clock (g.init s) (m.pinged s))
    (hskip : ∀ b init', Check A m.clock (g.init s) (m.pinged s) b init' →
      (b.micros / 1000 : ℕ) ≤ init'.toInt + pingEvery s →
      Q (none, init') { m with clock := b })
    (hping : ∀ rc t r b, CanPing A rc → m.clock.Advances b → Started b r (some t) →
      Q (some (if rclRetOk = rc then up else down), r)
        { m with clock := b, pinged := Function.update m.pinged s (some t) }) :
    (executeEveryNMs ms (pingAgent up down) (g.init s)).wp (contract A) Q m := by
  apply wp_executeEveryNMs hstart
  · intro b init' hcheck hle
    exact hskip b init' hcheck (by rwa [← hms])
  · intro b init' hcheck hlt
    rw [pingAgent, wp_bind]
    refine wp_perform.2 ⟨⟨?_, ?_, trivial⟩, ?_⟩
    · simp [Orderly, Call.inits, Call.finis]
    · show ∀ t ∈ m.pinged m.inSession, t + 1000 * pingEvery m.inSession < b.now
      rw [hs]
      exact hcheck.elapsed (by rwa [← hms])
    rintro rc _ ⟨b', hb', hA, rfl⟩
    have hpass : b.Advances b' := BoardClock.Spends.advances hb'
    show ∀ r b'', BoardClock.Reads b' r b'' → Q _ { m with
      clock := b'', pinged := Function.update m.pinged m.inSession (some b'.now) }
    intro r b'' hr
    rw [hs]
    refine hping rc b'.now r b'' ⟨b', hA⟩ ((hcheck.advances.trans hpass).trans hr.advances) ?_
    exact started_of_reads hr (by simp)

theorem Check.started' {a b : BoardClock} {init init' : Int64} {last : Option ℕ}
    (h : Check A a init last b init') : Started b init' last := Or.inr h.started

theorem wp_waitingAgent {g : Sketch} (h : Held g m) (hg : g.state = .waitingAgent) :
    (waitingAgent g).wp (contract A)
      (fun g' m' => Held g' m' ∧ m.clock.Advances m'.clock ∧ Moves A g m g') m := by
  have hs : m.inSession = false := by rw [h.inSession_eq, hg]; rfl
  rw [waitingAgent, wp_bind]
  apply wp_poll hs rfl (h.started false)
  · intro b init' hcheck hle
    refine ⟨h.poll (s := false) hcheck.advances rfl rfl hcheck.started' (by simp [Sketch.init]),
      hcheck.advances, ?_⟩
    rw [Moves, hg]
    exact Or.inl ⟨⟨b, hcheck, hle⟩, rfl⟩
  · intro rc t r b hrc hadv hstart
    have hside : (if rclRetOk = rc then States.agentAvailable else .waitingAgent).inSession
        = g.state.inSession := by
      rw [hg]
      split <;> rfl
    refine ⟨h.poll (s := false) hadv hside rfl ?_ (by simp [Sketch.init]), hadv, ?_⟩
    · simpa [Sketch.init] using hstart
    · rw [Moves, hg]
      exact Or.inr ⟨rc, hrc, rfl⟩

/-- Each callback of a spin hands over the next value, or nothing. -/
theorem wp_timerCallbacks {g : Sketch} (h : Held g m) (hg : g.state.inSession = true)
    (calls : List TimerCall) :
    (calls.foldlM timerCallback g.msgData).wp (contract A)
      (fun data m' => Held { g with msgData := data } m' ∧ m.clock.Advances m'.clock) m := by
  induction calls generalizing g m with
  | nil => exact ⟨h, .refl _⟩
  | cons call calls ih =>
    rw [List.foldlM_cons, wp_bind]
    unfold timerCallback
    by_cases hnull : call.timerNull = true
    · rw [if_pos hnull]
      exact ih h hg
    · rw [if_neg hnull, wp_bind]
      refine wp_perform.2 ⟨?_, ?_⟩
      · simp [Orderly, Paced, Counted, Call.inits, Call.finis, h.up hg, h.data]
      rintro rc _ ⟨b, hb, -, rfl⟩
      have hadv := BoardClock.Spends.advances hb
      rw [wp_pure]
      refine wp_mono (ih (h.publish hadv rc) hg) ?_
      rintro data m' ⟨hheld, hadv'⟩
      exact ⟨hheld, hadv.trans hadv'⟩

/-- A spin within a session. -/
theorem wp_spin {g : Sketch} {timeoutNs : UInt64} (h : Held g m)
    (hg : g.state.inSession = true) :
    (do
      let calls : List TimerCall ← ask (.rclcExecutorSpinSome timeoutNs)
      let data ← calls.foldlM timerCallback g.msgData
      return { g with msgData := data } : SketchM Sketch).wp (contract A)
      (fun g' m' => Held g' m' ∧ m.clock.Advances m'.clock ∧ g'.state = g.state ∧
        ∀ s, g'.init s = g.init s) m := by
  rw [wp_bind]
  refine wp_perform.2 ⟨?_, ?_⟩
  · simp [Orderly, Paced, Counted, Call.inits, Call.finis, h.up hg]
  rintro calls _ ⟨b, hb, -, rfl⟩
  have hadv := BoardClock.Spends.advances hb
  rw [wp_bind]
  refine wp_mono (wp_timerCallbacks (h.pass hadv) hg calls) ?_
  rintro data m' ⟨hheld, hadv'⟩
  refine ⟨hheld, hadv.trans hadv', rfl, ?_⟩
  rintro (_ | _) <;> rfl

theorem wp_agentConnected {g : Sketch} (h : Held g m) (hg : g.state = .agentConnected) :
    (agentConnected g).wp (contract A)
      (fun g' m' => Held g' m' ∧ m.clock.Advances m'.clock ∧ Moves A g m g') m := by
  obtain ⟨st, data, waitingInit, connectedInit⟩ := g
  obtain rfl : st = .agentConnected := hg
  rw [agentConnected, wp_bind]
  apply wp_poll h.inSession_eq rfl (h.started true)
  · -- too soon: the session goes on, and the executor spins
    intro b init' hcheck hle
    have hheld : Held ⟨.agentConnected, data, waitingInit, init'⟩ { m with clock := b } :=
      h.poll (s := true) hcheck.advances rfl rfl hcheck.started' (by simp [Sketch.init])
    simp only [Option.getD_none, if_true]
    refine wp_mono (wp_spin hheld rfl) ?_
    rintro g' m' ⟨hheld', hadv, hstate, hinit⟩
    refine ⟨hheld', hcheck.advances.trans hadv, Or.inl ⟨⟨b, ?_, ?_⟩, hstate⟩⟩
    · rwa [hinit true]
    · rwa [hinit true]
  · intro rc t r b hrc hadv hstart
    have hlast : Started b r (Function.update m.pinged true (some t) true) := by simpa using hstart
    by_cases hok : rclRetOk = rc
    · have hheld : Held ⟨.agentConnected, data, waitingInit, r⟩
          { m with clock := b, pinged := Function.update m.pinged true (some t) } :=
        h.poll (s := true) hadv rfl rfl hlast (by simp [Sketch.init])
      simp only [Option.getD_some, if_pos hok, if_true]
      refine wp_mono (wp_spin hheld rfl) ?_
      rintro g' m' ⟨hheld', hadv', hstate, -⟩
      refine ⟨hheld', hadv.trans hadv', Or.inr ⟨rc, hrc, ?_⟩⟩
      rw [if_pos hok]
      exact hstate
    · have hheld : Held ⟨.agentDisconnected, data, waitingInit, r⟩
          { m with clock := b, pinged := Function.update m.pinged true (some t) } :=
        h.poll (s := true) hadv rfl rfl hlast (by simp [Sketch.init])
      simp only [Option.getD_some, if_neg hok, reduceCtorEq, if_false]
      refine ⟨hheld, hadv, Or.inr ⟨rc, hrc, ?_⟩⟩
      rw [if_neg hok]

theorem wp_agentAvailable {g : Sketch} (h : Held g m) (hg : g.state = .agentAvailable) :
    (agentAvailable g).wp (contract A)
      (fun g' m' => Held g' m' ∧ m.clock.Advances m'.clock ∧ Moves A g m g') m := by
  have hdown : m.Down := h.down (by rw [hg]; rfl)
  rw [agentAvailable, wp_bind]
  refine wp_mono (wp_createEntities hdown) ?_
  rintro ok m₁ ⟨l, a, h₁, hok⟩
  cases ok with
  | true =>
    refine ⟨h.stage h₁ hok, h₁.advances, ?_⟩
    rw [Moves, hg]
    exact Or.inl rfl
  | false =>
    rw [if_neg (by simp), wp_bind]
    refine wp_mono (wp_destroyEntities m₁) ?_
    intro _ m₂ h₂
    refine ⟨h.stage (h₁.trans h₂) h₂.down, h₁.advances.trans h₂.advances, ?_⟩
    rw [Moves, hg]
    exact Or.inr ⟨hok, rfl⟩

theorem wp_agentDisconnected {g : Sketch} (h : Held g m) (hg : g.state = .agentDisconnected) :
    (agentDisconnected g).wp (contract A)
      (fun g' m' => Held g' m' ∧ m.clock.Advances m'.clock ∧ Moves A g m g') m := by
  rw [agentDisconnected, wp_bind]
  refine wp_mono (wp_destroyEntities m) ?_
  intro _ m' h'
  refine ⟨h.stage h' h'.down, h'.advances, ?_⟩
  rw [Moves, hg]

theorem wp_switchState {g : Sketch} (h : Held g m) :
    (switchState g).wp (contract A)
      (fun g' m' => Held g' m' ∧ m.clock.Advances m'.clock ∧ Moves A g m g') m := by
  unfold switchState
  split
  · exact wp_waitingAgent h ‹_›
  · exact wp_agentAvailable h ‹_›
  · exact wp_agentConnected h ‹_›
  · exact wp_agentDisconnected h ‹_›

/-- **One turn** keeps the invariant, shows the state it ends in, and does what a turn can
do. -/
theorem wp_loop {g : Sketch} (h : Inv g m) :
    (loop g).wp (contract A)
      (fun g' m' => Inv g' m' ∧ m'.led = some g'.led ∧ m.clock.Advances m'.clock ∧
        Moves A g m g') m := by
  rw [loop, wp_bind]
  refine wp_mono (wp_switchState h.toHeld) ?_
  rintro g' m₁ ⟨hheld, hadv, hmoves⟩
  rw [wp_bind]
  refine wp_perform.2 ⟨⟨?_, trivial, trivial⟩, ?_⟩
  · refine ⟨by simp [Call.inits], by simp [Call.finis], ?_⟩
    intro _ hon
    by_cases hg' : g'.state = .agentConnected
    · exact hheld.up (by rw [hg']; rfl)
    · rw [if_neg hg'] at hon
      exact absurd hon (by decide)
  rintro _ _ ⟨b, hb, -, rfl⟩
  have hadv' := BoardClock.Spends.advances hb
  have hshown : World.note { m₁ with clock := b } (.digitalWrite ledPin g'.led) ()
      = { m₁ with clock := b, led := some g'.led } := by simp [World.note]
  show Inv g' (World.note { m₁ with clock := b } (.digitalWrite ledPin g'.led) ()) ∧ _
  rw [hshown]
  refine ⟨⟨⟨hheld.entities, hheld.data, fun s => (hheld.started s).mono hadv'⟩, ?_⟩, rfl,
    hadv.trans hadv', hmoves⟩
  intro v hv
  exact (Option.some.inj hv).symm

theorem wp_setup : setup.wp (contract A) Inv World.boot := by
  simp only [setup, wp_bind, wp_pure]
  refine wp_perform.2 ⟨by simp [Orderly, Paced, Counted, Call.inits, Call.finis], ?_⟩
  rintro _ _ ⟨b, -, -, rfl⟩
  refine wp_perform.2 ⟨by simp [Orderly, Paced, Counted, Call.inits, Call.finis], ?_⟩
  rintro _ _ ⟨b', -, -, rfl⟩
  refine ⟨⟨⟨rfl, rfl⟩, rfl, ?_⟩, by simp [World.note, World.boot]⟩
  rintro (_ | _) <;> exact Or.inl ⟨rfl, rfl⟩

theorem wp_loop_inv {g : Sketch} (m : World) (h : Inv g m) : (loop g).wp (contract A) Inv m :=
  wp_mono (wp_loop h) fun _ _ h' => h'.1

end MicroRosArduino.Reconnection
