import MicroRosArduino.BoardClock
import MicroRosArduino.Reconnection.Sketch

/-!
# What the reconnecting sketch does to the world

An account of the sketch's calls, kept from outside: which of its entities are
initialised, what it has handed to `rcl_publish`, what it shows on its LED, when it
pinged.  The account asks nothing of the client library: an `init` or an `rcl_publish`
may succeed or fail, a ping may be answered or not, and a spin may make any callbacks.

* `Entity`, `Entity.needs` — the five entities, and what each is made in.
* `World`, `World.note` — the account, and how a call changes it.
* `Orderly`, `Paced`, `Counted` — the calls that respect it: entities come and go in
  order, pings keep their distance, values are handed over in sequence.
* `Call.access`, `contract` — every way the world may answer.  A call takes time, and the
  client library reads the board's clock as it likes; an `Assumption` may narrow the
  answers down.
-/

namespace MicroRosArduino.Reconnection

open CallOut

/-! ## Entities -/

/-- The entities of the sketch. -/
inductive Entity
  | support
  | node
  | publisher
  | timer
  | executor
  deriving DecidableEq, Repr

instance : Fintype Entity where
  elems := {.support, .node, .publisher, .timer, .executor}
  complete e := by cases e <;> decide

/-- The entities an entity is initialised with. -/
def Entity.needs : Entity → Finset Entity
  | .support => ∅
  | .node => {.support}
  | .publisher => {.node}
  | .timer => {.support}
  | .executor => {.support}

/-- The entity that a call initialises. -/
def Call.inits : Call → Option Entity
  | .rclcSupportInit => some .support
  | .rclcNodeInitDefault _ _ => some .node
  | .rclcPublisherInitBestEffort _ _ => some .publisher
  | .rclcTimerInitDefault _ => some .timer
  | .rclcExecutorInit _ => some .executor
  | _ => none

/-- The entity that a call finalises. -/
def Call.finis : Call → Option Entity
  | .rclcSupportFini => some .support
  | .rclNodeFini => some .node
  | .rclPublisherFini => some .publisher
  | .rclTimerFini => some .timer
  | .rclcExecutorFini => some .executor
  | _ => none

/-! ## The account -/

/-- What the calls so far have come to. -/
structure World where
  /-- The true time, and the board's clock. -/
  clock : BoardClock
  /-- The entities whose `init` has succeeded, and whose `fini` was not called since. -/
  live : Finset Entity := ∅
  /-- The timer has been added to the executor. -/
  added : Bool := false
  /-- The calls of `rcl_publish`, in order. -/
  handed : List (Handed Int32) := []
  /-- The value last written to the LED. -/
  led : Option UInt8 := none
  /-- When the last ping returned, without a session (`false`) and within one (`true`). -/
  pinged : Bool → Option ℕ := fun _ => none
  deriving DecidableEq

namespace World

/-- A board that boots. -/
def boot : World where
  clock := .boot

/-- Every entity is there, and the timer is in the executor. -/
def Up (m : World) : Prop := m.live = Finset.univ ∧ m.added = true

/-- No entity is there. -/
def Down (m : World) : Prop := m.live = ∅ ∧ m.added = false

/-- An `init` of the entity has returned `rc`. -/
def initialised (m : World) (e : Entity) (rc : Int32) : World :=
  if rc = rclRetOk then { m with live := insert e m.live } else m

/-- A `fini` of the entity has returned: the entity counts as gone, whatever the code, which
the sketch drops. -/
def finalised (m : World) (e : Entity) : World := { m with live := m.live.erase e }

/-- Some entity is there. -/
def inSession (m : World) : Bool := m.live ≠ ∅

/-- A ping has returned. -/
def answered (m : World) : World :=
  { m with pinged := Function.update m.pinged m.inSession (some m.clock.now) }

/-- How a call that has been answered changes the account. -/
def note (m : World) : (c : Call) → Answer c → World
  | .digitalWrite pin value, _ => if pin = ledPin then { m with led := some value } else m
  | .rmwUrosPingAgent _ _, _ => m.answered
  | .rclcSupportInit, rc => m.initialised .support rc
  | .rclcNodeInitDefault _ _, rc => m.initialised .node rc
  | .rclcPublisherInitBestEffort _ _, rc => m.initialised .publisher rc
  | .rclcTimerInitDefault _, rc => m.initialised .timer rc
  | .rclcExecutorInit _, rc => { m.initialised .executor rc with added := false }
  | .rclcExecutorAddTimer, rc => { m with added := m.added || rc == rclRetOk }
  | .rclPublisherFini, _ => m.finalised .publisher
  | .rclTimerFini, _ => m.finalised .timer
  | .rclcExecutorFini, _ => { m.finalised .executor with added := false }
  | .rclNodeFini, _ => m.finalised .node
  | .rclcSupportFini, _ => m.finalised .support
  | .rclPublish data, rc => { m with handed := m.handed ++ [⟨data, rc⟩] }
  | _, _ => m

end World

/-! ## Calls that respect the account -/

/-- Entities come and go in order.  An entity is initialised when it is not there and
what it needs is; it is finalised when nothing that needs it is there; the timer is
added once, to an executor that is there; and the executor spins, the publisher
publishes and the LED is on only when everything is there. -/
def Orderly (m : World) (c : Call) : Prop :=
  (∀ e ∈ c.inits, e ∉ m.live ∧ e.needs ⊆ m.live) ∧
    (∀ e ∈ c.finis, ∀ f ∈ m.live, e ∉ f.needs) ∧
    match c with
    | .rclcExecutorAddTimer => Entity.executor ∈ m.live ∧ Entity.timer ∈ m.live ∧ m.added = false
    | .rclcExecutorSpinSome _ => m.Up
    | .rclPublish _ => m.Up
    | .digitalWrite pin value => pin = ledPin → value = 1 → m.Up
    | _ => True

/-- The milliseconds between two pings without a session, and between two within one. -/
def pingEvery : Bool → ℕ
  | false => 500
  | true => 200

/-- Pings keep their distance: without a session more than 500 ms from the last such, and
within one more than 200 ms. -/
def Paced (m : World) : Call → Prop
  | .rmwUrosPingAgent _ _ =>
    ∀ t ∈ m.pinged m.inSession, t + 1000 * pingEvery m.inSession < m.clock.now
  | _ => True

/-- The value handed to `rcl_publish` is the number of those before it. -/
def Counted (m : World) : Call → Prop
  | .rclPublish data => data = Int32.ofNat m.handed.length
  | _ => True

/-! ## The contract -/

/-- What a call does with the clock.  The core does not read that of `clock_gettime`. -/
def Call.access : (c : Call) → BoardClock.Access (Answer c)
  | .uxrMillis => .uxrMillis
  | .pinMode _ => .leaves
  | .digitalWrite _ _ => .leaves
  | _ => .mayRead

/-- What is taken for granted of a call: of the clock after it, and of its answer. -/
abbrev Assumption := BoardClock → (c : Call) → Answer c → Prop

/-- The call reports a failure that the sketch looks at. -/
def Fails : (c : Call) → Answer c → Prop
  | .rmwUrosPingAgent _ _, rc => rc ≠ rclRetOk
  | .rclcSupportInit, rc => rc ≠ rclRetOk
  | .rclcNodeInitDefault _ _, rc => rc ≠ rclRetOk
  | .rclcPublisherInitBestEffort _ _, rc => rc ≠ rclRetOk
  | .rclcTimerInitDefault _, rc => rc ≠ rclRetOk
  | .rclcExecutorInit _, rc => rc ≠ rclRetOk
  | .rclcExecutorAddTimer, rc => rc ≠ rclRetOk
  | _, _ => False

/-- Nothing is taken for granted. -/
def anything : Assumption := fun _ _ _ => True

/-- The world allows the calls that respect the account, and answers a call in any way that
is taken for granted, after any time. -/
def contract (A : Assumption) : Contract Call Answer World where
  Allows m c := Orderly m c ∧ Paced m c ∧ Counted m c
  Answers m c r m' :=
    ∃ b, m.clock.Spends c.access r b ∧ A b c r ∧ m' = World.note { m with clock := b } c r

@[simp] theorem contract_allows {A : Assumption} {m : World} {c : Call} :
    (contract A).Allows m c ↔ Orderly m c ∧ Paced m c ∧ Counted m c := Iff.rfl

end MicroRosArduino.Reconnection
