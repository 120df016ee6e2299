import MicroRosArduino.Foundation.CallOut
import MicroRosArduino.Rcl

/-!
# `micro-ros_reconnection_example.ino`

The sketch that keeps a micro-ROS session alive: it pings the agent, creates its
entities when one answers, publishes while it does, and destroys them when it stops.
Everything it calls is in the core or in the prebuilt client library, so it is a
program that calls out.

* `Call`, `Answer` — what it calls, with the arguments it passes, and what it looks at
  of the answers.
* `Sketch` — its globals, and the `static` of each of its two `EXECUTE_EVERY_N_MS`.
* `executeEveryNMs`, `rccheck` — its two macros.
* `createEntities`, `destroyEntities`, `timerCallback`, `setup`, `loop` — its functions.
-/

namespace MicroRosArduino.Reconnection

open CallOut Prog

/-! ## What the sketch calls -/

/-- A call of the timer callback by the executor. -/
structure TimerCall where
  /-- The `timer` passed is `NULL`. -/
  timerNull : Bool := false
  /-- The `last_call_time` passed. -/
  lastCallTime : Int64 := 0
  deriving DecidableEq, Repr

/-- The calls of the sketch into the core and the client library. -/
inductive Call
  | setMicrorosTransports
  /-- `pinMode(pin, OUTPUT)`. -/
  | pinMode (pin : UInt8)
  | digitalWrite (pin value : UInt8)
  | uxrMillis
  | rmwUrosPingAgent (timeoutMs : Int32) (attempts : UInt8)
  /-- `rclc_support_init(&support, 0, NULL, &allocator)`. -/
  | rclcSupportInit
  | rclcNodeInitDefault (name namespaceName : String)
  | rclcPublisherInitBestEffort (type topic : String)
  | rclcTimerInitDefault (timeoutNs : UInt64)
  | rclcExecutorInit (handles : ℕ)
  /-- `rclc_executor_add_timer(&executor, &timer)`. -/
  | rclcExecutorAddTimer
  /-- `rmw_uros_set_context_entity_destroy_session_timeout` on the context of `support`. -/
  | setDestroySessionTimeout (timeoutMs : Int32)
  | rclPublisherFini
  | rclTimerFini
  | rclcExecutorFini
  | rclNodeFini
  | rclcSupportFini
  | rclcExecutorSpinSome (timeoutNs : UInt64)
  /-- `rcl_publish(&publisher, &msg, NULL)`, with the `msg.data` at that time. -/
  | rclPublish (data : Int32)
  deriving DecidableEq, Repr

/-- What is told of an answer: the return code where it is checked, the time where it is
read, of a spin the callbacks made in it, and whether a message was published, which the
sketch does not look at. -/
abbrev Answer : Call → Type
  | .uxrMillis => Int64
  | .rmwUrosPingAgent _ _ => Int32
  | .rclcSupportInit => Int32
  | .rclcNodeInitDefault _ _ => Int32
  | .rclcPublisherInitBestEffort _ _ => Int32
  | .rclcTimerInitDefault _ => Int32
  | .rclcExecutorInit _ => Int32
  | .rclcExecutorAddTimer => Int32
  | .rclcExecutorSpinSome _ => List TimerCall
  | .rclPublish _ => Int32
  | _ => Unit

/-- A piece of the sketch. -/
abbrev SketchM := Prog Call Answer

/-- The sketch makes a call. -/
def ask (c : Call) : SketchM (Answer c) := perform c

/-- `LED_PIN`. -/
def ledPin : UInt8 := 13

/-! ## The globals -/

/-- `enum states`. -/
inductive States
  | waitingAgent
  | agentAvailable
  | agentConnected
  | agentDisconnected
  deriving DecidableEq, Repr

/-- The globals that carry over from turn to turn, and the statics of the two
`EXECUTE_EVERY_N_MS`. -/
structure Sketch where
  /-- `state`. -/
  state : States := .waitingAgent
  /-- `msg.data`. -/
  msgData : Int32 := 0
  /-- The `init` of the check every 500 ms. -/
  waitingInit : Int64 := -1
  /-- The `init` of the check every 200 ms. -/
  connectedInit : Int64 := -1
  deriving DecidableEq, Repr

/-! ## The macros -/

/-- `EXECUTE_EVERY_N_MS(MS, X)`: the result of `X` when it is executed, and the static
`init` after. -/
def executeEveryNMs {α : Type} (ms : Int64) (x : SketchM α) (init : Int64) :
    SketchM (Option α × Int64) := do
  let init ← if init = -1 then ask .uxrMillis else pure init
  let now ← ask .uxrMillis
  if ms < now - init then
    let a ← x
    let init ← ask .uxrMillis
    return (some a, init)
  else
    return (none, init)

/-- `RCCHECK(fn)`, and what follows it. -/
def rccheck (fn : SketchM Int32) (rest : SketchM Bool) : SketchM Bool := do
  let tempRc ← fn
  if tempRc ≠ rclRetOk then
    return false
  else
    rest

/-! ## The functions -/

/-- `timer_callback`, from one `msg.data` to the next; what `rcl_publish` returns is
dropped. -/
def timerCallback (data : Int32) (call : TimerCall) : SketchM Int32 := do
  if call.timerNull then
    return data
  else
    let _ ← ask (.rclPublish data)
    return data + 1

/-- `create_entities`. -/
def createEntities : SketchM Bool :=
  rccheck (ask .rclcSupportInit) <|
  rccheck (ask (.rclcNodeInitDefault "int32_publisher_rclc" "")) <|
  rccheck (ask (.rclcPublisherInitBestEffort "std_msgs/msg/Int32" "std_msgs_msg_Int32")) <|
  rccheck (ask (.rclcTimerInitDefault (rclMsToNs 1000))) <|
  rccheck (ask (.rclcExecutorInit 1)) <|
  rccheck (ask .rclcExecutorAddTimer) <|
  return true

/-- `destroy_entities`. -/
def destroyEntities : SketchM Unit := do
  let _ ← ask (.setDestroySessionTimeout 0)
  let _ ← ask .rclPublisherFini
  let _ ← ask .rclTimerFini
  let _ ← ask .rclcExecutorFini
  let _ ← ask .rclNodeFini
  let _ ← ask .rclcSupportFini
  return ()

/-- `setup`. -/
def setup : SketchM Sketch := do
  let _ ← ask .setMicrorosTransports
  let _ ← ask (.pinMode ledPin)
  return { state := .waitingAgent, msgData := 0 }

/-- `state = (RMW_RET_OK == rmw_uros_ping_agent(100, 1)) ? up : down` -/
def pingAgent (up down : States) : SketchM States := do
  let rc ← ask (.rmwUrosPingAgent 100 1)
  return if rclRetOk = rc then up else down

/-- `case WAITING_AGENT`. -/
def waitingAgent (g : Sketch) : SketchM Sketch := do
  let x ← executeEveryNMs 500 (pingAgent .agentAvailable .waitingAgent) g.waitingInit
  return { g with state := x.1.getD g.state, waitingInit := x.2 }

/-- `case AGENT_AVAILABLE`. -/
def agentAvailable (g : Sketch) : SketchM Sketch := do
  let created ← createEntities
  if created then
    return { g with state := .agentConnected }
  else
    let _ ← destroyEntities
    return { g with state := .waitingAgent }

/-- `case AGENT_CONNECTED`. -/
def agentConnected (g : Sketch) : SketchM Sketch := do
  let x ← executeEveryNMs 200 (pingAgent .agentConnected .agentDisconnected) g.connectedInit
  let g' := { g with state := x.1.getD g.state, connectedInit := x.2 }
  if g'.state = .agentConnected then
    let calls : List TimerCall ← ask (.rclcExecutorSpinSome (rclMsToNs 100))
    let data ← calls.foldlM timerCallback g'.msgData
    return { g' with msgData := data }
  else
    return g'

/-- `case AGENT_DISCONNECTED`. -/
def agentDisconnected (g : Sketch) : SketchM Sketch := do
  let _ ← destroyEntities
  return { g with state := .waitingAgent }

/-- The `switch` of `loop`. -/
def switchState (g : Sketch) : SketchM Sketch :=
  match g.state with
  | .waitingAgent => waitingAgent g
  | .agentAvailable => agentAvailable g
  | .agentConnected => agentConnected g
  | .agentDisconnected => agentDisconnected g

/-- `loop`. -/
def loop (g : Sketch) : SketchM Sketch := do
  let g ← switchState g
  let _ ← ask (.digitalWrite ledPin (if g.state = .agentConnected then 1 else 0))
  return g

end MicroRosArduino.Reconnection
