import MicroRosArduino.Clock
import MicroRosArduino.Foundation.CallOut
import MicroRosArduino.Platform
import MicroRosArduino.Rcl

/-!
# The sketches that stop at an error

Most of the example sketches check their calls with `RCCHECK`: one that fails enters
`error_loop`, which never returns.  Six of them have one shape: `setup` initialises the
entities, and `loop` spins the executor or publishes.

* `Call`, `Answer` — what the sketches call.  A spin is two calls: the executor makes
  callbacks, and returns.
* `rccheck`, `rcsoftcheck`, `errorLoop` — their macros, and one pass of `error_loop`; the
  sketch that has entered it is at `none`.  `wp_rccheck`, `wp_checkAll_keeps`,
  `wp_runAll_keeps` and `wp_errorLoop_keeps` are their rules, over any contract.  The
  LED is on pin 13, but for the publisher over Wi-Fi on a core with an `LED_BUILTIN`.
* `benchReply` — a bench on which every call succeeds.
* `Publisher`, `PublisherWifi`, `PublisherEthernet`, `Subscriber`, `SubscriberTwist`,
  `AddTwoInts` — the functions of each.
* `Example`, `Example.boot`, `Example.turn` — the six under one name.
-/

namespace MicroRosArduino.Sketches

open CallOut Prog

/-! ## What the sketches call -/

/-- The calls that initialise an entity; their return code is checked. -/
inductive InitCall
  | rclcSupportInit
  | rclcNodeInitDefault (name namespaceName : String)
  | rclcPublisherInitDefault (type topic : String)
  | rclcPublisherInitBestEffort (type topic : String)
  | rclcSubscriptionInitDefault (type topic : String)
  | rclcServiceInitDefault (type name : String)
  | rclcTimerInitDefault (timeoutNs : UInt64)
  | rclcExecutorInit (handles : ℕ)
  | rclcExecutorAddTimer
  /-- `rclc_executor_add_subscription(..., ON_NEW_DATA)`. -/
  | rclcExecutorAddSubscription
  | rclcExecutorAddService
  deriving DecidableEq, Repr

/-- A callback the executor makes. -/
inductive Callback
  /-- `timer_callback`; whether the `timer` passed is `NULL`. -/
  | timer (null : Bool)
  /-- `subscription_callback` on an `Int32`. -/
  | int32 (data : Int32)
  /-- `subscription_callback` on a `Twist`; whether `linear.x == 0`. -/
  | twist (linearXZero : Bool)
  /-- `service_callback` on a request. -/
  | addTwoInts (a b : Int64)
  deriving DecidableEq, Repr

/-- The parts of the time that the time library knows. -/
inductive DateField
  | day
  | month
  | year
  | hour
  | minute
  | second
  deriving DecidableEq, Repr

/-- `builtin_interfaces__msg__Time`. -/
structure Stamp where
  sec : Int32
  nanosec : UInt32
  deriving DecidableEq, Repr

/-- The calls of the sketches into the core and the client library. -/
inductive Call
  | setMicrorosTransports
  | setMicrorosWifiTransports (ssid pass agentIp : String) (agentPort : UInt32)
  | setMicrorosNativeEthernetUdpTransports (mac : List UInt8) (clientIp agentIp : IPAddress)
      (agentPort : UInt16)
  /-- `pinMode(pin, OUTPUT)`. -/
  | pinMode (pin : UInt8)
  | digitalWrite (pin value : UInt8)
  | digitalRead (pin : UInt8)
  | delay (ms : UInt32)
  | init (i : InitCall)
  /-- `rclc_executor_spin_some`, up to its callbacks. -/
  | rclcExecutorSpinSome (timeoutNs : UInt64)
  /-- The rest of it, once its callbacks have returned. -/
  | spinReturn
  /-- `rcl_publish(&publisher, &msg, NULL)`, with the `msg.data` at that time. -/
  | rclPublish (data : Int32)
  /-- What the executor does with the response a service callback has left. -/
  | sendResponse (sum : Int64)
  /-- `HWSERIAL.begin(baud)`. -/
  | serialBegin (baud : UInt32)
  | rmwUrosSyncSession (timeoutMs : Int32)
  | rmwUrosEpochMillis
  /-- `setTime(t)` of the time library. -/
  | setTime (t : Int64)
  | dateField (f : DateField)
  /-- `HWSERIAL.print(text)`. -/
  | serialPrint (text : String)
  /-- `HWSERIAL.println(text)`. -/
  | serialPrintln (text : List Char)
  /-- `HWSERIAL.println(n)`. -/
  | serialPrintlnInt (n : Int32)
  /-- `IMU.begin()`. -/
  | imuBegin
  /-- `IMU.SEN.acc_cali_start()`. -/
  | accCaliStart
  /-- `IMU.SEN.acc_cali_get_done()`. -/
  | accCaliGetDone
  /-- `IMU.update()`. -/
  | imuUpdate
  | clockGettime
  /-- `micro_ros_utilities_create_message_memory` for a `String`. -/
  | createMessageMemory
  /-- `micro_ros_utilities_create_message_memory` for a `TFMessage`. -/
  | createTransformsMemory
  /-- `rcl_publish(&publisher, tf_message, NULL)`, with the stamps of `transforms.data[0]`
  and `transforms.data[1]`. -/
  | publishTransforms (first second : Stamp)
  /-- `Wire.begin()`. -/
  | wireBegin
  /-- `AccGyr.begin()`. -/
  | accGyrBegin
  | enableX
  | enableG
  | writeReg (address data : UInt8)
  | enablePedometer
  /-- `pinMode(INT_IMU, INPUT)`. -/
  | pinModeInput
  /-- `attachInterrupt(INT_IMU, INT1Event_cb, RISING)`. -/
  | attachInterrupt
  /-- The value of `mems_event`. -/
  | memsEvent
  /-- `mems_event = value`. -/
  | setMemsEvent (value : Int32)
  | getMlcStatus
  | getXEventStatus
  | getMlcOutput
  | getStepCount
  /-- `rcl_publish(&string_publisher, &string_msg, NULL)`, with the text of the message. -/
  | publishString (text : String)
  deriving DecidableEq, Repr

/-- What is told of an answer: what the sketches look at, and what `rcl_publish` returns. -/
abbrev Answer : Call → Type
  | .digitalRead _ => UInt8
  | .init _ => Int32
  | .rclcExecutorSpinSome _ => List Callback
  | .spinReturn => Int32
  | .rclPublish _ => Int32
  | .rmwUrosSyncSession _ => Int32
  | .rmwUrosEpochMillis => Int64
  | .dateField _ => Int32
  | .accCaliGetDone => Bool
  | .clockGettime => Timespec
  -- With the stamp that `transforms.data[1]` has in the memory that was made.
  | .createTransformsMemory => Option Stamp
  | .publishTransforms _ _ => Int32
  | .memsEvent => Int32
  -- `status.is_mlc1`, `event_status.StepStatus` and `mlc_out[0]`.
  | .getMlcStatus => Bool
  | .getXEventStatus => Bool
  | .getMlcOutput => UInt8
  | .getStepCount => UInt16
  | .publishString _ => Int32
  | _ => Unit

/-- A piece of a sketch. -/
abbrev SketchM := Prog Call Answer

/-- The sketch makes a call. -/
def ask (c : Call) : SketchM (Answer c) := perform c

/-- `LED_PIN`, of all the sketches but one. -/
def ledPin : UInt8 := 13

/-! ## What they share -/

/-- `RCCHECK(fn)`, and what follows it. -/
def rccheck {α : Type} (fn : SketchM Int32) (rest : SketchM (Option α)) : SketchM (Option α) := do
  let tempRc ← fn
  if tempRc ≠ rclRetOk then
    return none
  else
    rest

/-- `RCSOFTCHECK(fn)`. -/
def rcsoftcheck (fn : SketchM Int32) : SketchM Unit := do
  let tempRc ← fn
  if tempRc ≠ rclRetOk then
    return ()
  else
    return ()

/-- One pass of `error_loop`, with the `LED_PIN` of the sketch. -/
def errorLoop (led : UInt8) : SketchM Unit := do
  let value ← ask (.digitalRead led)
  let _ ← ask (.digitalWrite led (if value = 0 then 1 else 0))
  let _ ← ask (.delay 100)
  return ()

/-- The calls of `error_loop`. -/
inductive Call.Blinks (led : UInt8) : Call → Prop
  | digitalRead : Blinks led (.digitalRead led)
  | digitalWrite (value : UInt8) : Blinks led (.digitalWrite led value)
  | delay : Blinks led (.delay 100)

/-- Calls made one after the other. -/
def runAll : List Call → SketchM Unit
  | [] => return ()
  | c :: cs => do
    let _ ← ask c
    runAll cs

/-- Initialisations made one after the other, each with `RCCHECK`. -/
def checkAll {α : Type} : List InitCall → SketchM (Option α) → SketchM (Option α)
  | [], rest => rest
  | i :: is, rest => rccheck (ask (.init i)) (checkAll is rest)

/-- `setup`: calls that are not checked, calls that are, and `msg.data = 0`. -/
def setupWith (calls : List Call) (inits : List InitCall) : SketchM (Option Int32) := do
  runAll calls
  checkAll inits (return some 0)

/-- What `setup` starts with once the transport is set. -/
def ledOn (led : UInt8) : List Call := [.pinMode led, .digitalWrite led 1, .delay 2000]

/-- A spin, with the callbacks made in it, from one `msg.data` to the next. -/
def spinSome (callback : Int32 → Callback → SketchM Int32) (data : Int32) :
    SketchM (Int32 × Int32) := do
  let calls : List Callback ← ask (.rclcExecutorSpinSome (rclMsToNs 100))
  let data ← calls.foldlM callback data
  let rc ← ask .spinReturn
  return (rc, data)

/-- `delay(100); RCSOFTCHECK(rclc_executor_spin_some(...));` -/
def softSpinLoop (callback : Int32 → Callback → SketchM Int32) (data : Int32) :
    SketchM (Option Int32) := do
  let _ ← ask (.delay 100)
  let r ← spinSome callback data
  rcsoftcheck (return r.1)
  return some r.2

/-- `delay(100); RCCHECK(rclc_executor_spin_some(...));` -/
def spinLoop (callback : Int32 → Callback → SketchM Int32) (data : Int32) :
    SketchM (Option Int32) := do
  let _ ← ask (.delay 100)
  let r ← spinSome callback data
  rccheck (return r.1) (return some r.2)

/-- `RCSOFTCHECK(rcl_publish(&publisher, &msg, NULL)); msg.data++;` -/
def publishNext (data : Int32) : SketchM Int32 := do
  rcsoftcheck (ask (.rclPublish data))
  return data + 1

/-! ## Their rules -/

section Rules

variable {M : Type} {K : Contract Call Answer M} {I : M → Prop} {m : M}

/-- A checked initialisation fails, or what follows it goes on. -/
theorem wp_rccheck {α : Type} {fn : SketchM Int32} {rest : SketchM (Option α)}
    {Q : Option α → M → Prop}
    (h : fn.wp K (fun rc m' => if rc = rclRetOk then rest.wp K Q m' else Q none m') m) :
    (rccheck fn rest).wp K Q m := by
  rw [rccheck, wp_bind]
  refine wp_mono h ?_
  intro rc m' hrc
  by_cases hok : rc = rclRetOk
  · rw [if_pos hok] at hrc
    rwa [if_neg (not_not.2 hok)]
  · rw [if_neg hok] at hrc
    rwa [if_pos hok]

/-- What each successful initialisation keeps, is there for what follows them all. -/
theorem wp_checkAll_keeps {α : Type} {is : List InitCall} {rest : SketchM (Option α)}
    {Q : Option α → M → Prop}
    (his : ∀ i ∈ is, ∀ m, I m → K.Allows m (.init i) ∧
      ∀ rc m', K.Answers m (.init i) rc m' → if rc = rclRetOk then I m' else Q none m')
    (hrest : ∀ m, I m → rest.wp K Q m) (hm : I m) : (checkAll is rest).wp K Q m := by
  induction is generalizing m with
  | nil => exact hrest m hm
  | cons i is ih =>
    obtain ⟨hi, his⟩ := List.forall_mem_cons.1 his
    obtain ⟨hallows, hkeeps⟩ := hi m hm
    apply wp_rccheck
    refine wp_perform.2 ⟨hallows, fun rc m' hr => ?_⟩
    have hm' := hkeeps rc m' hr
    by_cases hok : rc = rclRetOk
    · rw [if_pos hok] at hm' ⊢
      exact ih his hm'
    · rw [if_neg hok] at hm' ⊢
      exact hm'

/-- Calls that each keep something keep it one after the other. -/
theorem wp_runAll_keeps {cs : List Call}
    (hcs : ∀ c ∈ cs, ∀ m, I m → K.Allows m c ∧ ∀ r m', K.Answers m c r m' → I m') (hm : I m) :
    (runAll cs).wp K (fun _ => I) m := by
  induction cs generalizing m with
  | nil => exact hm
  | cons c cs ih =>
    obtain ⟨hc, hcs⟩ := List.forall_mem_cons.1 hcs
    obtain ⟨hallows, hkeeps⟩ := hc m hm
    rw [runAll, wp_bind]
    exact wp_perform.2 ⟨hallows, fun r m' hr => ih hcs (hkeeps r m' hr)⟩

/-- What the calls of `error_loop` keep, a pass of it keeps. -/
theorem wp_errorLoop_keeps {led : UInt8}
    (hblinks : ∀ c : Call, c.Blinks led → ∀ m, I m →
      K.Allows m c ∧ ∀ r m', K.Answers m c r m' → I m') (hm : I m) :
    (errorLoop led).wp K (fun _ => I) m := by
  have hask : ∀ {c : Call}, c.Blinks led → ∀ {m}, I m → (ask c).wp K (fun _ => I) m :=
    fun hc _ hm => wp_perform.2 (hblinks _ hc _ hm)
  rw [errorLoop, wp_bind]
  refine wp_mono (hask .digitalRead hm) fun value m₁ h₁ => ?_
  rw [wp_bind]
  refine wp_mono (hask (.digitalWrite (if value = 0 then 1 else 0)) h₁) fun _ m₂ h₂ => ?_
  rw [wp_bind]
  exact wp_mono (hask .delay h₂) fun _ _ h₃ => h₃

end Rules

/-! ## A bench -/

/-- What the calls answer on the bench: every one succeeds, and a spin makes one callback. -/
def benchReply (call : Callback) : (c : Call) → Answer c
  | .digitalRead _ => 0
  | .init _ => 0
  | .rclcExecutorSpinSome _ => [call]
  | .spinReturn => 0
  | .rclPublish _ => 0
  | .setMicrorosTransports => ()
  | .setMicrorosWifiTransports _ _ _ _ => ()
  | .setMicrorosNativeEthernetUdpTransports _ _ _ _ => ()
  | .pinMode _ => ()
  | .digitalWrite _ _ => ()
  | .delay _ => ()
  | .sendResponse _ => ()
  | .serialBegin _ => ()
  | .rmwUrosSyncSession _ => 0
  | .rmwUrosEpochMillis => 0
  | .setTime _ => ()
  | .dateField _ => 0
  | .serialPrint _ => ()
  | .serialPrintln _ => ()
  | .serialPrintlnInt _ => ()
  | .imuBegin => ()
  | .accCaliStart => ()
  | .accCaliGetDone => true
  | .imuUpdate => ()
  | .clockGettime => .ofMicros 0
  | .createMessageMemory => ()
  | .createTransformsMemory => some ⟨0, 0⟩
  | .publishTransforms _ _ => 0
  | .wireBegin => ()
  | .accGyrBegin => ()
  | .enableX => ()
  | .enableG => ()
  | .writeReg _ _ => ()
  | .enablePedometer => ()
  | .pinModeInput => ()
  | .attachInterrupt => ()
  | .memsEvent => 0
  | .setMemsEvent _ => ()
  | .getMlcStatus => true
  | .getXEventStatus => true
  | .getMlcOutput => 0
  | .getStepCount => 0
  | .publishString _ => 0

/-! ## `micro-ros_publisher.ino` -/

namespace Publisher

/-- `timer_callback`, the one callback that is registered. -/
def timerCallback (data : Int32) : Callback → SketchM Int32
  | .timer null => if null then return data else publishNext data
  | _ => return data

def setup : SketchM (Option Int32) :=
  setupWith (.setMicrorosTransports :: ledOn ledPin)
    [.rclcSupportInit, .rclcNodeInitDefault "micro_ros_arduino_node" "",
      .rclcPublisherInitDefault "std_msgs/msg/Int32" "micro_ros_arduino_node_publisher",
      .rclcTimerInitDefault (rclMsToNs 1000), .rclcExecutorInit 1, .rclcExecutorAddTimer]

def loop : Int32 → SketchM (Option Int32) := softSpinLoop timerCallback

end Publisher

/-! ## `micro-ros_publisher_wifi.ino` and `micro-ros_publisher_wifi_at.ino` -/

namespace PublisherWifi

/-- `setup`; in the first of the two, `LED_PIN` is the core's `LED_BUILTIN` if it has one. -/
def setup (led : UInt8) : SketchM (Option Int32) :=
  setupWith
    (.setMicrorosWifiTransports "WIFI SSID" "WIFI PASS" "192.168.1.57" 8888 :: ledOn led)
    [.rclcSupportInit, .rclcNodeInitDefault "micro_ros_arduino_wifi_node" "",
      .rclcPublisherInitBestEffort "std_msgs/msg/Int32" "topic_name"]

def loop (data : Int32) : SketchM (Option Int32) := do
  let data ← publishNext data
  return some data

end PublisherWifi

/-! ## `micro-ros_publisher_ethernet.ino` -/

namespace PublisherEthernet

/-- `setup`; `arduino_mac` is AA BB CC EE DD FF, or on a Teensy 4.1 what its registers say. -/
def setup (mac : List UInt8) : SketchM (Option Int32) :=
  setupWith
    (.setMicrorosNativeEthernetUdpTransports mac
      ⟨[192, 168, 1, 177]⟩ ⟨[192, 168, 1, 113]⟩ 9999 :: ledOn ledPin)
    [.rclcSupportInit, .rclcNodeInitDefault "micro_ros_arduino_ethernet_node" "namespace",
      .rclcPublisherInitBestEffort "std_msgs/msg/Int32" "topic_name"]

def loop (data : Int32) : SketchM (Option Int32) := do
  let data ← publishNext data
  let _ ← ask (.delay 100)
  return some data

end PublisherEthernet

/-! ## `micro-ros_subscriber.ino` -/

namespace Subscriber

/-- `subscription_callback`, the one callback that is registered. -/
def subscriptionCallback (data : Int32) : Callback → SketchM Int32
  | .int32 msg => do
    let _ ← ask (.digitalWrite ledPin (if msg = 0 then 0 else 1))
    return data
  | _ => return data

def setup : SketchM (Option Int32) :=
  setupWith (.setMicrorosTransports :: ledOn ledPin)
    [.rclcSupportInit, .rclcNodeInitDefault "micro_ros_arduino_node" "",
      .rclcSubscriptionInitDefault "std_msgs/msg/Int32" "micro_ros_arduino_subscriber",
      .rclcExecutorInit 1, .rclcExecutorAddSubscription]

def loop : Int32 → SketchM (Option Int32) := spinLoop subscriptionCallback

end Subscriber

/-! ## `micro-ros_subscriber_twist.ino` -/

namespace SubscriberTwist

/-- `subscription_callback`, the one callback that is registered. -/
def subscriptionCallback (data : Int32) : Callback → SketchM Int32
  | .twist linearXZero => do
    let _ ← ask (.digitalWrite ledPin (if linearXZero then 0 else 1))
    return data
  | _ => return data

def setup : SketchM (Option Int32) :=
  setupWith (.setMicrorosTransports :: ledOn ledPin)
    [.rclcSupportInit, .rclcNodeInitDefault "micro_ros_arduino_node" "",
      .rclcSubscriptionInitDefault "geometry_msgs/msg/Twist" "micro_ros_arduino_twist_subscriber",
      .rclcExecutorInit 1, .rclcExecutorAddSubscription]

def loop : Int32 → SketchM (Option Int32) := spinLoop subscriptionCallback

end SubscriberTwist

/-! ## `micro-ros_addtwoints_service.ino` -/

namespace AddTwoInts

/-- `service_callback`, the one callback that is registered; the executor sends the `sum`
it leaves. -/
def serviceCallback (data : Int32) : Callback → SketchM Int32
  | .addTwoInts a b => do
    let _ ← ask (.sendResponse (a + b))
    return data
  | _ => return data

def setup : SketchM (Option Int32) :=
  setupWith [.setMicrorosTransports, .delay 1000]
    [.rclcSupportInit, .rclcNodeInitDefault "add_twoints_client_rclc" "",
      .rclcServiceInitDefault "example_interfaces/srv/AddTwoInts" "/addtwoints",
      .rclcExecutorInit 1, .rclcExecutorAddService]

def loop : Int32 → SketchM (Option Int32) := softSpinLoop serviceCallback

/-- `while(1){};`, which its `RCCHECK` enters instead of `error_loop`. -/
def errorLoop : SketchM Unit := return ()

end AddTwoInts

/-! ## The six of them -/

/-- The sketches of this shape. -/
inductive Example
  | publisher
  | publisherWifi (led : UInt8)
  | publisherEthernet (mac : List UInt8)
  | subscriber
  | subscriberTwist
  | addTwoInts
  deriving DecidableEq, Repr

namespace Example

/-- `setup`. -/
def boot : Example → SketchM (Option Int32)
  | publisher => Publisher.setup
  | publisherWifi led => PublisherWifi.setup led
  | publisherEthernet mac => PublisherEthernet.setup mac
  | subscriber => Subscriber.setup
  | subscriberTwist => SubscriberTwist.setup
  | addTwoInts => AddTwoInts.setup

/-- `loop`. -/
def loop : Example → Int32 → SketchM (Option Int32)
  | publisher => Publisher.loop
  | publisherWifi _ => PublisherWifi.loop
  | publisherEthernet _ => PublisherEthernet.loop
  | subscriber => Subscriber.loop
  | subscriberTwist => SubscriberTwist.loop
  | addTwoInts => AddTwoInts.loop

/-- Its `LED_PIN`. -/
def led : Example → UInt8
  | publisherWifi led => led
  | _ => ledPin

/-- One pass of what a failed `RCCHECK` enters. -/
def errorLoop : Example → SketchM Unit
  | addTwoInts => AddTwoInts.errorLoop
  | x => Sketches.errorLoop x.led

/-- One turn: a pass of `loop`, or of the loop that a failed check has entered. -/
def turn (x : Example) : Option Int32 → SketchM (Option Int32)
  | some data => x.loop data
  | none => do
    x.errorLoop
    return none

end Example

end MicroRosArduino.Sketches
