import MicroRosArduino.Sketches.Checked

/-!
# What the sketches that stop at an error do

Over every run of each of the six from boot, at every point of it, whatever its calls
answer.

* `World`, `World.note` — an account of the calls: which entities are there, whether a
  checked call has failed, the callbacks made, what was handed to `rcl_publish` and what
  else the sketch has put out.
* `Orderly` — the calls that respect it: entities are initialised once and used when they
  are there, and after a failed check nothing but the LED is touched.
* `Example.Serves` — **what each sketch is for**, by the passes of `loop` and the callbacks
  made in them: values handed over in sequence, the LED as each message has it, the sum of
  every request left for its response.
* `wp_setupWith`, `wp_callbacks`, `wp_turn` — one turn keeps to it.
* `example_orderly`, `example_serves` — so does every run.
-/

namespace MicroRosArduino.Sketches

open CallOut Prog

/-! ## The account -/

/-- What `setup` initialises. -/
inductive Entity
  | support
  | node
  | publisher
  | subscription
  | service
  | timer
  | executor
  /-- The timer, subscription or service has been added to the executor. -/
  | handle
  deriving DecidableEq, Repr

/-- The entity that a call initialises. -/
def InitCall.makes : InitCall → Entity
  | .rclcSupportInit => .support
  | .rclcNodeInitDefault _ _ => .node
  | .rclcPublisherInitDefault _ _ => .publisher
  | .rclcPublisherInitBestEffort _ _ => .publisher
  | .rclcSubscriptionInitDefault _ _ => .subscription
  | .rclcServiceInitDefault _ _ => .service
  | .rclcTimerInitDefault _ => .timer
  | .rclcExecutorInit _ => .executor
  | .rclcExecutorAddTimer => .handle
  | .rclcExecutorAddSubscription => .handle
  | .rclcExecutorAddService => .handle

/-- The entities it is initialised with. -/
def InitCall.uses : InitCall → Finset Entity
  | .rclcSupportInit => ∅
  | .rclcNodeInitDefault _ _ => {.support}
  | .rclcPublisherInitDefault _ _ => {.node}
  | .rclcPublisherInitBestEffort _ _ => {.node}
  | .rclcSubscriptionInitDefault _ _ => {.node}
  | .rclcServiceInitDefault _ _ => {.node}
  | .rclcTimerInitDefault _ => {.support}
  | .rclcExecutorInit _ => {.support}
  | .rclcExecutorAddTimer => {.executor, .timer}
  | .rclcExecutorAddSubscription => {.executor, .subscription}
  | .rclcExecutorAddService => {.executor, .service}

/-- The entities that a call is made on. -/
def Call.uses : Call → Finset Entity
  | .init i => i.uses
  | .rclcExecutorSpinSome _ => {.executor, .handle}
  | .spinReturn => {.executor, .handle}
  | .rclPublish _ => {.publisher}
  | .publishTransforms _ _ => {.publisher}
  | .publishString _ => {.publisher}
  | .sendResponse _ => {.service, .executor}
  | _ => ∅

/-- What a sketch puts out but for messages: a value written to its LED, or a response left
for the executor to send. -/
inductive Output
  | led (value : UInt8)
  | respond (sum : Int64)
  deriving DecidableEq, Repr

/-- What a call puts out, with the LED on that pin. -/
def Call.outputs (led : UInt8) : Call → List Output
  | .digitalWrite pin value => if pin = led then [.led value] else []
  | .sendResponse sum => [.respond sum]
  | _ => []

/-- What the calls so far have come to. -/
structure World where
  /-- The entities initialised. -/
  up : Finset Entity := ∅
  /-- A check has failed. -/
  failed : Bool := false
  /-- The callbacks made, in order. -/
  calls : List Callback := []
  /-- The calls of `rcl_publish`, in order. -/
  handed : List (Handed Int32) := []
  /-- What else was put out, in order. -/
  outputs : List Output := []
  deriving DecidableEq

/-- The sketch checks the return code of a spin. -/
def Example.checksSpin : Example → Bool
  | .subscriber => true
  | .subscriberTwist => true
  | _ => false

/-- How a call of the sketch that has been answered changes the account. -/
def World.note (x : Example) (m : World) : (c : Call) → Answer c → World
  | .init i, rc =>
    if rc = rclRetOk then { m with up := insert i.makes m.up } else { m with failed := true }
  | .rclcExecutorSpinSome _, calls => { m with calls := m.calls ++ calls }
  | .spinReturn, rc =>
    if x.checksSpin = true ∧ rc ≠ rclRetOk then { m with failed := true } else m
  | .rclPublish data, rc => { m with handed := m.handed ++ [⟨data, rc⟩] }
  | c, _ => { m with outputs := m.outputs ++ c.outputs x.led }

/-- A call is made on entities that are there, an entity is initialised once, and after a
failed check only the calls of `error_loop` are made. -/
def Orderly (x : Example) (m : World) (c : Call) : Prop :=
  c.uses ⊆ m.up ∧ (∀ i, c = .init i → i.makes ∉ m.up) ∧ (m.failed = true → c.Blinks x.led)

/-- The world allows the calls in order, and answers a call in any way. -/
def contract (x : Example) : Contract Call Answer World where
  Allows := Orderly x
  Answers m c r m' := m' = m.note x c r

/-! ## What each sketch is for -/

/-- The LED as a message has it. -/
def Callback.led : Callback → Option Output
  | .int32 data => some (.led (if data = 0 then 0 else 1))
  | _ => none

/-- The LED as a twist has it. -/
def Callback.twistLed : Callback → Option Output
  | .twist linearXZero => some (.led (if linearXZero then 0 else 1))
  | _ => none

/-- The response to a request. -/
def Callback.sum : Callback → Option Output
  | .addTwoInts a b => some (.respond (a + b))
  | _ => none

/-- A publisher at `data` has counted to `n`: the values from 0 on were handed to
`rcl_publish`, and nothing but the LED was touched. -/
structure Counts (n : ℕ) (data : Int32) (m : World) : Prop where
  data_eq : data = Int32.ofNat n
  publishes : PublishesInOrder m.handed (counting n)
  outputs : m.outputs = [.led 1]

/-- What the sketch has done after so many passes of `loop`, with `calls` the callbacks made
in them: the publishers have counted (one for each call of the timer callback with a
timer, or one for each pass where there is none), the subscribers have written the LED
for each message, and the service has left the sum of each request. -/
def Example.Serves (x : Example) (passes : ℕ) (data : Int32) (calls : List Callback)
    (m : World) : Prop :=
  match x with
  | .publisher => Counts (calls.count (.timer false)) data m
  | .publisherWifi _ => Counts passes data m
  | .publisherEthernet _ => Counts passes data m
  | .subscriber => m.handed = [] ∧ m.outputs = .led 1 :: calls.filterMap Callback.led
  | .subscriberTwist => m.handed = [] ∧ m.outputs = .led 1 :: calls.filterMap Callback.twistLed
  | .addTwoInts => m.handed = [] ∧ m.outputs = calls.filterMap Callback.sum

/-- The entities of the sketch. -/
def Example.entities : Example → Finset Entity
  | .publisher => {.support, .node, .publisher, .timer, .executor, .handle}
  | .publisherWifi _ => {.support, .node, .publisher}
  | .publisherEthernet _ => {.support, .node, .publisher}
  | .subscriber => {.support, .node, .subscription, .executor, .handle}
  | .subscriberTwist => {.support, .node, .subscription, .executor, .handle}
  | .addTwoInts => {.support, .node, .service, .executor, .handle}

/-- Between two turns, so many of them begun: a check has failed and the sketch is in
`error_loop`, or none has, every entity is there and the sketch has done what it is for. -/
def Inv (x : Example) : ℕ → Option Int32 → World → Prop
  | _, none, m => m.failed = true
  | n, some data, m => m.failed = false ∧ m.up = x.entities ∧ x.Serves n data m.calls m

/-! ## Setting up -/

variable {x : Example} {m : World} {n : ℕ}

/-- A call on no entity, which leaves its output. -/
def Call.plain : Call → Bool
  | .init _ => false
  | .rclcExecutorSpinSome _ => false
  | .spinReturn => false
  | .rclPublish _ => false
  | .publishTransforms _ _ => false
  | .publishString _ => false
  | .sendResponse _ => false
  | _ => true

theorem Call.orderly_of_plain {c : Call} (hc : c.plain = true)
    (hm : m.failed = true → c.Blinks x.led) : Orderly x m c := by
  have huses : c.uses = ∅ := by
    cases c with
    | init => cases hc
    | rclcExecutorSpinSome => cases hc
    | spinReturn => cases hc
    | rclPublish => cases hc
    | publishTransforms => cases hc
    | publishString => cases hc
    | sendResponse => cases hc
    | _ => rfl
  refine ⟨by simp [huses], ?_, hm⟩
  rintro i rfl
  cases hc

theorem Call.note_of_plain {c : Call} (hc : c.plain = true) (r : Answer c) :
    m.note x c r = { m with outputs := m.outputs ++ c.outputs x.led } := by
  cases c with
  | init => cases hc
  | rclcExecutorSpinSome => cases hc
  | spinReturn => cases hc
  | rclPublish => cases hc
  | _ => rfl

theorem wp_runAll {cs : List Call} (hcs : cs.all Call.plain = true) (hm : m.failed = false)
    {Q : Unit → World → Prop}
    (hQ : Q () { m with outputs := m.outputs ++ cs.flatMap (Call.outputs x.led) }) :
    (runAll cs).wp (contract x) Q m := by
  induction cs generalizing m with
  | nil => simpa [runAll] using hQ
  | cons c cs ih =>
    obtain ⟨hc, hcs⟩ := Bool.and_eq_true_iff.1 hcs
    rw [runAll, wp_bind]
    refine wp_perform.2 ⟨Call.orderly_of_plain hc (by simp [hm]), ?_⟩
    rintro r _ rfl
    rw [Call.note_of_plain hc]
    apply ih (m := { m with outputs := m.outputs ++ c.outputs x.led }) hcs hm
    simpa [List.append_assoc] using hQ

/-- Each entity is initialised once, with what it needs. -/
def InOrder : Finset Entity → List InitCall → Prop
  | _, [] => True
  | up, i :: is => i.uses ⊆ up ∧ i.makes ∉ up ∧ InOrder (insert i.makes up) is

instance instDecidableInOrder : (up : Finset Entity) → (is : List InitCall) →
    Decidable (InOrder up is)
  | _, [] => .isTrue trivial
  | up, i :: is =>
    have := instDecidableInOrder (insert i.makes up) is
    inferInstanceAs (Decidable (_ ∧ _ ∧ _))

/-- The entities that are there after some initialisations. -/
def ready (up : Finset Entity) : List InitCall → Finset Entity
  | [] => up
  | i :: is => ready (insert i.makes up) is

/-- A chain of checked initialisations ends in a failure, or goes on with everything
there. -/
theorem wp_checkAll {is : List InitCall} {rest : SketchM (Option Int32)}
    {Q : Option Int32 → World → Prop} (hin : InOrder m.up is) (hm : m.failed = false)
    (hfail : ∀ m' : World, m'.failed = true → Q none m')
    (hrest : rest.wp (contract x) Q { m with up := ready m.up is }) :
    (checkAll is rest).wp (contract x) Q m := by
  induction is generalizing m with
  | nil => exact hrest
  | cons i is ih =>
    obtain ⟨huses, hmakes, hin⟩ := hin
    rw [checkAll, rccheck, wp_bind]
    refine wp_perform.2 ⟨⟨huses, ?_, by simp [hm]⟩, ?_⟩
    · rintro j hj
      obtain rfl := Call.init.inj hj
      exact hmakes
    rintro rc _ rfl
    by_cases hrc : rc = rclRetOk
    · rw [if_neg (not_not.2 hrc), World.note, if_pos hrc]
      exact ih hin hm hrest
    · rw [if_pos hrc, World.note, if_neg hrc]
      exact hfail _ rfl

/-- **Setting up** fails, or leaves every entity there. -/
theorem wp_setupWith {cs : List Call} {is : List InitCall} (hcs : cs.all Call.plain = true)
    (hin : InOrder ∅ is) (hready : ready ∅ is = x.entities)
    (hserves : ∀ m : World, m.handed = [] → m.outputs = cs.flatMap (Call.outputs x.led) →
      x.Serves 0 0 [] m) : (setupWith cs is).wp (contract x) (Inv x 0) {} := by
  rw [setupWith, wp_bind]
  apply wp_runAll hcs rfl
  apply wp_checkAll hin rfl
  · intro m' hm'
    exact hm'
  · exact ⟨rfl, hready, hserves _ rfl rfl⟩

/-! ## Turns -/

/-- A callback does what the sketch is for, and nothing else. -/
def ServesCallback (x : Example) (n : ℕ) (callback : Int32 → Callback → SketchM Int32) : Prop :=
  ∀ (data : Int32) (call : Callback) (made : List Callback) (m : World), m.failed = false →
    m.up = x.entities → x.Serves n data made m →
    (callback data call).wp (contract x) (fun data' m' =>
      (∃ handed outputs, m' = { m with handed := handed, outputs := outputs }) ∧
        x.Serves n data' (made ++ [call]) m') m

/-- The callbacks of a spin, one after the other. -/
theorem wp_callbacks {callback : Int32 → Callback → SketchM Int32}
    (hcallback : ServesCallback x n callback) (calls made : List Callback) {data : Int32}
    (hm : m.failed = false) (hup : m.up = x.entities) (hserves : x.Serves n data made m) :
    (calls.foldlM callback data).wp (contract x) (fun data' m' =>
      (∃ handed outputs, m' = { m with handed := handed, outputs := outputs }) ∧
        x.Serves n data' (made ++ calls) m') m := by
  induction calls generalizing data made m with
  | nil =>
    rw [List.foldlM_nil, List.append_nil]
    exact ⟨⟨_, _, rfl⟩, hserves⟩
  | cons call calls ih =>
    rw [List.foldlM_cons, wp_bind]
    refine wp_mono (hcallback data call made m hm hup hserves) ?_
    rintro data' _ ⟨⟨handed, outputs, rfl⟩, hserves'⟩
    refine wp_mono (ih (made ++ [call]) hm hup hserves') ?_
    rintro data'' _ ⟨⟨handed', outputs', rfl⟩, hserves''⟩
    refine ⟨⟨_, _, rfl⟩, ?_⟩
    rwa [List.append_assoc] at hserves''

/-- What a sketch has done is in what it has put out. -/
theorem Example.Serves.congr {data : Int32} {calls : List Callback} {m' : World}
    (h : x.Serves n data calls m) (hhanded : m'.handed = m.handed)
    (houtputs : m'.outputs = m.outputs) : x.Serves n data calls m' := by
  cases x with
  | publisher => exact ⟨h.data_eq, hhanded ▸ h.publishes, houtputs ▸ h.outputs⟩
  | publisherWifi led => exact ⟨h.data_eq, hhanded ▸ h.publishes, houtputs ▸ h.outputs⟩
  | publisherEthernet mac => exact ⟨h.data_eq, hhanded ▸ h.publishes, houtputs ▸ h.outputs⟩
  | subscriber => exact ⟨hhanded.trans h.1, houtputs.trans h.2⟩
  | subscriberTwist => exact ⟨hhanded.trans h.1, houtputs.trans h.2⟩
  | addTwoInts => exact ⟨hhanded.trans h.1, houtputs.trans h.2⟩

/-- A spin, up to its return code. -/
theorem wp_spinSome {callback : Int32 → Callback → SketchM Int32}
    (hcallback : ServesCallback x n callback) {data : Int32} (h : Inv x n (some data) m)
    (hspins : {.executor, .handle} ⊆ x.entities) :
    (spinSome callback data).wp (contract x) (fun r m' =>
      if x.checksSpin = true ∧ r.1 ≠ rclRetOk then m'.failed = true
      else Inv x n (some r.2) m') m := by
  obtain ⟨hm, hup, hserves⟩ := h
  rw [spinSome, wp_bind]
  refine wp_perform.2 ⟨⟨by rw [hup]; exact hspins, by simp, by simp [hm]⟩, ?_⟩
  rintro calls _ rfl
  rw [wp_bind]
  have hrun := wp_callbacks (m := m.note x (.rclcExecutorSpinSome (rclMsToNs 100)) calls)
    hcallback calls m.calls hm hup (hserves.congr rfl rfl)
  refine wp_mono hrun ?_
  rintro data' _ ⟨⟨handed, outputs, rfl⟩, hserves'⟩
  rw [wp_bind]
  refine wp_perform.2 ⟨⟨by show _ ⊆ m.up; rw [hup]; exact hspins, by simp, ?_⟩, ?_⟩
  · intro hfailed
    exact absurd (hm.symm.trans hfailed) (by simp)
  rintro rc _ rfl
  by_cases hfails : x.checksSpin = true ∧ rc ≠ rclRetOk
  · simp only [wp_pure, World.note, if_pos hfails]
  · simp only [wp_pure, World.note, if_neg hfails]
    exact ⟨hm, hup, hserves'⟩

/-- A value is handed over, and the next one is next. -/
theorem wp_publishNext {k : ℕ} {data : Int32} (hm : m.failed = false) (hup : .publisher ∈ m.up)
    (h : Counts k data m) :
    (publishNext data).wp (contract x) (fun data' m' =>
      (∃ handed, m' = { m with handed := handed }) ∧ Counts (k + 1) data' m') m := by
  obtain ⟨rfl, hpublishes, hout⟩ := h
  rw [publishNext, rcsoftcheck, wp_bind, wp_bind]
  refine wp_perform.2
    ⟨⟨Finset.singleton_subset_iff.2 hup, fun _ h => (by cases h), by simp [hm]⟩, ?_⟩
  rintro rc _ rfl
  rw [ite_self, wp_pure, wp_pure]
  exact ⟨⟨_, rfl⟩, (Int32.ofNat_add k 1).symm, hpublishes.count rc, hout⟩

theorem serves_timerCallback : ServesCallback .publisher n Publisher.timerCallback := by
  intro data call made m hm hup h
  have hcounts : Counts (made.count (.timer false)) data m := h
  by_cases hcall : call = .timer false
  · subst hcall
    have hcount : (made ++ [Callback.timer false]).count (Callback.timer false)
        = made.count (.timer false) + 1 := by
      rw [List.count_append, List.count_singleton_self]
    refine wp_mono (wp_publishNext hm (by rw [hup]; decide) hcounts) ?_
    rintro data' _ ⟨⟨handed, rfl⟩, hcounts'⟩
    refine ⟨⟨_, _, rfl⟩, ?_⟩
    rwa [Example.Serves, hcount]
  · have hcount : (made ++ [call]).count (.timer false) = made.count (.timer false) := by
      rw [List.count_append, List.count_singleton, if_neg (by simpa using hcall), Nat.add_zero]
    have hskips : Publisher.timerCallback data call = return data := by
      cases call with
      | timer null =>
        cases null with
        | true => rfl
        | false => exact absurd rfl hcall
      | _ => rfl
    rw [hskips, wp_pure]
    refine ⟨⟨_, _, rfl⟩, ?_⟩
    rwa [Example.Serves, hcount]

/-- A callback that puts something out for one kind of call and does nothing for others. -/
theorem servesCallback_of_output {callback : Int32 → Callback → SketchM Int32}
    (shows : Callback → Option Output) (start : List Output)
    (hx : ∀ data made m, x.Serves n data made m ↔
      m.handed = [] ∧ m.outputs = start ++ made.filterMap shows)
    (hsome : ∀ data call o, shows call = some o → ∃ c : Call, c.outputs x.led = [o] ∧
      c.uses ⊆ x.entities ∧ (∀ (m : World) (r : Answer c), m.note x c r
        = { m with outputs := m.outputs ++ c.outputs x.led }) ∧ (∀ i, c ≠ .init i) ∧
      callback data call = (do let _ ← ask c; return data))
    (hnone : ∀ data call, shows call = none → callback data call = return data) :
    ServesCallback x n callback := by
  intro data call made m hm hup hserves
  obtain ⟨hhanded, hout⟩ := (hx _ _ _).1 hserves
  cases hcall : shows call with
  | none =>
    rw [hnone data call hcall, wp_pure, hx, List.filterMap_append, hout]
    exact ⟨⟨_, _, rfl⟩, hhanded, by simp [hcall]⟩
  | some o =>
    obtain ⟨c, ho, huses, hnote, hinit, hprog⟩ := hsome data call o hcall
    rw [hprog, wp_bind]
    refine wp_perform.2 ⟨⟨by rwa [hup], fun i hi => absurd hi (hinit i), by simp [hm]⟩, ?_⟩
    rintro r _ rfl
    rw [wp_pure, hnote, hx, List.filterMap_append, hout, ho]
    exact ⟨⟨_, _, rfl⟩, hhanded, by simp [hcall]⟩

theorem serves_subscriptionCallback :
    ServesCallback .subscriber n Subscriber.subscriptionCallback := by
  refine servesCallback_of_output Callback.led [.led 1] ?_ ?_ ?_
  · exact fun _ _ _ => Iff.rfl
  · intro data call o ho
    cases call with
    | int32 msg =>
      obtain rfl := Option.some.inj ho
      exact ⟨.digitalWrite ledPin (if msg = 0 then 0 else 1), rfl, Finset.empty_subset _,
        fun _ _ => rfl, fun _ h => (by cases h), rfl⟩
    | _ => cases ho
  · intro data call hcall
    cases call with
    | int32 => cases hcall
    | _ => rfl

theorem serves_twistCallback :
    ServesCallback .subscriberTwist n SubscriberTwist.subscriptionCallback := by
  refine servesCallback_of_output Callback.twistLed [.led 1] ?_ ?_ ?_
  · exact fun _ _ _ => Iff.rfl
  · intro data call o ho
    cases call with
    | twist linearXZero =>
      obtain rfl := Option.some.inj ho
      exact ⟨.digitalWrite ledPin (if linearXZero then 0 else 1), rfl, Finset.empty_subset _,
        fun _ _ => rfl, fun _ h => (by cases h), rfl⟩
    | _ => cases ho
  · intro data call hcall
    cases call with
    | twist => cases hcall
    | _ => rfl

theorem serves_serviceCallback : ServesCallback .addTwoInts n AddTwoInts.serviceCallback := by
  refine servesCallback_of_output Callback.sum [] ?_ ?_ ?_
  · exact fun _ _ _ => Iff.rfl
  · intro data call o ho
    cases call with
    | addTwoInts a b =>
      obtain rfl := Option.some.inj ho
      exact ⟨.sendResponse (a + b), rfl,
        (by decide : {.service, .executor} ⊆ Example.addTwoInts.entities),
        fun _ _ => rfl, fun _ h => (by cases h), rfl⟩
    | _ => cases ho
  · intro data call hcall
    cases call with
    | addTwoInts => cases hcall
    | _ => rfl

/-- A delay leaves everything as it is. -/
theorem wp_delay {α : Type} {ms : UInt32} {rest : SketchM α} {Q : α → World → Prop}
    (hm : m.failed = false) (hrest : rest.wp (contract x) Q m) :
    Prog.wp (contract x) (do let _ ← ask (.delay ms); rest) Q m := by
  rw [wp_bind]
  refine wp_perform.2 ⟨Call.orderly_of_plain rfl (by simp [hm]), ?_⟩
  rintro _ _ rfl
  have hkept : m.note x (.delay ms) () = m := by
    show { m with outputs := m.outputs ++ [] } = m
    rw [List.append_nil]
  rwa [hkept]

/-- A pass of a loop that does not check its spin. -/
theorem wp_softSpinLoop {callback : Int32 → Callback → SketchM Int32} {data : Int32}
    (hcallback : ServesCallback x n callback) (hspins : {.executor, .handle} ⊆ x.entities)
    (hx : x.checksSpin = false) (h : Inv x n (some data) m) :
    (softSpinLoop callback data).wp (contract x) (Inv x n) m := by
  refine wp_delay h.1 ?_
  rw [wp_bind]
  refine wp_mono (wp_spinSome hcallback h hspins) ?_
  rintro r m' h'
  rw [if_neg (by simp [hx])] at h'
  rw [rcsoftcheck, wp_bind, wp_bind, wp_pure, ite_self, wp_pure]
  exact h'

/-- A pass of a loop that checks its spin. -/
theorem wp_spinLoop {callback : Int32 → Callback → SketchM Int32} {data : Int32}
    (hcallback : ServesCallback x n callback) (hspins : {.executor, .handle} ⊆ x.entities)
    (hx : x.checksSpin = true) (h : Inv x n (some data) m) :
    (spinLoop callback data).wp (contract x) (Inv x n) m := by
  refine wp_delay h.1 ?_
  rw [wp_bind]
  refine wp_mono (wp_spinSome hcallback h hspins) ?_
  rintro r m' h'
  rw [rccheck, wp_bind, wp_pure]
  by_cases hrc : r.1 = rclRetOk
  · rw [if_neg (by simp [hrc])] at h'
    rw [if_neg (not_not.2 hrc)]
    exact h'
  · rw [if_pos ⟨hx, hrc⟩] at h'
    rw [if_pos hrc]
    exact h'

/-- A pass of `error_loop` only blinks. -/
theorem wp_errorLoop (x : Example) (h : m.failed = true) :
    x.errorLoop.wp (contract x) (fun _ m' => m'.failed = true) m := by
  have hblinks : (errorLoop x.led).wp (contract x) (fun _ m' => m'.failed = true) m := by
    refine wp_errorLoop_keeps (I := fun m : World => m.failed = true) ?_ h
    intro c hc m hm
    have hplain : c.plain = true := by cases hc <;> rfl
    refine ⟨Call.orderly_of_plain hplain fun _ => hc, ?_⟩
    rintro r _ rfl
    rw [Call.note_of_plain hplain]
    exact hm
  cases x with
  | addTwoInts => exact h
  | _ => exact hblinks

/-- What `setup` puts out once the transport is set. -/
theorem outputs_ledOn (led : UInt8) : (ledOn led).flatMap (Call.outputs led) = [.led 1] := by
  show (if led = led then [Output.led 1] else []) ++ [] = _
  rw [if_pos rfl, List.append_nil]

/-- A publisher starts at 0. -/
theorem counts_zero {led : UInt8} {c : Call} {m : World} (hc : c.outputs led = [])
    (hhanded : m.handed = []) (hout : m.outputs = (c :: ledOn led).flatMap (Call.outputs led)) :
    Counts 0 0 m := by
  refine ⟨rfl, hhanded ▸ .nil, ?_⟩
  rw [hout, List.flatMap_cons, hc, outputs_ledOn, List.nil_append]

theorem wp_boot (x : Example) : x.boot.wp (contract x) (Inv x 0) {} := by
  cases x with
  | publisher => exact wp_setupWith rfl (by decide) (by decide) fun _ => counts_zero rfl
  | publisherWifi led =>
    exact wp_setupWith rfl (by decide) (by rw [Example.entities]; decide) fun _ => counts_zero rfl
  | publisherEthernet mac =>
    exact wp_setupWith rfl (by decide) (by rw [Example.entities]; decide) fun _ => counts_zero rfl
  | subscriber => exact wp_setupWith rfl (by decide) (by decide) fun _ => And.intro
  | subscriberTwist => exact wp_setupWith rfl (by decide) (by decide) fun _ => And.intro
  | addTwoInts => exact wp_setupWith rfl (by decide) (by decide) fun _ => And.intro

/-- A loop that spins has done what it is for whatever the number of its passes. -/
theorem wp_turn_spin {p : SketchM (Option Int32)}
    (hserves : ∀ data calls m, x.Serves n data calls m → x.Serves (n + 1) data calls m)
    (h : p.wp (contract x) (Inv x n) m) : p.wp (contract x) (Inv x (n + 1)) m := by
  refine wp_mono h ?_
  rintro (_ | data) m' h'
  · exact h'
  · exact ⟨h'.1, h'.2.1, hserves _ _ _ h'.2.2⟩

/-- **One turn** is one more. -/
theorem wp_turn (x : Example) (n : ℕ) (g : Option Int32) (m : World) (h : Inv x n g m) :
    (x.turn g).wp (contract x) (Inv x (n + 1)) m := by
  cases g with
  | none =>
    rw [Example.turn, wp_bind]
    exact wp_mono (wp_errorLoop x h) fun _ _ h' => h'
  | some data =>
    cases x with
    | publisher =>
      exact wp_turn_spin (fun _ _ _ => id)
        (wp_softSpinLoop serves_timerCallback (by decide) rfl h)
    | publisherWifi led =>
      obtain ⟨hm, hup, hcounts⟩ := h
      show (PublisherWifi.loop _).wp _ _ m
      rw [PublisherWifi.loop, wp_bind]
      refine wp_mono (wp_publishNext hm (by rw [hup, Example.entities]; decide) hcounts) ?_
      rintro data' _ ⟨⟨handed, rfl⟩, hcounts'⟩
      exact ⟨hm, hup, hcounts'⟩
    | publisherEthernet mac =>
      obtain ⟨hm, hup, hcounts⟩ := h
      show (PublisherEthernet.loop _).wp _ _ m
      rw [PublisherEthernet.loop, wp_bind]
      refine wp_mono (wp_publishNext hm (by rw [hup, Example.entities]; decide) hcounts) ?_
      rintro data' _ ⟨⟨handed, rfl⟩, hcounts'⟩
      exact wp_delay hm ⟨hm, hup, hcounts'⟩
    | subscriber =>
      exact wp_turn_spin (fun _ _ _ => id)
        (wp_spinLoop serves_subscriptionCallback (by decide) rfl h)
    | subscriberTwist =>
      exact wp_turn_spin (fun _ _ _ => id)
        (wp_spinLoop serves_twistCallback (by decide) rfl h)
    | addTwoInts =>
      exact wp_turn_spin (fun _ _ _ => id)
        (wp_softSpinLoop serves_serviceCallback (by decide) rfl h)

/-! ## Runs -/

/-- From boot the sketch can get to where it has `p` left to do, in the world `m`. -/
abbrev Reaches (x : Example) (p : SketchM (Option Int32)) (m : World) : Prop :=
  Steps (contract x) x.turn (x.boot, {}) (p, m)

/-- It can get there with `n` turns begun. -/
abbrev ReachesIn (x : Example) (n : ℕ) (p : SketchM (Option Int32)) (m : World) : Prop :=
  StepsIn (contract x) x.turn n (x.boot, {}) (p, m)

/-- A world that answers so. -/
def benchAnswer (x : Example) (call : Callback) (c : Call) : StateM World (Answer c) :=
  fun m => (benchReply call c, m.note x c (benchReply call c))

/-- The run of the bench after `n` steps. -/
def benchRun (x : Example) (call : Callback) (n : ℕ) : SketchM (Option Int32) × World :=
  runSteps (benchAnswer x call) x.turn n (x.boot, {})

theorem reachesIn_benchRun (x : Example) (call : Callback) (n : ℕ) :
    ReachesIn x (turnsBegun (benchAnswer x call) x.turn n (x.boot, {})) (benchRun x call n).1
      (benchRun x call n).2 :=
  (stepsIn_run (P := fun _ => True) (fun _ _ _ => ⟨rfl, trivial⟩) trivial n).1

/-- **In order, and never again after a failure.**  Whenever one of the sketches is about to
make a call, the entities it is made on are there, an entity it initialises is not, and
when a check has failed it is a call of `error_loop`. -/
theorem example_orderly {p : SketchM (Option Int32)} {c : Call} (h : Reaches x p m)
    (hc : p.pending = some c) : Orderly x m c := by
  obtain ⟨n, hn⟩ := exists_stepsIn h
  exact allows_of_wp (wp_of_stepsIn (wp_boot x) (wp_turn x) hn) hc

/-- The first value is about to be handed over. -/
theorem example_orderly_publish :
    Orderly .publisher (benchRun .publisher (.timer false) 13).2 (.rclPublish 0) :=
  example_orderly (reachesIn_benchRun .publisher (.timer false) 13).steps rfl

/-- **What it is for, or an error.**  Between two turns of any run a sketch is in
`error_loop` exactly when a check has failed; and until then all the turns begun were
passes of `loop`, every entity is there and the sketch has done what it is for. -/
theorem example_serves {g : Option Int32} (h : ReachesIn x n (.done g) m) :
    (g = none ↔ m.failed = true) ∧
      ∀ data, g = some data → m.up = x.entities ∧ x.Serves n data m.calls m := by
  have hinv : Inv x n g m := wp_of_stepsIn (wp_boot x) (wp_turn x) h
  cases g with
  | none =>
    refine ⟨⟨fun _ => hinv, fun _ => rfl⟩, ?_⟩
    rintro data ⟨⟩
  | some data =>
    refine ⟨⟨nofun, fun hm => absurd (hinv.1.symm.trans hm) (by simp)⟩, ?_⟩
    rintro _ ⟨rfl⟩
    exact hinv.2

/-- The publisher over Wi-Fi after two passes. -/
theorem example_serves_twoPasses :
    (benchRun (.publisherWifi 2) (.timer true) 11).2.handed = [⟨0, 0⟩, ⟨1, 0⟩] ∧
      (some (2 : Int32) = none ↔
        (benchRun (.publisherWifi 2) (.timer true) 11).2.failed = true) ∧
      ∀ data, some 2 = some data →
        (benchRun (.publisherWifi 2) (.timer true) 11).2.up
            = (Example.publisherWifi 2).entities ∧
          (Example.publisherWifi 2).Serves 2 data
            (benchRun (.publisherWifi 2) (.timer true) 11).2.calls
            (benchRun (.publisherWifi 2) (.timer true) 11).2 := by
  have hreach : ReachesIn (.publisherWifi 2) 2 (.done (some 2))
      (benchRun (.publisherWifi 2) (.timer true) 11).2 :=
    reachesIn_benchRun (.publisherWifi 2) (.timer true) 11
  exact ⟨rfl, example_serves hreach⟩

end MicroRosArduino.Sketches
