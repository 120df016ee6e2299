import MicroRosArduino.Reconnection.World

/-!
# Creating and destroying the entities

What `create_entities` and `destroy_entities` do, whatever their calls answer.

* `Stage` — how far entities have come or gone since some earlier world.
* `Inits`, `Finis`, `wp_init`, `wp_fini` — a call that initialises or finalises an entity.
* `wp_createEntities`, `wp_destroyEntities` — **everything, or a failure; and nothing**.
-/

namespace MicroRosArduino.Reconnection

open CallOut Prog

variable {A : Assumption} {m₀ m : World}

/-! ## Creating and destroying -/

/-- From `m₀` to `m` only time has passed and entities have come and gone: those in `l` are
there now. -/
structure Stage (m₀ m : World) (l : Finset Entity) (added : Bool) : Prop where
  advances : m₀.clock.Advances m.clock
  handed : m.handed = m₀.handed
  led : m.led = m₀.led
  pinged : m.pinged = m₀.pinged
  live : m.live = l
  added : m.added = added

theorem Stage.refl (m : World) : Stage m m m.live m.added :=
  ⟨.refl _, rfl, rfl, rfl, rfl, rfl⟩

theorem Stage.down (h : Stage m₀ m ∅ false) : m.Down := ⟨h.live, h.added⟩

theorem Stage.up (h : Stage m₀ m Finset.univ true) : m.Up := ⟨h.live, h.added⟩

theorem Stage.trans {m₁ : World} {l l' : Finset Entity} {a a' : Bool} (h : Stage m₀ m₁ l a)
    (h' : Stage m₁ m l' a') : Stage m₀ m l' a' where
  advances := h.advances.trans h'.advances
  handed := h'.handed.trans h.handed
  led := h'.led.trans h.led
  pinged := h'.pinged.trans h.pinged
  live := h'.live
  added := h'.added

/-- What is taken for granted leaves room for a failure. -/
def CanFail (A : Assumption) : Prop := ∃ b c r, A b c r ∧ Fails c r

/-- A call that initialises the entity `e`, reporting it in its answer. -/
structure Inits (c : Call) (e : Entity) (rc : Answer c → Int32) : Prop where
  inits : c.inits = some e
  note : ∀ (m : World) r, m.added = false → m.note c r = m.initialised e (rc r)
  fails : ∀ r, rc r ≠ rclRetOk → Fails c r

/-- A call that finalises the entity `e`. -/
structure Finis (c : Call) (e : Entity) : Prop where
  finis : c.finis = some e
  note : ∀ (m : World) r,
    m.note c r = { m.finalised e with added := m.added && decide (e ≠ .executor) }

theorem allowed_of_inits {c : Call} {e : Entity} (hc : c.inits = some e) (he : e ∉ m.live)
    (hneeds : e.needs ⊆ m.live) : Orderly m c ∧ Paced m c ∧ Counted m c := by
  cases c <;> simp_all [Orderly, Paced, Counted, Call.inits, Call.finis]

theorem allowed_of_finis {c : Call} {e : Entity} (hc : c.finis = some e)
    (hfree : ∀ f ∈ m.live, e ∉ f.needs) : Orderly m c ∧ Paced m c ∧ Counted m c := by
  cases c <;> simp_all [Orderly, Paced, Counted, Call.inits, Call.finis]

theorem wp_init {c : Call} {e : Entity} {rc : Answer c → Int32} {l : Finset Entity}
    {Q : Answer c → World → Prop} (hc : Inits c e rc) (hm : Stage m₀ m l false) (he : e ∉ l)
    (hneeds : e.needs ⊆ l)
    (hQ : ∀ r m', (rc r ≠ rclRetOk → CanFail A) →
      Stage m₀ m' (if rc r = rclRetOk then insert e l else l) false → Q r m') :
    (ask c).wp (contract A) Q m := by
  refine wp_perform.2 ⟨allowed_of_inits hc.inits (by rwa [hm.live]) (by rwa [hm.live]), ?_⟩
  rintro r _ ⟨b, hb, hA, rfl⟩
  apply hQ _ _ fun hrc => ⟨b, c, r, hA, hc.fails r hrc⟩
  have hadv := hm.advances.trans (hb.advances)
  rw [hc.note { m with clock := b } r hm.added, World.initialised]
  split
  · exact ⟨hadv, hm.handed, hm.led, hm.pinged, by rw [← hm.live], hm.added⟩
  · exact ⟨hadv, hm.handed, hm.led, hm.pinged, hm.live, hm.added⟩

theorem wp_fini {c : Call} {e : Entity} {l : Finset Entity} {a : Bool}
    {Q : Answer c → World → Prop} (hc : Finis c e) (hm : Stage m₀ m l a)
    (hfree : ∀ f ∈ l, e ∉ f.needs)
    (hQ : ∀ r m', Stage m₀ m' (l.erase e) (a && decide (e ≠ .executor)) → Q r m') :
    (ask c).wp (contract A) Q m := by
  refine wp_perform.2 ⟨allowed_of_finis hc.finis (by rwa [hm.live]), ?_⟩
  rintro r _ ⟨b, hb, -, rfl⟩
  apply hQ
  have hadv := hm.advances.trans (hb.advances)
  rw [hc.note { m with clock := b } r]
  exact ⟨hadv, hm.handed, hm.led, hm.pinged, by rw [← hm.live]; rfl,
    by rw [← hm.added]⟩

theorem inits_support : Inits .rclcSupportInit .support id :=
  ⟨rfl, fun _ _ _ => rfl, fun _ => id⟩

theorem inits_node (name namespaceName : String) :
    Inits (.rclcNodeInitDefault name namespaceName) .node id :=
  ⟨rfl, fun _ _ _ => rfl, fun _ => id⟩

theorem inits_publisher (type topic : String) :
    Inits (.rclcPublisherInitBestEffort type topic) .publisher id :=
  ⟨rfl, fun _ _ _ => rfl, fun _ => id⟩

theorem inits_timer (timeoutNs : UInt64) : Inits (.rclcTimerInitDefault timeoutNs) .timer id :=
  ⟨rfl, fun _ _ _ => rfl, fun _ => id⟩

theorem inits_executor (handles : ℕ) : Inits (.rclcExecutorInit handles) .executor id := by
  refine ⟨rfl, ?_, fun _ => id⟩
  intro m r hm
  simp only [World.note, World.initialised, id]
  split <;> rw [← hm]

theorem finis_publisher : Finis .rclPublisherFini .publisher :=
  ⟨rfl, fun m _ => by simp [World.note, World.finalised]⟩

theorem finis_timer : Finis .rclTimerFini .timer :=
  ⟨rfl, fun m _ => by simp [World.note, World.finalised]⟩

theorem finis_executor : Finis .rclcExecutorFini .executor :=
  ⟨rfl, fun m _ => by simp [World.note, World.finalised]⟩

theorem finis_node : Finis .rclNodeFini .node :=
  ⟨rfl, fun m _ => by simp [World.note, World.finalised]⟩

theorem finis_support : Finis .rclcSupportFini .support :=
  ⟨rfl, fun m _ => by simp [World.note, World.finalised]⟩

/-- `RCCHECK` of a call that initialises `e`: on with `e` there, or failed without it. -/
theorem wp_rccheck {fn : SketchM Int32} {rest : SketchM Bool} {e : Entity} {l : Finset Entity}
    {Q : Bool → World → Prop}
    (hfn : ∀ Q' : Int32 → World → Prop,
      (∀ rc m', (rc ≠ rclRetOk → CanFail A) →
        Stage m₀ m' (if rc = rclRetOk then insert e l else l) false → Q' rc m') →
      fn.wp (contract A) Q' m)
    (hok : ∀ m', Stage m₀ m' (insert e l) false → rest.wp (contract A) Q m')
    (hfail : ∀ m', CanFail A → Stage m₀ m' l false → Q false m') :
    (rccheck fn rest).wp (contract A) Q m := by
  rw [rccheck, wp_bind]
  apply hfn
  intro rc m' hfails h
  by_cases hrc : rc = rclRetOk
  · rw [if_pos hrc] at h
    rw [if_neg (not_not.2 hrc)]
    exact hok m' h
  · rw [if_neg hrc] at h
    rw [if_pos hrc]
    exact hfail m' (hfails hrc) h

/-- `RCCHECK` of the last call, which adds the timer to the executor. -/
theorem wp_rccheck_addTimer {rest : SketchM Bool} {Q : Bool → World → Prop}
    (hm : Stage m₀ m Finset.univ false)
    (hok : ∀ m', Stage m₀ m' Finset.univ true → rest.wp (contract A) Q m')
    (hfail : ∀ m', CanFail A → Stage m₀ m' Finset.univ false → Q false m') :
    (rccheck (ask .rclcExecutorAddTimer) rest).wp (contract A) Q m := by
  rw [rccheck, wp_bind]
  refine wp_perform.2 ⟨?_, ?_⟩
  · simp [Orderly, Paced, Counted, Call.inits, Call.finis, hm.live, hm.added]
  rintro rc _ ⟨b, hb, hA, rfl⟩
  have hadv := hm.advances.trans (hb.advances)
  by_cases hrc : rc = rclRetOk
  · rw [if_neg (not_not.2 hrc)]
    apply hok
    exact ⟨hadv, hm.handed, hm.led, hm.pinged, hm.live, by simp [World.note, hrc]⟩
  · rw [if_pos hrc]
    apply hfail _ ⟨b, _, rc, hA, hrc⟩
    exact ⟨hadv, hm.handed, hm.led, hm.pinged, hm.live,
      by simp [World.note, hrc, hm.added]⟩

/-- `create_entities` makes everything, or fails with some of it there. -/
theorem wp_createEntities (hm : m.Down) :
    createEntities.wp (contract A)
      (fun ok m' => ∃ l a, Stage m m' l a ∧ if ok = true then m'.Up else CanFail A) m := by
  have h₀ : Stage m m ∅ false := by
    have h := Stage.refl m
    rwa [hm.1, hm.2] at h
  have hfail : ∀ {l : Finset Entity} {m' : World}, CanFail A → Stage m m' l false →
      ∃ l a, Stage m m' l a ∧ if false = true then m'.Up else CanFail A := by
    intro l m' hA h
    exact ⟨l, false, h, by simpa using hA⟩
  refine wp_rccheck (fun _ => wp_init inits_support h₀ (by decide) (by decide)) ?_ fun _ => hfail
  intro m₁ h₁
  refine wp_rccheck (fun _ => wp_init (inits_node _ _) h₁ (by decide) (by decide)) ?_ fun _ => hfail
  intro m₂ h₂
  refine wp_rccheck (fun _ => wp_init (inits_publisher _ _) h₂ (by decide) (by decide)) ?_
    fun _ => hfail
  intro m₃ h₃
  refine wp_rccheck (fun _ => wp_init (inits_timer _) h₃ (by decide) (by decide)) ?_ fun _ => hfail
  intro m₄ h₄
  refine wp_rccheck (fun _ => wp_init (inits_executor _) h₄ (by decide) (by decide)) ?_
    fun _ => hfail
  intro m₅ h₅
  have hall : (insert Entity.executor (insert Entity.timer (insert Entity.publisher
      (insert Entity.node (insert Entity.support ∅)))) : Finset Entity) = Finset.univ := by decide
  rw [hall] at h₅
  refine wp_rccheck_addTimer h₅ ?_ fun _ => hfail
  intro m₆ h₆
  exact ⟨_, _, h₆, h₆.up⟩

/-- `destroy_entities` leaves nothing there, whatever was. -/
theorem wp_destroyEntities (m : World) :
    destroyEntities.wp (contract A) (fun _ m' => Stage m m' ∅ false) m := by
  have hfree : ∀ l : Finset Entity, (∀ f ∈ l, Entity.publisher ∉ f.needs) ∧
      (∀ f ∈ l.erase .publisher, Entity.timer ∉ f.needs) ∧
      (∀ f ∈ (l.erase .publisher).erase .timer, Entity.executor ∉ f.needs) ∧
      (∀ f ∈ ((l.erase .publisher).erase .timer).erase .executor, Entity.node ∉ f.needs) ∧
      (∀ f ∈ (((l.erase .publisher).erase .timer).erase .executor).erase .node,
        Entity.support ∉ f.needs) ∧
      ((((l.erase .publisher).erase .timer).erase .executor).erase .node).erase .support = ∅ := by
    decide
  obtain ⟨hpublisher, htimer, hexecutor, hnode, hsupport, hempty⟩ := hfree m.live
  simp only [destroyEntities, wp_bind, wp_pure]
  refine wp_perform.2 ⟨by simp [Orderly, Paced, Counted, Call.inits, Call.finis], ?_⟩
  rintro _ _ ⟨b, hb, -, rfl⟩
  have h₀ : Stage m { m with clock := b } m.live m.added :=
    { Stage.refl m with advances := hb.advances }
  refine wp_fini finis_publisher h₀ hpublisher ?_
  intro _ m₁ h₁
  refine wp_fini finis_timer h₁ htimer ?_
  intro _ m₂ h₂
  refine wp_fini finis_executor h₂ hexecutor ?_
  intro _ m₃ h₃
  refine wp_fini finis_node h₃ hnode ?_
  intro _ m₄ h₄
  refine wp_fini finis_support h₄ hsupport ?_
  intro _ m₅ h₅
  rw [hempty] at h₅
  simpa using h₅

end MicroRosArduino.Reconnection
