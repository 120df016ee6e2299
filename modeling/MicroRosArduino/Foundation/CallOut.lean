import Mathlib

/-!
# Programs that call out

A program whose every effect is a call to code it does not contain, and what can be
said of it knowing only what such calls may answer.

* `Prog` — a program over the calls `C`, the call `c` answered by an `R c`.
* `Contract` — which calls a world `m` allows, and how it may answer and change.
* `wp` — **every call is allowed and the result is right**, whatever the answers;
  `wp_bind`, `wp_perform` and `wp_mono` compose it.
* `Step`, `wp_of_steps` — a program that takes turn after turn without end: an
  invariant of its turns holds between any two of them (`inv_of_steps`), and at every
  point the call to come is allowed (`allows_of_steps`), so that what allowed calls keep
  is kept (`keeps_of_steps`).
* `StepsIn`, `wp_of_stepsIn` — the same with the turns counted.
* `Returns`, `Turns` — whole programs and whole turns, for what one turn leads to.
* `run`, `Obeys` — a world that can be run, with `turns_run` and `steps_run`.
-/

namespace CallOut

variable {C : Type} {R : C → Type} {M α β σ : Type}

/-- A program that ends with an `α`. -/
inductive Prog (C : Type) (R : C → Type) (α : Type) : Type
  /-- It is over. -/
  | done (a : α)
  /-- It calls `c` and goes on with the answer. -/
  | call (c : C) (next : R c → Prog C R α)

namespace Prog

/-- One program and then another. -/
def bind : Prog C R α → (α → Prog C R β) → Prog C R β
  | done a, f => f a
  | call c next, f => call c fun r => (next r).bind f

instance : Monad (Prog C R) where
  pure := done
  bind := bind

/-- The program that makes one call. -/
def perform (c : C) : Prog C R (R c) := call c done

/-- The call a program is about to make. -/
def pending : Prog C R α → Option C
  | done _ => none
  | call c _ => some c

end Prog

/-- What a world does: the calls it allows, and the ways it may answer them. -/
structure Contract (C : Type) (R : C → Type) (M : Type) where
  /-- The call may be made in this world. -/
  Allows : M → C → Prop
  /-- The world may answer the call so, and become that. -/
  Answers : M → (c : C) → R c → M → Prop

namespace Prog

variable {K : Contract C R M} {Q Q' : α → M → Prop} {m m' : M}

/-! ## Every answer -/

/-- Run in the world `m`, the program makes only calls that are allowed, and ends in
`Q`, whatever the answers. -/
def wp (K : Contract C R M) : Prog C R α → (α → M → Prop) → M → Prop
  | done a, Q, m => Q a m
  | call c next, Q, m => K.Allows m c ∧ ∀ r m', K.Answers m c r m' → (next r).wp K Q m'

@[simp] theorem wp_pure (a : α) : (pure a : Prog C R α).wp K Q m ↔ Q a m := Iff.rfl

@[simp] theorem wp_perform {c : C} {Q : R c → M → Prop} :
    (perform c : Prog C R (R c)).wp K Q m ↔
      K.Allows m c ∧ ∀ r m', K.Answers m c r m' → Q r m' := Iff.rfl

@[simp] theorem wp_bind {p : Prog C R β} {f : β → Prog C R α} :
    (p >>= f).wp K Q m ↔ p.wp K (fun b m' => (f b).wp K Q m') m := by
  induction p generalizing m with
  | done b => exact Iff.rfl
  | call c next ih =>
    apply and_congr_right
    intro _
    apply forall₃_congr
    intro r m' _
    exact ih r

/-- A weaker result is reached as well. -/
theorem wp_mono {p : Prog C R α} (h : p.wp K Q m) (hQ : ∀ a m', Q a m' → Q' a m') :
    p.wp K Q' m := by
  induction p generalizing m with
  | done a => exact hQ a m h
  | call c next ih => exact ⟨h.1, fun r m' hr => ih r (h.2 r m' hr)⟩

/-- The call to come is allowed. -/
theorem allows_of_wp {p : Prog C R α} {c : C} (h : p.wp K Q m) (hc : p.pending = some c) :
    K.Allows m c := by
  cases p with
  | done a => simp [pending] at hc
  | call c' next =>
    obtain rfl := Option.some.inj hc
    exact h.1

/-! ## Whole programs -/

/-- Run in the world `m`, the program can end with `a` in the world `m'`. -/
inductive Returns (K : Contract C R M) : Prog C R α → M → α → M → Prop
  | done (a : α) (m : M) : Returns K (.done a) m a m
  | call {c : C} {next : R c → Prog C R α} {r : R c} {m m₁ m₂ : M} {a : α} :
      K.Answers m c r m₁ → Returns K (next r) m₁ a m₂ → Returns K (.call c next) m a m₂

/-- A program ends only in what it was shown to end in. -/
theorem Returns.post {p : Prog C R α} {a : α} (h : Returns K p m a m') (hp : p.wp K Q m) :
    Q a m' := by
  induction h with
  | done a m => exact hp
  | call hr _ ih => exact ih (hp.2 _ _ hr)

end Prog

/-! ## Turn after turn -/

open Prog

/-- A machine that takes a turn, and then the next: what is left of the turn it is in,
and the world. -/
inductive Step (K : Contract C R M) (turn : σ → Prog C R σ) :
    Prog C R σ × M → Prog C R σ × M → Prop
  /-- The pending call is answered. -/
  | answer {c : C} {next : R c → Prog C R σ} {r : R c} {m m' : M} :
      K.Answers m c r m' → Step K turn (.call c next, m) (next r, m')
  /-- The turn is over, and the next one begins. -/
  | again (s : σ) (m : M) : Step K turn (.done s, m) (turn s, m)

/-- The machine can get from one point to another. -/
abbrev Steps (K : Contract C R M) (turn : σ → Prog C R σ) :
    Prog C R σ × M → Prog C R σ × M → Prop := Relation.ReflTransGen (Step K turn)

/-- It gets from one point to another, and begins `n` turns on the way. -/
inductive StepsIn (K : Contract C R M) (turn : σ → Prog C R σ) :
    ℕ → Prog C R σ × M → Prog C R σ × M → Prop
  | refl (x : Prog C R σ × M) : StepsIn K turn 0 x x
  | answer {n : ℕ} {c : C} {next : R c → Prog C R σ} {r : R c} {m m' : M}
      {y : Prog C R σ × M} :
      K.Answers m c r m' → StepsIn K turn n (next r, m') y →
      StepsIn K turn n (.call c next, m) y
  | again {n : ℕ} {s : σ} {m : M} {y : Prog C R σ × M} :
      StepsIn K turn n (turn s, m) y → StepsIn K turn (n + 1) (.done s, m) y

/-- One whole turn, from world to world. -/
def Turn (K : Contract C R M) (turn : σ → Prog C R σ) (x y : σ × M) : Prop :=
  Returns K (turn x.1) x.2 y.1 y.2

/-- A number of whole turns. -/
abbrev Turns (K : Contract C R M) (turn : σ → Prog C R σ) : σ × M → σ × M → Prop :=
  Relation.ReflTransGen (Turn K turn)

section Endless

variable {K : Contract C R M} {turn : σ → Prog C R σ} {Inv : σ → M → Prop} {boot p : Prog C R σ}
  {m₀ m : M}

/-- Whoever gets anywhere begins some number of turns on the way. -/
theorem exists_stepsIn {x y : Prog C R σ × M} (h : Steps K turn x y) :
    ∃ n, StepsIn K turn n x y := by
  induction h using Relation.ReflTransGen.head_induction_on with
  | refl => exact ⟨0, .refl y⟩
  | head hstep _ ih =>
    obtain ⟨n, hn⟩ := ih
    cases hstep with
    | answer hr => exact ⟨n, .answer hr hn⟩
    | again s m => exact ⟨n + 1, .again hn⟩

theorem StepsIn.steps {n : ℕ} {x y : Prog C R σ × M} (h : StepsIn K turn n x y) :
    Steps K turn x y := by
  induction h with
  | refl x => exact .refl
  | answer hr _ ih => exact .head (.answer hr) ih
  | again _ ih => exact .head (.again _ _) ih

/-- **The rule for endless programs.**  An invariant that every turn takes one further is
what every turn that was begun will end in. -/
theorem wp_of_stepsIn {I : ℕ → σ → M → Prop} {n : ℕ} (hboot : boot.wp K (I 0) m₀)
    (hturn : ∀ n s m, I n s m → (turn s).wp K (I (n + 1)) m)
    (h : StepsIn K turn n (boot, m₀) (p, m)) : p.wp K (I n) m := by
  suffices hall : ∀ n x y, StepsIn K turn n x y →
      ∀ k, x.1.wp K (I k) x.2 → y.1.wp K (I (k + n)) y.2 by
    have hp := hall n _ _ h 0 hboot
    rwa [Nat.zero_add] at hp
  intro n x y hxy
  induction hxy with
  | refl x => exact fun k hk => hk
  | answer hr _ ih => exact fun k hk => ih k (hk.2 _ _ hr)
  | again _ ih =>
    intro k hk
    have hrest := ih (k + 1) (hturn k _ _ hk)
    rwa [Nat.add_right_comm] at hrest

/-- The same for an invariant that every turn keeps. -/
theorem wp_of_steps (hboot : boot.wp K Inv m₀) (hturn : ∀ s m, Inv s m → (turn s).wp K Inv m)
    (h : Steps K turn (boot, m₀) (p, m)) : p.wp K Inv m := by
  obtain ⟨n, hn⟩ := exists_stepsIn h
  exact wp_of_stepsIn (I := fun _ => Inv) hboot (fun _ => hturn) hn

/-- Every call that is made is allowed. -/
theorem allows_of_steps {c : C} (hboot : boot.wp K Inv m₀)
    (hturn : ∀ s m, Inv s m → (turn s).wp K Inv m) (h : Steps K turn (boot, m₀) (p, m))
    (hc : p.pending = some c) : K.Allows m c :=
  allows_of_wp (wp_of_steps hboot hturn h) hc

/-- What every allowed call keeps of the world, holds at every point. -/
theorem keeps_of_steps {P : M → Prop} (hboot : boot.wp K Inv m₀)
    (hturn : ∀ s m, Inv s m → (turn s).wp K Inv m)
    (hP : ∀ m c r m', K.Allows m c → K.Answers m c r m' → P m → P m') (h₀ : P m₀)
    (h : Steps K turn (boot, m₀) (p, m)) : P m := by
  suffices hall : ∀ x, Steps K turn (boot, m₀) x → P x.2 from hall _ h
  intro x hx
  induction hx with
  | refl => exact h₀
  | tail hsteps hstep ih =>
    cases hstep with
    | answer hr => exact hP _ _ _ _ (allows_of_steps hboot hturn hsteps rfl) hr ih
    | again s m => exact ih

/-- The invariant holds between any two turns. -/
theorem inv_of_steps {s : σ} (hboot : boot.wp K Inv m₀)
    (hturn : ∀ s m, Inv s m → (turn s).wp K Inv m) (h : Steps K turn (boot, m₀) (.done s, m)) :
    Inv s m :=
  wp_of_steps hboot hturn h

/-! ## A world that can be run -/

/-- Run a program in a world that answers in one way. -/
def Prog.run (answer : (c : C) → StateM M (R c)) : Prog C R α → StateM M α
  | .done a => pure a
  | .call c next => do
    let r ← answer c
    (next r).run answer

/-- A world in `P` answers as the contract lets it, and stays in `P`. -/
def Obeys (answer : (c : C) → StateM M (R c)) (P : M → Prop) (K : Contract C R M) : Prop :=
  ∀ c m, P m → K.Answers m c (answer c m).1 (answer c m).2 ∧ P (answer c m).2

variable {answer : (c : C) → StateM M (R c)} {P : M → Prop}

theorem returns_run (h : Obeys answer P K) (p : Prog C R α) {m : M} (hm : P m) :
    Returns K p m (p.run answer m).1 (p.run answer m).2 ∧ P (p.run answer m).2 := by
  induction p generalizing m with
  | done a => exact ⟨.done a m, hm⟩
  | call c next ih =>
    obtain ⟨hr, hm'⟩ := h c m hm
    obtain ⟨hrest, hend⟩ := ih _ hm'
    exact ⟨.call hr hrest, hend⟩

/-- `n` turns, run one after the other. -/
def runTurns (answer : (c : C) → StateM M (R c)) (turn : σ → Prog C R σ) : ℕ → σ × M → σ × M
  | 0, x => x
  | n + 1, x =>
    let y := runTurns answer turn n x
    (turn y.1).run answer y.2

theorem turns_run (h : Obeys answer P K) {x : σ × M} (hx : P x.2) (n : ℕ) :
    Turns K turn x (runTurns answer turn n x) ∧ P (runTurns answer turn n x).2 := by
  induction n with
  | zero => exact ⟨.refl, hx⟩
  | succ n ih =>
    obtain ⟨hturn, hend⟩ := returns_run h (turn (runTurns answer turn n x).1) ih.2
    exact ⟨ih.1.tail hturn, hend⟩

/-- The next turn of a run. -/
theorem turn_run (h : Obeys answer P K) {x : σ × M} (hx : P x.2) (n : ℕ) :
    Turn K turn (runTurns answer turn n x) (runTurns answer turn (n + 1) x) :=
  (returns_run h _ (turns_run h hx n).2).1

/-- One step of a machine in a world that can be run. -/
def advance (answer : (c : C) → StateM M (R c)) (turn : σ → Prog C R σ) :
    Prog C R σ × M → Prog C R σ × M
  | (.done s, m) => (turn s, m)
  | (.call c next, m) => (next (answer c m).1, (answer c m).2)

/-- `n` steps. -/
def runSteps (answer : (c : C) → StateM M (R c)) (turn : σ → Prog C R σ) :
    ℕ → Prog C R σ × M → Prog C R σ × M
  | 0, x => x
  | n + 1, x => runSteps answer turn n (advance answer turn x)

/-- The turns begun in `n` steps. -/
def turnsBegun (answer : (c : C) → StateM M (R c)) (turn : σ → Prog C R σ) :
    ℕ → Prog C R σ × M → ℕ
  | 0, _ => 0
  | n + 1, (.done s, m) => turnsBegun answer turn n (turn s, m) + 1
  | n + 1, (.call c next, m) => turnsBegun answer turn n (next (answer c m).1, (answer c m).2)

theorem stepsIn_run (h : Obeys answer P K) {x : Prog C R σ × M} (hx : P x.2) (n : ℕ) :
    StepsIn K turn (turnsBegun answer turn n x) x (runSteps answer turn n x) ∧
      P (runSteps answer turn n x).2 := by
  induction n generalizing x with
  | zero => exact ⟨.refl x, hx⟩
  | succ n ih =>
    obtain ⟨p, m⟩ := x
    cases p with
    | done s =>
      obtain ⟨hsteps, hend⟩ := ih (x := (turn s, m)) hx
      exact ⟨.again hsteps, hend⟩
    | call c next =>
      obtain ⟨hr, hm'⟩ := h c m hx
      obtain ⟨hsteps, hend⟩ := ih (x := (next (answer c m).1, (answer c m).2)) hm'
      exact ⟨.answer hr hsteps, hend⟩

theorem steps_run (h : Obeys answer P K) {x : Prog C R σ × M} (hx : P x.2) (n : ℕ) :
    Steps K turn x (runSteps answer turn n x) ∧ P (runSteps answer turn n x).2 :=
  (stepsIn_run h hx n).imp_left StepsIn.steps

end Endless

end CallOut
