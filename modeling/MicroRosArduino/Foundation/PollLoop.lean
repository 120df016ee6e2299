import Mathlib

/-!
# Loops that poll until a deadline

The loop `while (guard() && !poll()) pause();` over an arbitrary machine state:
a guard (a clock, usually) that ends the loop when it fails, a poll that ends
it when it succeeds, and a pause between one poll and the next check of the
guard.  The `&&` is the short-circuiting one, so a failed guard ends the loop
without a poll.

* `PollLoop.run` — the loop with a bound on its checks, returning how it was
  left and how many polls it started.
* `stateAt`, `Reaches`, `Polls`, `Expires`, `Finds` — the state in which the
  `k`-th check is made, and what happens there.
* `run_of_expires`, `run_of_finds` — with enough fuel the run is what its last
  check says, and `exists_outcome` that there is no third way to leave.
* `Outcome`, `outcome_of_run` — how a run that returns was left.
* `run_of_polls_lt` — the termination rule: a loop that cannot start its
  `n`-th poll is left, after at most `n` polls, by every run with more fuel, and
  how.
* `Keeps`, `run_keeps` — a relation to the starting state that every part of a loop
  keeps is kept by the loop.
* `left_iff_of_never` — a loop that polls nothing is left when a guard fails.
* `Paced` — a loop whose checks come at a pace, and `Paced.elapsed` the time that
  must have passed by the `k`-th; `Paced.left_within` — such a loop notices what lasts as
  long as its checks are ever apart.
-/

/-! ## Running state-passing code -/

section StateM

variable {σ α β : Type}

/-- A sequence of two commands, run from a state. -/
theorem stateM_bind_apply (x : StateM σ α) (f : α → StateM σ β) (s : σ) :
    (x >>= f) s = f (x s).1 (x s).2 := rfl

theorem stateM_pure_apply (a : α) (s : σ) : (pure a : StateM σ α) s = (a, s) := rfl

/-- Whatever state the command is run from, it ends in a related one. -/
def Keeps (ρ : σ → σ → Prop) (x : StateM σ α) : Prop := ∀ s, ρ s (x s).2

variable {ρ : σ → σ → Prop} [IsPreorder σ ρ]

theorem Keeps.pure (a : α) : Keeps ρ (pure a : StateM σ α) := fun s => refl_of ρ s

theorem Keeps.bind {x : StateM σ α} {f : α → StateM σ β} (hx : Keeps ρ x)
    (hf : ∀ a, Keeps ρ (f a)) : Keeps ρ (x >>= f) :=
  fun s => trans_of ρ (hx s) (hf _ _)

end StateM

/-- The loop `while (guard() && !poll()) pause();`. -/
structure PollLoop (σ : Type) where
  /-- The loop condition's left side; `false` ends the loop. -/
  guard : StateM σ Bool
  /-- The poll; `true` ends the loop. -/
  poll : StateM σ Bool
  /-- What is done before the next check. -/
  pause : StateM σ Unit

namespace PollLoop

/-- How a loop was left: the polls it started, and whether the last one found
what it polled for. -/
structure Left where
  /-- The polls started. -/
  polls : ℕ
  /-- Left by a successful poll (`true`) or by the guard (`false`). -/
  found : Bool
  deriving DecidableEq, Repr

variable {σ : Type} (L : PollLoop σ)

/-- Run the loop for at most `fuel` checks of its guard; `none` when it is still
going after that. -/
def run : ℕ → StateM σ (Option Left)
  | 0 => pure none
  | fuel + 1 => do
    if ← L.guard then
      if ← L.poll then
        return some ⟨1, true⟩
      else
        L.pause
        let rest ← run fuel
        return rest.map fun l => ⟨l.polls + 1, l.found⟩
    else
      return some ⟨0, false⟩

/-! ## The states of the checks -/

/-- The state after one unsuccessful pass: guard, poll and pause. -/
def pass (s : σ) : σ := (L.pause (L.poll (L.guard s).2).2).2

/-- The state in which the `k`-th check starts, when the loop gets that far. -/
def stateAt (s : σ) : ℕ → σ
  | 0 => s
  | k + 1 => stateAt (L.pass s) k

/-- The state right after the guard of the `k`-th check was evaluated. -/
def checked (s : σ) (k : ℕ) : σ := (L.guard (L.stateAt s k)).2

/-- The guard holds at the `k`-th check. -/
def GuardAt (s : σ) (k : ℕ) : Prop := (L.guard (L.stateAt s k)).1 = true

/-- The `k`-th poll, if it is made, succeeds. -/
def PollAt (s : σ) (k : ℕ) : Prop := (L.poll (L.checked s k)).1 = true

/-- The loop started in `s` gets to its `k`-th check. -/
def Reaches (s : σ) (k : ℕ) : Prop := ∀ j < k, L.GuardAt s j ∧ ¬ L.PollAt s j

/-- The loop starts its `k`-th poll (in the state `checked s k`). -/
def Polls (s : σ) (k : ℕ) : Prop := L.Reaches s k ∧ L.GuardAt s k

/-- The loop is left by the guard of its `k`-th check. -/
def Expires (s : σ) (k : ℕ) : Prop := L.Reaches s k ∧ ¬ L.GuardAt s k

/-- The loop is left by its `k`-th poll. -/
def Finds (s : σ) (k : ℕ) : Prop := L.Polls s k ∧ L.PollAt s k

instance (s : σ) (k : ℕ) : Decidable (L.GuardAt s k) := inferInstanceAs (Decidable (_ = true))

instance (s : σ) (k : ℕ) : Decidable (L.PollAt s k) := inferInstanceAs (Decidable (_ = true))

instance (s : σ) (k : ℕ) : Decidable (L.Reaches s k) :=
  inferInstanceAs (Decidable (∀ j < k, _ ∧ _))

@[simp] theorem stateAt_zero (s : σ) : L.stateAt s 0 = s := rfl

@[simp] theorem stateAt_succ (s : σ) (k : ℕ) :
    L.stateAt s (k + 1) = L.stateAt (L.pass s) k := rfl

/-- The pass from one check to the next. -/
theorem stateAt_succ' (s : σ) (k : ℕ) : L.stateAt s (k + 1) = L.pass (L.stateAt s k) := by
  induction k generalizing s with
  | zero => rfl
  | succ k ih => rw [stateAt_succ, ih, stateAt_succ]

@[simp] theorem reaches_zero (s : σ) : L.Reaches s 0 := fun _ hj => absurd hj (Nat.not_lt_zero _)

theorem reaches_succ (s : σ) (k : ℕ) :
    L.Reaches s (k + 1) ↔ L.Reaches s k ∧ L.GuardAt s k ∧ ¬ L.PollAt s k := by
  constructor
  · intro h
    exact ⟨fun j hj => h j (by omega), h k (by omega)⟩
  · rintro ⟨h, hk⟩ j hj
    rcases Nat.lt_succ_iff_lt_or_eq.1 hj with hj | rfl
    · exact h j hj
    · exact hk

theorem reaches_succ_pass (s : σ) (k : ℕ) :
    L.Reaches s (k + 1) ↔ (L.GuardAt s 0 ∧ ¬ L.PollAt s 0) ∧ L.Reaches (L.pass s) k := by
  constructor
  · intro h
    exact ⟨h 0 (by omega), fun j hj => h (j + 1) (by omega)⟩
  · rintro ⟨h0, h⟩ j hj
    cases j with
    | zero => exact h0
    | succ j => exact h j (by omega)

theorem Reaches.mono {s : σ} {j k : ℕ} (h : L.Reaches s k) (hjk : j ≤ k) : L.Reaches s j :=
  fun i hi => h i (by omega)

/-! ## What a run does -/

theorem run_succ_of_not_guard {s : σ} (h : ¬ L.GuardAt s 0) (fuel : ℕ) :
    L.run (fuel + 1) s = (some ⟨0, false⟩, L.checked s 0) := by
  have hg : (L.guard s).1 = false := by simpa [GuardAt] using h
  simp only [run, stateM_bind_apply, hg, Bool.false_eq_true, if_false]
  rfl

theorem run_succ_of_poll {s : σ} (hg : L.GuardAt s 0) (hp : L.PollAt s 0) (fuel : ℕ) :
    L.run (fuel + 1) s = (some ⟨1, true⟩, (L.poll (L.checked s 0)).2) := by
  have hg' : (L.guard s).1 = true := hg
  have hp' : (L.poll (L.guard s).2).1 = true := hp
  simp only [run, stateM_bind_apply, hg', hp', if_true]
  rfl

theorem run_succ_of_pass {s : σ} (hg : L.GuardAt s 0) (hp : ¬ L.PollAt s 0) (fuel : ℕ) :
    L.run (fuel + 1) s =
      ((L.run fuel (L.pass s)).1.map fun l => ⟨l.polls + 1, l.found⟩,
        (L.run fuel (L.pass s)).2) := by
  have hg' : (L.guard s).1 = true := hg
  have hp' : (L.poll (L.guard s).2).1 = false := by simpa [PollAt, checked] using hp
  simp only [run, stateM_bind_apply, hg', hp', if_true, Bool.false_eq_true, if_false]
  rfl

/-- **Left by the guard.**  With enough fuel, a loop whose `k`-th guard fails is
left there, having started `k` polls. -/
theorem run_of_expires {s : σ} {k fuel : ℕ} (h : L.Expires s k) (hk : k < fuel) :
    L.run fuel s = (some ⟨k, false⟩, L.checked s k) := by
  obtain ⟨fuel, rfl⟩ : ∃ f, fuel = f + 1 := ⟨fuel - 1, by omega⟩
  induction k generalizing s fuel with
  | zero => exact L.run_succ_of_not_guard h.2 fuel
  | succ k ih =>
    obtain ⟨⟨hg, hp⟩, hreach⟩ := (L.reaches_succ_pass s k).1 h.1
    obtain ⟨f, rfl⟩ : ∃ f, fuel = f + 1 := ⟨fuel - 1, by omega⟩
    have hrest := ih (s := L.pass s) ⟨hreach, h.2⟩ f (by omega)
    rw [L.run_succ_of_pass hg hp, hrest]
    rfl

/-- **Left by a poll.**  With enough fuel, a loop whose `k`-th poll succeeds is
left there, having started `k + 1` polls. -/
theorem run_of_finds {s : σ} {k fuel : ℕ} (h : L.Finds s k) (hk : k < fuel) :
    L.run fuel s = (some ⟨k + 1, true⟩, (L.poll (L.checked s k)).2) := by
  obtain ⟨fuel, rfl⟩ : ∃ f, fuel = f + 1 := ⟨fuel - 1, by omega⟩
  induction k generalizing s fuel with
  | zero => exact L.run_succ_of_poll h.1.2 h.2 fuel
  | succ k ih =>
    obtain ⟨⟨hg, hp⟩, hreach⟩ := (L.reaches_succ_pass s k).1 h.1.1
    obtain ⟨f, rfl⟩ : ∃ f, fuel = f + 1 := ⟨fuel - 1, by omega⟩
    have hrest := ih (s := L.pass s) ⟨⟨hreach, h.1.2⟩, h.2⟩ f (by omega)
    rw [L.run_succ_of_pass hg hp, hrest]
    rfl

/-- A loop that gets to check `fuel` is still going when its fuel is spent. -/
theorem run_of_reaches {s : σ} {fuel : ℕ} (h : L.Reaches s fuel) :
    L.run fuel s = (none, L.stateAt s fuel) := by
  induction fuel generalizing s with
  | zero => rfl
  | succ fuel ih =>
    obtain ⟨⟨hg, hp⟩, hreach⟩ := (L.reaches_succ_pass s fuel).1 h
    rw [L.run_succ_of_pass hg hp, ih hreach]
    rfl

/-- Within `n` checks a loop is left by its guard or by a poll, or gets to check `n`. -/
theorem exists_outcome (s : σ) (n : ℕ) :
    L.Reaches s n ∨ (∃ k < n, L.Expires s k) ∨ ∃ k < n, L.Finds s k := by
  induction n with
  | zero => exact Or.inl (L.reaches_zero s)
  | succ n ih =>
    rcases ih with h | ⟨k, hk, h⟩ | ⟨k, hk, h⟩
    · by_cases hg : L.GuardAt s n
      · by_cases hp : L.PollAt s n
        · exact Or.inr (Or.inr ⟨n, by omega, ⟨h, hg⟩, hp⟩)
        · exact Or.inl ((L.reaches_succ s n).2 ⟨h, hg, hp⟩)
      · exact Or.inr (Or.inl ⟨n, by omega, h, hg⟩)
    · exact Or.inr (Or.inl ⟨k, by omega, h⟩)
    · exact Or.inr (Or.inr ⟨k, by omega, h⟩)

/-- The loop started in `s` was left so, and in the state `s'`: by the guard of the check
after its last poll, or by that poll. -/
def Outcome (s : σ) (l : Left) (s' : σ) : Prop :=
  (L.Expires s l.polls ∧ l.found = false ∧ s' = L.checked s l.polls) ∨
    ∃ k, L.Finds s k ∧ l = ⟨k + 1, true⟩ ∧ s' = (L.poll (L.checked s k)).2

/-- A loop that cannot start a first poll has started none. -/
theorem Outcome.polls_eq_zero {s s' : σ} {l : Left} (h : L.Outcome s l s')
    (hnone : ¬ L.Polls s 0) : l.polls = 0 := by
  have hreach : ∀ k, L.Reaches s k → k = 0 := by
    intro k hk
    by_contra hpos
    exact hnone ⟨L.reaches_zero s, (hk 0 (Nat.pos_of_ne_zero hpos)).1⟩
  rcases h with ⟨he, -, -⟩ | ⟨k, hf, -, -⟩
  · exact hreach _ he.1
  · obtain rfl := hreach k hf.1.1
    exact absurd hf.1 hnone

/-- A run that returns was left by its guard or by a poll. -/
theorem outcome_of_run {s s' : σ} {l : Left} {fuel : ℕ} (h : L.run fuel s = (some l, s')) :
    L.Outcome s l s' := by
  rcases L.exists_outcome s fuel with hr | ⟨k, hk, he⟩ | ⟨k, hk, hf⟩
  · rw [L.run_of_reaches hr] at h
    exact absurd (congrArg Prod.fst h) (by simp)
  · rw [L.run_of_expires he hk] at h
    obtain ⟨hl, rfl⟩ := Prod.mk.inj h
    obtain rfl := Option.some.inj hl
    exact Or.inl ⟨he, rfl, rfl⟩
  · rw [L.run_of_finds hf hk] at h
    obtain ⟨hl, rfl⟩ := Prod.mk.inj h
    obtain rfl := Option.some.inj hl
    exact Or.inr ⟨k, hf, rfl, rfl⟩

/-- **The termination rule.**  A loop that cannot start its `n`-th poll, and whose guards
fail only in states of `Q`, is left after at most `n` polls by every run that may make
`n + 1` checks; and in a state of `Q`, when it has found nothing. -/
theorem run_of_polls_lt {s : σ} {n : ℕ} {Q : σ → Prop} (h : ¬ L.Polls s n)
    (hlate : ∀ k, L.Expires s k → Q (L.checked s k)) :
    ∃ l s', l.polls ≤ n ∧ L.Outcome s l s' ∧ (l.found = false → Q s') ∧
      ∀ fuel > n, L.run fuel s = (some l, s') := by
  rcases L.exists_outcome s (n + 1) with hr | ⟨k, hk, he⟩ | ⟨k, hk, hf⟩
  · obtain ⟨hreach, hg, -⟩ := (L.reaches_succ s n).1 hr
    exact absurd ⟨hreach, hg⟩ h
  · refine ⟨⟨k, false⟩, L.checked s k, Nat.lt_succ_iff.1 hk, Or.inl ⟨he, rfl, rfl⟩,
      fun _ => hlate k he, ?_⟩
    intro fuel hfuel
    exact L.run_of_expires he (by omega)
  · have hkn : k ≠ n := by
      rintro rfl
      exact h hf.1
    refine ⟨⟨k + 1, true⟩, (L.poll (L.checked s k)).2, ?_, Or.inr ⟨k, hf, rfl, rfl⟩,
      fun hnone => absurd hnone.symm Bool.false_ne_true, ?_⟩
    · show k + 1 ≤ n
      omega
    · intro fuel hfuel
      exact L.run_of_finds hf (by omega)

/-- What the guard, the poll and the pause keep, the loop keeps. -/
theorem run_keeps {ρ : σ → σ → Prop} [IsPreorder σ ρ] (hguard : Keeps ρ L.guard)
    (hpoll : Keeps ρ L.poll) (hpause : Keeps ρ L.pause) (fuel : ℕ) : Keeps ρ (L.run fuel) := by
  induction fuel with
  | zero => exact .pure none
  | succ fuel ih =>
    refine hguard.bind fun g => ?_
    cases g with
    | false => exact .pure _
    | true =>
      refine hpoll.bind fun found => ?_
      cases found with
      | false => exact hpause.bind fun _ => ih.bind fun _ => .pure _
      | true => exact .pure _

/-! ## Waiting without a poll -/

/-- A loop whose poll never succeeds is `while (guard()) pause();`: it gets to check `k`
when every guard before held. -/
theorem reaches_iff_of_never (hpoll : ∀ t, (L.poll t).1 = false) (s : σ) (k : ℕ) :
    L.Reaches s k ↔ ∀ j < k, L.GuardAt s j := by
  have hnever : ∀ j, ¬ L.PollAt s j := by
    intro j hj
    unfold PollAt at hj
    rw [hpoll] at hj
    exact Bool.false_ne_true hj
  constructor
  · intro h j hj
    exact (h j hj).1
  · intro h j hj
    exact ⟨h j hj, hnever j⟩

/-- It is left exactly when one of its guards fails, by the first one that does. -/
theorem left_iff_of_never (hpoll : ∀ t, (L.poll t).1 = false) (s : σ) :
    (∃ fuel l s', L.run fuel s = (some l, s')) ↔ ∃ k, ¬ L.GuardAt s k := by
  constructor
  · rintro ⟨fuel, l, s', h⟩
    rcases L.outcome_of_run h with ⟨he, -, -⟩ | ⟨k, hf, -, -⟩
    · exact ⟨l.polls, he.2⟩
    · have hfound := hf.2
      rw [PollAt, hpoll] at hfound
      exact absurd hfound Bool.false_ne_true
  · intro h
    have hreach : L.Reaches s (Nat.find h) :=
      (L.reaches_iff_of_never hpoll s _).2 fun j hj => not_not.1 (Nat.find_min h hj)
    exact ⟨_, _, _, L.run_of_expires ⟨hreach, Nat.find_spec h⟩ (Nat.lt_succ_self _)⟩

/-! ## Pace -/

/-- The guards of a loop are evaluated at a pace: the first one less than `hi` after
`entry`, and each further one at least `lo` and less than `hi` after the one
before.  `t` is the time a state shows. -/
structure Paced (t : σ → ℕ) (s : σ) (entry lo hi : ℕ) : Prop where
  first_le : entry ≤ t (L.checked s 0)
  first_lt : t (L.checked s 0) < entry + hi
  next_le : ∀ k, L.Reaches s (k + 1) → t (L.checked s k) + lo ≤ t (L.checked s (k + 1))
  next_lt : ∀ k, L.Reaches s (k + 1) → t (L.checked s (k + 1)) < t (L.checked s k) + hi

/-- By its `k`-th check a paced loop has gone on for `k` steps of its pace. -/
theorem Paced.elapsed {t : σ → ℕ} {s : σ} {entry lo hi k : ℕ}
    (h : L.Paced t s entry lo hi) (hk : L.Reaches s k) :
    entry + lo * k ≤ t (L.checked s k) := by
  induction k with
  | zero => exact h.first_le
  | succ k ih =>
    have hprev := ih (hk.mono L (Nat.le_succ k))
    have hstep := h.next_le k hk
    rw [Nat.mul_succ]
    omega

end PollLoop
