import MicroRosArduino.Foundation.PollLoop

/-!
# Waiting on a counter that wraps

A loop whose guard compares the time since its start with a deadline `N`, where the time
is known only modulo `M`: after a whole turn of the counter the guard takes a late check
for an early one.

* `CountsTo` — such a loop, `KeepsDeadline` — what is wanted of it.
* `CountsTo.keepsDeadline` — **when checks cannot miss the window**: at most `M - N`
  apart, and the deadline is kept.
* `exists_le_add_mul_mod_iff` — how far the residues of a stride reach.
* `CountsTo.left_iff_of_steady` — **when they can**: checked at a steady stride with no
  poll succeeding, the loop is left exactly when the stride gets into the window.
-/

namespace PollLoop

variable {σ : Type} {L : PollLoop σ} {t : σ → ℕ} {s : σ} {entry lo M N : ℕ}

/-- The guards of a loop compare the time since `entry`, counted modulo `M`, with `N`. -/
def CountsTo (L : PollLoop σ) (t : σ → ℕ) (s : σ) (entry M N : ℕ) : Prop :=
  ∀ k, L.Reaches s k → (L.GuardAt s k ↔ (t (L.checked s k) - entry) % M < N)

/-- A loop keeps a deadline of `N`: it is left after at most `N` polls, by a poll that has
found something or with `N` over; it starts no poll once `N` has passed, and gives up at
no check before that. -/
structure KeepsDeadline (L : PollLoop σ) (t : σ → ℕ) (s : σ) (entry N : ℕ) : Prop where
  terminates : ∃ l s', l.polls ≤ N ∧ L.Outcome s l s' ∧ (l.found = false → entry + N ≤ t s') ∧
    ∀ fuel > N, L.run fuel s = (some l, s')
  no_late_poll : ∀ k, L.Polls s k → t (L.checked s k) < entry + N
  no_early_leave : ∀ k, L.Expires s k → entry + N ≤ t (L.checked s k)

/-! ## Checks that cannot miss the window -/

/-- With checks at most `M - N` apart, the one that follows a guard that held comes
before the counter is round. -/
theorem CountsTo.guardAt_iff (h : L.CountsTo t s entry M N) (hN : N ≤ M)
    (hpace : L.Paced t s entry lo (M - N + 1)) {k : ℕ} (hk : L.Reaches s k) :
    L.GuardAt s k ↔ t (L.checked s k) < entry + N := by
  rw [h k hk]
  induction k with
  | zero =>
    have hle := hpace.first_le
    have hlt := hpace.first_lt
    rcases Nat.eq_zero_or_pos N with rfl | hpos
    · omega
    · rw [Nat.mod_eq_of_lt (by omega)]
      omega
  | succ k ih =>
    obtain ⟨hreach, hguard, -⟩ := (L.reaches_succ s k).1 hk
    rw [h k hreach, ih hreach] at hguard
    have helapsed := hpace.elapsed _ hk
    have hlt := hpace.next_lt k hk
    have hle : entry ≤ t (L.checked s (k + 1)) := le_trans (Nat.le_add_right _ _) helapsed
    rw [Nat.mod_eq_of_lt (by omega)]
    omega

/-- **The window cannot be missed**: with checks at least 1 and at most `M - N` apart, the
deadline is kept. -/
theorem CountsTo.keepsDeadline (h : L.CountsTo t s entry M N) (hN : N ≤ M) (hlo : 0 < lo)
    (hpace : L.Paced t s entry lo (M - N + 1)) : L.KeepsDeadline t s entry N := by
  have hleave : ∀ k, L.Expires s k → entry + N ≤ t (L.checked s k) := by
    intro k hk
    rw [← not_lt, ← h.guardAt_iff hN hpace hk.1]
    exact hk.2
  refine ⟨L.run_of_polls_lt ?_ hleave, ?_, hleave⟩
  · intro hk
    have hin := (h.guardAt_iff hN hpace hk.1).1 hk.2
    have helapsed := hpace.elapsed _ hk.1
    have hlate : N ≤ lo * N := Nat.le_mul_of_pos_left N hlo
    omega
  · intro k hk
    exact (h.guardAt_iff hN hpace hk.1).1 hk.2

/-! ## Checks at a steady stride -/

/-- Some multiple of the stride is its gcd with `M`, modulo `M`. -/
theorem exists_mul_modEq_gcd (hM : 0 < M) (d : ℕ) : ∃ m, d * m ≡ d.gcd M [MOD M] := by
  rcases (Nat.le_of_dvd hM (Nat.gcd_dvd_right d M)).lt_or_eq with hlt | heq
  · obtain ⟨m, -, hm⟩ := Nat.exists_mul_mod_eq_gcd hlt
    exact ⟨m, by rw [Nat.ModEq, hm, Nat.mod_eq_of_lt hlt]⟩
  · exact ⟨0, by rw [Nat.ModEq, heq, Nat.mul_zero, Nat.zero_mod, Nat.mod_self]⟩

/-- **How far a stride reaches.**  The residues of `e`, `e + d`, `e + 2 * d`, … modulo `M`
are those that agree with `e` modulo `gcd d M`, and the last of them decides. -/
theorem exists_le_add_mul_mod_iff (hM : 0 < M) (e d N : ℕ) :
    (∃ k, N ≤ (e + d * k) % M) ↔ N + d.gcd M ≤ M + e % d.gcd M := by
  obtain ⟨m, hm⟩ := exists_mul_modEq_gcd hM d
  have hd : d.gcd M ∣ d := Nat.gcd_dvd_left d M
  have hgM : d.gcd M ∣ M := Nat.gcd_dvd_right d M
  have hg : 0 < d.gcd M := Nat.gcd_pos_of_pos_right d hM
  generalize d.gcd M = g at *
  have he : e % g < g := Nat.mod_lt _ hg
  have hgle : g ≤ M := Nat.le_of_dvd hM hgM
  constructor
  · rintro ⟨k, hk⟩
    -- the residue is `e % g` more than a multiple of `g`, and so is the last one
    have hres : (e + d * k) % M % g = e % g := by
      rw [Nat.mod_mod_of_dvd _ hgM, Nat.add_mod,
        Nat.mod_eq_zero_of_dvd (hd.mul_right k), Nat.add_zero, Nat.mod_mod]
    have hlt : (e + d * k) % M < M := Nat.mod_lt _ hM
    generalize (e + d * k) % M = r at *
    have hmult : g ∣ M - (r - e % g) := by
      refine Nat.dvd_sub hgM ?_
      rw [← hres]
      exact Nat.dvd_sub_mod r
    have hmod : e % g ≤ r := hres ▸ Nat.mod_le r g
    have hstep := Nat.le_of_dvd (by omega) hmult
    omega
  · intro h
    refine ⟨m * ((M - 1) * (1 + e / g)), ?_⟩
    have hlast : e + d * (m * ((M - 1) * (1 + e / g))) ≡ M - g + e % g [MOD M] := by
      -- both are `e` once `g * (1 + e / g)` is added
      apply Nat.ModEq.add_right_cancel' (g * (1 + e / g))
      have hround : M - g + e % g + g * (1 + e / g) = e + M := by
        have hdiv := Nat.div_add_mod e g
        rw [Nat.mul_add, Nat.mul_one]
        omega
      have hturns : e + g * ((M - 1) * (1 + e / g)) + g * (1 + e / g)
          = e + M * (g * (1 + e / g)) := by
        obtain ⟨M', rfl⟩ : ∃ M', M = M' + 1 := ⟨M - 1, by omega⟩
        rw [Nat.add_sub_cancel]
        ring
      calc e + d * (m * ((M - 1) * (1 + e / g))) + g * (1 + e / g)
          = e + d * m * ((M - 1) * (1 + e / g)) + g * (1 + e / g) := by rw [Nat.mul_assoc d m]
        _ ≡ e + g * ((M - 1) * (1 + e / g)) + g * (1 + e / g) [MOD M] :=
            ((hm.mul_right _).add_left e).add_right _
        _ = e + M * (g * (1 + e / g)) := hturns
        _ ≡ e [MOD M] := Nat.add_mul_mod_self_left e M _
        _ ≡ e + M [MOD M] := (Nat.add_mod_right e M).symm
        _ = M - g + e % g + g * (1 + e / g) := hround.symm
    rw [hlast, Nat.mod_eq_of_lt (by omega)]
    omega

/-- **Left or not.**  Checked first `e` after `entry` and then at a steady stride of `d`,
with no poll succeeding, a loop is left exactly when the stride gets into the window. -/
theorem CountsTo.left_iff_of_steady (h : L.CountsTo t s entry M N) (hM : 0 < M) {e d : ℕ}
    (hpoll : ∀ u, (L.poll u).1 = false)
    (hsteady : ∀ k, L.Reaches s k → t (L.checked s k) = entry + e + d * k) :
    (∃ fuel l s', L.run fuel s = (some l, s')) ↔ N + d.gcd M ≤ M + e % d.gcd M := by
  have hguard : ∀ k, L.Reaches s k → (L.GuardAt s k ↔ (e + d * k) % M < N) := by
    intro k hk
    rw [h k hk, hsteady k hk, Nat.add_assoc, Nat.add_sub_cancel_left]
  rw [← exists_le_add_mul_mod_iff hM, L.left_iff_of_never hpoll]
  constructor
  · intro hleft
    -- the first guard that fails is one the loop gets to
    have hreach : L.Reaches s (Nat.find hleft) :=
      (L.reaches_iff_of_never hpoll s _).2 fun j hj => not_not.1 (Nat.find_min hleft hj)
    refine ⟨Nat.find hleft, ?_⟩
    rw [← not_lt, ← hguard _ hreach]
    exact Nat.find_spec hleft
  · rintro ⟨k, hk⟩
    by_contra hnever
    simp only [not_exists, not_not] at hnever
    have hreach : L.Reaches s k := (L.reaches_iff_of_never hpoll s k).2 fun j _ => hnever j
    have hin := (hguard k hreach).1 (hnever k)
    omega

end PollLoop
