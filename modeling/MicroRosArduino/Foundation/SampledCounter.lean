import Mathlib

/-!
# Reading a wrapping counter from samples

A free-running counter shows the true count modulo `N`.  Software that wants
the whole count reads it now and then, remembers the last reading, and takes a
reading smaller than the one before it as the sign of a wrap.  This file is
the theory of that scheme, for any modulus `N` and any amount `K` credited for
each wrap it notices.

* `descents` — how often a sequence of readings steps strictly down, in any
  linear order; `descents_le_of_sublist` says that leaving samples out never
  adds a descent.
* `drop_mod_le`, `drop_mod_eq` — a descent of the residues costs at least one
  whole period, and exactly the periods passed when no period goes unseen;
  `descents_mod_eq_iff` says when none does.
* `Counter` — the remembered wraps and last reading; `value_le_next` and
  `next_value_le` say that one sample never moves the value back when
  `N ≤ K + 1` and never moves it further than the truth when `K ≤ N`, and
  `values_pairwise` lifts both to every pair of samples of a run.
* `next_exact`, `values_exact` — when every gap is below `N` the counter knows
  its true wrap count, so the value is off by exactly `N - K` for each wrap.
* `values_le_of_sublist`, `values_eq_of_sublist` — two runs over one timeline,
  one sampling more often than the other.
-/

namespace SampledCounter

/-! ## Descents of a sequence -/

section Descents

variable {α : Type*} [LinearOrder α]

/-- `1` when `x` lies strictly below the reading `l` before it, `0` otherwise. -/
def drop (l x : α) : ℕ := if x < l then 1 else 0

/-- How often a sequence that continues from the reading `l` steps strictly down. -/
def descents (l : α) : List α → ℕ
  | [] => 0
  | x :: xs => drop l x + descents x xs

@[simp] theorem descents_nil (l : α) : descents l [] = 0 := rfl

@[simp] theorem descents_cons (l x : α) (xs : List α) :
    descents l (x :: xs) = drop l x + descents x xs := rfl

@[simp] theorem drop_self (l : α) : drop l l = 0 := by simp [drop]

theorem drop_le_one (l x : α) : drop l x ≤ 1 := by
  unfold drop
  split <;> omega

theorem drop_of_le {l x : α} (h : l ≤ x) : drop l x = 0 := if_neg (not_lt.2 h)

theorem drop_of_lt {l x : α} (h : x < l) : drop l x = 1 := if_pos h

/-- A detour through another reading never hides a descent. -/
theorem drop_le_add (l x y : α) : drop l y ≤ drop l x + drop x y := by
  by_cases hly : y < l
  · rw [drop_of_lt hly]
    rcases lt_or_ge x l with hx | hx
    · rw [drop_of_lt hx]; omega
    · rw [drop_of_lt (hly.trans_le hx)]; omega
  · rw [drop_of_le (not_lt.1 hly)]; omega

/-- Taking one more sample before a sequence never lowers its count. -/
theorem descents_le_insert (l x : α) (xs : List α) :
    descents l xs ≤ drop l x + descents x xs := by
  cases xs with
  | nil => simp
  | cons y ys =>
    have h := drop_le_add l x y
    simp only [descents_cons]
    omega

/-- **Leaving samples out never adds a descent.** -/
theorem descents_le_of_sublist {xs ys : List α} (h : xs.Sublist ys) (l : α) :
    descents l xs ≤ descents l ys := by
  induction h generalizing l with
  | slnil => exact le_refl _
  | cons y _ ih => exact (descents_le_insert l y _).trans (Nat.add_le_add_left (ih y) _)
  | cons_cons x _ ih => exact Nat.add_le_add_left (ih x) _

/-- A sequence that repeats the reading it continues from never steps down. -/
theorem descents_eq_zero_of_const {l : α} {xs : List α} (h : ∀ x ∈ xs, x = l) :
    descents l xs = 0 := by
  induction xs with
  | nil => rfl
  | cons x xs ih =>
    obtain rfl := h x (by simp)
    rw [descents_cons, drop_self, ih fun y hy => h y (by simp [hy])]

end Descents

/-! ## Descents of residues -/

variable {N K : ℕ}

/-- A descent of the residues costs at least one period. -/
theorem drop_mod_le {a b : ℕ} (N : ℕ) (h : a ≤ b) :
    drop (a % N) (b % N) + a / N ≤ b / N := by
  have hdiv : a / N ≤ b / N := Nat.div_le_div_right h
  rcases lt_or_ge (b % N) (a % N) with hlt | hge
  · rw [drop_of_lt hlt]
    have ha := Nat.div_add_mod a N
    have hb := Nat.div_add_mod b N
    have hne : a / N ≠ b / N := by
      intro heq
      rw [heq] at ha
      omega
    omega
  · rw [drop_of_le hge]
    omega

/-- Below one period apart, the descent of the residues is the period passed. -/
theorem drop_mod_eq {a b : ℕ} (h : a ≤ b) (hgap : b < a + N) :
    drop (a % N) (b % N) + a / N = b / N := by
  have hN : 0 < N := by omega
  have ha := Nat.div_add_mod a N
  have hb := Nat.div_add_mod b N
  have hamod := Nat.mod_lt a hN
  have hbmod := Nat.mod_lt b hN
  have hdiv : b / N ≤ a / N + 1 := by
    have : b / N < a / N + 2 := by
      rw [Nat.div_lt_iff_lt_mul hN]
      nlinarith
    omega
  refine le_antisymm (drop_mod_le N h) ?_
  rcases lt_or_ge (b % N) (a % N) with hlt | hge
  · rw [drop_of_lt hlt]; omega
  · rw [drop_of_le hge]
    by_contra hcon
    have hsucc : b / N = a / N + 1 := by omega
    rw [hsucc, Nat.mul_add, Nat.mul_one] at hb
    omega

/-- The descents of a nondecreasing timeline, read modulo `N`, never outnumber
the periods it spans. -/
theorem descents_mod_le {a T : ℕ} {Ts : List ℕ} (N : ℕ) (hmono : (a :: Ts).Pairwise (· ≤ ·))
    (hT : ∀ t ∈ a :: Ts, t ≤ T) :
    descents (a % N) (Ts.map (· % N)) + a / N ≤ T / N := by
  induction Ts generalizing a with
  | nil => simpa using Nat.div_le_div_right (hT a (by simp))
  | cons b Ts ih =>
    rw [List.pairwise_cons] at hmono
    have hstep := drop_mod_le N (hmono.1 b (by simp))
    have hrest := ih hmono.2 fun t ht => hT t (List.mem_cons_of_mem _ ht)
    simp only [List.map_cons, descents_cons]
    omega

/-- The residues tell the periods passed exactly when it was less than one period. -/
theorem drop_mod_eq_iff {a b : ℕ} (hN : 0 < N) (h : a ≤ b) :
    drop (a % N) (b % N) + a / N = b / N ↔ b < a + N := by
  refine ⟨fun heq => ?_, drop_mod_eq h⟩
  by_contra hgap
  have hone : (a + N) / N ≤ b / N := Nat.div_le_div_right (not_lt.1 hgap)
  rw [Nat.add_div_right _ hN] at hone
  have hle := drop_le_one (a % N) (b % N)
  -- a descent was seen, so one period was passed and the residue is no smaller
  have hdrop : ¬ a % N ≤ b % N := fun hres => by
    rw [drop_of_le hres] at heq
    omega
  have ha := Nat.div_add_mod a N
  have hb := Nat.div_add_mod b N
  have hb' : b / N = a / N + 1 := by omega
  rw [hb', Nat.mul_add, Nat.mul_one] at hb
  omega

/-- **No period is missed exactly when no gap is as long as one**: the descents of a
timeline that ends at `T` are the periods it spans. -/
theorem descents_mod_eq_iff {a T : ℕ} {Ts : List ℕ} (hN : 0 < N)
    (hmono : (a :: Ts).Pairwise (· ≤ ·)) (hT : ∀ t ∈ a :: Ts, t ≤ T) (hmem : T ∈ a :: Ts) :
    descents (a % N) (Ts.map (· % N)) + a / N = T / N ↔
      (a :: Ts).IsChain fun s t => s ≤ t ∧ t < s + N := by
  induction Ts generalizing a with
  | nil =>
    obtain rfl := List.mem_singleton.1 hmem
    simp
  | cons b Ts ih =>
    rw [List.pairwise_cons] at hmono
    have hab : a ≤ b := hmono.1 b (by simp)
    have hTs : ∀ t ∈ b :: Ts, t ≤ T := fun t ht => hT t (List.mem_cons_of_mem _ ht)
    have hmem' : T ∈ b :: Ts := by
      rcases List.mem_cons.1 hmem with rfl | hmem
      · rw [le_antisymm hab (hTs b (by simp))]
        exact List.mem_cons_self
      · exact hmem
    have hstep := drop_mod_le N hab
    have hrest := descents_mod_le N hmono.2 hTs
    rw [List.isChain_cons_cons, ← ih hmono.2 hTs hmem', ← drop_mod_eq_iff hN hab, List.map_cons,
      descents_cons]
    omega

/-! ## The counter -/

/-- What the software remembers: the wraps it has noticed and its last reading. -/
structure Counter where
  /-- Wraps noticed so far. -/
  wraps : ℕ
  /-- The last reading. -/
  last : ℕ
  deriving DecidableEq, Repr

namespace Counter

/-- Take the reading `m`, noticing a wrap when it is below the last one. -/
def next (c : Counter) (m : ℕ) : Counter := ⟨c.wraps + drop c.last m, m⟩

/-- The count reported, with `K` credited for each wrap. -/
def value (K : ℕ) (c : Counter) : ℕ := c.last + K * c.wraps

/-- The values reported along a run of readings. -/
def values (K : ℕ) (c : Counter) : List ℕ → List ℕ
  | [] => []
  | m :: ms => (c.next m).value K :: (c.next m).values K ms

/-- The counter that knows the true count `T`. -/
def exact (N T : ℕ) : Counter := ⟨T / N, T % N⟩

@[simp] theorem next_last (c : Counter) (m : ℕ) : (c.next m).last = m := rfl

@[simp] theorem next_wraps (c : Counter) (m : ℕ) :
    (c.next m).wraps = c.wraps + drop c.last m := rfl

@[simp] theorem values_nil (c : Counter) : c.values K [] = [] := rfl

@[simp] theorem values_cons (c : Counter) (m : ℕ) (ms : List ℕ) :
    c.values K (m :: ms) = (c.next m).value K :: (c.next m).values K ms := rfl

@[simp] theorem length_values (c : Counter) (ms : List ℕ) :
    (c.values K ms).length = ms.length := by
  induction ms generalizing c with
  | nil => rfl
  | cons m ms ih => simp [ih]

@[simp] theorem exact_zero (N : ℕ) : exact N 0 = ⟨0, 0⟩ := by simp [exact]

/-! ### One sample -/

/-- One sample never moves the value back, if a wrap is credited with at least
the largest residue. -/
theorem value_le_next {c : Counter} (m : ℕ) (hlast : c.last ≤ K) :
    c.value K ≤ (c.next m).value K := by
  simp only [value, next_last, next_wraps]
  rcases lt_or_ge m c.last with hlt | hge
  · rw [drop_of_lt hlt, Nat.mul_add, Nat.mul_one]; omega
  · rw [drop_of_le hge, Nat.add_zero]; omega

/-- One sample never moves the value further than the true count moved, if a
wrap is credited with at most one period. -/
theorem next_value_le {c : Counter} {a b : ℕ} (hlast : c.last = a % N) (hK : K ≤ N)
    (h : a ≤ b) : (c.next (b % N)).value K + a ≤ c.value K + b := by
  have hdrop := drop_mod_le N h
  have hmul : K * drop (a % N) (b % N) + N * (a / N) ≤ N * (b / N) := calc
    K * drop (a % N) (b % N) + N * (a / N)
        ≤ N * drop (a % N) (b % N) + N * (a / N) :=
          Nat.add_le_add_right (Nat.mul_le_mul_right _ hK) _
    _ = N * (drop (a % N) (b % N) + a / N) := by rw [Nat.mul_add]
    _ ≤ N * (b / N) := Nat.mul_le_mul_left _ hdrop
  have ha := Nat.div_add_mod a N
  have hb := Nat.div_add_mod b N
  simp only [value, next_last, next_wraps, hlast, Nat.mul_add]
  omega

/-- With no period unseen, a counter that knows the truth keeps knowing it. -/
theorem next_exact {a b : ℕ} (h : a ≤ b) (hgap : b < a + N) :
    (exact N a).next (b % N) = exact N b := by
  have hdrop := drop_mod_eq h hgap
  simp only [exact, next, Counter.mk.injEq, and_true]
  omega

/-- With no period unseen, the value moves by the true count less the deficit
`d = N - K` for each period passed. -/
theorem value_next_of_gap {c : Counter} {a b d : ℕ} (hlast : c.last = a % N) (hd : K + d = N)
    (h : a ≤ b) (hgap : b < a + N) :
    (c.next (b % N)).value K + a + d * (b / N) = c.value K + b + d * (a / N) := by
  have hdrop := drop_mod_eq h hgap
  have ha := Nat.div_add_mod a N
  have hb := Nat.div_add_mod b N
  have hKa : K * (a / N) + d * (a / N) = N * (a / N) := by rw [← Nat.add_mul, hd]
  have hKb : K * (b / N) + d * (b / N) = N * (b / N) := by rw [← Nat.add_mul, hd]
  have hmul : K * (b / N) = K * drop (a % N) (b % N) + K * (a / N) := by
    rw [← Nat.mul_add, hdrop]
  simp only [value, next_last, next_wraps, hlast, Nat.mul_add]
  omega

/-! ### A whole run -/

/-- **Neither backwards nor fast.**  Along any nondecreasing timeline, however
sampled, the value between two samples rises by at most the time between
them, and never falls. -/
theorem values_pairwise {c : Counter} {a : ℕ} {Ts : List ℕ} (hN : 0 < N)
    (hlast : c.last = a % N) (hlo : N ≤ K + 1) (hhi : K ≤ N)
    (hmono : (a :: Ts).Pairwise (· ≤ ·)) :
    ((a, c.value K) :: Ts.zip (c.values K (Ts.map (· % N)))).Pairwise
      (fun p q => p.2 ≤ q.2 ∧ q.2 + p.1 ≤ p.2 + q.1) := by
  have htrans : ∀ p q r : ℕ × ℕ, p.2 ≤ q.2 ∧ q.2 + p.1 ≤ p.2 + q.1 →
      q.2 ≤ r.2 ∧ r.2 + q.1 ≤ q.2 + r.1 → p.2 ≤ r.2 ∧ r.2 + p.1 ≤ p.2 + r.1 := by
    intro p q r hpq hqr
    omega
  induction Ts generalizing a c with
  | nil => simp
  | cons b Ts ih =>
    rw [List.pairwise_cons] at hmono
    have hamod := Nat.mod_lt a hN
    have hback : c.value K ≤ (c.next (b % N)).value K := value_le_next _ (by omega)
    have hfast := next_value_le (K := K) hlast hhi (hmono.1 b (by simp))
    have hrest := ih (c := c.next (b % N)) rfl hmono.2
    simp only [List.map_cons, values_cons, List.zip_cons_cons]
    refine List.pairwise_cons.2 ⟨?_, hrest⟩
    intro q hq
    rcases List.mem_cons.1 hq with rfl | hq
    · exact ⟨hback, hfast⟩
    · exact htrans _ _ _ ⟨hback, hfast⟩ ((List.pairwise_cons.1 hrest).1 q hq)

/-- **Sampled often enough, the counter is exact up to its credit**: the value
reported at `T` is that of the counter that knows `T`. -/
theorem values_exact {a : ℕ} {Ts : List ℕ}
    (hgap : (a :: Ts).IsChain (fun s t => s ≤ t ∧ t < s + N)) :
    (exact N a).values K (Ts.map (· % N)) = Ts.map fun T => (exact N T).value K := by
  induction Ts generalizing a with
  | nil => rfl
  | cons b Ts ih =>
    rw [List.isChain_cons_cons] at hgap
    simp only [List.map_cons, values_cons, next_exact hgap.1.1 hgap.1.2, ih hgap.2]

/-! ### Two runs over one timeline -/

/-- What a run reports at an instant depends on the samples up to that instant
only through the descents among them. -/
theorem value_of_mem_zip {c : Counter} {Ts : List ℕ} {T v : ℕ}
    (hmono : Ts.Pairwise (· ≤ ·)) (h : (T, v) ∈ Ts.zip (c.values K (Ts.map (· % N)))) :
    v = T % N + K * (c.wraps + descents c.last ((Ts.filter (· ≤ T)).map (· % N))) := by
  induction Ts generalizing c with
  | nil => simp at h
  | cons b Ts ih =>
    rw [List.pairwise_cons] at hmono
    simp only [List.map_cons, values_cons, List.zip_cons_cons, List.mem_cons, Prod.mk.injEq] at h
    rcases h with ⟨rfl, rfl⟩ | h
    · -- the samples that share the instant `T` with its first one add no descent
      have hconst : descents (T % N) ((Ts.filter (· ≤ T)).map (· % N)) = 0 := by
        apply descents_eq_zero_of_const
        intro x hx
        obtain ⟨t, ht, rfl⟩ := List.mem_map.1 hx
        rw [List.mem_filter, decide_eq_true_eq] at ht
        rw [le_antisymm ht.2 (hmono.1 t ht.1)]
      rw [List.filter_cons_of_pos (by simp), List.map_cons, descents_cons, hconst]
      simp [value]
    · have hbT : b ≤ T := hmono.1 T (List.of_mem_zip h).1
      rw [List.filter_cons_of_pos (by simpa using hbT), List.map_cons, descents_cons,
        ih hmono.2 h, next_wraps, next_last, Nat.add_assoc c.wraps]

/-- **More samples never lower the value**: at an instant two runs share, the
one that took extra samples in between reports at least as much. -/
theorem values_le_of_sublist {c : Counter} {A B : List ℕ} {T u v : ℕ} (hsub : A.Sublist B)
    (hmono : B.Pairwise (· ≤ ·)) (hA : (T, u) ∈ A.zip (c.values K (A.map (· % N))))
    (hB : (T, v) ∈ B.zip (c.values K (B.map (· % N)))) : u ≤ v := by
  rw [value_of_mem_zip (hmono.sublist hsub) hA, value_of_mem_zip hmono hB]
  have hdesc := descents_le_of_sublist ((hsub.filter (· ≤ T)).map (· % N)) c.last
  have hmul := Nat.mul_le_mul_left K (Nat.add_le_add_left hdesc c.wraps)
  exact Nat.add_le_add_left hmul _

/-- **Extra samples add nothing to a run that misses nothing.** -/
theorem values_eq_of_sublist {A B : List ℕ} {T u v : ℕ} (hsub : A.Sublist B)
    (hmono : (0 :: B).Pairwise (· ≤ ·))
    (hgap : (0 :: A).IsChain (fun s t => s ≤ t ∧ t < s + N))
    (hA : (T, u) ∈ A.zip ((exact N 0).values K (A.map (· % N))))
    (hB : (T, v) ∈ B.zip ((exact N 0).values K (B.map (· % N)))) : u = v := by
  have hBmono := (List.pairwise_cons.1 hmono).2
  refine le_antisymm (values_le_of_sublist hsub hBmono hA hB) ?_
  have hu : u = (exact N T).value K := by
    rw [values_exact hgap] at hA
    obtain ⟨i, hi, heq⟩ := List.mem_iff_getElem.1 hA
    simp only [List.getElem_zip, List.getElem_map, Prod.mk.injEq] at heq
    rw [← heq.2, heq.1]
  have hdesc : descents (0 % N) ((B.filter (· ≤ T)).map (· % N)) + 0 / N ≤ T / N := by
    apply descents_mod_le N (hmono.sublist (List.filter_sublist.cons_cons 0))
    intro t ht
    rcases List.mem_cons.1 ht with rfl | ht
    · exact Nat.zero_le _
    · simpa using (List.mem_filter.1 ht).2
  rw [value_of_mem_zip hBmono hB, hu]
  simp only [exact, value, Nat.zero_div, Nat.zero_add, Nat.add_zero] at hdesc ⊢
  exact Nat.add_le_add_left (Nat.mul_le_mul_left K hdesc) _

end Counter

end SampledCounter
