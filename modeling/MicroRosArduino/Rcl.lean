import Mathlib

/-!
# `rcl`: return codes, and what is published

What the sketches take from the headers of `rcl`.  A message is published when
`rcl_publish` returns `RCL_RET_OK`, and not otherwise; so an account of a publisher is
kept of the messages handed to it, each with the code that came back.

* `rclRetOk`, `rclMsToNs` — two macros of the headers.
* `Handed`, `published` — a message handed to `rcl_publish`, and the messages published of
  a number of them.
* `PublishesInOrder` — what it is to publish a list: everything handed over in order, and
  nothing lost but what `rcl_publish` failed to take (`published_eq_iff`).
* `counting` — the list that most of the publishers are for.
-/

namespace MicroRosArduino

/-- `RCL_RET_OK`, and `RMW_RET_OK`. -/
def rclRetOk : Int32 := 0

/-- `RCL_MS_TO_NS`. -/
def rclMsToNs (ms : UInt64) : UInt64 := ms * (1000 * 1000)

/-! ## What is published -/

variable {α : Type}

/-- A call of `rcl_publish` that has returned. -/
structure Handed (α : Type) where
  /-- The message. -/
  message : α
  /-- The code it returned. -/
  rc : Int32
  deriving DecidableEq, Repr

/-- The messages that were published. -/
def published (calls : List (Handed α)) : List α :=
  (calls.filter fun h => h.rc = rclRetOk).map Handed.message

/-- The messages published were handed over in the same order. -/
theorem published_sublist (calls : List (Handed α)) :
    (published calls).Sublist (calls.map Handed.message) :=
  List.filter_sublist.map Handed.message

/-- All of them were published exactly when no call failed. -/
theorem published_eq_iff (calls : List (Handed α)) :
    published calls = calls.map Handed.message ↔ ∀ h ∈ calls, h.rc = rclRetOk := by
  constructor
  · intro heq
    have hlength := congrArg List.length heq
    rw [published, List.length_map, List.length_map, List.length_filter_eq_length_iff] at hlength
    exact fun h hh => of_decide_eq_true (hlength h hh)
  · intro hall
    rw [published, List.filter_eq_self.2 fun h hh => decide_eq_true (hall h hh)]

/-- The messages `xs` were handed to `rcl_publish`, in order and once each; those published
are in that order, and they are all of `xs` exactly when no call failed. -/
structure PublishesInOrder (calls : List (Handed α)) (xs : List α) : Prop where
  handed : calls.map Handed.message = xs
  sublist : (published calls).Sublist xs
  eq_iff : published calls = xs ↔ ∀ h ∈ calls, h.rc = rclRetOk

namespace PublishesInOrder

variable {calls : List (Handed α)} {xs : List α}

theorem of_handed (h : calls.map Handed.message = xs) : PublishesInOrder calls xs := by
  subst h
  exact ⟨rfl, published_sublist calls, published_eq_iff calls⟩

theorem nil : PublishesInOrder ([] : List (Handed α)) [] := of_handed rfl

/-- One more message is handed over, and published or not. -/
theorem push (h : PublishesInOrder calls xs) (x : α) (rc : Int32) :
    PublishesInOrder (calls ++ [⟨x, rc⟩]) (xs ++ [x]) :=
  of_handed (by rw [List.map_append, h.handed]; rfl)

end PublishesInOrder

/-! ## Counting -/

/-- The first `n` values of an `Int32` that counts from 0. -/
def counting (n : ℕ) : List Int32 := (List.range n).map Int32.ofNat

@[simp] theorem length_counting (n : ℕ) : (counting n).length = n := by simp [counting]

theorem counting_succ (n : ℕ) : counting (n + 1) = counting n ++ [Int32.ofNat n] := by
  simp [counting, List.range_succ]

/-- A counter publishes its next value. -/
theorem PublishesInOrder.count {calls : List (Handed Int32)} {n : ℕ}
    (h : PublishesInOrder calls (counting n)) (rc : Int32) :
    PublishesInOrder (calls ++ [⟨Int32.ofNat n, rc⟩]) (counting (n + 1)) := by
  rw [counting_succ]
  exact h.push _ rc

end MicroRosArduino
