import Mathlib

/-!
# Integers as `printf` writes them

* `padded` — a natural number in decimal, with zeros up to a width.
* `printfD` — an `int` by `%0wd`.
* `length_padded`, `length_printfD` — **a number that fits its width is that wide.**
-/

namespace Printf

/-- A number in decimal, with zeros in front up to the width `w`. -/
def padded (w n : ℕ) : List Char :=
  let digits := (Nat.digits 10 n).reverse.map Nat.digitChar
  List.replicate (w - digits.length) '0' ++ digits

/-- `%0wd`. -/
def printfD (w : ℕ) (n : ℤ) : List Char :=
  if n < 0 then '-' :: padded (w - 1) n.natAbs else padded w n.natAbs

theorem length_padded {w n : ℕ} (h : n < 10 ^ w) : (padded w n).length = w := by
  have hdigits : (Nat.digits 10 n).length ≤ w :=
    (Nat.digits_length_le_iff (by norm_num) n).2 h
  simp only [padded, List.length_append, List.length_replicate, List.length_map,
    List.length_reverse]
  omega

theorem length_printfD {w : ℕ} {n : ℤ} (h₀ : 0 ≤ n) (h : n < 10 ^ w) :
    (printfD w n).length = w := by
  rw [printfD, if_neg (not_lt.2 h₀)]
  apply length_padded
  zify
  rwa [abs_of_nonneg h₀]

end Printf
