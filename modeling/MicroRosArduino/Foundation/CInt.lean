import Mathlib

/-!
# C's integer conversions

The conversions a C compiler inserts when `int`, `size_t`, `uint32_t` and
`int64_t` meet in one expression, on a target where `int` has 32 bits and
`size_t` has `w`.

* `sizeOfInt` — `int` to `size_t`: sign extension, so a value from `0` up keeps
  its value and a negative one lands just below `2 ^ w`.
* `not_lt_zero_size` — a `size_t` compared with `0` is never below it.
* `toNat_toUInt32` — `int` to `uint32_t`, the conversion behind a mixed
  signed and unsigned comparison.
-/

namespace CInt

variable {w : ℕ}

/-- The conversion from `int` to a `size_t` of `w` bits. -/
def sizeOfInt (w : ℕ) (i : Int32) : BitVec w := i.toBitVec.signExtend w

/-- The conversion from `int` to `uint16_t`. -/
def toUInt16 (i : Int32) : UInt16 := i.toUInt32.toUInt16

theorem toNat_sizeOfInt (hw : 32 ≤ w) (i : Int32) :
    ((sizeOfInt w i).toNat : ℤ) = if i.toInt < 0 then 2 ^ w + i.toInt else i.toInt := by
  have hi : (sizeOfInt w i).toInt = i.toInt := by
    rw [sizeOfInt, BitVec.toInt_signExtend_of_le hw, Int32.toInt_toBitVec]
  have hlt := (sizeOfInt w i).isLt
  have hpow : ((2 ^ w : ℕ) : ℤ) = 2 ^ w := by push_cast; rfl
  rw [← hi, BitVec.toInt_eq_toNat_cond, ← hpow]
  split <;> split <;> omega

@[simp] theorem sizeOfInt_zero : sizeOfInt w 0 = 0#w := by
  rw [sizeOfInt, BitVec.signExtend_eq_setWidth_of_msb_false rfl]
  exact BitVec.setWidth_zero _ _

/-- A nonnegative `int` keeps its value. -/
theorem toNat_sizeOfInt_of_nonneg (hw : 32 ≤ w) {i : Int32} (hi : 0 ≤ i.toInt) :
    ((sizeOfInt w i).toNat : ℤ) = i.toInt := by
  rw [toNat_sizeOfInt hw, if_neg (by omega)]

/-- A negative `int` becomes a size of at least `2 ^ 31`. -/
theorem le_toNat_sizeOfInt_of_neg (hw : 32 ≤ w) {i : Int32} (hi : i.toInt < 0) :
    2 ^ 31 ≤ (sizeOfInt w i).toNat := by
  have h := toNat_sizeOfInt hw i
  rw [if_pos hi] at h
  have hlo := i.le_toInt
  have hpow : (2 : ℤ) ^ 32 ≤ 2 ^ w := pow_le_pow_right₀ (by norm_num) hw
  norm_num at hlo hpow ⊢
  omega

/-- An unsigned comparison with zero never holds. -/
@[simp] theorem not_lt_zero_size (n : BitVec w) : ¬ n < 0#w := by simp

/-- The conversion from `int` to `uint32_t` adds `2 ^ 32` to a negative value. -/
theorem toNat_toUInt32 (i : Int32) :
    (i.toUInt32.toNat : ℤ) = if i.toInt < 0 then 2 ^ 32 + i.toInt else i.toInt := by
  have hlt := i.toBitVec.isLt
  have hnat : i.toUInt32.toNat = i.toBitVec.toNat := rfl
  rw [hnat, ← Int32.toInt_toBitVec, BitVec.toInt_eq_toNat_cond]
  split <;> split <;> push_cast at * <;> omega

theorem lt_zero_iff (i : Int32) : i < 0 ↔ i.toInt < 0 := by
  rw [Int32.lt_iff_toInt_lt, Int32.toInt_zero]

end CInt
