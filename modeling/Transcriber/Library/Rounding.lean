import Mathlib.Algebra.Order.Floor.Div

/-! Sizes rounded up to whole blocks. -/

namespace Rounding

/-- The least multiple of a block size that is not below a number of bytes. -/
def roundUp (block bytes : Nat) : Nat := (bytes + block - 1) / block * block

variable {block : Nat}

theorem roundUp_eq (block bytes : Nat) : roundUp block bytes = (bytes ⌈/⌉ block) * block := by
  rw [roundUp, Nat.ceilDiv_eq_add_pred_div]

/-- Rounding up keeps at least the size. -/
theorem le_roundUp (positive : 0 < block) (bytes : Nat) : bytes ≤ roundUp block bytes := by
  rw [roundUp_eq, Nat.mul_comm]
  exact le_smul_ceilDiv positive

theorem roundUp_zero (block : Nat) : roundUp block 0 = 0 := by
  rw [roundUp_eq, zero_ceilDiv, Nat.zero_mul]

theorem roundUp_mono {first second : Nat} (le : first ≤ second)
    : roundUp block first ≤ roundUp block second := by
  unfold roundUp
  exact Nat.mul_le_mul_right _ (Nat.div_le_div_right (by omega))

/-- Rounding up is sub-additive: the sum of the rounded parts is a multiple that covers the whole.
-/
theorem roundUp_add_le (positive : 0 < block) (first second : Nat)
    : roundUp block (first + second) ≤ roundUp block first + roundUp block second := by
  simp only [roundUp_eq, ← Nat.add_mul]
  refine Nat.mul_le_mul_right _ ((ceilDiv_le_iff_le_mul positive).mpr ?_)
  rw [Nat.mul_add]
  exact Nat.add_le_add (le_smul_ceilDiv positive) (le_smul_ceilDiv positive)

end Rounding
