import Mathlib.Algebra.Order.Ring.Int

/-!
# Conversion to a 32-bit integer

## Main definitions

* `cInt`: the value a 32-bit `int` takes from a wider integer

## Main results

* `cInt_natCast`, `cInt_le`, `cInt_lt`: the conversion of a count is exact in range, and never above
  the count or the range
-/

namespace MachineInt

/-- Conversion to the 32-bit `int`. -/
def cInt (n : ℤ) : ℤ := n.bmod (2 ^ 32)

theorem cInt_natCast {n : ℕ} (h : n < 2147483648) : cInt n = n := by
  refine Int.bmod_eq_of_le ?_ ?_ <;> omega

theorem cInt_le (n : ℕ) : cInt n ≤ n := by
  rw [cInt, Int.bmod_def]
  omega

theorem cInt_lt (n : ℤ) : cInt n < 2147483648 := by
  rw [cInt, Int.bmod_def]
  omega

end MachineInt
