import Mathlib

/-! The integer functions from which strings and collections compute their capacities. -/

namespace WiredServer

/-- `wi_log2`. -/
def log2 (n : ℕ) : ℕ :=
  if n < 2 then 0 else log2 (n >>> 1) + 1
termination_by n
decreasing_by
  rw [Nat.shiftRight_one]
  omega

/-- `wi_exp2m1`. The shift is one of an `int`: it takes the number modulo 32, and subtracting one
from the smallest `int` gives the largest.
-/
def exp2m1 (n : ℕ) : ℕ :=
  2 ^ (n % 32) - 1

/-- `WI_CLAMP`. -/
def clamp (x lower upper : ℕ) : ℕ :=
  if x > upper then upper else if x < lower then lower else x

/-- The logarithm is the number of the highest bit. -/
theorem log2_eq (n : ℕ) : log2 n = Nat.log2 n := by
  induction n using log2.induct with
  | case1 n small =>
      rw [log2, if_pos small]
      interval_cases n <;> rfl
  | case2 n large ih =>
      rw [log2, if_neg large, ih, Nat.shiftRight_one, Nat.log2_def n, if_pos (not_lt.mp large)]

/-- The next power of two is larger than a number. -/
theorem lt_two_pow_log2 (n : ℕ) : n < 2 ^ (log2 n + 1) := by
  rw [log2_eq]
  exact Nat.lt_log2_self

end WiredServer
