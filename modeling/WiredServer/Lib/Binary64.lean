import Mathlib

/-! IEEE 754 double precision values as rational numbers with a sign, the two infinities and
one NaN. Each operation rounds the exact result to the nearest value, ties to even. A result
that is already a value is not changed by rounding.
-/

namespace Binary64

/-- A double. Zero has a sign, and a NaN has no payload. -/
inductive Value where
  | nan
  | infinite (negative : Bool)
  | finite (negative : Bool) (magnitude : ℚ)
deriving DecidableEq, Repr

-----------------------------------------------------------------------------------------
-- Rounding
-----------------------------------------------------------------------------------------

/-- The integer nearest to a rational number, the even one of two. -/
def roundEven (number : ℚ) : ℤ :=
  let below := ⌊number⌋
  let rest := number - below
  if rest < 1 / 2 then below
  else if 1 / 2 < rest then below + 1
  else if below % 2 = 0 then below
  else below + 1

/-- The exponent of the last place of a magnitude, not below the one of the denormals. -/
def lastPlace (magnitude : ℚ) : ℤ :=
  max (Int.log 2 magnitude - 52) (-1074)

/-- The value nearest to a signed magnitude. -/
def round (negative : Bool) (magnitude : ℚ) : Value :=
  let unit : ℚ := 2 ^ lastPlace magnitude
  let rounded := roundEven (magnitude / unit) * unit
  if 2 ^ (1024 : ℤ) ≤ rounded then .infinite negative else .finite negative rounded

/-- A magnitude that a double holds exactly. -/
def Representable (magnitude : ℚ) : Prop :=
  ∃ (mantissa : ℕ) (exponent : ℤ), mantissa < 2 ^ 53 ∧ -1074 ≤ exponent ∧ exponent ≤ 971
    ∧ magnitude = mantissa * 2 ^ exponent

/-- Rounding an integer to an integer keeps it. -/
@[simp] theorem roundEven_intCast (number : ℤ) : roundEven (number : ℚ) = number := by
  simp [roundEven]

/-- The last place of a magnitude is no finer than a place it is written in. -/
theorem lastPlace_le {mantissa : ℕ} {exponent : ℤ} (positive : 0 < mantissa)
    (small : mantissa < 2 ^ 53) (low : -1074 ≤ exponent)
    : lastPlace (mantissa * 2 ^ exponent) ≤ exponent := by
  have bound : (mantissa : ℚ) * 2 ^ exponent < 2 ^ (exponent + 53) := by
    rw [zpow_add₀ two_ne_zero, mul_comm]
    exact mul_lt_mul_of_pos_left (by exact_mod_cast small) (zpow_pos two_pos _)
  have log : Int.log 2 ((mantissa : ℚ) * 2 ^ exponent) < exponent + 53 :=
    (Int.lt_zpow_iff_log_lt Nat.one_lt_two (by positivity)).mp (by exact_mod_cast bound)
  simp only [lastPlace]
  omega

/-- Rounding keeps every magnitude that a double holds exactly. -/
theorem round_representable {negative : Bool} {magnitude : ℚ}
    (exact : Representable magnitude)
    : round negative magnitude = .finite negative magnitude := by
  obtain ⟨mantissa, exponent, small, low, high, rfl⟩ := exact
  have whole : ∃ number : ℤ,
      (mantissa : ℚ) * 2 ^ exponent / 2 ^ lastPlace (mantissa * 2 ^ exponent) = number := by
    rcases Nat.eq_zero_or_pos mantissa with rfl | positive
    · exact ⟨0, by simp⟩
    · have place := lastPlace_le positive small low
      refine ⟨mantissa * 2 ^ (exponent - lastPlace (mantissa * 2 ^ exponent)).toNat, ?_⟩
      rw [mul_div_assoc, ← zpow_sub₀ two_ne_zero]
      push_cast
      rw [← zpow_natCast, Int.toNat_of_nonneg (by omega)]
  have below : (mantissa : ℚ) * 2 ^ exponent < 2 ^ (1024 : ℤ) :=
    calc
      (mantissa : ℚ) * 2 ^ exponent < 2 ^ (53 : ℤ) * 2 ^ exponent :=
        mul_lt_mul_of_pos_right (by exact_mod_cast small) (zpow_pos two_pos _)
      _ ≤ 2 ^ (53 : ℤ) * 2 ^ (971 : ℤ) :=
        mul_le_mul_of_nonneg_left (zpow_le_zpow_right₀ one_le_two high) (by positivity)
      _ = 2 ^ (1024 : ℤ) := by rw [← zpow_add₀ two_ne_zero]; rfl
  obtain ⟨number, isWhole⟩ := whole
  have kept : ((roundEven ((mantissa : ℚ) * 2 ^ exponent
      / 2 ^ lastPlace (mantissa * 2 ^ exponent)) : ℤ) : ℚ)
        * 2 ^ lastPlace (mantissa * 2 ^ exponent)
      = mantissa * 2 ^ exponent := by
    rw [isWhole, roundEven_intCast, ← isWhole]
    exact div_mul_cancel₀ _ (zpow_ne_zero _ two_ne_zero)
  simp only [round, kept]
  exact if_neg (not_le.mpr below)

-----------------------------------------------------------------------------------------
-- Operations
-----------------------------------------------------------------------------------------

namespace Value

/-- The rational number that a finite value stands for. -/
def number (negative : Bool) (magnitude : ℚ) : ℚ :=
  if negative then -magnitude else magnitude

/-- The value nearest to a rational number; an exact zero is positive. -/
def ofNumber (number : ℚ) : Value :=
  round (number < 0) |number|

/-- Whether a value is below zero. -/
def isNegative : Value → Bool
  | .nan => false
  | .infinite negative => negative
  | .finite negative magnitude => negative && magnitude ≠ 0

/-- Whether a value equals zero. -/
def isZero : Value → Bool
  | .finite _ magnitude => magnitude = 0
  | _ => false

/-- Whether a value is below one. -/
def belowOne : Value → Bool
  | .nan => false
  | .infinite negative => negative
  | .finite negative magnitude => number negative magnitude < 1

/-- The value with the opposite sign. -/
def negate : Value → Value
  | .nan => .nan
  | .infinite negative => .infinite !negative
  | .finite negative magnitude => .finite (!negative) magnitude

/-- The fraction between one half and one, and its binary exponent. The exponent of a value
that is not finite is unspecified, and zero here.
-/
def frexp : Value → Value × ℤ
  | .finite negative magnitude =>
      if magnitude = 0 then (.finite negative 0, 0)
      else
        let exponent := Int.log 2 magnitude + 1
        (.finite negative (magnitude / 2 ^ exponent), exponent)
  | other => (other, 0)

/-- The value times a power of two. -/
def ldexp (value : Value) (exponent : ℤ) : Value :=
  match value with
  | .finite negative magnitude => round negative (magnitude * 2 ^ exponent)
  | other => other

/-- The sum of two values. Two negative zeros keep their sign. -/
def add : Value → Value → Value
  | .nan, _ => .nan
  | _, .nan => .nan
  | .infinite left, .infinite right => if left = right then .infinite left else .nan
  | .infinite left, .finite _ _ => .infinite left
  | .finite _ _, .infinite right => .infinite right
  | .finite left first, .finite right second =>
      if left && right && first = 0 && second = 0 then .finite true 0
      else ofNumber (number left first + number right second)

/-- The difference of two values. -/
def sub (left right : Value) : Value :=
  left.add right.negate

/-- The double of a natural number, rounded when it is large. -/
def ofNat (number : ℕ) : Value :=
  round false number

/-- The integer below a value, for values whose integer part is in range of the cast. -/
def floorNat : Value → ℕ
  | .finite false magnitude => ⌊magnitude⌋₊
  | _ => 0

end Value

/-- Scaling a value is exact when the result is representable. -/
theorem ldexp_exact {negative : Bool} {magnitude : ℚ} {exponent : ℤ}
    (exact : Representable (magnitude * 2 ^ exponent))
    : (Value.finite negative magnitude).ldexp exponent
      = .finite negative (magnitude * 2 ^ exponent) :=
  round_representable exact

/-- Scaling a mantissa that stays in range adds the exponents. -/
theorem ldexp_mantissa (negative : Bool) {mantissa : ℕ} (exponent scale : ℤ)
    (small : mantissa < 2 ^ 53) (low : -1074 ≤ exponent + scale) (high : exponent + scale ≤ 971)
    : (Value.finite negative (mantissa * 2 ^ exponent)).ldexp scale
      = .finite negative (mantissa * 2 ^ (exponent + scale)) := by
  have sum : (mantissa : ℚ) * 2 ^ exponent * 2 ^ scale = mantissa * 2 ^ (exponent + scale) := by
    rw [zpow_add₀ two_ne_zero, mul_assoc]
  rw [ldexp_exact ⟨mantissa, exponent + scale, small, low, high, sum⟩, sum]

/-- Adding magnitudes is exact when the sum is representable. -/
theorem add_exact {left right : ℚ} (leftSign : 0 ≤ left) (rightSign : 0 ≤ right)
    (exact : Representable (left + right))
    : (Value.finite false left).add (.finite false right) = .finite false (left + right) := by
  have nonneg : ¬left + right < 0 := not_lt.mpr (add_nonneg leftSign rightSign)
  simp [Value.add, Value.ofNumber, Value.number, nonneg,
    abs_of_nonneg (add_nonneg leftSign rightSign), round_representable exact]

/-- Subtracting a smaller magnitude is exact when the difference is representable. -/
theorem sub_exact {left right : ℚ} (order : right ≤ left) (exact : Representable (left - right))
    : (Value.finite false left).sub (.finite false right) = .finite false (left - right) := by
  have nonneg : ¬left < right := not_lt.mpr order
  simp [Value.sub, Value.negate, Value.add, Value.ofNumber, Value.number, ← sub_eq_add_neg, nonneg,
    abs_of_nonneg (sub_nonneg.mpr order), round_representable exact]

/-- Small natural numbers are doubles. -/
theorem ofNat_exact {number : ℕ} (small : number < 2 ^ 53)
    : Value.ofNat number = .finite false number :=
  round_representable ⟨number, 0, small, by omega, by omega, by simp⟩

/-- The fraction of a mantissa of `width + 1` bits at any scale. -/
theorem frexp_exact {mantissa width : ℕ} (exponent : ℤ) (above : 2 ^ width ≤ mantissa)
    (below : mantissa < 2 ^ (width + 1))
    : (Value.finite false (mantissa * 2 ^ exponent)).frexp
      = (.finite false (mantissa * 2 ^ (-(width + 1) : ℤ)), exponent + width + 1) := by
  have positive : (0 : ℚ) < mantissa * 2 ^ exponent := by
    have nonzero : 0 < mantissa := lt_of_lt_of_le (Nat.two_pow_pos width) above
    positivity
  have lower : (2 : ℚ) ^ (exponent + width) ≤ mantissa * 2 ^ exponent := by
    rw [add_comm, zpow_add₀ two_ne_zero]
    exact mul_le_mul_of_nonneg_right (by exact_mod_cast above) (by positivity)
  have upper : (mantissa : ℚ) * 2 ^ exponent < 2 ^ (exponent + width + 1) := by
    rw [add_assoc, add_comm, zpow_add₀ two_ne_zero]
    exact mul_lt_mul_of_pos_right (by exact_mod_cast below) (by positivity)
  have log : Int.log 2 ((mantissa : ℚ) * 2 ^ exponent) = exponent + width := by
    have least := (Int.zpow_le_iff_le_log Nat.one_lt_two positive).mp (by exact_mod_cast lower)
    have greatest := (Int.lt_zpow_iff_log_lt Nat.one_lt_two positive).mp (by exact_mod_cast upper)
    omega
  have scaled : (mantissa : ℚ) * 2 ^ exponent / 2 ^ (exponent + width + 1)
      = mantissa * 2 ^ (-(width + 1) : ℤ) := by
    rw [mul_div_assoc, ← zpow_sub₀ two_ne_zero]
    congr 2
    ring
  simp only [Value.frexp, positive.ne', if_false, log, scaled]

/-- The fraction of a mantissa is below one. -/
theorem fraction_belowOne {mantissa width : ℕ} (below : mantissa < 2 ^ (width + 1))
    : (Value.finite false (mantissa * 2 ^ (-(width + 1) : ℤ))).belowOne = true := by
  have bound : (mantissa : ℚ) * 2 ^ (-(width + 1) : ℤ) < 1 := by
    rw [zpow_neg, ← div_eq_mul_inv, div_lt_one (by positivity)]
    exact_mod_cast below
  simpa [Value.belowOne, Value.number] using bound

-----------------------------------------------------------------------------------------
-- Interchange format
-----------------------------------------------------------------------------------------

/-- The value of a 64-bit pattern. -/
def decode (bits : UInt64) : Value :=
  let negative : Bool := 2 ^ 63 ≤ bits.toNat
  let exponent : ℕ := bits.toNat / 2 ^ 52 % 2 ^ 11
  let mantissa : ℕ := bits.toNat % 2 ^ 52
  if exponent = 2047 then
    if mantissa = 0 then .infinite negative else .nan
  else if exponent = 0 then .finite negative ((mantissa : ℕ) * 2 ^ (-1074 : ℤ))
  else .finite negative ((2 ^ 52 + mantissa : ℕ) * 2 ^ ((exponent : ℤ) - 1075))

end Binary64
