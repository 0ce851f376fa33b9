import WiredServer.Lib.Binary64

/-! IEEE 754 single precision, for positive numbers that are neither tiny nor huge. -/

namespace Binary32

open Binary64 (roundEven roundEven_intCast)

/-- The single precision value nearest to a positive number. -/
def round (number : ℚ) : ℚ :=
  let unit : ℚ := 2 ^ (Int.log 2 number - 23)
  roundEven (number / unit) * unit

/-- Rounding does not go below an integer. -/
theorem le_roundEven {integer : ℤ} {number : ℚ} (below : (integer : ℚ) ≤ number) : integer ≤ roundEven number := by
  have floor : integer ≤ ⌊number⌋ := Int.le_floor.mpr below
  simp only [roundEven]
  split_ifs <;> omega

/-- Rounding goes up by one half at most. -/
theorem roundEven_le (number : ℚ) : (roundEven number : ℚ) ≤ number + 1 / 2 := by
  have floor : (⌊number⌋ : ℚ) ≤ number := Int.floor_le number
  simp only [roundEven]
  split_ifs <;> push_cast <;> linarith

/-- A number is not rounded below a power of two. -/
theorem le_round {number : ℚ} {exponent : ℤ} (below : (2 : ℚ) ^ exponent ≤ number)
    : (2 : ℚ) ^ exponent ≤ round number := by
  have positive : 0 < number := lt_of_lt_of_le (zpow_pos two_pos _) below
  have log : exponent ≤ Int.log 2 number := (Int.zpow_le_iff_le_log Nat.one_lt_two positive).mp below
  have itself : (2 : ℚ) ^ Int.log 2 number ≤ number := Int.zpow_log_le_self Nat.one_lt_two positive
  have unit : (0 : ℚ) < 2 ^ (Int.log 2 number - 23) := zpow_pos two_pos _
  have split : (2 : ℚ) ^ Int.log 2 number = ((2 ^ 23 : ℤ) : ℚ) * 2 ^ (Int.log 2 number - 23) := by
    rw [zpow_sub₀ two_ne_zero]
    norm_num
    ring
  have mantissa : (2 ^ 23 : ℤ) ≤ roundEven (number / 2 ^ (Int.log 2 number - 23)) := by
    refine le_roundEven ?_
    rw [le_div_iff₀ unit, ← split]
    exact itself
  calc (2 : ℚ) ^ exponent
      ≤ 2 ^ Int.log 2 number := zpow_le_zpow_right₀ one_le_two log
    _ = ((2 ^ 23 : ℤ) : ℚ) * 2 ^ (Int.log 2 number - 23) := split
    _ ≤ round number := mul_le_mul_of_nonneg_right (by exact_mod_cast mantissa) unit.le

/-- A number is rounded up by half of its last place at most. -/
theorem round_le (number : ℚ) : round number ≤ number + 2 ^ (Int.log 2 number - 24) := by
  have unit : (0 : ℚ) < 2 ^ (Int.log 2 number - 23) := zpow_pos two_pos _
  have half : (2 : ℚ) ^ (Int.log 2 number - 24) = 1 / 2 * 2 ^ (Int.log 2 number - 23) := by
    rw [show Int.log 2 number - 23 = Int.log 2 number - 24 + 1 by ring, zpow_add_one₀ two_ne_zero]
    ring
  calc round number
      ≤ (number / 2 ^ (Int.log 2 number - 23) + 1 / 2) * 2 ^ (Int.log 2 number - 23) :=
        mul_le_mul_of_nonneg_right (roundEven_le _) unit.le
    _ = number + 2 ^ (Int.log 2 number - 24) := by rw [half, add_mul, div_mul_cancel₀ _ unit.ne']

/-- Below the 24th bit the last place of a number divides the integers. -/
theorem exists_places {number : ℚ} (log : Int.log 2 number ≤ 23)
    : ∃ places : ℕ, (2 : ℚ) ^ (Int.log 2 number - 23) = (2 ^ places)⁻¹ := by
  obtain ⟨places, isPlaces⟩ : ∃ places : ℕ, Int.log 2 number - 23 = -(places : ℤ) :=
    ⟨(23 - Int.log 2 number).toNat, by omega⟩
  exact ⟨places, by rw [isPlaces, zpow_neg, zpow_natCast]⟩

/-- A number is not rounded below an integer. -/
theorem natCast_le_round {integer : ℕ} {number : ℚ} (log : Int.log 2 number ≤ 23) (below : integer ≤ number)
    : integer ≤ round number := by
  obtain ⟨places, unit⟩ := exists_places log
  have scaled : ((integer * 2 ^ places : ℕ) : ℤ) ≤ roundEven (number / (2 ^ places)⁻¹) := by
    refine le_roundEven ?_
    rw [div_inv_eq_mul]
    push_cast
    exact mul_le_mul_of_nonneg_right below (by positivity)
  have cast : (integer * 2 ^ places : ℚ) ≤ roundEven (number / (2 ^ places)⁻¹) := by exact_mod_cast scaled
  simp only [round, unit]
  rw [← div_eq_mul_inv, le_div_iff₀ (by positivity)]
  exact cast

/-- An integer of at most 24 bits is a single precision value. -/
theorem round_natCast {number : ℕ} (small : number < 2 ^ 24) : round number = number := by
  have log : Int.log 2 (number : ℚ) ≤ 23 := by
    rw [Int.log_natCast]
    have bits : Nat.log 2 number < 24 := Nat.log_lt_of_lt_pow' (by norm_num) small
    omega
  obtain ⟨places, unit⟩ := exists_places log
  have whole : (number : ℚ) / (2 ^ places)⁻¹ = ((number * 2 ^ places : ℕ) : ℤ) := by
    rw [div_inv_eq_mul]
    push_cast
    rfl
  simp only [round, unit]
  rw [whole, roundEven_intCast, ← whole, div_mul_cancel₀ _ (by positivity)]

end Binary32
