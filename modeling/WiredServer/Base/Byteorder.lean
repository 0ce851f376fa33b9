import Mathlib
import WiredServer.Lib.Binary64
import WiredServer.Lib.Bytes

/-! The portable format of doubles on the wire.
Writing takes a double apart with `frexp` and two truncations, and reading puts the two halves
together again. Both halves of every finite double are exact on the way. A negative zero is
written as zero and a NaN as infinity, as the comments in the source say.
-/

namespace WiredServer

open Binary64

/-- The two words that `wi_write_double_to_ieee754` computes before it stores their bytes. -/
def ieee754Words (value : Value) : UInt32 × UInt32 :=
  let sign : ℕ := if value.isNegative then 0x80000000 else 0
  let value := if value.isNegative then value.negate else value
  if value.isZero then (0, 0)
  else
    let fmantissa := value.frexp.1
    let exp := value.frexp.2
    if exp > 2047 - 1023 + 1 || !fmantissa.belowOne then (.ofNat (sign ||| 0x7FF00000), 0)
    else if exp < -(1023 - 2) then
      -- Smaller than normalized.
      let shift := (20 + 1) + (1023 - 2) + exp
      if shift < 0 then
        if shift + 32 < 0 then (.ofNat sign, 0)
        else (.ofNat sign, .ofNat (fmantissa.ldexp (shift + 32)).floorNat)
      else
        let fsmantissa := fmantissa.ldexp shift
        let mantissa := fsmantissa.floorNat
        (.ofNat (sign ||| mantissa),
          .ofNat ((fsmantissa.sub (.ofNat mantissa)).ldexp 32).floorNat)
    else
      let fsmantissa := fmantissa.ldexp (20 + 1)
      let mantissa := fsmantissa.floorNat - 2 ^ 20
      let fsmantissa := fsmantissa.sub (.ofNat (2 ^ 20))
      (.ofNat (sign ||| ((exp + 1023 - 1).toNat <<< 20) ||| mantissa),
        .ofNat ((fsmantissa.sub (.ofNat mantissa)).ldexp 32).floorNat)

/-- `wi_write_double_to_ieee754`: the eight bytes that it stores. -/
def writeDoubleToIeee754 (value : Value) : Bytes.Block :=
  Bytes.be32 (ieee754Words value).1 ++ Bytes.be32 (ieee754Words value).2

/-- The value that `wi_read_double_from_ieee754` makes of two words, before it applies the sign. -/
def magnitudeOfWords (first second : UInt32) : Value :=
  let exp := (first &&& 0x7FF00000) >>> 20
  if first = 0 ∧ second = 0 then .finite false 0
  else if exp = 2047 then .infinite false
  else if exp = 0 then
    -- Denormalized number.
    let mantissa := first &&& 0x000FFFFF
    ((Value.ofNat mantissa.toNat).ldexp (exp.toNat - 1023 - 20 + 1)).add
      ((Value.ofNat second.toNat).ldexp (exp.toNat - 1023 - 20 + 1 - 32))
  else
    -- Normalized number, with the hidden bit inserted.
    let mantissa := (first &&& 0x000FFFFF) + 0x00100000
    ((Value.ofNat mantissa.toNat).ldexp (exp.toNat - 1023 - 20)).add
      ((Value.ofNat second.toNat).ldexp (exp.toNat - 1023 - 20 - 32))

/-- The value that `wi_read_double_from_ieee754` makes of two words. -/
def ofIeee754Words (first second : UInt32) : Value :=
  let value := magnitudeOfWords first second
  if first &&& 0x80000000 ≠ 0 then value.negate else value

/-- `wi_read_double_from_ieee754` on eight bytes. -/
def readDoubleFromIeee754 (bytes : Bytes.Block) : Value :=
  ofIeee754Words (Bytes.ofBe32 (bytes.take 4)) (Bytes.ofBe32 (bytes.drop 4))

/-- What writing makes of a double: a NaN becomes infinity and a negative zero becomes zero. -/
def canonicalDouble (bits : UInt64) : UInt64 :=
  if decode bits = .nan then 0x7FF0000000000000
  else if bits = 0x8000000000000000 then 0
  else bits

-----------------------------------------------------------------------------------------
-- Reading
-----------------------------------------------------------------------------------------

/-- The first word holds the sign, the exponent and the upper part of the mantissa. -/
theorem first_fields (first : UInt32)
    : ((first &&& 0x7FF00000) >>> 20).toNat = first.toNat / 2 ^ 20 % 2 ^ 11
      ∧ (first &&& 0x000FFFFF).toNat = first.toNat % 2 ^ 20
      ∧ (first &&& 0x80000000 ≠ 0 ↔ 2 ^ 31 ≤ first.toNat) := by
  have bound := first.toNat_lt
  refine ⟨?_, Nat.and_two_pow_sub_one_eq_mod first.toNat 20, ?_⟩
  · calc
      ((first &&& 0x7FF00000) >>> 20).toNat = (first.toNat &&& 0x7FF00000) >>> 20 := rfl
      _ = (first.toNat >>> 20) &&& (2 ^ 11 - 1) := Nat.shiftRight_and_distrib
      _ = first.toNat >>> 20 % 2 ^ 11 := Nat.and_two_pow_sub_one_eq_mod ..
      _ = first.toNat / 2 ^ 20 % 2 ^ 11 := by rw [Nat.shiftRight_eq_div_pow]
  · have masked : (first &&& 0x80000000).toNat = (first.toNat.testBit 31).toNat * 2 ^ 31 :=
      Nat.and_two_pow first.toNat 31
    rw [Ne, ← UInt32.toNat_inj, masked, UInt32.toNat_zero, Nat.testBit_eq_decide_div_mod_eq]
    by_cases top : first.toNat / 2 ^ 31 % 2 = 1
    · simp only [top, decide_true, Bool.toNat_true]
      omega
    · simp only [top, decide_false, Bool.toNat_false]
      omega

/-- A mantissa is the exact sum of its two halves at any scale. -/
theorem add_halves (mantissa : ℕ) (exponent : ℤ) (small : mantissa < 2 ^ 53)
    (low : -1074 ≤ exponent) (high : exponent ≤ 971)
    : ((Value.ofNat (mantissa / 2 ^ 32)).ldexp (exponent + 32)).add
        ((Value.ofNat (mantissa % 2 ^ 32)).ldexp exponent)
      = .finite false (mantissa * 2 ^ exponent) := by
  have upper : ((mantissa / 2 ^ 32 : ℕ) : ℚ) * 2 ^ (exponent + 32)
      = (mantissa / 2 ^ 32 * 2 ^ 32 : ℕ) * 2 ^ exponent := by
    rw [zpow_add₀ two_ne_zero]
    push_cast
    ring
  have sum : ((mantissa / 2 ^ 32 : ℕ) : ℚ) * 2 ^ (exponent + 32)
      + ((mantissa % 2 ^ 32 : ℕ) : ℚ) * 2 ^ exponent = mantissa * 2 ^ exponent := by
    rw [upper, ← add_mul, ← Nat.cast_add, Nat.div_add_mod']
  have firstExact : Representable (((mantissa / 2 ^ 32 : ℕ) : ℚ) * 2 ^ (exponent + 32)) :=
    ⟨_, exponent, by omega, low, high, upper⟩
  have secondExact : Representable (((mantissa % 2 ^ 32 : ℕ) : ℚ) * 2 ^ exponent) :=
    ⟨_, exponent, by omega, low, high, rfl⟩
  have sumExact : Representable (((mantissa / 2 ^ 32 : ℕ) : ℚ) * 2 ^ (exponent + 32)
      + ((mantissa % 2 ^ 32 : ℕ) : ℚ) * 2 ^ exponent) :=
    ⟨mantissa, exponent, small, low, high, sum⟩
  rw [ofNat_exact (by omega), ofNat_exact (by omega), ldexp_exact firstExact,
    ldexp_exact secondExact, add_exact (by positivity) (by positivity) sumExact, sum]

/-- The sign of the first word is applied to a magnitude at the end. -/
theorem negate_if {negative : Prop} [Decidable negative] {magnitude : ℚ}
    : (if negative then (Value.finite false magnitude).negate else .finite false magnitude)
      = .finite (decide negative) magnitude := by
  by_cases sign : negative <;> simp [sign, Value.negate]

/-- Reading the two words of a pattern that is no NaN returns its value: both branches of the
source add up the two halves of the mantissa.
-/
theorem ofIeee754Words_decode {bits : UInt64} (known : decode bits ≠ .nan)
    : ofIeee754Words (.ofNat (bits.toNat / 2 ^ 32)) (.ofNat bits.toNat) = decode bits := by
  have bound := bits.toNat_lt
  have first : (UInt32.ofNat (bits.toNat / 2 ^ 32)).toNat = bits.toNat / 2 ^ 32 := by
    rw [UInt32.toNat_ofNat']
    omega
  have second : (UInt32.ofNat bits.toNat).toNat = bits.toNat % 2 ^ 32 := UInt32.toNat_ofNat'
  obtain ⟨expField, upperField, signField⟩ := first_fields (.ofNat (bits.toNat / 2 ^ 32))
  generalize UInt32.ofNat (bits.toNat / 2 ^ 32) = high at *
  generalize UInt32.ofNat bits.toNat = low at *
  have exponent : ((high &&& 0x7FF00000) >>> 20).toNat = bits.toNat / 2 ^ 52 % 2 ^ 11 := by omega
  have upper : (high &&& 0x000FFFFF).toNat = bits.toNat % 2 ^ 52 / 2 ^ 32 := by omega
  have lower : low.toNat = bits.toNat % 2 ^ 52 % 2 ^ 32 := by omega
  have sign : high &&& 0x80000000 ≠ 0 ↔ 2 ^ 63 ≤ bits.toNat := signField.trans (by omega)
  have small : bits.toNat % 2 ^ 52 < 2 ^ 52 := Nat.mod_lt _ (by decide)
  have expIs (number : UInt32) : (high &&& 0x7FF00000) >>> 20 = number
      ↔ bits.toNat / 2 ^ 52 % 2 ^ 11 = number.toNat := by
    rw [← UInt32.toNat_inj, exponent]
  have zero : high = 0 ∧ low = 0 ↔ bits.toNat = 0 := by
    simp only [← UInt32.toNat_inj, first, second, UInt32.toNat_zero]
    omega
  simp only [ofIeee754Words, sign]
  simp only [magnitudeOfWords, zero, expIs, exponent, lower]
  unfold decode at known ⊢
  dsimp only at known ⊢
  have blank : bits.toNat = 0
      → bits.toNat / 2 ^ 52 % 2 ^ 11 = 0 ∧ bits.toNat % 2 ^ 52 = 0 := by omega
  have expBound : bits.toNat / 2 ^ 52 % 2 ^ 11 < 2048 := Nat.mod_lt _ (by decide)
  generalize bits.toNat / 2 ^ 52 % 2 ^ 11 = exp at *
  generalize bits.toNat % 2 ^ 52 = mantissa at *
  by_cases none : bits.toNat = 0
  · obtain ⟨rfl, rfl⟩ := blank none
    simp [none]
  · by_cases special : exp = 2047
    · have infinite : mantissa = 0 := by
        by_contra payload
        simp [special, payload] at known
      simp only [none, special, infinite, if_false, if_true, UInt32.reduceToNat]
      by_cases negative : 2 ^ 63 ≤ bits.toNat <;> simp only [negative] <;> rfl
    · by_cases denormal : exp = 0
      · have halves := add_halves mantissa (-1074) (by omega) le_rfl (by omega)
        have other : (0 : ℕ) ≠ 2047 := by decide
        simp only [none, denormal, if_false, if_true, UInt32.reduceToNat, upper,
          CharP.cast_eq_zero, other]
        rw [show (0 : ℤ) - 1023 - 20 + 1 = -1074 + 32 by rfl,
          show (-1074 : ℤ) + 32 - 32 = -1074 by rfl, halves, negate_if]
      · have hidden : ((high &&& 0x000FFFFF) + 0x00100000).toNat
            = (2 ^ 52 + mantissa) / 2 ^ 32 := by
          have bit : (0x00100000 : UInt32).toNat = 2 ^ 20 := rfl
          rw [UInt32.toNat_add, upper, bit]
          omega
        have lowHalf : mantissa % 2 ^ 32 = (2 ^ 52 + mantissa) % 2 ^ 32 := by omega
        have halves := add_halves (2 ^ 52 + mantissa) ((exp : ℤ) - 1075) (by omega)
          (by omega) (by omega)
        simp only [none, special, denormal, if_false, UInt32.reduceToNat, hidden, lowHalf]
        rw [show (exp : ℤ) - 1023 - 20 = exp - 1075 + 32 by ring,
          show (exp : ℤ) - 1075 + 32 - 32 = exp - 1075 by ring, halves, negate_if]

/-- Reading the big-endian bytes of a pattern that is no NaN returns its value. -/
theorem readDoubleFromIeee754_be64 {bits : UInt64} (known : decode bits ≠ .nan)
    : readDoubleFromIeee754 (Bytes.be64 bits) = decode bits := by
  have high : (Bytes.be64 bits).take 4 = Bytes.be32 (.ofNat (bits.toNat / 2 ^ 32)) := rfl
  have low : (Bytes.be64 bits).drop 4 = Bytes.be32 (.ofNat bits.toNat) := rfl
  rw [readDoubleFromIeee754, high, low, Bytes.ofBe32_be32, Bytes.ofBe32_be32]
  exact ofIeee754Words_decode known

-----------------------------------------------------------------------------------------
-- Writing
-----------------------------------------------------------------------------------------

/-- The two truncations of the source split a mantissa into its halves. -/
theorem floor_halves (mantissa : ℕ) (small : mantissa < 2 ^ 53)
    : (Value.finite false (mantissa * 2 ^ (-32 : ℤ))).floorNat = mantissa / 2 ^ 32
      ∧ (((Value.finite false (mantissa * 2 ^ (-32 : ℤ))).sub
          (.ofNat (mantissa / 2 ^ 32))).ldexp 32).floorNat = mantissa % 2 ^ 32 := by
  have upper : ⌊(mantissa : ℚ) * 2 ^ (-32 : ℤ)⌋₊ = mantissa / 2 ^ 32 := by
    have floored := Nat.floor_div_eq_div (K := ℚ) mantissa (2 ^ 32)
    push_cast at floored
    rwa [zpow_neg, ← div_eq_mul_inv]
  have rest : (mantissa : ℚ) * 2 ^ (-32 : ℤ) - (mantissa / 2 ^ 32 : ℕ)
      = (mantissa % 2 ^ 32 : ℕ) * 2 ^ (-32 : ℤ) := by
    have split : (mantissa : ℚ) = (mantissa / 2 ^ 32 : ℕ) * 2 ^ 32 + (mantissa % 2 ^ 32 : ℕ) := by
      exact_mod_cast (Nat.div_add_mod' mantissa (2 ^ 32)).symm
    nth_rewrite 1 [split]
    norm_num
    ring
  refine ⟨upper, ?_⟩
  rw [ofNat_exact (by omega), sub_exact, rest,
    ldexp_mantissa _ _ _ (by omega) (by omega) (by omega)]
  · simp [Value.floorNat]
  · rw [← upper]
    exact Nat.floor_le (by positivity)
  · exact ⟨_, -32, by omega, by omega, by omega, rest⟩

/-- The sign bit that the source sets for values below zero. -/
def signBit (negative : Bool) : ℕ :=
  if negative then 0x80000000 else 0

/-- The source takes the sign off a value that is not zero. -/
theorem isNegative_finite (negative : Bool) {magnitude : ℚ} (nonzero : magnitude ≠ 0)
    : (Value.finite negative magnitude).isNegative = negative
      ∧ (if negative then (Value.finite negative magnitude).negate else .finite negative magnitude)
        = .finite false magnitude := by
  cases negative <;> simp [Value.isNegative, Value.negate, nonzero]

/-- A normalized double is written with its own fields. -/
theorem ieee754Words_normalized {negative : Bool} {mantissa exponent : ℕ}
    (small : mantissa < 2 ^ 52) (low : 0 < exponent) (high : exponent < 2047)
    : ieee754Words (.finite negative ((2 ^ 52 + mantissa : ℕ) * 2 ^ ((exponent : ℤ) - 1075)))
      = (.ofNat (signBit negative ||| (exponent <<< 20) ||| mantissa / 2 ^ 32),
          .ofNat (mantissa % 2 ^ 32)) := by
  have nonzero : ((2 ^ 52 + mantissa : ℕ) : ℚ) * 2 ^ ((exponent : ℤ) - 1075) ≠ 0 := by
    positivity
  obtain ⟨sign, unsigned⟩ := isNegative_finite negative nonzero
  have above : 2 ^ 52 ≤ 2 ^ 52 + mantissa := Nat.le_add_right _ _
  have below : 2 ^ 52 + mantissa < 2 ^ (52 + 1) := by omega
  have fraction := frexp_exact ((exponent : ℤ) - 1075) above below
  have belowOne := fraction_belowOne below
  have scaled := ldexp_mantissa false (-(52 + 1)) (20 + 1) below (by omega) (by omega)
  have hide : (Value.finite false ((2 ^ 52 + mantissa : ℕ) * 2 ^ (-32 : ℤ))).sub
      (.ofNat (2 ^ 20)) = .finite false (mantissa * 2 ^ (-32 : ℤ)) := by
    have rest : ((2 ^ 52 + mantissa : ℕ) : ℚ) * 2 ^ (-32 : ℤ) - (2 ^ 20 : ℕ)
        = mantissa * 2 ^ (-32 : ℤ) := by
      push_cast
      norm_num
      ring
    have order : ((2 ^ 20 : ℕ) : ℚ) ≤ (2 ^ 52 + mantissa : ℕ) * 2 ^ (-32 : ℤ) := by
      rw [← sub_nonneg, rest]
      positivity
    rw [ofNat_exact (by decide), sub_exact order, rest]
    exact ⟨mantissa, -32, by omega, by omega, by omega, rest⟩
  have floored := (floor_halves (2 ^ 52 + mantissa) (by omega)).1
  have lowHalf := (floor_halves mantissa (by omega)).2
  have upperHalf : (2 ^ 52 + mantissa) / 2 ^ 32 - 2 ^ 20 = mantissa / 2 ^ 32 := by omega
  have biased : ((exponent : ℤ) - 1075 + (52 : ℕ) + 1 + 1023 - 1).toNat = exponent := by omega
  unfold ieee754Words
  simp only [sign, unsigned, fraction, Value.isZero, nonzero, decide_false, Bool.false_eq_true,
    if_false]
  rw [if_neg, if_neg, biased]
  · simp only [Nat.cast_ofNat, scaled] at *
    simp only [show (-(52 + 1) + (20 + 1) : ℤ) = -32 by rfl, floored, upperHalf, hide, lowHalf,
      signBit]
  · omega
  · have exponentBound : ¬(exponent : ℤ) - 1075 + (52 : ℕ) + 1 > 2047 - 1023 + 1 := by omega
    simp only [exponentBound, belowOne]
    decide

/-- The binary width of a number that is not zero. -/
theorem exists_width {number bound : ℕ} (positive : 0 < number) (below : number < 2 ^ bound)
    : ∃ width < bound, 2 ^ width ≤ number ∧ number < 2 ^ (width + 1) :=
  ⟨number.log2, (Nat.log2_lt positive.ne').mpr below, Nat.log2_self_le positive.ne',
    Nat.lt_log2_self⟩

/-- A denormalized double is written with its own fields, in either of two branches. -/
theorem ieee754Words_denormalized {negative : Bool} {mantissa : ℕ} (positive : 0 < mantissa)
    (small : mantissa < 2 ^ 52)
    : ieee754Words (.finite negative (mantissa * 2 ^ (-1074 : ℤ)))
      = (.ofNat (signBit negative ||| mantissa / 2 ^ 32), .ofNat (mantissa % 2 ^ 32)) := by
  have nonzero : (mantissa : ℚ) * 2 ^ (-1074 : ℤ) ≠ 0 := by positivity
  obtain ⟨sign, unsigned⟩ := isNegative_finite negative nonzero
  obtain ⟨width, narrow, above, below⟩ := exists_width positive small
  have fraction := frexp_exact (-1074) above below
  have belowOne := fraction_belowOne below
  unfold ieee754Words
  simp only [sign, unsigned, fraction, Value.isZero, nonzero, decide_false, Bool.false_eq_true,
    if_false]
  rw [if_neg, if_pos (by omega)]
  · by_cases tiny : width < 31
    · -- The whole mantissa fits into the second word.
      have fits : mantissa < 2 ^ 32 :=
        lt_of_lt_of_le below (Nat.pow_le_pow_right (by decide) (by omega))
      have normal : mantissa < 2 ^ 53 := by omega
      have scaled := ldexp_mantissa false (-(width + 1)) (width + 1) normal (by omega) (by omega)
      have shift : (20 + 1 + (1023 - 2) + (-1074 + width + 1) + 32 : ℤ) = width + 1 := by ring
      rw [if_pos (by omega), if_neg (by omega), shift, scaled, Nat.div_eq_of_lt fits,
        Nat.mod_eq_of_lt fits, Nat.or_zero]
      simp [signBit, Value.floorNat]
    · have normal : mantissa < 2 ^ 53 := by omega
      have scaled := ldexp_mantissa false (-(width + 1)) (width - 31) normal (by omega) (by omega)
      have shift : (20 + 1 + (1023 - 2) + (-1074 + width + 1) : ℤ) = width - 31 := by ring
      obtain ⟨upperHalf, lowHalf⟩ := floor_halves mantissa (by omega)
      rw [if_neg (by omega), shift, scaled,
        show (-(width + 1) + (width - 31) : ℤ) = -32 by ring, upperHalf, lowHalf]
      rfl
  · have exponentBound : ¬(-1074 + width + 1 : ℤ) > 2047 - 1023 + 1 := by omega
    simp only [exponentBound, belowOne]
    decide

/-- The sign, the exponent and the upper part of the mantissa make up the first word. -/
theorem first_assembled {bits : ℕ} (bound : bits < 2 ^ 64)
    : signBit (2 ^ 63 ≤ bits) ||| ((bits / 2 ^ 52 % 2 ^ 11) <<< 20)
        ||| bits % 2 ^ 52 / 2 ^ 32
      = bits / 2 ^ 32 := by
  have sign : signBit (2 ^ 63 ≤ bits) = (bits / 2 ^ 63) <<< 31 := by
    by_cases negative : 2 ^ 63 ≤ bits
    · rw [show bits / 2 ^ 63 = 1 by omega, decide_eq_true negative]
      rfl
    · rw [show bits / 2 ^ 63 = 0 by omega, decide_eq_false negative]
      rfl
  have inner := Nat.shiftLeft_add_eq_or_of_lt (b := bits % 2 ^ 52 / 2 ^ 32) (i := 20) (by omega)
    (bits / 2 ^ 52 % 2 ^ 11)
  have outer := Nat.shiftLeft_add_eq_or_of_lt (i := 31)
    (b := (bits / 2 ^ 52 % 2 ^ 11) <<< 20 + bits % 2 ^ 52 / 2 ^ 32)
    (by rw [Nat.shiftLeft_eq]; omega) (bits / 2 ^ 63)
  rw [Nat.lor_assoc, ← inner, sign, ← outer, Nat.shiftLeft_eq, Nat.shiftLeft_eq]
  omega

/-- Writing the value of a pattern stores the bytes of its canonical pattern: every branch of
the source stores the fields that the value came from.
-/
theorem writeDoubleToIeee754_decode (bits : UInt64)
    : writeDoubleToIeee754 (decode bits) = Bytes.be64 (canonicalDouble bits) := by
  have bound := bits.toNat_lt
  have words (pattern : UInt64)
      (computed : ieee754Words (decode bits)
        = (.ofNat (pattern.toNat / 2 ^ 32), .ofNat pattern.toNat))
      : writeDoubleToIeee754 (decode bits) = Bytes.be64 pattern := by
    rw [writeDoubleToIeee754, computed]
    rfl
  have assembled := first_assembled bound
  have small : bits.toNat % 2 ^ 52 < 2 ^ 52 := Nat.mod_lt _ (by decide)
  apply words
  unfold canonicalDouble
  have kept : UInt32.ofNat bits.toNat = .ofNat (bits.toNat % 2 ^ 52 % 2 ^ 32) := by
    rw [← UInt32.toNat_inj, UInt32.toNat_ofNat', UInt32.toNat_ofNat']
    omega
  have zeroPattern : bits = 0x8000000000000000 → bits.toNat / 2 ^ 52 % 2 ^ 11 = 0
      ∧ bits.toNat % 2 ^ 52 = 0 := by
    rintro rfl
    decide
  by_cases special : bits.toNat / 2 ^ 52 % 2 ^ 11 = 2047
  · have other : bits ≠ 0x8000000000000000 := by
      intro same
      have fields := zeroPattern same
      omega
    by_cases infinite : bits.toNat % 2 ^ 52 = 0
    · have value : decode bits = .infinite (2 ^ 63 ≤ bits.toNat) := by
        simp only [decode, special, infinite, if_true]
      rw [value, if_neg (by simp), if_neg other, kept, infinite, ← assembled, special, infinite]
      cases decide (2 ^ 63 ≤ bits.toNat) <;> rfl
    · have value : decode bits = .nan := by
        simp only [decode, special, infinite, if_true, if_false]
      rw [value, if_pos rfl]
      decide
  · have known : decode bits ≠ .nan := by
      unfold decode
      dsimp only
      rw [if_neg special]
      split <;> simp
    rw [if_neg known]
    by_cases denormal : bits.toNat / 2 ^ 52 % 2 ^ 11 = 0
    · have value : decode bits
          = .finite (2 ^ 63 ≤ bits.toNat) ((bits.toNat % 2 ^ 52 : ℕ) * 2 ^ (-1074 : ℤ)) := by
        simp only [decode, denormal, if_true]
        rfl
      by_cases zero : bits.toNat % 2 ^ 52 = 0
      · have blank : (if bits = 0x8000000000000000 then 0 else bits).toNat = 0 := by
          split
          · rfl
          · rename_i other
            have pattern : bits.toNat ≠ 2 ^ 63 := fun same => other (UInt64.toNat_inj.mp same)
            omega
        rw [value, blank, zero]
        simp [ieee754Words, Value.isNegative, Value.isZero]
      · have other : bits ≠ 0x8000000000000000 := fun same => zero (zeroPattern same).2
        rw [denormal] at assembled
        rw [value, if_neg other, ieee754Words_denormalized (by omega) small, kept, ← assembled,
          Nat.zero_shiftLeft, Nat.or_zero]
    · have other : bits ≠ 0x8000000000000000 := fun same => denormal (zeroPattern same).1
      have value : decode bits = .finite (2 ^ 63 ≤ bits.toNat)
          ((2 ^ 52 + bits.toNat % 2 ^ 52 : ℕ)
            * 2 ^ ((bits.toNat / 2 ^ 52 % 2 ^ 11 : ℕ) - 1075 : ℤ)) := by
        simp only [decode, special, denormal, if_false]
      rw [value, if_neg other, ieee754Words_normalized small (by omega) (by omega), kept,
        assembled]

/-- Patterns with one value are one pattern, unless the value is a NaN: writing recovers the
pattern up to the sign of zero, and the value holds that sign.
-/
theorem decode_injective {left right : UInt64} (known : decode left ≠ .nan)
    (same : decode left = decode right)
    : left = right := by
  have written := writeDoubleToIeee754_decode left
  rw [same, writeDoubleToIeee754_decode right] at written
  have canonical : canonicalDouble left = canonicalDouble right := by
    rw [← Bytes.ofBe64_be64 (canonicalDouble left), ← written, Bytes.ofBe64_be64]
  have signs : decode 0 ≠ decode 0x8000000000000000 := by decide
  simp only [canonicalDouble, known, same ▸ known, if_false] at canonical
  split at canonical <;> split at canonical <;> rename_i leftZero rightZero
  · rw [leftZero, rightZero]
  · subst leftZero canonical
    exact absurd same.symm signs
  · subst rightZero canonical
    exact absurd same signs
  · exact canonical

end WiredServer
