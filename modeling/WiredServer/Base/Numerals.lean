import WiredServer.Base.Ip

/-! Numbers in text: decimal digits and what the functions of the C library read of them. -/

namespace WiredServer

-----------------------------------------------------------------------------------------
-- Digits
-----------------------------------------------------------------------------------------

/-- The value of the digits of a base behind others. -/
def digitsValueFrom (base value : ℕ) (digits : List Char) : Option ℕ :=
  digits.foldlM
    (fun value char => do
      let digit ← digitValue char
      if digit < base then some (value * base + digit) else none)
    value

/-- The digits of a base are read one after the other. -/
theorem digitsValueFrom_cons {base value result : ℕ} {char : Char} {rest : List Char}
    (number : digitsValueFrom base value (char :: rest) = some result)
    : ∃ digit, digitValue char = some digit ∧ digit < base
      ∧ digitsValueFrom base (value * base + digit) rest = some result := by
  rw [digitsValueFrom, List.foldlM_cons] at number
  obtain ⟨next, first, behind⟩ := Option.bind_eq_some_iff.mp number
  obtain ⟨digit, isValue, small⟩ := Option.bind_eq_some_iff.mp first
  split at small
  · rename_i below
    cases small
    exact ⟨digit, isValue, below, behind⟩
  · cases small

/-- A digit below ten is a decimal digit. -/
theorem isDigit_of_digitValue {char : Char} {digit : ℕ} (value : digitValue char = some digit)
    (small : digit < 10)
    : char.isDigit := by
  unfold digitValue at value
  split at value
  · rename_i decimal
    exact Bool.and_eq_true_iff.mpr ⟨decide_eq_true decimal.1, decide_eq_true decimal.2⟩
  · split at value
    · cases value
      omega
    · split at value
      · cases value
        omega
      · cases value

/-- A text with a decimal value consists of decimal digits, by induction on it. -/
theorem isDigit_of_digitsValue {text : List Char} {value : ℕ}
    (number : digitsValue 10 text = some value)
    : ∀ char ∈ text, char.isDigit := by
  change digitsValueFrom 10 0 text = some value at number
  generalize 0 = start at number
  induction text generalizing start with
  | nil => exact List.forall_mem_nil _
  | cons char rest ih =>
      obtain ⟨digit, isValue, small, behind⟩ := digitsValueFrom_cons number
      exact List.forall_mem_cons.mpr ⟨isDigit_of_digitValue isValue small, ih _ behind⟩

/-- A text is worth no more in base eight than in base ten, by induction on it. -/
theorem octal_le_decimal {text : List Char} {low high octal decimal : ℕ} (le : low ≤ high)
    (isOctal : digitsValueFrom 8 low text = some octal)
    (isDecimal : digitsValueFrom 10 high text = some decimal)
    : octal ≤ decimal := by
  induction text generalizing low high with
  | nil =>
      cases isOctal
      cases isDecimal
      exact le
  | cons char rest ih =>
      obtain ⟨digit, value, -, octalBehind⟩ := digitsValueFrom_cons isOctal
      obtain ⟨digit', value', -, decimalBehind⟩ := digitsValueFrom_cons isDecimal
      obtain rfl : digit = digit' := Option.some.inj (value.symm.trans value')
      exact ih (by omega) octalBehind decimalBehind

/-- A decimal digit is no other character, and no blank. -/
theorem isDigit_ne {first : Char} (digit : first.isDigit) {char : Char}
    (noDigit : char.isDigit = false)
    : first ≠ char := by
  rintro rfl
  rw [noDigit] at digit
  cases digit

/-- A decimal digit is no blank. -/
theorem isSpace_of_isDigit {first : Char} (digit : first.isDigit) : isSpace first = false := by
  by_contra blank
  simp only [isSpace, Bool.not_eq_false, List.contains_eq_mem, decide_eq_true_eq] at blank
  simp only [List.mem_cons, List.not_mem_nil, or_false] at blank
  rcases blank with same | same | same | same | same | same <;>
    exact isDigit_ne digit (by decide) same

/-- A text that starts with a digit is read without a sign. -/
theorem signedValue_eq_magnitudeValue {first : Char} (rest : List Char) (digit : first.isDigit)
    : signedValue (first :: rest)
      = (magnitudeValue (first :: rest)).map fun value : ℕ => (value : ℤ) := by
  have kept : (first :: rest).dropWhile isSpace = first :: rest :=
    List.dropWhile_cons_of_neg (by simp [isSpace_of_isDigit digit])
  rw [signedValue, kept]
  split
  · rename_i same
    exact absurd (List.cons.inj same).1 (isDigit_ne digit (by decide))
  · rename_i same
    exact absurd (List.cons.inj same).1 (isDigit_ne digit (by decide))
  · cases magnitudeValue (first :: rest) <;> rfl

/-- A text that starts with a digit other than zero is read as a decimal number. -/
theorem signedValue_of_digit {first : Char} (rest : List Char) (digit : first.isDigit)
    (positive : first ≠ '0')
    : signedValue (first :: rest)
      = (digitsValue 10 (first :: rest)).map fun value : ℕ => (value : ℤ) := by
  have magnitude : magnitudeValue (first :: rest) = digitsValue 10 (first :: rest) := by
    unfold magnitudeValue
    split <;> simp_all
  rw [signedValue_eq_magnitudeValue rest digit, magnitude]

end WiredServer
