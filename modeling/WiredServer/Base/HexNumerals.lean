import Mathlib
import WiredServer.Base.XmlTree

/-! Hexadecimal numbers in text: how `%X` writes a number of some width, and what it reads of a text. A
width is the least number of characters to write, and the greatest to read.
-/

namespace WiredServer

-----------------------------------------------------------------------------------------
-- Digits
-----------------------------------------------------------------------------------------

/-- A hexadecimal digit, of either case. -/
def isHexDigit (char : Char) : Bool :=
  (digitValue char).isSome

/-- The value of hexadecimal digits. -/
def hexValue (digits : List Char) : ℕ :=
  digits.foldl (fun value char => value * 16 + (digitValue char).getD 0) 0

/-- The hexadecimal digits. -/
def hexDigits : List Char :=
  ['0', '1', '2', '3', '4', '5', '6', '7', '8', '9', 'A', 'B', 'C', 'D', 'E', 'F', 'a', 'b', 'c', 'd',
    'e', 'f']

/-- There are no other hexadecimal digits. -/
theorem mem_hexDigits {char : Char} (digit : isHexDigit char = true) : char ∈ hexDigits := by
  have known : ∀ number, (48 ≤ number ∧ number ≤ 57 ∨ 97 ≤ number ∧ number ≤ 102
      ∨ 65 ≤ number ∧ number ≤ 70) → Char.ofNat number ∈ hexDigits := by
    intro number range
    have few : number < 103 := by omega
    interval_cases number <;> first | decide | omega
  rw [← Char.ofNat_toNat char]
  refine known _ ?_
  simp only [isHexDigit, digitValue] at digit
  split at digit
  · rename_i range
    exact .inl ⟨Char.le_def.mp range.1, Char.le_def.mp range.2⟩
  · split at digit
    · rename_i range
      exact .inr (.inl ⟨Char.le_def.mp range.1, Char.le_def.mp range.2⟩)
    · split at digit
      · rename_i range
        exact .inr (.inr ⟨Char.le_def.mp range.1, Char.le_def.mp range.2⟩)
      · cases digit

/-- What is known of each digit: its value, which its upper case has as well, and its upper case, which
is that of the value; and that it is no blank.
-/
theorem digit_known {char : Char} (digit : isHexDigit char = true)
    : (digitValue char).getD 0 < 16 ∧ (digitValue char.toUpper).getD 0 = (digitValue char).getD 0
      ∧ char.toUpper = hexDigits.getD ((digitValue char).getD 0) '0' ∧ isSpace char = false := by
  have member := mem_hexDigits digit
  fin_cases member <;> decide

/-- Digits of the same value are the same up to case. -/
theorem digitValue_eq_iff {char other : Char} (digit : isHexDigit char = true)
    (digit' : isHexDigit other = true)
    : (digitValue char).getD 0 = (digitValue other).getD 0 ↔ char.toUpper = other.toUpper := by
  obtain ⟨-, value, upper, -⟩ := digit_known digit
  obtain ⟨-, value', upper', -⟩ := digit_known digit'
  constructor
  · intro same
    rw [upper, upper', same]
  · intro same
    rw [← value, ← value', same]

/-- A digit is none of the other characters that are read. -/
theorem ne_of_isHexDigit {char other : Char} (digit : isHexDigit char = true)
    (noDigit : isHexDigit other = false)
    : char ≠ other := by
  rintro rfl
  rw [noDigit] at digit
  cases digit

/-- The last digit counts once, those before it sixteen times. -/
theorem hexValue_concat (digits : List Char) (char : Char)
    : hexValue (digits ++ [char]) = hexValue digits * 16 + (digitValue char).getD 0 := by
  rw [hexValue, List.foldl_append]
  rfl

/-- So many digits are worth less than a power of 16, by induction on the end. -/
theorem hexValue_lt {digits : List Char} (all : ∀ char ∈ digits, isHexDigit char = true)
    : hexValue digits < 16 ^ digits.length := by
  induction digits using List.reverseRecOn with
  | nil => exact Nat.one_pos
  | append_singleton digits char ih =>
      have before := ih fun other member => all other (List.mem_append_left _ member)
      have last := (digit_known (all char (by simp))).1
      rw [hexValue_concat, List.length_append, List.length_singleton, pow_succ]
      omega

/-- As many digits have the same value if they are the same up to case, by induction on the end. -/
theorem hexValue_eq_iff {digits others : List Char} (same : digits.length = others.length)
    (all : ∀ char ∈ digits, isHexDigit char = true) (all' : ∀ char ∈ others, isHexDigit char = true)
    : hexValue digits = hexValue others
      ↔ digits.map Char.toUpper = others.map Char.toUpper := by
  induction digits using List.reverseRecOn generalizing others with
  | nil =>
      rw [List.length_nil, eq_comm, List.length_eq_zero_iff] at same
      rw [same]
      exact iff_of_true rfl rfl
  | append_singleton digits char ih =>
      rcases List.eq_nil_or_concat' others with rfl | ⟨others, other, rfl⟩
      · simp at same
      · simp only [List.length_append, List.length_singleton, Nat.add_right_cancel_iff] at same
        have digit := all char (by simp)
        have digit' := all' other (by simp)
        have small := (digit_known digit).1
        have small' := (digit_known digit').1
        have last := digitValue_eq_iff digit digit'
        have before := ih same (fun other member => all other (List.mem_append_left _ member))
          fun other member => all' other (List.mem_append_left _ member)
        rw [hexValue_concat, hexValue_concat, List.map_append, List.map_append, List.map_singleton,
          List.map_singleton, List.append_singleton_inj, ← before, ← last]
        omega

-----------------------------------------------------------------------------------------
-- Written numbers
-----------------------------------------------------------------------------------------

/-- `%0wX`: the digits of a number, in upper case, behind zeros if there are fewer than the width. -/
def hexText (width value : ℕ) : List Char :=
  let digits := (Nat.toDigits 16 value).map Char.toUpper
  List.replicate (width - digits.length) '0' ++ digits

/-- Zeros in front of digits are worth nothing. -/
theorem hexValue_replicate (count : ℕ) (digits : List Char)
    : hexValue (List.replicate count '0' ++ digits) = hexValue digits := by
  induction count with
  | zero => rfl
  | succ count ih => exact ih

/-- The digits of a number have its value, by induction on the number. -/
theorem hexValue_toDigits (value : ℕ)
    : hexValue ((Nat.toDigits 16 value).map Char.toUpper) = value
      ∧ ∀ char ∈ (Nat.toDigits 16 value).map Char.toUpper,
        isHexDigit char = true ∧ char.toUpper = char := by
  have digit : ∀ digit < 16, (digitValue (Nat.digitChar digit).toUpper).getD 0 = digit
      ∧ isHexDigit (Nat.digitChar digit).toUpper = true
      ∧ (Nat.digitChar digit).toUpper.toUpper = (Nat.digitChar digit).toUpper := by decide
  induction value using Nat.strong_induction_on with
  | h value ih =>
      rw [Nat.toDigits_eq_if (by decide)]
      split
      · rename_i small
        obtain ⟨own, rest⟩ := digit value small
        refine ⟨?_, by simpa using rest⟩
        simpa [hexValue] using own
      · rename_i large
        obtain ⟨before, all⟩ := ih (value / 16) (by omega)
        obtain ⟨own, rest⟩ := digit (value % 16) (Nat.mod_lt _ (by decide))
        refine ⟨?_, fun char member => ?_⟩
        · rw [List.map_append, List.map_singleton, hexValue_concat, before, own]
          omega
        · rw [List.map_append, List.mem_append, List.map_singleton, List.mem_singleton] at member
          rcases member with member | rfl
          · exact all char member
          · exact rest

/-- What is written of a number that fits the width: so many digits, in upper case, of its value. -/
theorem hexText_spec {width value : ℕ} (positive : 0 < width) (fits : value < 16 ^ width)
    : (hexText width value).length = width ∧ hexValue (hexText width value) = value
      ∧ ∀ char ∈ hexText width value, isHexDigit char = true ∧ char.toUpper = char := by
  obtain ⟨own, all⟩ := hexValue_toDigits value
  have short := (Nat.length_toDigits_le_iff (by decide : 1 < 16) positive).mpr fits
  refine ⟨?_, (hexValue_replicate _ _).trans own, fun char member => ?_⟩
  · rw [hexText, List.length_append, List.length_replicate, List.length_map]
    omega
  · rcases List.mem_append.mp member with zero | digit
    · rw [List.eq_of_mem_replicate zero]
      exact ⟨rfl, rfl⟩
    · exact all char digit

/-- The value of digits is written as they are, in upper case. -/
theorem hexText_hexValue {digits : List Char} (nonempty : digits ≠ [])
    (all : ∀ char ∈ digits, isHexDigit char = true)
    : hexText digits.length (hexValue digits) = digits.map Char.toUpper := by
  obtain ⟨length, value, upper⟩ :=
    hexText_spec (List.length_pos_of_ne_nil nonempty) (hexValue_lt all)
  have same := (hexValue_eq_iff length (fun char member => (upper char member).1) all).mp value
  rw [← same]
  exact (List.map_id'' (fun char => rfl) _).symm.trans
    (List.map_congr_left fun char member => (upper char member).2.symm)

-----------------------------------------------------------------------------------------
-- Read numbers
-----------------------------------------------------------------------------------------

/-- A sign, if there is one, and the text behind it. -/
def takeSign : List Char → List Char × List Char
  | '-' :: rest => (['-'], rest)
  | '+' :: rest => (['+'], rest)
  | text => ([], text)

/-- A prefix, if there is one and room for it, and the text behind it. -/
def takePrefix (width : ℕ) : List Char → List Char × List Char
  | '0' :: 'x' :: rest => if 2 ≤ width then (['0', 'x'], rest) else ([], '0' :: 'x' :: rest)
  | '0' :: 'X' :: rest => if 2 ≤ width then (['0', 'X'], rest) else ([], '0' :: 'X' :: rest)
  | text => ([], text)

/-- The number that `strtoul` makes of a sign and no more than 16 digits, stored in 32 bits. -/
def signedHexValue (sign digits : List Char) : ℕ :=
  let value := hexValue digits % 2 ^ 32
  if sign = ['-'] then (2 ^ 32 - value) % 2 ^ 32 else value

/-- `%wX` of `sscanf`: the number that a text begins with, and what is left of the text. Blanks are
skipped. A sign and a prefix count for the width, and a prefix without digits is no number.
-/
def scanHex (width : ℕ) (text : List Char) : Option (ℕ × List Char) :=
  let (sign, text) := takeSign (text.dropWhile isSpace)
  let (base, text) := takePrefix (width - sign.length) text
  let digits := (text.take (width - sign.length - base.length)).takeWhile isHexDigit
  if digits = [] then none
  else some (signedHexValue sign digits, text.drop digits.length)

/-- What is read as a number, with the blanks in front of it. -/
structure HexItem where
  blanks : List Char
  sign : List Char
  base : List Char
  digits : List Char

namespace HexItem

/-- The characters that count for the width. -/
def number (item : HexItem) : List Char :=
  item.sign ++ (item.base ++ item.digits)

/-- The value of an item. -/
def value (item : HexItem) : ℕ :=
  signedHexValue item.sign item.digits

/-- An item is well formed and the longest that the width admits, where this text follows. -/
structure Fits (width : ℕ) (rest : List Char) (item : HexItem) : Prop where
  blanks : ∀ char ∈ item.blanks, isSpace char = true
  sign : item.sign = [] ∨ item.sign = ['-'] ∨ item.sign = ['+']
  base : item.base = [] ∨ item.base = ['0', 'x'] ∨ item.base = ['0', 'X']
  nonempty : item.digits ≠ []
  digits : ∀ char ∈ item.digits, isHexDigit char = true
  short : item.number.length ≤ width
  longest : item.number.length = width ∨ ∀ char ∈ rest.head?, isHexDigit char = false
  noPrefix : item.base = [] → item.digits = ['0'] →
    item.number.length = width ∨ ∀ char ∈ rest.head?, char ≠ 'x' ∧ char ≠ 'X'

end HexItem

/-- A sign is taken off. -/
theorem takeSign_spec (text : List Char)
    : text = (takeSign text).1 ++ (takeSign text).2
      ∧ ((takeSign text).1 = [] ∨ (takeSign text).1 = ['-'] ∨ (takeSign text).1 = ['+']) := by
  unfold takeSign
  split <;> simp

/-- Without a sign the text is left. -/
theorem takeSign_of_ne {first : Char} (rest : List Char) (minus : first ≠ '-') (plus : first ≠ '+')
    : takeSign (first :: rest) = ([], first :: rest) := by
  unfold takeSign
  split <;> simp_all

/-- A prefix is taken off where there is room for it. -/
theorem takePrefix_spec (width : ℕ) (text : List Char)
    : text = (takePrefix width text).1 ++ (takePrefix width text).2
      ∧ ((takePrefix width text).1 = [] ∨ (takePrefix width text).1 = ['0', 'x']
        ∨ (takePrefix width text).1 = ['0', 'X'])
      ∧ (takePrefix width text).1.length ≤ width := by
  unfold takePrefix
  split
  · split <;> simp_all
  · split <;> simp_all
  · simp

/-- Without a prefix the text is left. -/
theorem takePrefix_of_ne {width : ℕ} {first : Char} {rest : List Char}
    (without : first = '0' → 2 ≤ width → ∀ char ∈ rest.head?, char ≠ 'x' ∧ char ≠ 'X')
    : takePrefix width (first :: rest) = ([], first :: rest) := by
  unfold takePrefix
  split
  · rename_i same
    obtain ⟨rfl, rfl⟩ := List.cons.inj same
    refine if_neg fun room => ?_
    exact (without rfl room 'x' rfl).1 rfl
  · rename_i same
    obtain ⟨rfl, rfl⟩ := List.cons.inj same
    refine if_neg fun room => ?_
    exact (without rfl room 'X' rfl).2 rfl
  · rfl

/-- Where no prefix is taken there is none. -/
theorem head_ne_of_takePrefix {width : ℕ} {rest : List Char} (room : 2 ≤ width)
    (none : (takePrefix width ('0' :: rest)).1 = [])
    : ∀ char ∈ rest.head?, char ≠ 'x' ∧ char ≠ 'X' := by
  intro char first
  cases rest with
  | nil => cases first
  | cons other rest =>
      obtain rfl := Option.some.inj first
      constructor
      · rintro rfl
        simp [takePrefix, room] at none
      · rintro rfl
        simp [takePrefix, room] at none

/-- The digits in front of other text that the width admits. -/
theorem takeWhile_digits {width : ℕ} {digits rest : List Char} (short : digits.length ≤ width)
    (all : ∀ char ∈ digits, isHexDigit char = true)
    (longest : digits.length = width ∨ ∀ char ∈ rest.head?, isHexDigit char = false)
    : ((digits ++ rest).take width).takeWhile isHexDigit = digits := by
  rw [List.take_append, List.take_of_length_le short, List.takeWhile_append_of_pos all]
  have none : (rest.take (width - digits.length)).takeWhile isHexDigit = [] := by
    rcases longest with exact' | ends
    · rw [exact', Nat.sub_self]
      rfl
    · cases rest with
      | nil => rw [List.take_nil]; rfl
      | cons char rest =>
          cases room : width - digits.length with
          | zero => rfl
          | succ count =>
              rw [List.take_succ_cons]
              exact List.takeWhile_cons_of_neg (by simp [ends char rfl])
  rw [none, List.append_nil]

/-- A number starts with a sign or a digit. -/
theorem HexItem.Fits.exists_first {width : ℕ} {item : HexItem} {rest : List Char}
    (fits : item.Fits width rest)
    : ∃ first more, item.number = first :: more ∧ isSpace first = false := by
  have begins : ∃ first more, item.base ++ item.digits = first :: more
      ∧ isHexDigit first = true := by
    rcases fits.base with none | small | large
    · obtain ⟨first, more, split⟩ := List.exists_cons_of_ne_nil fits.nonempty
      refine ⟨first, more, by rw [none, split]; rfl, fits.digits first ?_⟩
      rw [split]
      exact List.mem_cons_self
    · exact ⟨'0', 'x' :: item.digits, by rw [small]; rfl, by decide⟩
    · exact ⟨'0', 'X' :: item.digits, by rw [large]; rfl, by decide⟩
  obtain ⟨first, more, split, digit⟩ := begins
  rw [HexItem.number, split]
  rcases fits.sign with none | minus | plus
  · exact ⟨first, more, by rw [none]; rfl, (digit_known digit).2.2.2⟩
  · exact ⟨'-', first :: more, by rw [minus]; rfl, by decide⟩
  · exact ⟨'+', first :: more, by rw [plus]; rfl, by decide⟩

/-- The sign of an item is taken off. -/
theorem HexItem.Fits.takeSign {width : ℕ} {item : HexItem} {rest : List Char}
    (fits : item.Fits width rest)
    : takeSign (item.number ++ rest) = (item.sign, item.base ++ (item.digits ++ rest)) := by
  rw [HexItem.number, List.append_assoc, List.append_assoc]
  rcases fits.sign with none | minus | plus
  · rw [none, List.nil_append]
    rcases fits.base with noBase | small | large
    · obtain ⟨first, more, split⟩ := List.exists_cons_of_ne_nil fits.nonempty
      have digit := fits.digits first (split ▸ List.mem_cons_self)
      rw [noBase, split]
      exact takeSign_of_ne _ (ne_of_isHexDigit digit (by decide)) (ne_of_isHexDigit digit (by decide))
    · rw [small]
      exact takeSign_of_ne _ (by decide) (by decide)
    · rw [large]
      exact takeSign_of_ne _ (by decide) (by decide)
  · rw [minus]
    rfl
  · rw [plus]
    rfl

/-- The prefix of an item is taken off. -/
theorem HexItem.Fits.takePrefix {width : ℕ} {item : HexItem} {rest : List Char}
    (fits : item.Fits width rest)
    : takePrefix (width - item.sign.length) (item.base ++ (item.digits ++ rest))
      = (item.base, item.digits ++ rest) := by
  have short := fits.short
  rw [HexItem.number, List.length_append, List.length_append] at short
  have positive := List.length_pos_of_ne_nil fits.nonempty
  rcases fits.base with none | small | large
  · rw [none, List.nil_append]
    obtain ⟨first, more, split⟩ := List.exists_cons_of_ne_nil fits.nonempty
    rw [split, List.cons_append]
    refine takePrefix_of_ne fun zero room char next => ?_
    cases more with
    | nil =>
        have full := fits.noPrefix none (by rw [split, zero])
        rcases full with full | free
        · rw [HexItem.number, none, split, List.length_append] at full
          simp at full
          omega
        · exact free char next
    | cons other more =>
        obtain rfl := Option.some.inj next
        have digit := fits.digits other (by rw [split]; simp)
        exact ⟨ne_of_isHexDigit digit (by decide), ne_of_isHexDigit digit (by decide)⟩
  · rw [small] at short ⊢
    exact if_pos (by simp at short; omega)
  · rw [large] at short ⊢
    exact if_pos (by simp at short; omega)

/-- What is read of an item in front of other text. -/
theorem scanHex_of_fits {width : ℕ} {item : HexItem} {rest : List Char} (fits : item.Fits width rest)
    : scanHex width (item.blanks ++ (item.number ++ rest)) = some (item.value, rest) := by
  obtain ⟨first, more, split, noBlank⟩ := fits.exists_first
  have skipped : (item.blanks ++ (item.number ++ rest)).dropWhile isSpace = item.number ++ rest := by
    rw [List.dropWhile_append_of_pos fits.blanks, split]
    exact List.dropWhile_cons_of_neg (by simp [noBlank])
  have short := fits.short
  have longest := fits.longest
  rw [HexItem.number, List.length_append, List.length_append] at short longest
  have positive := List.length_pos_of_ne_nil fits.nonempty
  have digits := takeWhile_digits (by omega : item.digits.length
    ≤ width - item.sign.length - item.base.length) fits.digits
    (longest.imp_left fun full => by omega)
  simp only [scanHex, skipped, fits.takeSign, fits.takePrefix, digits, if_neg fits.nonempty,
    List.drop_left, HexItem.value]

/-- The digits that are taken are as many as the width admits or end where the digits end, by induction
on the text.
-/
theorem takeWhile_longest (width : ℕ) (text : List Char)
    : ((text.take width).takeWhile isHexDigit).length = width
      ∨ ∀ char ∈ (text.drop ((text.take width).takeWhile isHexDigit).length).head?,
        isHexDigit char = false := by
  induction text generalizing width with
  | nil => exact .inr (by simp)
  | cons first text ih =>
      cases width with
      | zero => exact .inl rfl
      | succ width =>
          rw [List.take_succ_cons, List.takeWhile_cons]
          split
          · simpa using ih width
          · rename_i noDigit
            exact .inr (by simpa using noDigit)

/-- What is read of a text is an item in front of the rest. -/
theorem fits_of_scanHex {width value : ℕ} {text rest : List Char}
    (scanned : scanHex width text = some (value, rest))
    : ∃ item : HexItem, item.Fits width rest ∧ text = item.blanks ++ (item.number ++ rest)
      ∧ value = item.value := by
  unfold scanHex at scanned
  obtain ⟨split, sign⟩ := takeSign_spec (text.dropWhile isSpace)
  generalize takeSign (text.dropWhile isSpace) = signed at split sign scanned
  obtain ⟨signText, behindSign⟩ := signed
  obtain ⟨split', base, few⟩ := takePrefix_spec (width - signText.length) behindSign
  have without (room : 2 ≤ width - signText.length) (more : List Char)
      (zero : behindSign = '0' :: more)
      (none : (takePrefix (width - signText.length) behindSign).1 = [])
      : ∀ char ∈ more.head?, char ≠ 'x' ∧ char ≠ 'X' := by
    rw [zero] at none
    exact head_ne_of_takePrefix room none
  dsimp only at split sign scanned
  generalize takePrefix (width - signText.length) behindSign = based at split' base few without scanned
  obtain ⟨baseText, behind⟩ := based
  dsimp only at split' base few without scanned
  have longest := takeWhile_longest (width - signText.length - baseText.length) behind
  have part : (behind.take (width - signText.length - baseText.length)).takeWhile isHexDigit
      <+: behind := (List.takeWhile_prefix _).trans (List.take_prefix _ _)
  have bound : ((behind.take (width - signText.length - baseText.length)).takeWhile
      isHexDigit).length ≤ width - signText.length - baseText.length :=
    (List.takeWhile_prefix _).length_le.trans (List.length_take_le _ _)
  have all : ∀ char ∈ (behind.take (width - signText.length - baseText.length)).takeWhile isHexDigit,
      isHexDigit char = true := fun char member => List.mem_takeWhile_imp member
  generalize (behind.take (width - signText.length - baseText.length)).takeWhile isHexDigit = digits
    at longest part bound all scanned
  split at scanned
  · cases scanned
  · rename_i nonempty
    cases scanned
    obtain ⟨rest, rfl⟩ := part
    have positive := List.length_pos_of_ne_nil nonempty
    rw [List.drop_left] at longest ⊢
    have length : (signText ++ (baseText ++ digits)).length
        = signText.length + (baseText.length + digits.length) := by
      rw [List.length_append, List.length_append]
    refine ⟨⟨text.takeWhile isSpace, signText, baseText, digits⟩, ?_, ?_, rfl⟩
    · exact {
        blanks := fun char member => List.mem_takeWhile_imp member
        sign
        base
        nonempty
        digits := all
        short := by
          rw [HexItem.number, length]
          omega
        longest := longest.imp_left fun full => by
          rw [HexItem.number, length]
          omega
        noPrefix := fun none zero => by
          by_cases full : signText.length + 1 = width
          · left
            rw [HexItem.number, length, show baseText = [] from none, show digits = ['0'] from zero]
            exact full
          · right
            refine without (by omega) rest ?_ none
            rw [split', show baseText = [] from none, show digits = ['0'] from zero]
            rfl }
    · rw [HexItem.number, List.append_assoc, List.append_assoc, ← split', ← split,
        List.takeWhile_append_dropWhile]

end WiredServer
