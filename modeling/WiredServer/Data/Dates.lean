import Mathlib
import WiredServer.Base.Numerals
import WiredServer.Lib.Calendar

/-! Dates as they are stored: the local time that is written of an instant, and the instant that is read
of a local time. The time zone gives the offset of each instant, and the text does not have it.
-/

namespace WiredServer.Data

open Calendar

-----------------------------------------------------------------------------------------
-- Broken-down times
-----------------------------------------------------------------------------------------

/-- A broken-down time (`struct tm`), with the year and the month as they are written. -/
structure Tm where
  year : ℤ
  month : ℕ
  day : ℕ
  hour : ℕ
  minute : ℕ
  second : ℕ
deriving DecidableEq

/-- A time zone: the offset of its local time from the universal time, in seconds, at each instant. -/
abbrev Zone := Int64 → ℤ

/-- The day of the instant zero, counted from the first day of the year 1. -/
def epochDay : ℤ := 719162

/-- The seconds from the instant zero to a broken-down time (`wi_timegm`). -/
def timegm (tm : Tm) : ℤ :=
  86400 * ((Date.mk tm.year tm.month tm.day).number - epochDay) + 3600 * tm.hour + 60 * tm.minute
    + tm.second

/-- `localtime_r` into memory that is zero: it is left as it is if the year does not fit. -/
def localtime (zone : Zone) (time : Int64) : Tm :=
  let local' := time.toInt + zone time
  let date := dateOf (epochDay + local' / 86400)
  if -2 ^ 31 ≤ date.year - 1900 ∧ date.year - 1900 < 2 ^ 31 then
    { year := date.year
      month := date.month
      day := date.day
      hour := (local' % 86400 / 3600).toNat
      minute := (local' % 3600 / 60).toNat
      second := (local' % 60).toNat }
  else ⟨1900, 1, 0, 0, 0, 0⟩

-----------------------------------------------------------------------------------------
-- Written times
-----------------------------------------------------------------------------------------

/-- `%Y`. -/
def yearText (year : ℤ) : List Char :=
  if year < 0 then '-' :: Nat.toDigits 10 year.natAbs else Nat.toDigits 10 year.natAbs

/-- `%.2lu`, and the other conversions of `strftime`. -/
def twoDigits (number : ℕ) : List Char :=
  if number < 10 then '0' :: Nat.toDigits 10 number else Nat.toDigits 10 number

/-- What `strftime` writes of a broken-down time in the format `%Y-%m-%d %H:%M:%S`. -/
def Tm.text (tm : Tm) : List Char :=
  yearText tm.year
    ++ '-' :: (twoDigits tm.month
      ++ '-' :: (twoDigits tm.day
        ++ ' ' :: (twoDigits tm.hour
          ++ ':' :: (twoDigits tm.minute
            ++ ':' :: twoDigits tm.second))))

/-- `wi_time_interval_sqlite3_string`. -/
def timeIntervalSqlite3String (zone : Zone) (interval : Int64) : List Char :=
  (localtime zone interval).text

/-- The sign of an offset: that of an offset of zero is a minus. -/
def offsetSign (gmtoff : ℤ) : Char :=
  if 0 < gmtoff then '+' else '-'

/-- The hours and the minutes of an offset. -/
def offsetDigits (gmtoff : ℤ) : List Char :=
  twoDigits (gmtoff.natAbs / 3600) ++ twoDigits (gmtoff.natAbs % 3600 / 60)

-----------------------------------------------------------------------------------------
-- Read times
-----------------------------------------------------------------------------------------

/-- The digits of a number that `strptime` reads behind its first one. -/
def takeNumber (high : ℕ) : ℕ → ℕ → List Char → ℕ × List Char
  | count + 1, value, char :: text =>
      if char.isDigit ∧ value * 10 ≤ high then
        takeNumber high count (10 * value + (char.toNat - '0'.toNat)) text
      else (value, char :: text)
  | _, value, text => (value, text)

/-- A number of `strptime` between two bounds, with no more than so many digits. -/
def getNumber (low high count : ℕ) (text : List Char) : Option (ℕ × List Char) :=
  match text.dropWhile (· = ' ') with
  | char :: text =>
      if char.isDigit then
        let (value, rest) := takeNumber high (count - 1) (char.toNat - '0'.toNat) text
        if low ≤ value ∧ value ≤ high then some (value, rest) else none
      else none
  | [] => none

/-- A character of the format that has to be in the text. -/
def matchChar (char : Char) (text : List Char) : Option (List Char) :=
  if text.head? = some char then some text.tail else none

/-- The digits of `%z`: two, or four with a colon between them or not, of which the last ones are
minutes.
-/
def matchOffset (text : List Char) : Option (List Char) :=
  if ((text.take 2).takeWhile Char.isDigit).length < 2 then none
  else
    let rest := text.drop 2
    let rest := if rest.head? = some ':' ∧ rest.tail.head?.any Char.isDigit then rest.tail else rest
    let minutes := (rest.take 2).takeWhile Char.isDigit
    if minutes = [] then some rest
    else if minutes.length = 1 then none
    else if Nat.ofDigitChars 10 minutes 0 < 60 then some (rest.drop 2)
    else none

/-- `%z` of `strptime`, which no field of the time is changed by. -/
def matchZone (text : List Char) : Option (List Char) :=
  match text.dropWhile isSpace with
  | 'Z' :: rest => some rest
  | '+' :: rest => matchOffset rest
  | '-' :: rest => matchOffset rest
  | _ => none

/-- `strptime` with the format `%Y-%m-%d %H:%M:%S %z`. -/
def strptime (text : List Char) : Option Tm := do
  let (year, text) ← getNumber 0 9999 4 text
  let text ← matchChar '-' text
  let (month, text) ← getNumber 1 12 2 text
  let text ← matchChar '-' text
  let (day, text) ← getNumber 1 31 2 text
  let (hour, text) ← getNumber 0 23 2 (text.dropWhile isSpace)
  let text ← matchChar ':' text
  let (minute, text) ← getNumber 0 59 2 text
  let text ← matchChar ':' text
  let (second, text) ← getNumber 0 61 2 text
  let _ ← matchZone (text.dropWhile isSpace)
  some ⟨year, month, day, hour, minute, second⟩

/-- The first match of the regular expression `(\+|\-)[0-9]{4}`. -/
def offsetMatch : List Char → Option (List Char)
  | [] => none
  | char :: text =>
      if (char = '+' ∨ char = '-') ∧ ((text.take 4).takeWhile Char.isDigit).length = 4 then
        some (char :: text.take 4)
      else offsetMatch text

/-- `wi_string_uinteger`: a text that is no number counts as zero. A number that begins with a zero is an
octal one.
-/
def stringUInteger (text : List Char) : UInt64 :=
  match signedValue text with
  | some value => if value.natAbs < 2 ^ 64 then .ofInt value else 0
  | none => 0

/-- `wi_date_init_with_string` with the format `%Y-%m-%d %H:%M:%S %z`. -/
def dateInitWithString (string : List Char) : Option Int64 :=
  (strptime string).map fun tm =>
    let offset :=
      match offsetMatch string with
      | some found =>
          let hours := stringUInteger ((found.drop 1).take 2)
          let minutes := stringUInteger ((found.drop 3).take 2)
          let offset := hours * 3600 + minutes * 60
          if found.head? = some '-' then -offset else offset
      | none => 0
    (UInt64.ofInt (timegm tm) - offset).toInt64

/-- `wi_date_with_sqlite3_string`, at an instant. -/
def dateWithSqlite3String (zone : Zone) (now : Int64) (string : List Char) : Option Int64 :=
  dateInitWithString (string ++ ' ' :: offsetSign (zone now) :: offsetDigits (zone now))

-----------------------------------------------------------------------------------------
-- Digits
-----------------------------------------------------------------------------------------

/-- Digits are read as their number if it is not above the bound, up to the end of the digits or as many
as are read, by induction on the digits.
-/
theorem takeNumber_digits {high count value : ℕ} {digits rest : List Char}
    (all : ∀ char ∈ digits, char.isDigit) (short : digits.length ≤ count)
    (ends : digits.length = count ∨ ∀ char ∈ rest.head?, char.isDigit = false)
    (small : Nat.ofDigitChars 10 digits value ≤ high)
    : takeNumber high count value (digits ++ rest) = (Nat.ofDigitChars 10 digits value, rest) := by
  induction digits generalizing count value with
  | nil =>
      cases count with
      | zero => rfl
      | succ count =>
          have stop := ends.resolve_left (by simp)
          cases rest with
          | nil => rfl
          | cons char rest =>
              rw [List.nil_append, takeNumber, if_neg (by simp [stop char rfl])]
              rfl
  | cons char digits ih =>
      cases count with
      | zero => exact absurd short (by simp)
      | succ count =>
          obtain ⟨digit, others⟩ := List.forall_mem_cons.mp all
          rw [Nat.ofDigitChars_cons] at small ⊢
          have bound : value * 10 ≤ high := by
            rw [Nat.ofDigitChars_eq_ofDigitChars_zero] at small
            have power := Nat.one_le_two_pow.trans (Nat.pow_le_pow_left (by omega : 2 ≤ 10) digits.length)
            have least : 10 * value + (char.toNat - '0'.toNat)
                ≤ 10 ^ digits.length * (10 * value + (char.toNat - '0'.toNat)) :=
              Nat.le_mul_of_pos_left _ power
            omega
          rw [List.cons_append, takeNumber, if_pos ⟨digit, bound⟩]
          apply ih others (Nat.le_of_succ_le_succ short) _ small
          exact ends.imp_left Nat.succ.inj

/-- Digits are read as their number between the bounds. -/
theorem getNumber_digits {low high count : ℕ} {digits rest : List Char} (nonempty : digits ≠ [])
    (all : ∀ char ∈ digits, char.isDigit) (short : digits.length ≤ count)
    (ends : digits.length = count ∨ ∀ char ∈ rest.head?, char.isDigit = false)
    (least : low ≤ Nat.ofDigitChars 10 digits 0) (small : Nat.ofDigitChars 10 digits 0 ≤ high)
    : getNumber low high count (digits ++ rest) = some (Nat.ofDigitChars 10 digits 0, rest) := by
  obtain ⟨char, others, rfl⟩ := List.exists_cons_of_ne_nil nonempty
  obtain ⟨digit, all'⟩ := List.forall_mem_cons.mp all
  have noBlank : char ≠ ' ' := by
    rintro rfl
    exact absurd digit (by decide)
  rw [Nat.ofDigitChars_cons, Nat.mul_zero, Nat.zero_add] at least small ⊢
  rw [List.length_cons] at short ends
  rw [getNumber, List.cons_append, List.dropWhile_cons_of_neg (by simpa using noBlank)]
  dsimp only
  rw [if_pos digit, takeNumber_digits all' (by omega) (ends.imp_left (by omega)) small]
  exact if_pos ⟨least, small⟩

/-- So many digits are worth less than a power of ten, by induction on the digits. -/
theorem ofDigitChars_lt {digits : List Char} (all : ∀ char ∈ digits, char.isDigit)
    : Nat.ofDigitChars 10 digits 0 < 10 ^ digits.length := by
  induction digits with
  | nil => exact Nat.one_pos
  | cons char digits ih =>
      obtain ⟨digit, others⟩ := List.forall_mem_cons.mp all
      have bound : char.toNat - '0'.toNat ≤ 9 := by
        have range : char.toNat ≤ 57 := (Char.isDigit_iff_toNat.mp digit).2
        change char.toNat - 48 ≤ 9
        omega
      have more := ih others
      rw [Nat.ofDigitChars_cons, Nat.mul_zero, Nat.zero_add, Nat.ofDigitChars_eq_ofDigitChars_zero,
        List.length_cons, pow_succ]
      have most := Nat.mul_le_mul_left (10 ^ digits.length) bound
      omega

/-- The digits of a number, of which there are at least two. -/
theorem twoDigits_spec (number : ℕ)
    : (∀ char ∈ twoDigits number, char.isDigit) ∧ Nat.ofDigitChars 10 (twoDigits number) 0 = number
      ∧ 2 ≤ (twoDigits number).length ∧ (number < 100 → (twoDigits number).length = 2) := by
  have digits : ∀ char ∈ Nat.toDigits 10 number, char.isDigit := fun char member =>
    Nat.isDigit_of_mem_toDigits (by decide) (by decide) member
  unfold twoDigits
  split
  · rename_i small
    rw [Nat.toDigits_of_lt_base small] at digits ⊢
    refine ⟨fun char member => ?_, ?_, by simp, fun _ => rfl⟩
    · rcases List.mem_cons.mp member with rfl | member
      · decide
      · exact digits char member
    · rw [Nat.ofDigitChars_cons, Nat.ofDigitChars_cons_digitChar_of_lt_ten small]
      simp
  · rename_i large
    have one := @Nat.length_toDigits_le_iff 10 number 1 (by decide) (by decide)
    have two := @Nat.length_toDigits_le_iff 10 number 2 (by decide) (by decide)
    refine ⟨digits, Nat.ofDigitChars_ten_toDigits, by omega, fun small => ?_⟩
    omega

/-- A number of two digits is read. -/
theorem getNumber_twoDigits {low high number : ℕ} (rest : List Char) (least : low ≤ number)
    (small : number ≤ high) (two : high < 100)
    : getNumber low high 2 (twoDigits number ++ rest) = some (number, rest) := by
  obtain ⟨all, value, -, length⟩ := twoDigits_spec number
  have exact' := length (by omega)
  have nonempty : twoDigits number ≠ [] := List.ne_nil_of_length_pos (by omega)
  have read := @getNumber_digits low high 2 _ rest nonempty all exact'.le (.inl exact')
    (by rwa [value]) (by rwa [value])
  rwa [value] at read

/-- A year of up to four digits is read. -/
theorem getNumber_year {year : ℤ} (rest : List Char) (least : 0 ≤ year) (small : year ≤ 9999)
    : getNumber 0 9999 4 (yearText year ++ '-' :: rest) = some (year.toNat, '-' :: rest) := by
  have number : year.natAbs = year.toNat := by omega
  have length := (@Nat.length_toDigits_le_iff 10 year.toNat 4 (by decide) (by decide)).mpr (by omega)
  have read := @getNumber_digits 0 9999 4 (Nat.toDigits 10 year.toNat) ('-' :: rest)
    Nat.toDigits_ne_nil
    (fun char member => Nat.isDigit_of_mem_toDigits (by decide) (by decide) member) length
    (.inr (by simp)) (Nat.zero_le _) (by rw [Nat.ofDigitChars_ten_toDigits]; omega)
  rw [Nat.ofDigitChars_ten_toDigits] at read
  rw [yearText, if_neg (not_lt.mpr least), number, read]

/-- No other year is read in front of a hyphen. -/
theorem year_not_read {year : ℤ} (rest : List Char) (outside : year < 0 ∨ 9999 < year)
    : (getNumber 0 9999 4 (yearText year ++ '-' :: rest)).bind (fun read => matchChar '-' read.2)
      = none := by
  rw [yearText]
  rcases outside with negative | large
  · rw [if_pos negative]
    rfl
  · rw [if_neg (by omega)]
    have long := mt (@Nat.length_toDigits_le_iff 10 year.natAbs 4 (by decide) (by decide)).mp (by omega)
    have all : ∀ char ∈ Nat.toDigits 10 year.natAbs, char.isDigit :=
      fun char member => Nat.isDigit_of_mem_toDigits (by decide) (by decide) member
    generalize Nat.toDigits 10 year.natAbs = digits at long all
    have front : (digits.take 4).length = 4 := by
      rw [List.length_take]
      omega
    obtain ⟨next, more, behind⟩ := List.exists_cons_of_ne_nil
      (List.ne_nil_of_length_pos (by rw [List.length_drop]; omega) : digits.drop 4 ≠ [])
    have allFront : ∀ char ∈ digits.take 4, char.isDigit := fun char member =>
      all char (List.mem_of_mem_take member)
    have digit : next.isDigit := by
      refine all next (List.mem_of_mem_drop (?_ : next ∈ digits.drop 4))
      rw [behind]
      exact List.mem_cons_self
    have small := ofDigitChars_lt allFront
    rw [front] at small
    have read := @getNumber_digits 0 9999 4 _ (next :: more ++ '-' :: rest)
      (List.ne_nil_of_length_pos (by omega)) allFront front.le (.inl front) (Nat.zero_le _)
      (Nat.le_of_lt_succ small)
    rw [← List.append_assoc, ← behind, List.take_append_drop] at read
    rw [read, Option.bind_some, behind, matchChar, if_neg]
    rintro hyphen
    obtain rfl := Option.some.inj hyphen
    exact absurd digit (by decide)

-----------------------------------------------------------------------------------------
-- Times of a day
-----------------------------------------------------------------------------------------

/-- The fields of a broken-down time are those of a date and a time of day. -/
structure Tm.IsTime (tm : Tm) : Prop where
  month : 1 ≤ tm.month ∧ tm.month ≤ 12
  day : 1 ≤ tm.day ∧ tm.day ≤ 31
  hour : tm.hour ≤ 23
  minute : tm.minute ≤ 59
  second : tm.second ≤ 59

/-- The text of a time is read as the time if its year has up to four digits, whatever offset follows
that can be read.
-/
theorem strptime_text {tm : Tm} (time : tm.IsTime) (least : 0 ≤ tm.year) (small : tm.year ≤ 9999)
    (gmtoff : ℤ) (digits : List Char)
    : strptime (tm.text ++ ' ' :: offsetSign gmtoff :: digits)
      = (matchOffset digits).map fun _ => tm := by
  have start (number : ℕ) (rest : List Char)
      : (twoDigits number ++ rest).dropWhile isSpace = twoDigits number ++ rest := by
    obtain ⟨all, -, length, -⟩ := twoDigits_spec number
    obtain ⟨first, others, split⟩ := List.exists_cons_of_ne_nil
      (List.ne_nil_of_length_pos (by omega) : twoDigits number ≠ [])
    rw [split] at all ⊢
    exact List.dropWhile_cons_of_neg (by simp [isSpace_of_isDigit (all first List.mem_cons_self)])
  have blank (number : ℕ) (rest : List Char)
      : (' ' :: (twoDigits number ++ rest)).dropWhile isSpace = twoDigits number ++ rest := by
    rw [List.dropWhile_cons_of_pos (by decide), start]
  have literal (char : Char) (rest : List Char) : matchChar char (char :: rest) = some rest := if_pos rfl
  have zone : matchZone ((' ' :: offsetSign gmtoff :: digits).dropWhile isSpace) = matchOffset digits := by
    rw [List.dropWhile_cons_of_pos (by decide), offsetSign]
    split <;> rfl
  simp only [strptime, Tm.text, List.append_assoc, List.cons_append, getNumber_year _ least small,
    Option.bind_eq_bind, Option.bind_some, literal, blank, zone,
    getNumber_twoDigits _ time.month.1 time.month.2 (by decide),
    getNumber_twoDigits _ time.day.1 time.day.2 (by decide),
    getNumber_twoDigits _ (Nat.zero_le _) time.hour (by decide),
    getNumber_twoDigits _ (Nat.zero_le _) time.minute (by decide),
    @getNumber_twoDigits 0 61 tm.second _ (Nat.zero_le _) (time.second.trans (by decide)) (by decide)]
  rw [Int.toNat_of_nonneg least]
  cases matchOffset digits <;> rfl

/-- The text of a time in any other year is not read. -/
theorem strptime_text_of_year {tm : Tm} (outside : tm.year < 0 ∨ 9999 < tm.year) (rest : List Char)
    : strptime (tm.text ++ rest) = none := by
  have unread := year_not_read (twoDigits tm.month
    ++ '-' :: (twoDigits tm.day ++ ' ' :: (twoDigits tm.hour ++ ':' :: (twoDigits tm.minute
      ++ ':' :: (twoDigits tm.second ++ rest))))) outside
  simp only [strptime, Tm.text, List.append_assoc, List.cons_append, Option.bind_eq_bind]
  cases read : getNumber 0 9999 4 (yearText tm.year ++ '-' :: (twoDigits tm.month
    ++ '-' :: (twoDigits tm.day ++ ' ' :: (twoDigits tm.hour ++ ':' :: (twoDigits tm.minute
      ++ ':' :: (twoDigits tm.second ++ rest)))))) with
  | none => rfl
  | some found =>
      rw [read, Option.bind_some] at unread
      rw [Option.bind_some, unread]
      rfl

-----------------------------------------------------------------------------------------
-- Offsets
-----------------------------------------------------------------------------------------

/-- The number of the first four digits of a number. -/
def leading (number : ℕ) : ℕ :=
  Nat.ofDigitChars 10 ((Nat.toDigits 10 number).take 4) 0

/-- What is read of two digits: those of 8 and 9 are no octal number. -/
def keptNumber (number : ℕ) : ℕ :=
  if number = 8 ∨ number = 9 then 0 else number

/-- The offset that is read of the text of an offset, if there is one. -/
def offsetRead (gmtoff : ℤ) : Option ℤ :=
  let shown := leading (gmtoff.natAbs / 3600 * 100 + gmtoff.natAbs % 3600 / 60)
  let seconds : ℤ := keptNumber (shown / 100) * 3600 + keptNumber (shown % 100) * 60
  if shown % 100 < 60 then some (if 0 < gmtoff then seconds else -seconds) else none

/-- A digit is that of a number. -/
theorem exists_digitChar {char : Char} (digit : char.isDigit)
    : ∃ number < 10, char = number.digitChar := by
  have known : ∀ code, 48 ≤ code ∧ code ≤ 57 → Char.ofNat code = (code - 48).digitChar := by
    intro code range
    have few : code < 58 := by omega
    interval_cases code <;> first | decide | omega
  have range : 48 ≤ char.toNat ∧ char.toNat ≤ 57 := Char.isDigit_iff_toNat.mp digit
  exact ⟨char.toNat - 48, by omega, by rw [← known _ range, Char.ofNat_toNat]⟩

/-- The digits of a number below 100. -/
theorem twoDigits_eq {number : ℕ} (small : number < 100)
    : twoDigits number = [(number / 10).digitChar, (number % 10).digitChar] := by
  unfold twoDigits
  split
  · rename_i less
    rw [Nat.toDigits_of_lt_base less, Nat.div_eq_of_lt less, Nat.mod_eq_of_lt less]
    rfl
  · rename_i large
    rw [Nat.toDigits_of_base_le (by decide) (not_lt.mp large), Nat.toDigits_of_lt_base (by omega)]
    rfl

/-- Two digits behind those of a large number are the last ones of a number. -/
theorem twoDigits_append {hours minutes : ℕ} (large : 100 ≤ hours) (small : minutes < 100)
    : twoDigits hours ++ twoDigits minutes = Nat.toDigits 10 (hours * 100 + minutes) := by
  have tens : (hours * 100 + minutes) / 10 = hours * 10 + minutes / 10 := by omega
  have hundreds : (hours * 10 + minutes / 10) / 10 = hours := by omega
  have last : (hours * 100 + minutes) % 10 = minutes % 10 := by omega
  have next : (hours * 10 + minutes / 10) % 10 = minutes / 10 := by omega
  rw [twoDigits_eq small, twoDigits, if_neg (by omega),
    @Nat.toDigits_of_base_le 10 (hours * 100 + minutes) (by decide) (by omega), tens, last,
    @Nat.toDigits_of_base_le 10 (hours * 10 + minutes / 10) (by decide) (by omega), hundreds, next,
    List.append_assoc]
  rfl

/-- The first four digits of an offset make up the number of the first four. -/
theorem take_offsetDigits (gmtoff : ℤ)
    : ((offsetDigits gmtoff).take 4).length = 4
      ∧ (∀ char ∈ offsetDigits gmtoff, char.isDigit)
      ∧ Nat.ofDigitChars 10 ((offsetDigits gmtoff).take 4) 0
        = leading (gmtoff.natAbs / 3600 * 100 + gmtoff.natAbs % 3600 / 60) := by
  have small : gmtoff.natAbs % 3600 / 60 < 100 := by omega
  rw [offsetDigits]
  generalize gmtoff.natAbs / 3600 = hours
  generalize gmtoff.natAbs % 3600 / 60 = minutes at small
  obtain ⟨all, value, length, two⟩ := twoDigits_spec hours
  obtain ⟨all', value', length', two'⟩ := twoDigits_spec minutes
  refine ⟨?_, fun char member => (List.mem_append.mp member).elim (all char) (all' char), ?_⟩
  · rw [List.length_take, List.length_append]
    omega
  · by_cases few : hours < 100
    · have four : (twoDigits hours ++ twoDigits minutes).length ≤ 4 := by
        rw [List.length_append, two few, two' small]
      have short := (@Nat.length_toDigits_le_iff 10 (hours * 100 + minutes) 4 (by decide)
        (by decide)).mpr (by omega)
      rw [leading, List.take_of_length_le four, List.take_of_length_le short,
        Nat.ofDigitChars_ten_toDigits, Nat.ofDigitChars_append, value,
        Nat.ofDigitChars_eq_ofDigitChars_zero, value', two' small]
      omega
    · rw [leading, twoDigits_append (not_lt.mp few) small]

/-- The digits of an offset begin with four. -/
theorem offsetDigits_spec (gmtoff : ℤ)
    : ∃ a b c d rest, offsetDigits gmtoff
        = Nat.digitChar a :: Nat.digitChar b :: Nat.digitChar c :: Nat.digitChar d :: rest
      ∧ a < 10 ∧ b < 10 ∧ c < 10 ∧ d < 10
      ∧ leading (gmtoff.natAbs / 3600 * 100 + gmtoff.natAbs % 3600 / 60)
        = 1000 * a + 100 * b + 10 * c + d := by
  obtain ⟨length, all, value⟩ := take_offsetDigits gmtoff
  have split := List.take_append_drop 4 (offsetDigits gmtoff)
  match front : (offsetDigits gmtoff).take 4, length with
  | [first, second, third, fourth], _ =>
      rw [front] at value split
      rw [← split] at all
      obtain ⟨a, smallA, rfl⟩ := exists_digitChar (all first (by simp))
      obtain ⟨b, smallB, rfl⟩ := exists_digitChar (all second (by simp))
      obtain ⟨c, smallC, rfl⟩ := exists_digitChar (all third (by simp))
      obtain ⟨d, smallD, rfl⟩ := exists_digitChar (all fourth (by simp))
      refine ⟨a, b, c, d, _, split.symm, smallA, smallB, smallC, smallD, ?_⟩
      rw [← value, Nat.ofDigitChars_cons_digitChar_of_lt_ten smallA,
        Nat.ofDigitChars_cons_digitChar_of_lt_ten smallB,
        Nat.ofDigitChars_cons_digitChar_of_lt_ten smallC,
        Nat.ofDigitChars_cons_digitChar_of_lt_ten smallD, Nat.ofDigitChars_nil]
      omega

/-- Two digits as they are read. -/
theorem stringUInteger_two {a b : ℕ} (first : a < 10) (second : b < 10)
    : stringUInteger [Nat.digitChar a, Nat.digitChar b] = .ofNat (keptNumber (10 * a + b)) := by
  have all : ∀ a < 10, ∀ b < 10, stringUInteger [Nat.digitChar a, Nat.digitChar b]
      = .ofNat (keptNumber (10 * a + b)) := by decide
  exact all a first b second

/-- An offset is matched if its minutes are those of an hour. -/
theorem matchOffset_digits {a b c d : ℕ} (rest : List Char) (first : a < 10) (second : b < 10)
    (third : c < 10) (fourth : d < 10)
    : (matchOffset (a.digitChar :: b.digitChar :: c.digitChar :: d.digitChar :: rest)).isSome
      = decide (10 * c + d < 60) := by
  have digit {number : ℕ} (small : number < 10) : number.digitChar.isDigit = true := by
    rw [Nat.isDigit_digitChar]
    exact decide_eq_true small
  have noColon : ¬((c.digitChar :: d.digitChar :: rest).head? = some ':'
      ∧ (c.digitChar :: d.digitChar :: rest).tail.head?.any Char.isDigit = true) := by
    rintro ⟨colon, -⟩
    have isDigit := digit third
    rw [Option.some.inj colon] at isDigit
    cases isDigit
  have hours : ((a.digitChar :: b.digitChar :: c.digitChar :: d.digitChar :: rest).take 2).takeWhile
      Char.isDigit = [a.digitChar, b.digitChar] := by
    simp [digit first, digit second]
  have minutes : ((c.digitChar :: d.digitChar :: rest).take 2).takeWhile Char.isDigit
      = [c.digitChar, d.digitChar] := by
    simp [digit third, digit fourth]
  have behind : (a.digitChar :: b.digitChar :: c.digitChar :: d.digitChar :: rest).drop 2
      = c.digitChar :: d.digitChar :: rest := rfl
  have value : Nat.ofDigitChars 10 [c.digitChar, d.digitChar] 0 = 10 * c + d := by
    rw [Nat.ofDigitChars_cons_digitChar_of_lt_ten third, Nat.ofDigitChars_cons_digitChar_of_lt_ten fourth,
      Nat.ofDigitChars_nil]
    omega
  rw [matchOffset, hours, behind, if_neg (by simp)]
  simp only [if_neg noColon, minutes, value]
  rw [if_neg (by simp), if_neg (by simp)]
  split
  · rename_i inside
    exact (decide_eq_true inside).symm
  · rename_i outside
    exact (decide_eq_false outside).symm

/-- No match begins at a character that is no sign. -/
theorem offsetMatch_append {front : List Char} (noSign : ∀ char ∈ front, char ≠ '+' ∧ char ≠ '-')
    (rest : List Char)
    : offsetMatch (front ++ rest) = offsetMatch rest := by
  induction front with
  | nil => rfl
  | cons char front ih =>
      obtain ⟨⟨plus, minus⟩, others⟩ := List.forall_mem_cons.mp noSign
      rw [List.cons_append, offsetMatch, if_neg (fun found => found.1.elim plus minus), ih others]

/-- Digits are no signs. -/
theorem noSign_of_isDigit {front : List Char} (all : ∀ char ∈ front, char.isDigit)
    : ∀ char ∈ front, char ≠ '+' ∧ char ≠ '-' := by
  intro char member
  have digit := all char member
  constructor
  · rintro rfl
    cases digit
  · rintro rfl
    cases digit

/-- No match begins at a hyphen in front of two digits. -/
theorem offsetMatch_hyphen {number : ℕ} (small : number < 100) {char : Char}
    (noDigit : char.isDigit = false) (rest : List Char)
    : offsetMatch ('-' :: (twoDigits number ++ char :: rest)) = offsetMatch (char :: rest) := by
  have all := (twoDigits_spec number).1
  rw [offsetMatch, if_neg, offsetMatch_append (noSign_of_isDigit all)]
  rintro ⟨-, four⟩
  have two := (twoDigits_spec number).2.2.2 small
  have front : (twoDigits number ++ char :: rest).take 4 = twoDigits number ++ char :: rest.take 1 := by
    rw [List.take_append, two, List.take_of_length_le (by omega)]
    rfl
  rw [front, List.takeWhile_append_of_pos all, List.takeWhile_cons_of_neg (by simp [noDigit]),
    List.append_nil, two] at four
  cases four

/-- The offset behind a time is matched. -/
theorem offsetMatch_text {tm : Tm} (time : tm.IsTime) (least : 0 ≤ tm.year) {sign : Char}
    (isSign : sign = '+' ∨ sign = '-') {digits : List Char} (four : (digits.take 4).length = 4)
    (all : ∀ char ∈ digits, char.isDigit)
    : offsetMatch (tm.text ++ ' ' :: sign :: digits) = some (sign :: digits.take 4) := by
  have year : ∀ char ∈ yearText tm.year, char.isDigit := by
    rw [yearText, if_neg (not_lt.mpr least)]
    exact fun char member => Nat.isDigit_of_mem_toDigits (by decide) (by decide) member
  have plain (char : Char) (other : char = ' ' ∨ char = ':') (rest : List Char)
      : offsetMatch (char :: rest) = offsetMatch rest := by
    refine @offsetMatch_append [char] (fun own member => ?_) rest
    rw [List.mem_singleton.mp member]
    rcases other with rfl | rfl <;> decide
  have month := time.month.2
  have day := time.day.2
  have found : ((digits.take 4).takeWhile Char.isDigit).length = 4 := by
    rw [List.takeWhile_eq_self_iff.mpr fun char member => all char (List.mem_of_mem_take member), four]
  simp only [Tm.text, List.append_assoc, List.cons_append]
  rw [offsetMatch_append (noSign_of_isDigit year), offsetMatch_hyphen (by omega) (by decide),
    offsetMatch_hyphen (by omega) (by decide), plain ' ' (.inl rfl),
    offsetMatch_append (noSign_of_isDigit (twoDigits_spec tm.hour).1), plain ':' (.inr rfl),
    offsetMatch_append (noSign_of_isDigit (twoDigits_spec tm.minute).1), plain ':' (.inr rfl),
    offsetMatch_append (noSign_of_isDigit (twoDigits_spec tm.second).1), plain ' ' (.inl rfl),
    offsetMatch, if_pos ⟨isSign, found⟩]

-----------------------------------------------------------------------------------------
-- Clocks
-----------------------------------------------------------------------------------------

/-- The year of the local time at an instant. -/
def localYear (zone : Zone) (time : Int64) : ℤ :=
  yearOf (epochDay + (time.toInt + zone time) / 86400)

/-- A local time whose year fits has a date and a time of day, and its seconds are those of the instant
and the offset.
-/
theorem localtime_spec (zone : Zone) (time : Int64) (least : 0 ≤ localYear zone time)
    (small : localYear zone time ≤ 9999)
    : (localtime zone time).IsTime ∧ (localtime zone time).year = localYear zone time
      ∧ timegm (localtime zone time) = time.toInt + zone time := by
  have fits : -2 ^ 31 ≤ (dateOf (epochDay + (time.toInt + zone time) / 86400)).year - 1900
      ∧ (dateOf (epochDay + (time.toInt + zone time) / 86400)).year - 1900 < 2 ^ 31 := by
    change -2 ^ 31 ≤ localYear zone time - 1900 ∧ localYear zone time - 1900 < 2 ^ 31
    omega
  obtain ⟨number, month, month', day, day'⟩ :=
    number_dateOf (epochDay + (time.toInt + zone time) / 86400)
  rw [localtime, if_pos fits]
  refine ⟨⟨⟨month, month'⟩, ⟨day, day'⟩, ?_, ?_, ?_⟩, rfl, ?_⟩
  · dsimp only
    omega
  · dsimp only
    omega
  · dsimp only
    omega
  · simp only [timegm, number]
    omega

/-- In any other year the text of an instant is not read. -/
theorem strptime_localtime {zone : Zone} {time : Int64}
    (outside : ¬(0 ≤ localYear zone time ∧ localYear zone time ≤ 9999)) (rest : List Char)
    : strptime (timeIntervalSqlite3String zone time ++ rest) = none := by
  rw [timeIntervalSqlite3String, localtime]
  split
  · apply strptime_text_of_year
    change localYear zone time < 0 ∨ 9999 < localYear zone time
    omega
  · rfl

/-- The seconds of an instant and its offset in a year of up to four digits. -/
theorem bound_of_localYear {zone : Zone} {time : Int64} (least : 0 ≤ localYear zone time)
    (small : localYear zone time ≤ 9999)
    : |time.toInt + zone time| < 2 ^ 40 := by
  obtain ⟨start, within⟩ := yearOf_spec (epochDay + (time.toInt + zone time) / 86400)
  change daysBeforeYear (localYear zone time) ≤ _ at start
  change _ < daysBeforeYear (localYear zone time) + (if IsLeap (localYear zone time) then 366 else 365)
    at within
  have long : (if IsLeap (localYear zone time) then (366 : ℤ) else 365) ≤ 366 := by
    split <;> decide
  rw [abs_lt]
  simp only [daysBeforeYear, epochDay] at start within
  omega

/-- An unsigned number counts modulo a power of two. -/
theorem toInt64_ofInt (number : ℤ) : (UInt64.ofInt number).toInt64 = Int64.ofInt number := by
  rw [UInt64.ofInt, UInt64.toInt64_ofNat', ← Int64.ofInt_eq_ofNat]
  apply (Int64.ofInt_eq_iff_bmod_eq_toInt _ _).mpr
  rw [Int64.toInt_ofInt, Int.toNat_of_nonneg (Int.emod_nonneg _ (by decide))]
  exact Int.emod_bmod number (2 ^ 64)

/-- The offset that is read is subtracted modulo a power of two. -/
theorem clock_eq_iff {time : Int64} {gmtoff seconds : ℤ} (bound : |time.toInt + gmtoff| < 2 ^ 40)
    (few : |seconds| < 2 ^ 40)
    : (UInt64.ofInt (time.toInt + gmtoff) - UInt64.ofInt seconds).toInt64 = time ↔ seconds = gmtoff := by
  have low := time.le_toInt
  have high := time.toInt_lt
  rw [UInt64.toInt64_sub, toInt64_ofInt, toInt64_ofInt, ← Int64.ofInt_sub,
    Int64.ofInt_eq_iff_bmod_eq_toInt, Int.bmod_eq_iff (by decide)]
  rw [abs_lt] at bound few
  constructor
  · rintro ⟨-, -, factor, same⟩
    omega
  · rintro rfl
    exact ⟨by omega, by omega, 0, by omega⟩

/-- The seconds that are computed of an offset. -/
theorem offset_seconds (hours minutes : ℕ)
    : UInt64.ofNat hours * 3600 + UInt64.ofNat minutes * 60
      = UInt64.ofInt (hours * 3600 + minutes * 60) := by
  have cast (number : ℕ) : UInt64.ofInt number = UInt64.ofNat number := by
    rw [UInt64.ofInt]
    apply UInt64.toNat_inj.mp
    rw [UInt64.toNat_ofNat', UInt64.toNat_ofNat']
    omega
  have hour : UInt64.ofInt 3600 = 3600 := by decide
  have minute : UInt64.ofInt 60 = 60 := by decide
  rw [UInt64.ofInt_add, UInt64.ofInt_mul, UInt64.ofInt_mul, cast, cast, hour, minute]

/-- The digits that are kept are those of numbers below 100. -/
theorem keptNumber_le {number : ℕ} (small : number < 100) : keptNumber number < 100 := by
  unfold keptNumber
  split <;> omega

/-- What is read of a time in a year of up to four digits, at some instant. -/
theorem dateWithSqlite3String_eq {zone : Zone} {time : Int64} (least : 0 ≤ localYear zone time)
    (small : localYear zone time ≤ 9999) (now : Int64)
    : dateWithSqlite3String zone now (timeIntervalSqlite3String zone time)
      = (offsetRead (zone now)).map fun seconds =>
        (UInt64.ofInt (time.toInt + zone time) - UInt64.ofInt seconds).toInt64 := by
  obtain ⟨isTime, year, seconds⟩ := localtime_spec zone time least small
  obtain ⟨four, all, -⟩ := take_offsetDigits (zone now)
  obtain ⟨a, b, c, d, rest, digits, smallA, smallB, smallC, smallD, shown⟩ := offsetDigits_spec (zone now)
  have isSign : offsetSign (zone now) = '+' ∨ offsetSign (zone now) = '-' := by
    rw [offsetSign]
    split
    · exact .inl rfl
    · exact .inr rfl
  have found := offsetMatch_text isTime (year ▸ least) isSign four all
  have matched := matchOffset_digits rest smallA smallB smallC smallD
  have front : (1000 * a + 100 * b + 10 * c + d) / 100 = 10 * a + b := by omega
  have behind : (1000 * a + 100 * b + 10 * c + d) % 100 = 10 * c + d := by omega
  rw [dateWithSqlite3String, dateInitWithString, timeIntervalSqlite3String,
    strptime_text isTime (year ▸ least) (year ▸ small), found, digits, offsetRead, shown]
  simp only [front, behind]
  cases read : matchOffset (a.digitChar :: b.digitChar :: c.digitChar :: d.digitChar :: rest) with
  | none =>
      rw [read] at matched
      rw [if_neg (of_decide_eq_false matched.symm)]
      rfl
  | some rest' =>
      rw [read] at matched
      rw [if_pos (of_decide_eq_true matched.symm)]
      simp only [Option.map_some, seconds, List.take_succ_cons, List.take_zero, List.drop_succ_cons,
        List.drop_zero, List.head?_cons, stringUInteger_two smallA smallB,
        stringUInteger_two smallC smallD, offset_seconds]
      congr 3
      by_cases positive : 0 < zone now
      · rw [offsetSign, if_pos positive, if_pos positive, if_neg (by decide)]
      · rw [offsetSign, if_neg positive, if_neg positive, if_pos rfl, UInt64.ofInt_neg]

/-- The offset that is read has less than 100 hours. -/
theorem bound_of_offsetRead {gmtoff seconds : ℤ} (read : offsetRead gmtoff = some seconds)
    : |seconds| < 2 ^ 40 := by
  obtain ⟨a, b, c, d, rest, -, smallA, smallB, smallC, smallD, shown⟩ := offsetDigits_spec gmtoff
  rw [offsetRead, shown] at read
  have hours := @keptNumber_le ((1000 * a + 100 * b + 10 * c + d) / 100) (by omega)
  have minutes := @keptNumber_le ((1000 * a + 100 * b + 10 * c + d) % 100) (by omega)
  generalize keptNumber ((1000 * a + 100 * b + 10 * c + d) / 100) = hours' at read hours
  generalize keptNumber ((1000 * a + 100 * b + 10 * c + d) % 100) = minutes' at read minutes
  rw [abs_lt]
  split at read
  · have same := Option.some.inj read
    split at same <;> omega
  · cases read

/-- An offset of less than 100 hours is read as itself just if it has whole minutes and neither its
hours nor its minutes are 8 or 9.
-/
theorem offsetRead_eq_self_iff {gmtoff : ℤ} (small : gmtoff.natAbs < 360000)
    : offsetRead gmtoff = some gmtoff
      ↔ gmtoff % 60 = 0 ∧ gmtoff.natAbs / 3600 ∉ [8, 9] ∧ gmtoff.natAbs % 3600 / 60 ∉ [8, 9] := by
  have short := (@Nat.length_toDigits_le_iff 10
    (gmtoff.natAbs / 3600 * 100 + gmtoff.natAbs % 3600 / 60) 4 (by decide) (by decide)).mpr (by omega)
  have hours : (gmtoff.natAbs / 3600 * 100 + gmtoff.natAbs % 3600 / 60) / 100
      = gmtoff.natAbs / 3600 := by omega
  have minutes : (gmtoff.natAbs / 3600 * 100 + gmtoff.natAbs % 3600 / 60) % 100
      = gmtoff.natAbs % 3600 / 60 := by omega
  have kept (number : ℕ)
      : keptNumber number ≤ number ∧ (keptNumber number = number ↔ number ∉ [8, 9]) := by
    simp only [keptNumber, List.mem_cons, List.not_mem_nil, or_false]
    split <;> omega
  rw [offsetRead, leading, List.take_of_length_le short, Nat.ofDigitChars_ten_toDigits, hours, minutes,
    if_pos (by omega), Option.some.injEq]
  clear short hours minutes
  have whole : gmtoff.natAbs = gmtoff.natAbs / 3600 * 3600 + gmtoff.natAbs % 3600 / 60 * 60
      + gmtoff.natAbs % 60 := by omega
  have few : gmtoff.natAbs % 60 < 60 := Nat.mod_lt _ (by decide)
  have rest : gmtoff % 60 = 0 ↔ gmtoff.natAbs % 60 = 0 := by omega
  rw [rest]
  generalize gmtoff.natAbs / 3600 = hours at whole ⊢
  generalize gmtoff.natAbs % 3600 / 60 = minutes at whole ⊢
  generalize gmtoff.natAbs % 60 = seconds at whole few ⊢
  obtain ⟨few', hour⟩ := kept hours
  obtain ⟨few'', minute⟩ := kept minutes
  rw [← hour, ← minute]
  split <;> omega

/-- The text that is written of an instant is read as this instant just if its year has up to four
digits and the offset that is read of the text of the offset at the reading is the offset at the
instant.
-/
theorem readsBack_iff (zone : Zone) (time now : Int64)
    : dateWithSqlite3String zone now (timeIntervalSqlite3String zone time) = some time
      ↔ (0 ≤ localYear zone time ∧ localYear zone time ≤ 9999)
        ∧ offsetRead (zone now) = some (zone time) := by
  by_cases inside : 0 ≤ localYear zone time ∧ localYear zone time ≤ 9999
  · obtain ⟨least, small⟩ := inside
    rw [dateWithSqlite3String_eq least small, and_iff_right ⟨least, small⟩]
    have bound := bound_of_localYear least small
    cases read : offsetRead (zone now) with
    | none => exact iff_of_false nofun nofun
    | some seconds =>
        rw [Option.map_some, Option.some.injEq, Option.some.injEq]
        exact clock_eq_iff bound (bound_of_offsetRead read)
  · refine iff_of_false (fun same => ?_) fun both => inside both.1
    rw [dateWithSqlite3String, dateInitWithString, strptime_localtime inside] at same
    cases same

/-- A zone that puts the clock forward in spring. -/
def springZone : Zone :=
  fun time => if time < 1301187600 then 3600 else 7200

/-- A time in winter that is read in summer is read as one that is an hour earlier, in a zone that
repeats no hour. A time in a zone of constantly nine hours is read as one that is nine hours later.
-/
theorem not_readsBack
    : ((∀ other : Int64, other.toInt + springZone other = 1300000000 + springZone 1300000000 →
          other = 1300000000)
        ∧ dateWithSqlite3String springZone 1310000000
          (timeIntervalSqlite3String springZone 1300000000) = some 1299996400)
      ∧ dateWithSqlite3String (fun _ => 32400) 1310000000
        (timeIntervalSqlite3String (fun _ => 32400) 1300000000) = some 1300032400 := by
  refine ⟨⟨fun other same => ?_, by decide⟩, by decide⟩
  have winter : springZone 1300000000 = 3600 := by decide
  rw [winter, springZone] at same
  apply Int64.toInt_inj.mp
  split at same
  · exact add_right_cancel same
  · rename_i late
    have least := Int64.le_iff_toInt_le.mp (Int64.not_lt.mp late)
    change 1301187600 ≤ other.toInt at least
    omega

/-- A time in winter that is read in winter. -/
theorem readsBack_winter
    : dateWithSqlite3String springZone 1300003600 (timeIntervalSqlite3String springZone 1300000000)
      = some 1300000000 :=
  (readsBack_iff springZone 1300000000 1300003600).mpr ⟨by decide, by decide⟩

end WiredServer.Data
