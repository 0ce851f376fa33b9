import Mathlib
import WiredServer.Files.ConfigWriting
import WiredServer.Files.Privileges

/-! The values that are read back from a configuration file: numbers of 32 bits, booleans, plain strings and
lists of them.
-/

namespace WiredServer.Files

open Bytes Data Trimming

variable {D : Type} {tables : ConfigTables D} {lookups : Lookups D}

-----------------------------------------------------------------------------------------
-- Decimal texts
-----------------------------------------------------------------------------------------

/-- The byte of a character. -/
def byteOf (char : Char) : UInt8 :=
  char.val.toUInt8

/-- The bytes of digits are digits. -/
theorem byteOf_digit {char : Char} (digit : char.isDigit)
    : 48 ≤ byteOf char ∧ byteOf char ≤ 57 ∧ Char.ofNat (byteOf char).toNat = char := by
  rw [Char.isDigit, Bool.and_eq_true, decide_eq_true_eq, decide_eq_true_eq] at digit
  have lower : 48 ≤ char.toNat := digit.1
  have upper : char.toNat ≤ 57 := digit.2
  rw [← Char.ofNat_toNat char]
  interval_cases char.toNat <;> decide

/-- The digits of a number are its magnitude. -/
theorem magnitudeValue_toDigits (number : ℕ)
    : magnitudeValue (Nat.toDigits 10 number) = some number := by
  rcases Nat.eq_zero_or_pos number with rfl | positive
  · decide
  · have head := head_toDigits number positive.ne'
    have value := digitsValue_toDigits number
    cases digits : Nat.toDigits 10 number with
    | nil => exact absurd digits Nat.toDigits_ne_nil
    | cons first rest =>
        rw [digits] at head value
        have nonzero : first ≠ '0' := fun same => head (congrArg some same)
        rw [← value]
        unfold magnitudeValue
        split <;> simp_all

/-- The bytes of the decimal digits of a number. -/
def digitBytes (number : ℕ) : Block :=
  (Nat.toDigits 10 number).map byteOf

/-- The bytes of digits are neither zero nor blank nor a separator. -/
theorem digitBytes_plain {number : ℕ} {byte : UInt8} (mem : byte ∈ digitBytes number)
    : 48 ≤ byte ∧ byte ≤ 57 := by
  obtain ⟨char, isDigit, rfl⟩ := List.mem_map.mp mem
  have plain := byteOf_digit (Nat.isDigit_of_mem_toDigits (by decide) (by decide) isDigit)
  exact ⟨plain.1, plain.2.1⟩

/-- The characters of the bytes of digits are the digits. -/
theorem map_digitBytes (number : ℕ)
    : (digitBytes number).map (fun byte => Char.ofNat byte.toNat) = Nat.toDigits 10 number := by
  rw [digitBytes, List.map_map]
  refine (List.map_congr_left fun char mem => ?_).trans (List.map_id _)
  exact (byteOf_digit (Nat.isDigit_of_mem_toDigits (by decide) (by decide) mem)).2.2

variable {value : ℤ}

/-- The text of a number of 32 bits is its sign and its digits. -/
theorem decimalText_eq (low : -2 ^ 31 ≤ value) (high : value < 2 ^ 31)
    : decimalText value = (if value < 0 then [45] else []) ++ digitBytes value.natAbs := by
  have same : value.bmod (2 ^ 32) = value := Int.bmod_eq_of_le (by omega) (by omega)
  rw [decimalText, same]
  rfl

/-- A byte of the text of a number is a digit or a sign. -/
theorem decimalText_plain (low : -2 ^ 31 ≤ value) (high : value < 2 ^ 31) {byte : UInt8}
    (mem : byte ∈ decimalText value)
    : byte = 45 ∨ 48 ≤ byte ∧ byte ≤ 57 := by
  rw [decimalText_eq low high] at mem
  rcases List.mem_append.mp mem with sign | digit
  · split at sign
    · exact .inl (List.mem_singleton.mp sign)
    · cases sign
  · exact .inr (digitBytes_plain digit)

/-- A byte that is a digit or a sign is nothing that a line treats apart. -/
theorem plain_of_digit {byte : UInt8} (plain : byte = 45 ∨ 48 ≤ byte ∧ byte ≤ 57)
    : byteIsWhitespace byte = false ∧ byte ≠ 0 ∧ byte ≠ newline ∧ byte ≠ 61 := by
  have bound : 45 ≤ byte ∧ byte ≤ 57 := by
    rcases plain with rfl | ⟨low, high⟩
    · decide
    · exact ⟨UInt8.le_trans (by decide) low, high⟩
  obtain ⟨low, high⟩ := bound
  have small : byte.toNat ≤ 57 := UInt8.le_iff_toNat_le.mp high
  have large : 45 ≤ byte.toNat := UInt8.le_iff_toNat_le.mp low
  have same : byte = UInt8.ofNat byte.toNat := (UInt8.ofNat_toNat).symm
  rw [same]
  interval_cases byte.toNat <;> decide

/-- The text of a number can end a line. -/
theorem isText_decimalText (low : -2 ^ 31 ≤ value) (high : value < 2 ^ 31) : IsText (decimalText value) where
  trimmed := ⟨fun _ head => (plain_of_digit (decimalText_plain low high (List.mem_of_head? head))).1,
    fun _ last => (plain_of_digit (decimalText_plain low high (List.mem_of_getLast? last))).1⟩
  plain := ⟨fun mem => (plain_of_digit (decimalText_plain low high mem)).2.1 rfl,
    fun mem => (plain_of_digit (decimalText_plain low high mem)).2.2.1 rfl,
    fun mem => (plain_of_digit (decimalText_plain low high mem)).2.2.2 rfl⟩

/-- The text of a number is read as the number. -/
theorem stringInt64_decimalText (low : -2 ^ 31 ≤ value) (high : value < 2 ^ 31)
    : stringInt64 (decimalText value) = value := by
  have zeroFree := (isText_decimalText low high).plain.1
  have signed : signedValue (characters (decimalText value)) = some value := by
    rw [characters, cstring_of_zero_notMem zeroFree, decimalText_eq low high, List.map_append, map_digitBytes]
    have magnitude := magnitudeValue_toDigits value.natAbs
    by_cases negative : value < 0
    · rw [if_pos negative]
      have minus : [(45 : UInt8)].map (fun byte => Char.ofNat byte.toNat) = ['-'] := by decide
      have noBlank : isSpace '-' = false := by decide
      rw [minus, List.singleton_append, signedValue, List.dropWhile_cons_of_neg (by simp [noBlank])]
      simp only [magnitude, Option.bind_eq_bind, Option.bind_some, Option.pure_def, Option.map_some,
        Option.some.injEq]
      omega
    · rw [if_neg negative, List.map_nil, List.nil_append]
      cases digits : Nat.toDigits 10 value.natAbs with
      | nil => exact absurd digits Nat.toDigits_ne_nil
      | cons first rest =>
          have isDigit : first.isDigit := Nat.isDigit_of_mem_toDigits (by decide) (by decide)
            (digits ▸ List.mem_cons_self : first ∈ Nat.toDigits 10 value.natAbs)
          rw [signedValue_eq_magnitudeValue rest isDigit, ← digits, magnitude, Option.map_some,
            Option.some.injEq]
          omega
  rw [stringInt64, signed]
  exact if_pos ⟨by omega, by omega⟩

-----------------------------------------------------------------------------------------
-- Types
-----------------------------------------------------------------------------------------

variable {name : Block}

/-- A number of 32 bits is written and read back. -/
theorem isWritable_integer (isName : IsName name) (isType : tables.types.lookup name = some .integer)
    (low : -2 ^ 31 ≤ value) (high : value < 2 ^ 31)
    : IsWritable tables lookups name .integer (.number value) := by
  refine ⟨isName, [decimalText value], rfl, ?_, ?_⟩
  · intro text mem
    rw [List.mem_singleton.mp mem]
    exact isText_decimalText low high
  · have read : instanceForSetting tables lookups name (decimalText value)
        = some (.number value, .integer) := by
      rw [instanceForSetting, isType]
      exact congrArg (fun number => some (ConfigInstance.number number, ConfigType.integer))
        (stringInt64_decimalText low high)
    rw [List.foldl_cons, List.foldl_nil, readText, read]

/-- A boolean is written and read back. -/
theorem isWritable_bool (isName : IsName name) (isType : tables.types.lookup name = some .bool) (on : Bool)
    : IsWritable tables lookups name .bool (.number (if on then 1 else 0)) := by
  refine ⟨isName, [ascii (if on then "yes" else "no")], ?_, ?_, ?_⟩
  · cases on <;> rfl
  · intro text mem
    rw [List.mem_singleton.mp mem]
    cases on
    · exact ⟨by decide, by decide⟩
    · exact ⟨by decide, by decide⟩
  · have yes : stringBool (ascii "yes") = true := by decide
    have no : stringBool (ascii "no") = false := by decide
    have read : instanceForSetting tables lookups name (ascii (if on then "yes" else "no"))
        = some (.number (if on then 1 else 0), .bool) := by
      rw [instanceForSetting, isType]
      cases on
      · exact congrArg (fun on : Bool => some (ConfigInstance.number (if on then 1 else 0), ConfigType.bool)) no
      · exact congrArg (fun on : Bool => some (ConfigInstance.number (if on then 1 else 0), ConfigType.bool)) yes
    rw [List.foldl_cons, List.foldl_nil, readText, read]

/-- A plain string is written and read back. -/
theorem isWritable_string (isName : IsName name) {type : ConfigType}
    (isType : tables.types.lookup name = some type) (kind : type = .string ∨ type = .path) {text : Block}
    (isText : IsText text)
    : IsWritable tables lookups name type (.string text) := by
  refine ⟨isName, [text], ?_, ?_, ?_⟩
  · rcases kind with rfl | rfl <;> rfl
  · intro other mem
    rwa [List.mem_singleton.mp mem]
  · have read : instanceForSetting tables lookups name text = some (.string text, type) := by
      rw [instanceForSetting, isType]
      rcases kind with rfl | rfl <;> rfl
    rw [List.foldl_cons, List.foldl_nil, readText, read]
    rcases kind with rfl | rfl <;> rfl

/-- The texts of a list go behind the strings of the list, by induction on them. -/
theorem foldl_readText_list (isType : tables.types.lookup name = some .stringList) (texts : List Block)
    (strings : List Block)
    : texts.foldl (readText tables lookups name) (some (.array strings)) = some (.array (strings ++ texts)) := by
  induction texts generalizing strings with
  | nil => rw [List.foldl_nil, List.append_nil]
  | cons text texts ih =>
      have read : instanceForSetting tables lookups name text = some (.string text, .stringList) := by
        rw [instanceForSetting, isType]
        rfl
      rw [List.foldl_cons, readText, read]
      exact (ih (strings ++ [text])).trans (by rw [List.append_assoc, List.singleton_append])

/-- A list of plain strings is written and read back over an empty list. -/
theorem isWritable_list (isName : IsName name) (isType : tables.types.lookup name = some .stringList)
    (isDefault : tables.defaults.lookup name = some (.array [])) {texts : List Block}
    (areTexts : ∀ text ∈ texts, IsText text)
    : IsWritable tables lookups name .stringList (.array texts) := by
  refine ⟨isName, texts, rfl, areTexts, ?_⟩
  rw [isDefault, foldl_readText_list isType, List.nil_append]

/-- A value that is read from a line has neither an equals sign nor a zero byte, and is trimmed. -/
theorem isText_of_parseString {line : Block} {setting : Block × Block} (noBreak : newline ∉ line)
    (parsed : parseString line = some setting)
    : IsText setting.2 := by
  have equals : ascii "=" = [61] := by decide
  rw [parseString, equals, componentsSeparatedByString_eq (by decide)] at parsed
  split at parsed
  · rename_i name' value' parts
    cases parsed
    have mem : value' ∈ (cstring line).splitOn 61 := by
      rw [parts]
      exact List.mem_cons_of_mem _ List.mem_cons_self
    have inside {byte : UInt8} (here : byte ∈ trim byteIsWhitespace value') : byte ∈ value' :=
      trim_infix.subset here
    refine ⟨isTrimmed_trim, fun here => ?_, fun here => ?_, fun here => ?_⟩
    · exact zero_notMem_cstring line (Joining.mem_of_mem_splitOn mem (inside here))
    · exact noBreak ((List.takeWhile_prefix _).subset (Joining.mem_of_mem_splitOn mem (inside here)))
    · exact Joining.separator_notMem_of_mem_splitOn mem (inside here)
  · cases parsed

/-- The texts that a file sets a setting to are plain. -/
theorem isText_of_mem_textsAbout {contents text : Block} (mem : text ∈ textsAbout name (linesOf contents))
    : IsText text := by
  obtain ⟨line, isLine, found⟩ := List.mem_filterMap.mp mem
  obtain ⟨setting, read, same⟩ := Option.bind_eq_some_iff.mp found
  split at same
  · cases same
    rw [settingRead] at read
    split at read
    · exact isText_of_parseString (newline_notMem_of_mem_linesOf isLine) read
    · cases read
  · cases same

/-- A string that is read is the default or plain, by induction on the texts that the file has. -/
theorem isText_of_readValues {type : ConfigType} (isType : tables.types.lookup name = some type)
    (kind : type = .string ∨ type = .path)
    (isDefault : ∀ value, tables.defaults.lookup name = some value → ∃ text, value = .string text ∧ IsText text)
    {contents : Block} {value : ConfigInstance D}
    (found : (readValues tables lookups contents).lookup name = some value)
    : ∃ text, value = .string text ∧ IsText text := by
  have plain : ∀ text ∈ textsAbout name (linesOf contents), IsText text :=
    fun text mem => isText_of_mem_textsAbout mem
  rw [readValues, lookup_foldl_readConfigLine] at found
  generalize tables.defaults.lookup name = start at found isDefault
  generalize textsAbout name (linesOf contents) = texts at found plain
  induction texts generalizing start with
  | nil => exact isDefault value found
  | cons first texts ih =>
      rw [List.foldl_cons] at found
      refine ih _ (fun other same => ?_) found fun text mem => plain text (List.mem_cons_of_mem _ mem)
      have read : instanceForSetting tables lookups name first = some (.string first, type) := by
        rw [instanceForSetting, isType]
        rcases kind with rfl | rfl <;> rfl
      have next : readText tables lookups name start first = some (.string first) := by
        rw [readText, read]
        rcases kind with rfl | rfl <;> rfl
      rw [next] at same
      cases same
      exact ⟨first, rfl, plain first List.mem_cons_self⟩

/-- A list that is read over an empty one has plain strings. -/
theorem isText_of_readValues_list (isType : tables.types.lookup name = some .stringList)
    (isDefault : tables.defaults.lookup name = some (.array [])) {contents : Block} {strings : List Block}
    (found : (readValues tables lookups contents).lookup name = some (.array strings))
    : ∀ text ∈ strings, IsText text := by
  rw [readValues, lookup_foldl_readConfigLine, isDefault, foldl_readText_list isType, List.nil_append] at found
  cases found
  exact fun text mem => isText_of_mem_textsAbout mem

end WiredServer.Files
