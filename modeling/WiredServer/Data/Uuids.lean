import Mathlib
import WiredServer.Base.HexNumerals

/-! Identifiers of 16 bytes, and their text: five groups of hexadecimal digits with hyphens between them.
The text is written and read by one format, whose widths are exact for numbers that are written and
upper bounds for numbers that are read.
-/

namespace WiredServer.Data

-----------------------------------------------------------------------------------------
-- Formats of numbers
-----------------------------------------------------------------------------------------

/-- A conversion `%0wX` of a format: the text in front of it, and its width. -/
abbrev HexField := List Char × ℕ

/-- `wi_string_init_with_format` for these conversions. -/
def printFields : List HexField → List ℕ → List Char
  | (before, width) :: fields, value :: values =>
      before ++ (hexText width value ++ printFields fields values)
  | _, _ => []

/-- The text behind one that it has to begin with. -/
def matchLiteral : List Char → List Char → Option (List Char)
  | [], text => some text
  | _ :: _, [] => none
  | char :: literal, first :: text => if char = first then matchLiteral literal text else none

/-- `sscanf` for these conversions: the numbers up to the first one that cannot be read. -/
def scanFields : List HexField → List Char → List ℕ
  | [], _ => []
  | (before, width) :: fields, text =>
      match (matchLiteral before text).bind (scanHex width) with
      | some (value, rest) => value :: scanFields fields rest
      | none => []

/-- A text has these numbers in a format, each an item that is as long as its width admits. -/
inductive Scans : List HexField → List Char → List ℕ → Prop where
  | nil (rest : List Char) : Scans [] rest []
  | cons {before rest : List Char} {width : ℕ} {fields : List HexField} {values : List ℕ}
      {item : HexItem} (fits : item.Fits width rest) (more : Scans fields rest values)
      : Scans ((before, width) :: fields) (before ++ (item.blanks ++ (item.number ++ rest)))
        (item.value :: values)

/-- A text is what it has to begin with, in front of the rest. -/
theorem matchLiteral_eq_some {literal text rest : List Char}
    : matchLiteral literal text = some rest ↔ text = literal ++ rest := by
  induction literal generalizing text with
  | nil => simp [matchLiteral]
  | cons char literal ih =>
      cases text with
      | nil => simp [matchLiteral]
      | cons first text =>
          rw [matchLiteral, List.cons_append, List.cons.injEq]
          split
          · rename_i same
            rw [ih, eq_comm, and_iff_right same.symm, eq_comm]
          · rename_i different
            exact iff_of_false nofun fun both => different both.1.symm

/-- All numbers of a format are read exactly if the text has them, by induction on the format. -/
theorem scanFields_iff {fields : List HexField} {text : List Char} {values : List ℕ}
    : scanFields fields text = values ∧ values.length = fields.length ↔ Scans fields text values := by
  induction fields generalizing text values with
  | nil =>
      constructor
      · rintro ⟨rfl, -⟩
        exact .nil text
      · rintro ⟨-⟩
        exact ⟨rfl, rfl⟩
  | cons field fields ih =>
      obtain ⟨before, width⟩ := field
      rw [scanFields]
      constructor
      · rintro ⟨scanned, all⟩
        split at scanned
        · rename_i value rest found
          obtain ⟨middle, begins, number⟩ := Option.bind_eq_some_iff.mp found
          obtain ⟨item, fits, split, rfl⟩ := fits_of_scanHex number
          rw [← scanned, matchLiteral_eq_some.mp begins, split]
          refine .cons fits (ih.mp ⟨rfl, ?_⟩)
          rw [← scanned, List.length_cons, List.length_cons] at all
          exact Nat.succ.inj all
        · rw [← scanned] at all
          cases all
      · rintro (_ | ⟨fits, more⟩)
        obtain ⟨scanned, all⟩ := ih.mpr more
        rw [matchLiteral_eq_some.mpr rfl, Option.bind_some, scanHex_of_fits fits]
        exact ⟨congrArg _ scanned, congrArg Nat.succ all⟩

-----------------------------------------------------------------------------------------
-- Texts with all their digits
-----------------------------------------------------------------------------------------

/-- A text has these numbers in a format, each with as many digits as its width. -/
inductive Spells : List HexField → List Char → List ℕ → Prop where
  | nil : Spells [] [] []
  | cons {before digits text : List Char} {fields : List HexField} {values : List ℕ}
      (nonempty : digits ≠ []) (short : digits.length ≤ 8)
      (all : ∀ char ∈ digits, isHexDigit char = true) (more : Spells fields text values)
      : Spells ((before, digits.length) :: fields) (before ++ (digits ++ text))
        (hexValue digits :: values)

/-- Such a text has these numbers. -/
theorem Spells.scans {fields : List HexField} {text : List Char} {values : List ℕ}
    (spells : Spells fields text values)
    : Scans fields text values := by
  induction spells with
  | nil => exact .nil []
  | @cons before digits text fields values nonempty short all more ih =>
      have fits : (⟨[], [], [], digits⟩ : HexItem).Fits digits.length text := {
        blanks := nofun
        sign := .inl rfl
        base := .inl rfl
        nonempty
        digits := all
        short := le_rfl
        longest := .inl rfl
        noPrefix := fun _ _ => .inl rfl }
      have value : (⟨[], [], [], digits⟩ : HexItem).value = hexValue digits := by
        have bound := (hexValue_lt all).trans_le (Nat.pow_le_pow_right (by decide) short)
        simp only [HexItem.value, signedHexValue]
        rw [if_neg (by decide), Nat.mod_eq_of_lt (bound.trans_le (by decide))]
      have scans := @Scans.cons before _ _ _ _ _ fits ih
      rw [value] at scans
      exact scans

/-- The numbers of a text are written as the text, in upper case. -/
theorem Spells.printFields_eq {fields : List HexField} {text : List Char} {values : List ℕ}
    (spells : Spells fields text values)
    (literals : ∀ field ∈ fields, field.1.map Char.toUpper = field.1)
    : printFields fields values = text.map Char.toUpper := by
  induction spells with
  | nil => rfl
  | cons nonempty short all more ih =>
      obtain ⟨literal, others⟩ := List.forall_mem_cons.mp literals
      rw [printFields, hexText_hexValue nonempty all, ih others, List.map_append, List.map_append,
        literal]

/-- Texts of one format have the same numbers if they are the same up to case. -/
theorem Spells.values_eq_iff {fields : List HexField} {text other : List Char} {values values' : List ℕ}
    (spells : Spells fields text values) (spells' : Spells fields other values')
    : values = values' ↔ text.map Char.toUpper = other.map Char.toUpper := by
  induction spells generalizing other values' with
  | nil =>
      cases spells'
      exact iff_of_true rfl rfl
  | @cons before digits text fields values nonempty short all more ih =>
      generalize same : digits.length = width at spells'
      cases spells' with
      | @cons _ digits' _ _ _ nonempty' short' all' more' =>
          rw [List.cons.injEq, hexValue_eq_iff same all all', ih more']
          simp only [List.map_append, List.append_cancel_left_eq]
          constructor
          · rintro ⟨first, rest⟩
            rw [first, rest]
          · exact fun both => List.append_inj both (by simpa using same)

/-- Numbers that fit the widths are written with all their digits. -/
theorem spells_printFields {fields : List HexField} {values : List ℕ}
    (fits : List.Forall₂ (fun (field : HexField) value =>
      0 < field.2 ∧ field.2 ≤ 8 ∧ value < 16 ^ field.2) fields values)
    : Spells fields (printFields fields values) values := by
  induction fits with
  | nil => exact .nil
  | @cons field value fields values fits more ih =>
      obtain ⟨before, width⟩ := field
      obtain ⟨positive, narrow, small⟩ := fits
      obtain ⟨length, own, digits⟩ := hexText_spec positive small
      have nonempty : hexText width value ≠ [] := List.ne_nil_of_length_pos (length ▸ positive)
      have spells := @Spells.cons before _ _ _ _ nonempty (length.trans_le narrow)
        (fun char member => (digits char member).1) ih
      rw [length, own] at spells
      exact spells

/-- What the characters of a text in a format are: a hyphen or a digit. -/
def layout (fields : List HexField) : List Bool :=
  fields.flatMap fun field => field.1.map (fun _ => true) ++ List.replicate field.2 false

/-- A character is a hyphen or a digit. -/
def IsPlaced (char : Char) (hyphen : Bool) : Prop :=
  if hyphen then char = '-' else isHexDigit char = true

/-- A text with its hyphens and digits in their places has some numbers, by induction on the format. -/
theorem exists_spells {fields : List HexField} {text : List Char}
    (simple : ∀ field ∈ fields, (field.1 = [] ∨ field.1 = ['-']) ∧ 0 < field.2 ∧ field.2 ≤ 8)
    (placed : List.Forall₂ IsPlaced text (layout fields))
    : ∃ values, Spells fields text values := by
  induction fields generalizing text with
  | nil =>
      rw [List.forall₂_nil_right_iff.mp placed]
      exact ⟨[], .nil⟩
  | cons field fields ih =>
      obtain ⟨⟨literal, positive, narrow⟩, others⟩ := List.forall_mem_cons.mp simple
      obtain ⟨before, width⟩ := field
      rw [layout, List.flatMap_cons, List.append_assoc] at placed
      have first := List.forall₂_take_append _ _ _ placed
      have behind := List.forall₂_drop_append _ _ _ placed
      have begins : text = before ++ text.drop before.length := by
        conv_lhs => rw [← List.take_append_drop before.length text]
        rw [List.length_map] at first
        rcases literal with none | hyphen
        · rw [show before = [] from none]
          rfl
        · rw [show before = ['-'] from hyphen] at first ⊢
          obtain ⟨char, rest, isHyphen, end', split⟩ := List.forall₂_cons_right_iff.mp first
          rw [List.forall₂_nil_right_iff.mp end'] at split
          rw [split, show char = '-' from isHyphen]
      rw [List.length_map] at behind
      generalize text.drop before.length = rest at begins behind
      have digits := List.forall₂_take_append _ _ _ behind
      have more := List.forall₂_drop_append _ _ _ behind
      rw [List.length_replicate] at digits more
      obtain ⟨values, spells⟩ := ih others more
      have length := digits.length_eq
      rw [List.length_replicate] at length
      have all : ∀ char ∈ rest.take width, isHexDigit char = true := by
        intro char member
        obtain ⟨index, within, rfl⟩ := List.getElem_of_mem member
        have own := digits.get within (digits.length_eq ▸ within)
        simpa [IsPlaced] using own
      have nonempty : rest.take width ≠ [] := List.ne_nil_of_length_pos (length ▸ positive)
      have whole := @Spells.cons before _ _ _ _ nonempty (length.trans_le narrow) all spells
      rw [length, List.take_append_drop, ← begins] at whole
      exact ⟨_, whole⟩

-----------------------------------------------------------------------------------------
-- Data model
-----------------------------------------------------------------------------------------

/-- An identifier (`wi_uuid_t`): its bytes, and the numbers that they make. -/
structure Uuid where
  buffer : Vector UInt8 16
  timeLow : UInt32
  timeMid : UInt16
  timeHiAndVersion : UInt16
  clockSeq : UInt16
  node : Vector UInt8 6

/-- The format of `wi_uuid_init_with_string` and `_wi_uuid_string`. -/
def uuidFormat : List HexField :=
  [([], 8), (['-'], 4), (['-'], 4), (['-'], 2), ([], 2), (['-'], 2), ([], 2), ([], 2), ([], 2), ([], 2),
    ([], 2)]

namespace Uuid

/-- `(i << 8) | *p++`. -/
def nextByte (i : UInt32) (byte : UInt8) : UInt32 :=
  (i <<< 8) ||| byte.toUInt32

/-- `_wi_uuid_pack_buffer`. -/
def packBuffer (uuid : Uuid) : Uuid :=
  { uuid with
    buffer := #v[((uuid.timeLow >>> 8) >>> 8 >>> 8).toUInt8, ((uuid.timeLow >>> 8) >>> 8).toUInt8,
      (uuid.timeLow >>> 8).toUInt8, uuid.timeLow.toUInt8,
      (uuid.timeMid.toUInt32 >>> 8).toUInt8, uuid.timeMid.toUInt32.toUInt8,
      (uuid.timeHiAndVersion.toUInt32 >>> 8).toUInt8, uuid.timeHiAndVersion.toUInt32.toUInt8,
      (uuid.clockSeq.toUInt32 >>> 8).toUInt8, uuid.clockSeq.toUInt32.toUInt8,
      uuid.node[0], uuid.node[1], uuid.node[2], uuid.node[3], uuid.node[4], uuid.node[5]] }

/-- `wi_uuid_init_with_bytes`. -/
def initWithBytes (bytes : Vector UInt8 16) : Uuid where
  buffer := bytes
  timeLow := nextByte (nextByte (nextByte bytes[0].toUInt32 bytes[1]) bytes[2]) bytes[3]
  timeMid := (nextByte bytes[4].toUInt32 bytes[5]).toUInt16
  timeHiAndVersion := (nextByte bytes[6].toUInt32 bytes[7]).toUInt16
  clockSeq := (nextByte bytes[8].toUInt32 bytes[9]).toUInt16
  node := #v[bytes[10], bytes[11], bytes[12], bytes[13], bytes[14], bytes[15]]

/-- `wi_uuid_init_with_string`. -/
def initWithString (string : List Char) : Option Uuid :=
  match scanFields uuidFormat string with
  | [timeLow, timeMid, timeHiAndVersion, clockSeqHigh, clockSeqLow, node0, node1, node2, node3, node4,
      node5] =>
      some (packBuffer {
        buffer := Vector.replicate 16 0
        timeLow := .ofNat timeLow
        timeMid := .ofNat timeMid
        timeHiAndVersion := .ofNat timeHiAndVersion
        clockSeq :=
          ((UInt32.ofNat clockSeqHigh <<< 8) + (UInt32.ofNat clockSeqLow &&& 0xFF)).toUInt16
        node := #v[.ofNat node0, .ofNat node1, .ofNat node2, .ofNat node3, .ofNat node4, .ofNat node5] })
  | _ => none

/-- The numbers that `_wi_uuid_string` writes. -/
def values (uuid : Uuid) : List ℕ :=
  [uuid.timeLow.toNat, uuid.timeMid.toNat, uuid.timeHiAndVersion.toNat,
    (uuid.clockSeq.toUInt32 >>> 8).toNat, (uuid.clockSeq.toUInt32 &&& 0xFF).toNat, uuid.node[0].toNat,
    uuid.node[1].toNat, uuid.node[2].toNat, uuid.node[3].toNat, uuid.node[4].toNat,
    uuid.node[5].toNat]

/-- `_wi_uuid_string`. -/
def string (uuid : Uuid) : List Char :=
  printFields uuidFormat uuid.values

/-- `_wi_uuid_is_equal`. -/
def isEqual (uuid1 uuid2 : Uuid) : Bool :=
  decide (uuid1.buffer = uuid2.buffer)

/-- `_wi_uuid_hash`, by the hash of a string. -/
def hash (hashString : List Char → ℕ) (uuid : Uuid) : ℕ :=
  hashString uuid.string

-----------------------------------------------------------------------------------------
-- Bytes and numbers
-----------------------------------------------------------------------------------------

/-- The number that a byte is put behind. -/
theorem toNat_nextByte (i : UInt32) (byte : UInt8)
    : (nextByte i byte).toNat = i.toNat * 2 ^ 8 % 2 ^ 32 + byte.toNat := by
  have small := byte.toNat_lt
  have high : i.toNat * 2 ^ 8 % 2 ^ 32 = 2 ^ 8 * (i.toNat % 2 ^ 24) := by omega
  rw [nextByte, UInt32.toNat_or, UInt32.toNat_shiftLeft, UInt8.toNat_toUInt32, Nat.shiftLeft_eq]
  change i.toNat * 2 ^ 8 % 2 ^ 32 ||| byte.toNat = _
  rw [high, Nat.two_pow_add_eq_or_of_lt small]

/-- Four bytes make the number that they were made of. -/
theorem nextByte_of_word (i : UInt32)
    : nextByte (nextByte (nextByte (((i >>> 8) >>> 8 >>> 8).toUInt8).toUInt32
        ((i >>> 8) >>> 8).toUInt8) (i >>> 8).toUInt8) i.toUInt8 = i := by
  have bound := i.toNat_lt
  apply UInt32.toNat_inj.mp
  simp only [toNat_nextByte, UInt8.toNat_toUInt32, UInt32.toNat_toUInt8, UInt32.toNat_shiftRight,
    Nat.shiftRight_eq_div_pow]
  change ((i.toNat / 2 ^ 8 / 2 ^ 8 / 2 ^ 8 % 2 ^ 8 * 2 ^ 8 % 2 ^ 32 + i.toNat / 2 ^ 8 / 2 ^ 8 % 2 ^ 8)
    * 2 ^ 8 % 2 ^ 32 + i.toNat / 2 ^ 8 % 2 ^ 8) * 2 ^ 8 % 2 ^ 32 + i.toNat % 2 ^ 8 = i.toNat
  omega

/-- Two bytes make the number that they were made of. -/
theorem nextByte_of_half (i : UInt16)
    : (nextByte ((i.toUInt32 >>> 8).toUInt8).toUInt32 i.toUInt32.toUInt8).toUInt16 = i := by
  have bound := i.toNat_lt
  apply UInt16.toNat_inj.mp
  simp only [UInt32.toNat_toUInt16, toNat_nextByte, UInt8.toNat_toUInt32, UInt32.toNat_toUInt8,
    UInt32.toNat_shiftRight, UInt16.toNat_toUInt32, Nat.shiftRight_eq_div_pow]
  change (i.toNat / 2 ^ 8 % 2 ^ 8 * 2 ^ 8 % 2 ^ 32 + i.toNat % 2 ^ 8) % 2 ^ 16 = i.toNat
  omega

/-- The bytes of a number are those that made it. -/
theorem bytes_of_nextByte (a b c d : UInt8)
    : let i := nextByte (nextByte (nextByte a.toUInt32 b) c) d
      ((i >>> 8) >>> 8 >>> 8).toUInt8 = a ∧ ((i >>> 8) >>> 8).toUInt8 = b ∧ (i >>> 8).toUInt8 = c
        ∧ i.toUInt8 = d := by
  have := a.toNat_lt
  have := b.toNat_lt
  have := c.toNat_lt
  have := d.toNat_lt
  intro i
  have value : i.toNat = ((a.toNat * 2 ^ 8 + b.toNat) * 2 ^ 8 + c.toNat) * 2 ^ 8 + d.toNat := by
    simp only [i, toNat_nextByte, UInt8.toNat_toUInt32]
    omega
  refine ⟨?_, ?_, ?_, ?_⟩ <;> apply UInt8.toNat_inj.mp <;>
    simp only [UInt32.toNat_toUInt8, UInt32.toNat_shiftRight, Nat.shiftRight_eq_div_pow]
  · change i.toNat / 2 ^ 8 / 2 ^ 8 / 2 ^ 8 % 2 ^ 8 = _
    omega
  · change i.toNat / 2 ^ 8 / 2 ^ 8 % 2 ^ 8 = _
    omega
  · change i.toNat / 2 ^ 8 % 2 ^ 8 = _
    omega
  · omega

/-- The bytes of a half are those that made it. -/
theorem bytes_of_half (a b : UInt8)
    : let i := (nextByte a.toUInt32 b).toUInt16
      (i.toUInt32 >>> 8).toUInt8 = a ∧ i.toUInt32.toUInt8 = b := by
  have := a.toNat_lt
  have := b.toNat_lt
  intro i
  have value : i.toNat = a.toNat * 2 ^ 8 + b.toNat := by
    simp only [i, UInt32.toNat_toUInt16, toNat_nextByte, UInt8.toNat_toUInt32]
    omega
  refine ⟨?_, ?_⟩ <;> apply UInt8.toNat_inj.mp <;>
    simp only [UInt32.toNat_toUInt8, UInt32.toNat_shiftRight, UInt16.toNat_toUInt32,
      Nat.shiftRight_eq_div_pow]
  · change i.toNat / 2 ^ 8 % 2 ^ 8 = _
    omega
  · omega

/-- A node is its bytes. -/
theorem node_eta (node : Vector UInt8 6)
    : #v[node[0], node[1], node[2], node[3], node[4], node[5]] = node := by
  refine Vector.ext fun index within => ?_
  interval_cases index <;> rfl

/-- The numbers of the bytes that were made of numbers are those. -/
theorem initWithBytes_packBuffer (uuid : Uuid)
    : initWithBytes uuid.packBuffer.buffer = uuid.packBuffer := by
  obtain ⟨buffer, timeLow, timeMid, timeHiAndVersion, clockSeq, node⟩ := uuid
  simp only [packBuffer, initWithBytes, Uuid.mk.injEq]
  exact ⟨trivial, nextByte_of_word timeLow, nextByte_of_half timeMid,
    nextByte_of_half timeHiAndVersion, nextByte_of_half clockSeq, node_eta node⟩

/-- The bytes of the numbers that were made of bytes are those. -/
theorem packBuffer_initWithBytes (bytes : Vector UInt8 16)
    : (initWithBytes bytes).packBuffer = initWithBytes bytes := by
  obtain ⟨first, second, third, fourth⟩ :=
    bytes_of_nextByte bytes[0] bytes[1] bytes[2] bytes[3]
  obtain ⟨fifth, sixth⟩ := bytes_of_half bytes[4] bytes[5]
  obtain ⟨seventh, eighth⟩ := bytes_of_half bytes[6] bytes[7]
  obtain ⟨ninth, tenth⟩ := bytes_of_half bytes[8] bytes[9]
  simp only [packBuffer, initWithBytes, Uuid.mk.injEq, and_true]
  refine Vector.ext fun index within => ?_
  interval_cases index <;> first | assumption | rfl

-----------------------------------------------------------------------------------------
-- Numbers of a text
-----------------------------------------------------------------------------------------

/-- The numbers of a text as they are stored: the digits at the end, as many as the width. -/
def residues (fields : List HexField) (values : List ℕ) : List ℕ :=
  List.zipWith (fun field value => value % 16 ^ field.2) fields values

/-- The halves of the clock sequence are the numbers that it was made of. -/
theorem clockSeq_halves (high low : ℕ)
    : let clockSeq := ((UInt32.ofNat high <<< 8) + (UInt32.ofNat low &&& 0xFF)).toUInt16
      (clockSeq.toUInt32 >>> 8).toNat = high % 16 ^ 2
        ∧ (clockSeq.toUInt32 &&& 0xFF).toNat = low % 16 ^ 2 := by
  have mask (number : ℕ) : number &&& 255 = number % 2 ^ 8 := Nat.and_two_pow_sub_one_eq_mod number 8
  intro clockSeq
  have value : clockSeq.toNat = high % 2 ^ 8 * 2 ^ 8 + low % 2 ^ 8 := by
    simp only [clockSeq, UInt32.toNat_toUInt16, UInt32.toNat_add, UInt32.toNat_shiftLeft,
      UInt32.toNat_and, UInt32.toNat_ofNat', Nat.shiftLeft_eq]
    change (high % 2 ^ 32 * 2 ^ 8 % 2 ^ 32 + (low % 2 ^ 32 &&& 255)) % 2 ^ 32 % 2 ^ 16 = _
    rw [mask]
    omega
  constructor
  · rw [UInt32.toNat_shiftRight, UInt16.toNat_toUInt32, Nat.shiftRight_eq_div_pow]
    change clockSeq.toNat / 2 ^ 8 = _
    omega
  · rw [UInt32.toNat_and, UInt16.toNat_toUInt32]
    change clockSeq.toNat &&& 255 = _
    rw [mask]
    omega

/-- The identifier of a text has the numbers of the text, and the bytes of these. -/
theorem initWithString_of_scans {text : List Char} {values : List ℕ}
    (scans : Scans uuidFormat text values)
    : ∃ uuid, initWithString text = some uuid ∧ uuid.values = residues uuidFormat values
      ∧ initWithBytes uuid.buffer = uuid := by
  obtain ⟨scanned, length⟩ := scanFields_iff.mpr scans
  match values, length with
  | [timeLow, timeMid, timeHiAndVersion, clockSeqHigh, clockSeqLow, node0, node1, node2, node3, node4,
      node5], _ =>
      obtain ⟨high, low⟩ := clockSeq_halves clockSeqHigh clockSeqLow
      refine ⟨_, by rw [initWithString, scanned], ?_, initWithBytes_packBuffer _⟩
      simp only [Uuid.values, packBuffer, high, low]
      rfl

/-- Only texts with all the numbers are read. -/
theorem exists_scans_of_initWithString {text : List Char}
    (accepted : (initWithString text).isSome = true)
    : ∃ values, Scans uuidFormat text values := by
  rw [initWithString] at accepted
  split at accepted
  · rename_i scanned
    exact ⟨_, scanFields_iff.mp ⟨scanned, rfl⟩⟩
  · cases accepted

/-- The numbers of an identifier determine the bytes that are packed of it. -/
theorem packBuffer_eq_of_values {uuid1 uuid2 : Uuid} (same : uuid1.values = uuid2.values)
    : uuid1.packBuffer = uuid2.packBuffer := by
  obtain ⟨_, timeLow, timeMid, timeHiAndVersion, clockSeq, node⟩ := uuid1
  obtain ⟨_, timeLow', timeMid', timeHiAndVersion', clockSeq', node'⟩ := uuid2
  simp only [values, List.cons.injEq, and_true, UInt32.toNat_inj, UInt16.toNat_inj, UInt8.toNat_inj,
    UInt32.toNat_shiftRight, UInt32.toNat_and, UInt16.toNat_toUInt32,
    Nat.shiftRight_eq_div_pow] at same
  obtain ⟨rfl, rfl, rfl, high, low, nodes⟩ := same
  have clocks : clockSeq = clockSeq' := by
    apply UInt16.toNat_inj.mp
    change clockSeq.toNat / 2 ^ 8 = clockSeq'.toNat / 2 ^ 8 at high
    change clockSeq.toNat &&& 2 ^ 8 - 1 = clockSeq'.toNat &&& 2 ^ 8 - 1 at low
    rw [Nat.and_two_pow_sub_one_eq_mod, Nat.and_two_pow_sub_one_eq_mod] at low
    omega
  obtain ⟨first, second, third, fourth, fifth, sixth⟩ := nodes
  have nodes : node = node' := by
    rw [← node_eta node, first, second, third, fourth, fifth, sixth, node_eta]
  simp only [packBuffer, clocks, nodes]

/-- Identifiers of bytes with the same numbers have the same bytes. -/
theorem bytes_eq_of_values {bytes bytes' : Vector UInt8 16}
    (same : (initWithBytes bytes).values = (initWithBytes bytes').values)
    : bytes = bytes' := by
  have packed := packBuffer_eq_of_values same
  rw [packBuffer_initWithBytes, packBuffer_initWithBytes] at packed
  exact congrArg buffer packed

/-- The numbers of an identifier are written with all their digits. -/
theorem spells_string (uuid : Uuid) : Spells uuidFormat uuid.string uuid.values := by
  have small (byte : UInt8) : byte.toNat < 16 ^ 2 := byte.toNat_lt
  have half (number : UInt16) : number.toNat < 16 ^ 4 := number.toNat_lt
  have word (number : UInt32) : number.toNat < 16 ^ 8 := number.toNat_lt
  have high : (uuid.clockSeq.toUInt32 >>> 8).toNat < 16 ^ 2 := by
    have bound := uuid.clockSeq.toNat_lt
    rw [UInt32.toNat_shiftRight, UInt16.toNat_toUInt32, Nat.shiftRight_eq_div_pow]
    change uuid.clockSeq.toNat / 2 ^ 8 < _
    omega
  have low : (uuid.clockSeq.toUInt32 &&& 0xFF).toNat < 16 ^ 2 := by
    rw [UInt32.toNat_and]
    exact Nat.and_lt_two_pow _ (by decide : (0xFF : UInt32).toNat < 2 ^ 8)
  apply spells_printFields
  simp only [uuidFormat, values, List.forall₂_cons, List.Forall₂.nil, and_true, small, half, word,
    high, low]
  decide

-----------------------------------------------------------------------------------------
-- Round trip
-----------------------------------------------------------------------------------------

/-- A text has 36 characters, hyphens at the four places and digits elsewhere. -/
def IsUuidText (text : List Char) : Prop :=
  text.length = 36 ∧ ∀ index char, text[index]? = some char →
    if index ∈ [8, 13, 18, 23] then char = '-' else isHexDigit char = true

/-- The characters of such a text can be checked one by one. -/
theorem isUuidText_iff (text : List Char)
    : (text.length = 36 ∧ ∀ place ∈ text.zipIdx,
        if place.2 ∈ [8, 13, 18, 23] then place.1 = '-' else isHexDigit place.1 = true)
      ↔ IsUuidText text := by
  refine and_congr_right fun _ => ⟨fun placed index char found => ?_, fun placed place member => ?_⟩
  · exact placed (char, index) (List.mem_zipIdx_iff_getElem?.mpr found)
  · exact placed place.2 place.1 (List.mem_zipIdx_iff_getElem?.mp member)

instance : DecidablePred IsUuidText :=
  fun text => decidable_of_iff _ (isUuidText_iff text)

/-- Such a text has all the digits of the numbers. -/
theorem IsUuidText.exists_spells {text : List Char} (isText : IsUuidText text)
    : ∃ values, Spells uuidFormat text values := by
  obtain ⟨length, placed⟩ := isText
  have places : layout uuidFormat
      = (List.range 36).map fun index => decide (index ∈ [8, 13, 18, 23]) := by decide
  apply Data.exists_spells (by decide)
  rw [places]
  refine List.forall₂_iff_get.mpr ⟨by simpa using length, fun index within within' => ?_⟩
  have own := placed index _ (List.getElem?_eq_getElem within)
  simpa [IsPlaced] using own

/-- Digits fit their width, by induction on the format. -/
theorem Spells.residues_eq {fields : List HexField} {text : List Char} {values : List ℕ}
    (spells : Spells fields text values)
    : residues fields values = values := by
  induction spells with
  | nil => rfl
  | cons nonempty short all more ih =>
      exact congrArg₂ List.cons (Nat.mod_eq_of_lt (hexValue_lt all)) ih

/-- What is printed of an identifier of bytes is read as this identifier. -/
theorem initWithString_string (bytes : Vector UInt8 16)
    : initWithString (initWithBytes bytes).string = some (initWithBytes bytes) := by
  have spells := spells_string (initWithBytes bytes)
  obtain ⟨uuid, parsed, same, packed⟩ := initWithString_of_scans spells.scans
  rw [Spells.residues_eq spells, ← packed] at same
  rw [parsed, ← packed, bytes_eq_of_values same]

/-- Identifiers of texts are equal if the numbers of the texts are stored as the same. -/
theorem isEqual_iff_residues {text1 text2 : List Char} {values1 values2 : List ℕ} {uuid1 uuid2 : Uuid}
    (scans1 : Scans uuidFormat text1 values1) (scans2 : Scans uuidFormat text2 values2)
    (parsed1 : initWithString text1 = some uuid1) (parsed2 : initWithString text2 = some uuid2)
    : isEqual uuid1 uuid2 = true ↔ residues uuidFormat values1 = residues uuidFormat values2 := by
  obtain ⟨_, own1, same1, packed1⟩ := initWithString_of_scans scans1
  obtain ⟨_, own2, same2, packed2⟩ := initWithString_of_scans scans2
  obtain rfl := Option.some.inj (parsed1.symm.trans own1)
  obtain rfl := Option.some.inj (parsed2.symm.trans own2)
  rw [isEqual, decide_eq_true_iff, ← same1, ← same2]
  constructor
  · intro bytes
    rw [← packed1, ← packed2, bytes]
  · intro same
    rw [← packed1, ← packed2] at same
    exact bytes_eq_of_values same

/-- An identifier of bytes is printed as a text that is read as an identifier with the same bytes and an
equal hash. A text is read if it begins with the numbers of the format, which are as long as the widths
admit; all texts of 36 characters with hyphens and digits in their places are among these. Identifiers
that were read are equal if the numbers are stored as the same, for these texts if the texts are equal up
to letter case.
-/
theorem uuid_codec (hashString : List Char → ℕ)
    : (∀ bytes, ∃ uuid, initWithString (initWithBytes bytes).string = some uuid ∧ uuid.buffer = bytes
        ∧ uuid.hash hashString = (initWithBytes bytes).hash hashString)
      ∧ (∀ text, (initWithString text).isSome = true ↔ ∃ values, Scans uuidFormat text values)
      ∧ (∀ text, IsUuidText text → (initWithString text).isSome = true)
      ∧ ∀ text1 text2 uuid1 uuid2, initWithString text1 = some uuid1 → initWithString text2 = some uuid2 →
        (∀ values1 values2, Scans uuidFormat text1 values1 → Scans uuidFormat text2 values2 →
          (isEqual uuid1 uuid2 = true
            ↔ residues uuidFormat values1 = residues uuidFormat values2))
        ∧ (IsUuidText text1 → IsUuidText text2 →
          (isEqual uuid1 uuid2 = true ↔ text1.map Char.toUpper = text2.map Char.toUpper)) := by
  have accepts (text : List Char)
      : (initWithString text).isSome = true ↔ ∃ values, Scans uuidFormat text values := by
    constructor
    · exact exists_scans_of_initWithString
    · rintro ⟨values, scans⟩
      obtain ⟨uuid, parsed, -⟩ := initWithString_of_scans scans
      rw [parsed]
      rfl
  refine ⟨fun bytes => ?_, accepts, fun text isText => ?_, ?_⟩
  · exact ⟨_, initWithString_string bytes, rfl, rfl⟩
  · obtain ⟨values, spells⟩ := isText.exists_spells
    exact (accepts text).mpr ⟨values, spells.scans⟩
  · intro text1 text2 uuid1 uuid2 parsed1 parsed2
    refine ⟨fun values1 values2 scans1 scans2 => ?_, fun isText1 isText2 => ?_⟩
    · exact isEqual_iff_residues scans1 scans2 parsed1 parsed2
    · obtain ⟨values1, spells1⟩ := isText1.exists_spells
      obtain ⟨values2, spells2⟩ := isText2.exists_spells
      rw [isEqual_iff_residues spells1.scans spells2.scans parsed1 parsed2, Spells.residues_eq spells1,
        Spells.residues_eq spells2]
      exact spells1.values_eq_iff spells2

/-- A text with fewer digits is read as well, and equal to one with all of them. -/
theorem short_text_accepted
    : let short := "1-2-3-4455-66778899AABB".toList
      let long := "00000001-0002-0003-4455-66778899AABB".toList
      (∃ uuid1 uuid2, initWithString short = some uuid1 ∧ initWithString long = some uuid2
          ∧ isEqual uuid1 uuid2 = true)
        ∧ ¬IsUuidText short ∧ short.map Char.toUpper ≠ long.map Char.toUpper := by
  intro short long
  refine ⟨⟨_, _, rfl, rfl, by decide⟩, fun isText => ?_, by decide⟩
  exact absurd isText (by decide)

/-- The text of the bytes 0 to 15, in upper case and in lower case. -/
theorem uuid_codec_letters
    : let upper := "00010203-0405-0607-0809-0A0B0C0D0E0F".toList
      let lower := "00010203-0405-0607-0809-0a0b0c0d0e0f".toList
      (initWithString upper).isSome = true
        ∧ ∀ uuid1 uuid2, initWithString upper = some uuid1 → initWithString lower = some uuid2 →
          isEqual uuid1 uuid2 = true := by
  intro upper lower
  obtain ⟨-, -, accepts, equal⟩ := uuid_codec fun _ => 0
  have isUpper : IsUuidText upper := by decide
  have isLower : IsUuidText lower := by decide
  refine ⟨accepts upper isUpper, fun uuid1 uuid2 parsed1 parsed2 => ?_⟩
  obtain ⟨-, letters⟩ := equal upper lower uuid1 uuid2 parsed1 parsed2
  exact (letters isUpper isLower).mpr (by decide)

end Uuid

end WiredServer.Data
