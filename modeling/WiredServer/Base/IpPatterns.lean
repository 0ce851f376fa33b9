import WiredServer.Base.Numerals
import WiredServer.Lib.Joining

/-! The addresses that a pattern stands for, and those that are matched with it. A network or a mask that
is not written in numbers counts as zero, and a prefix length that begins with a zero is read in base
eight, so a pattern may match addresses that it does not stand for.
-/

namespace WiredServer.Ip

-----------------------------------------------------------------------------------------
-- Patterns
-----------------------------------------------------------------------------------------

/-- A number in decimal digits, up to a bound. -/
def decimalNumber (bound : ℕ) (text : List Char) : Option ℕ :=
  if text = [] then none else (digitsValue 10 text).filter (· ≤ bound)

/-- The bits of four numbers. -/
def fourNumbers (a b c d : ℕ) : UInt32 :=
  (UInt32.ofNat a <<< 24) + (UInt32.ofNat b <<< 16) + (UInt32.ofNat c <<< 8) + UInt32.ofNat d

/-- The bits of four numbers up to 255 with dots between them. -/
def dottedNumbers (text : List Char) : Option UInt32 :=
  match text.splitOn '.' with
  | [a, b, c, d] => do
      let a ← decimalNumber 255 a
      let b ← decimalNumber 255 b
      let c ← decimalNumber 255 c
      let d ← decimalNumber 255 d
      some (fourNumbers a b c d)
  | _ => none

/-- The mask with so many bits. -/
def prefixMask (length : ℕ) : UInt32 :=
  .ofNat (2 ^ 32 - 2 ^ (32 - length))

/-- The mask that is written behind a network: a netmask or a prefix length. -/
def writtenMask (text : List Char) : Option UInt32 :=
  match dottedNumbers text with
  | some netmask => some netmask
  | none => (decimalNumber 32 text).map prefixMask

/-- A pattern is a network with its mask, and the address is in the network. -/
def IsInNetwork (ip pattern : List Char) : Prop :=
  ∃ network mask address value netmask,
    pattern = network ++ '/' :: mask
    ∧ dottedNumbers ip = some address
    ∧ dottedNumbers network = some value
    ∧ writtenMask mask = some netmask
    ∧ address &&& netmask = value &&& netmask

/-- A pattern has four parts between dots, which are asterisks or the parts of the address. -/
def FitsParts (ip pattern : List Char) : Prop :=
  (pattern.splitOn '.').length = 4
  ∧ List.Forall₂ (fun part other => other = ['*'] ∨ other = part)
      (ip.splitOn '.') (pattern.splitOn '.')

/-- The pattern stands for the address. -/
def StandsFor (ip pattern : List Char) : Prop :=
  IsInNetwork ip pattern ∨ FitsParts ip pattern ∨ pattern = ip

/-- What `_wi_ipv4_match_netmask` takes for the mask. -/
def readMask (unfit : UInt32) (mask : List Char) : UInt32 :=
  if '.' ∈ mask then ipv4UInt32 (.ofList mask) else prefixNetmask unfit (stringUInt32 mask)

/-- A network or a mask is not written in numbers, and the address agrees with what is read of them. -/
def IsMalformed (unfit : UInt32) (ip network mask : List Char) : Prop :=
  (dottedNumbers network = none ∨ writtenMask mask = none)
  ∧ ipv4UInt32 (.ofList ip) &&& readMask unfit mask
    = ipv4UInt32 (.ofList network) &&& readMask unfit mask

/-- A prefix length is read as a shorter one, which does not reach to where the address leaves the
network.
-/
def IsShortened (ip network mask : List Char) : Prop :=
  ∃ address value length,
    dottedNumbers ip = some address
    ∧ dottedNumbers network = some value
    ∧ decimalNumber 32 mask = some length
    ∧ address &&& prefixMask (stringUInt32 mask).toNat
      = value &&& prefixMask (stringUInt32 mask).toNat
    ∧ address &&& prefixMask length ≠ value &&& prefixMask length

/-- A pattern without asterisks has one slash, and what stands on its sides is read as a network that has
more addresses than the one that is written.
-/
def IsMisread (unfit : UInt32) (ip pattern : List Char) : Prop :=
  '*' ∉ pattern
  ∧ ∃ network mask, pattern.splitOn '/' = [network, mask]
    ∧ (IsMalformed unfit ip network mask ∨ IsShortened ip network mask)

-----------------------------------------------------------------------------------------
-- Numbers
-----------------------------------------------------------------------------------------

/-- A number in decimal digits has a value within its bound. -/
theorem decimalNumber_eq_some {bound value : ℕ} {text : List Char}
    (number : decimalNumber bound text = some value)
    : text ≠ [] ∧ digitsValue 10 text = some value ∧ value ≤ bound
      ∧ ∀ char ∈ text, char.isDigit := by
  unfold decimalNumber at number
  split at number
  · cases number
  · rename_i some
    obtain ⟨isValue, within⟩ := Option.filter_eq_some_iff.mp number
    exact ⟨some, isValue, of_decide_eq_true within, isDigit_of_digitsValue isValue⟩

/-- A number is read up to the first character that is no digit. -/
theorem scanUnsigned_digits {text rest : List Char} {value : ℕ}
    (number : decimalNumber 255 text = some value)
    (ends : ∀ char, rest.head? = some char → char.isDigit = false)
    : scanUnsigned (text ++ rest) = some (.ofNat value, rest) := by
  obtain ⟨some, isValue, within, digits⟩ := decimalNumber_eq_some number
  obtain ⟨first, others, rfl⟩ := List.exists_cons_of_ne_nil some
  have digit := digits first List.mem_cons_self
  have kept : (first :: others ++ rest).dropWhile isSpace = first :: others ++ rest :=
    List.dropWhile_cons_of_neg (by simp [isSpace_of_isDigit digit])
  have taken : (first :: others ++ rest).takeWhile Char.isDigit = first :: others := by
    rw [List.takeWhile_append_of_pos digits]
    cases rest with
    | nil => simp
    | cons char rest => simp [ends char rfl]
  have dropped : (first :: others ++ rest).dropWhile Char.isDigit = rest := by
    rw [List.dropWhile_append_of_pos digits]
    cases rest with
    | nil => rfl
    | cons char rest => simp [ends char rfl]
  have small : value < 2 ^ 64 := by omega
  rw [scanUnsigned, kept]
  split
  rename_i negative digits' sign
  obtain ⟨rfl, rfl⟩ : negative = false ∧ digits' = first :: others ++ rest := by
    split at sign
    · rename_i same
      exact absurd (List.cons.inj same).1 (isDigit_ne digit (by decide))
    · rename_i same
      exact absurd (List.cons.inj same).1 (isDigit_ne digit (by decide))
    · cases sign
      exact ⟨rfl, rfl⟩
  simp only [taken, isValue, Option.bind_some, dropped, if_neg some, if_pos small, Bool.false_eq_true,
    if_false]
  have word : (UInt64.ofNat value).toUInt32 = UInt32.ofNat value := by
    rw [← UInt32.toNat_inj, UInt64.toNat_toUInt32, UInt64.toNat_ofNat', UInt32.toNat_ofNat']
    omega
  rw [word]

/-- Parts without dots between dots are the text. -/
theorem splitOn_four {text a b c d : List Char} (split : text.splitOn '.' = [a, b, c, d])
    : text = a ++ '.' :: (b ++ '.' :: (c ++ '.' :: d)) := by
  have joined : ['.'].intercalate (text.splitOn '.') = text := List.intercalate_splitOn '.'
  rw [split] at joined
  simpa [List.intercalate, List.intersperse] using joined.symm

/-- Four numbers between dots are read as their bits. -/
theorem ipv4UInt32_of_dottedNumbers {text : List Char} {value : UInt32}
    (dotted : dottedNumbers text = some value)
    : ipv4UInt32 (.ofList text) = value := by
  unfold dottedNumbers at dotted
  split at dotted
  · rename_i a b c d split
    obtain ⟨first, isFirst, dotted⟩ := Option.bind_eq_some_iff.mp dotted
    obtain ⟨second, isSecond, dotted⟩ := Option.bind_eq_some_iff.mp dotted
    obtain ⟨third, isThird, dotted⟩ := Option.bind_eq_some_iff.mp dotted
    obtain ⟨fourth, isFourth, dotted⟩ := Option.bind_eq_some_iff.mp dotted
    cases dotted
    have dot (rest : List Char) : ∀ char, ('.' :: rest).head? = some char → char.isDigit = false := by
      intro char head
      cases head
      decide
    have last := @scanUnsigned_digits d [] fourth isFourth nofun
    rw [List.append_nil] at last
    rw [ipv4UInt32, String.toList_ofList, splitOn_four split, scanUnsigned_digits isFirst (dot _)]
    simp only [Option.bind_eq_bind, Option.bind_some, List.head?_cons, if_true, List.tail_cons,
      scanUnsigned_digits isSecond (dot _), scanUnsigned_digits isThird (dot _), last]
    rfl
  · cases dotted

/-- Four numbers between dots are written in digits and dots. -/
theorem chars_of_dottedNumbers {text : List Char} {value : UInt32}
    (dotted : dottedNumbers text = some value)
    : '.' ∈ text ∧ ∀ char ∈ text, char.isDigit ∨ char = '.' := by
  unfold dottedNumbers at dotted
  split at dotted
  · rename_i a b c d split
    obtain ⟨first, isFirst, dotted⟩ := Option.bind_eq_some_iff.mp dotted
    obtain ⟨second, isSecond, dotted⟩ := Option.bind_eq_some_iff.mp dotted
    obtain ⟨third, isThird, dotted⟩ := Option.bind_eq_some_iff.mp dotted
    obtain ⟨fourth, isFourth, -⟩ := Option.bind_eq_some_iff.mp dotted
    rw [splitOn_four split]
    refine ⟨by simp, fun char mem => ?_⟩
    simp only [List.mem_append, List.mem_cons] at mem
    obtain inside | same | inside | same | inside | same | inside := mem
    · exact .inl ((decimalNumber_eq_some isFirst).2.2.2 char inside)
    · exact .inr same
    · exact .inl ((decimalNumber_eq_some isSecond).2.2.2 char inside)
    · exact .inr same
    · exact .inl ((decimalNumber_eq_some isThird).2.2.2 char inside)
    · exact .inr same
    · exact .inl ((decimalNumber_eq_some isFourth).2.2.2 char inside)
  · cases dotted

/-- A character that is neither a digit nor a dot is in no network. -/
theorem notMem_of_dottedNumbers {text : List Char} {value : UInt32}
    (dotted : dottedNumbers text = some value) {char : Char} (noDigit : char.isDigit = false)
    (noDot : char ≠ '.')
    : char ∉ text := by
  intro mem
  rcases (chars_of_dottedNumbers dotted).2 char mem with digit | dot
  · rw [noDigit] at digit
    cases digit
  · exact noDot dot

/-- A mask is a netmask with dots or a prefix length without any. -/
theorem writtenMask_eq_some {mask : List Char} {netmask : UInt32}
    (written : writtenMask mask = some netmask)
    : dottedNumbers mask = some netmask
      ∨ ∃ length, decimalNumber 32 mask = some length ∧ netmask = prefixMask length := by
  unfold writtenMask at written
  split at written
  · rename_i dotted
    exact .inl (dotted.trans written)
  · obtain ⟨length, isLength, same⟩ := Option.map_eq_some_iff.mp written
    exact .inr ⟨length, isLength, same.symm⟩

/-- A prefix length has no dots, so it is no netmask. -/
theorem dot_notMem_of_decimalNumber {bound value : ℕ} {text : List Char}
    (number : decimalNumber bound text = some value)
    : '.' ∉ text :=
  fun mem => absurd ((decimalNumber_eq_some number).2.2.2 '.' mem) (by decide)

/-- A prefix length is a mask. -/
theorem writtenMask_of_decimalNumber {length : ℕ} {text : List Char}
    (number : decimalNumber 32 text = some length)
    : writtenMask text = some (prefixMask length) := by
  have noMask : dottedNumbers text = none := by
    cases dotted : dottedNumbers text with
    | none => rfl
    | some value =>
        exact absurd (chars_of_dottedNumbers dotted).1 (dot_notMem_of_decimalNumber number)
  rw [writtenMask, noMask, number]
  rfl

/-- A character that is neither a digit nor a dot is in no mask. -/
theorem notMem_of_writtenMask {mask : List Char} {netmask : UInt32}
    (written : writtenMask mask = some netmask) {char : Char} (noDigit : char.isDigit = false)
    (noDot : char ≠ '.')
    : char ∉ mask := by
  rcases writtenMask_eq_some written with dotted | ⟨length, isLength, -⟩
  · exact notMem_of_dottedNumbers dotted noDigit noDot
  · intro mem
    have digit := (decimalNumber_eq_some isLength).2.2.2 char mem
    rw [noDigit] at digit
    cases digit

-----------------------------------------------------------------------------------------
-- Prefix lengths
-----------------------------------------------------------------------------------------

/-- What is read of a number in decimal digits is at most the number. -/
theorem magnitudeValue_le {bound length value : ℕ} {text : List Char}
    (number : decimalNumber bound text = some length) (read : magnitudeValue text = some value)
    : value ≤ length := by
  obtain ⟨some, isValue, -, digits⟩ := decimalNumber_eq_some number
  have noMark {char : Char} (noDigit : char.isDigit = false) : char ∉ text := fun mem =>
    isDigit_ne (digits char mem) noDigit rfl
  unfold magnitudeValue at read
  split at read
  · cases read
  · have mark := noMark (by decide : 'x'.isDigit = false)
    exact absurd (List.mem_cons_of_mem _ List.mem_cons_self) mark
  · have mark := noMark (by decide : 'X'.isDigit = false)
    exact absurd (List.mem_cons_of_mem _ List.mem_cons_self) mark
  · exact octal_le_decimal le_rfl read isValue
  · exact le_of_eq (Option.some.inj (read.symm.trans isValue))

/-- A prefix length is read as one that is not longer. -/
theorem stringUInt32_le {length : ℕ} {text : List Char} (number : decimalNumber 32 text = some length)
    : (stringUInt32 text).toNat ≤ length := by
  obtain ⟨some, isValue, within, digits⟩ := decimalNumber_eq_some number
  obtain ⟨first, rest, rfl⟩ := List.exists_cons_of_ne_nil some
  have signed := signedValue_eq_magnitudeValue rest (digits first List.mem_cons_self)
  cases read : magnitudeValue (first :: rest) with
  | none =>
      rw [read] at signed
      simp [stringUInt32, signed]
  | some value =>
      rw [read, Option.map_some] at signed
      have le := magnitudeValue_le number read
      have modulo : (value : ℤ) % 2 ^ 64 = value := by omega
      simp only [stringUInt32, signed, modulo, Int.natAbs_natCast]
      rw [if_pos (by omega)]
      have whole : ((value : ℤ) % 2 ^ 32).toNat = value := by omega
      rw [UInt32.ofInt, whole, UInt32.toNat_ofNat']
      omega

/-- A longer mask includes a shorter one. -/
theorem prefixMask_and {short long : ℕ} (le : short ≤ long) (within : long ≤ 32)
    : prefixMask short = prefixMask long &&& prefixMask short := by
  have all : ∀ long ≤ 32, ∀ short ≤ long, prefixMask short = prefixMask long &&& prefixMask short := by
    decide
  exact all long within short le

/-- Addresses that agree in more bits agree in fewer. -/
theorem agree_of_le {short long : ℕ} (le : short ≤ long) (within : long ≤ 32) {a b : UInt32}
    (agree : a &&& prefixMask long = b &&& prefixMask long)
    : a &&& prefixMask short = b &&& prefixMask short := by
  rw [prefixMask_and le within, ← UInt32.and_assoc, agree, UInt32.and_assoc]

/-- What is read of a prefix length is the mask of what is read of the number. -/
theorem readMask_of_decimalNumber (unfit : UInt32) {length : ℕ} {mask : List Char}
    (number : decimalNumber 32 mask = some length)
    : readMask unfit mask = prefixMask (stringUInt32 mask).toNat := by
  have le := stringUInt32_le number
  have within := (decimalNumber_eq_some number).2.2.1
  rw [readMask, if_neg (dot_notMem_of_decimalNumber number), prefixNetmask, if_pos]
  · rfl
  · exact UInt32.le_iff_toNat_le.mpr (le.trans within)

/-- A netmask is read as it is written. -/
theorem readMask_of_dottedNumbers (unfit : UInt32) {mask : List Char} {netmask : UInt32}
    (dotted : dottedNumbers mask = some netmask)
    : readMask unfit mask = netmask := by
  rw [readMask, if_pos (chars_of_dottedNumbers dotted).1, ipv4UInt32_of_dottedNumbers dotted]

-----------------------------------------------------------------------------------------
-- Addresses
-----------------------------------------------------------------------------------------

/-- An octet is a number. -/
theorem decimalNumber_of_isOctet {digits : List Char} (octet : isOctet digits = true)
    : ∃ value, decimalNumber 255 digits = some value := by
  simp only [isOctet, Bool.and_eq_true, Bool.or_eq_true, decide_eq_true_eq] at octet
  obtain ⟨⟨-, number⟩, lead⟩ := octet
  have some : digits ≠ [] := by
    rintro rfl
    simp at lead
  cases isValue : digitsValue 10 digits with
  | none => simp [isValue] at number
  | some value =>
      rw [isValue] at number
      refine ⟨value, ?_⟩
      rw [decimalNumber, if_neg some, isValue]
      exact Option.filter_some_pos (by simpa using number)

/-- An address is written in four numbers. -/
theorem dottedNumbers_of_isIpv4 {ip : List Char} (isAddress : isIpv4 ip = true)
    : (ip.splitOn '.').length = 4 ∧ ∃ address, dottedNumbers ip = some address := by
  simp only [isIpv4, Bool.and_eq_true, decide_eq_true_eq, List.all_eq_true] at isAddress
  obtain ⟨four, octets⟩ := isAddress
  refine ⟨four, ?_⟩
  obtain ⟨a, b, c, d, split⟩ := List.length_eq_four.mp four
  rw [split] at octets
  obtain ⟨first, isFirst⟩ := decimalNumber_of_isOctet (octets a (by simp))
  obtain ⟨second, isSecond⟩ := decimalNumber_of_isOctet (octets b (by simp))
  obtain ⟨third, isThird⟩ := decimalNumber_of_isOctet (octets c (by simp))
  obtain ⟨fourth, isFourth⟩ := decimalNumber_of_isOctet (octets d (by simp))
  refine ⟨fourNumbers first second third fourth, ?_⟩
  rw [dottedNumbers, split]
  simp only [isFirst, isSecond, isThird, isFourth, Option.bind_eq_bind, Option.bind_some]

/-- Parts are compared one by one. -/
theorem ipv4MatchWildcard_iff {ip pattern : String} (four : (ip.toList.splitOn '.').length = 4)
    : ipv4MatchWildcard ip pattern = true ↔ FitsParts ip.toList pattern.toList := by
  simp only [ipv4MatchWildcard, FitsParts, four, Bool.and_eq_true, decide_eq_true_eq, true_and,
    List.all_eq_true, Bool.or_eq_true]
  rw [List.forall₂_iff_zip, four]
  constructor
  · rintro ⟨same, fits⟩
    refine ⟨same.symm, same, fun {part other} mem => ?_⟩
    exact (fits (part, other) mem).symm.imp id Eq.symm
  · rintro ⟨-, same, fits⟩
    refine ⟨same, ?_⟩
    rintro ⟨part, other⟩ mem
    exact (fits mem).symm.imp Eq.symm id

/-- A pattern without asterisks whose parts fit is the address. -/
theorem eq_of_fitsParts {ip pattern : List Char} (plain : '*' ∉ pattern)
    (fits : FitsParts ip pattern)
    : pattern = ip := by
  have same : ip.splitOn '.' = pattern.splitOn '.' := by
    rw [← List.forall₂_eq_eq_eq, List.forall₂_iff_zip]
    refine ⟨fits.2.length_eq, fun {part other} mem => ?_⟩
    rcases List.forall₂_zip fits.2 mem with asterisk | same
    · have inside : other ∈ pattern.splitOn '.' := (List.of_mem_zip mem).2
      rw [asterisk] at inside
      exact absurd (Joining.mem_of_mem_splitOn inside List.mem_cons_self) plain
    · exact same.symm
  have joined := congrArg (['.'].intercalate) same
  rw [List.intercalate_splitOn, List.intercalate_splitOn] at joined
  exact joined.symm

-----------------------------------------------------------------------------------------
-- Networks
-----------------------------------------------------------------------------------------

/-- A network and a mask are what stands on the sides of the slash. -/
theorem splitOn_of_isInNetwork {network mask : List Char} {value netmask : UInt32}
    (isNetwork : dottedNumbers network = some value) (written : writtenMask mask = some netmask)
    : (network ++ '/' :: mask).splitOn '/' = [network, mask] := by
  have noSlash := notMem_of_dottedNumbers isNetwork (by decide : '/'.isDigit = false) (by decide)
  have noSlash' := notMem_of_writtenMask written (by decide : '/'.isDigit = false) (by decide)
  have joined : ['/'].intercalate [network, mask] = network ++ '/' :: mask := by
    simp [List.intercalate, List.intersperse]
  rw [← joined]
  refine List.splitOn_intercalate '/' ?_ (by simp)
  simp only [List.forall_mem_cons]
  exact ⟨noSlash, noSlash', List.forall_mem_nil _⟩

/-- A pattern with one slash is a network and a mask. -/
theorem eq_of_splitOn {pattern network mask : List Char} (split : pattern.splitOn '/' = [network, mask])
    : pattern = network ++ '/' :: mask := by
  have joined : ['/'].intercalate (pattern.splitOn '/') = pattern := List.intercalate_splitOn '/'
  rw [split] at joined
  simpa [List.intercalate, List.intersperse] using joined.symm

/-- What `_wi_ipv4_match_netmask` compares. -/
theorem ipv4MatchNetmask_iff (unfit : UInt32) (ip pattern : String)
    : ipv4MatchNetmask unfit ip pattern = true
      ↔ ∃ network mask, pattern.toList.splitOn '/' = [network, mask]
        ∧ ipv4UInt32 ip &&& readMask unfit mask
          = ipv4UInt32 (.ofList network) &&& readMask unfit mask := by
  unfold ipv4MatchNetmask
  constructor
  · intro matched
    split at matched
    · rename_i network mask split
      exact ⟨network, mask, split, of_decide_eq_true matched⟩
    · cases matched
  · rintro ⟨network, mask, split, agree⟩
    rw [split]
    exact decide_eq_true agree

/-- A network is matched with the addresses in it, and with others exactly if it is misread. -/
theorem matchesNetwork_iff (unfit : UInt32) {ip pattern : String} {address : UInt32}
    (isAddress : dottedNumbers ip.toList = some address) (plain : '*' ∉ pattern.toList)
    : (IsInNetwork ip.toList pattern.toList → ipv4MatchNetmask unfit ip pattern = true)
      ∧ (ipv4MatchNetmask unfit ip pattern = true ∧ ¬IsInNetwork ip.toList pattern.toList
        ↔ IsMisread unfit ip.toList pattern.toList) := by
  have readAddress := ipv4UInt32_of_dottedNumbers isAddress
  rw [String.ofList_toList] at readAddress
  refine ⟨?_, ?_, ?_⟩
  · rintro ⟨network, mask, address', value, netmask, same, isAddress', isNetwork, written, agree⟩
    obtain rfl := Option.some.inj (isAddress.symm.trans isAddress')
    refine (ipv4MatchNetmask_iff unfit ip pattern).mpr ⟨network, mask, ?_, ?_⟩
    · rw [same]
      exact splitOn_of_isInNetwork isNetwork written
    · rw [readAddress, ipv4UInt32_of_dottedNumbers isNetwork]
      rcases writtenMask_eq_some written with dotted | ⟨length, isLength, rfl⟩
      · rwa [readMask_of_dottedNumbers unfit dotted]
      · rw [readMask_of_decimalNumber unfit isLength]
        exact agree_of_le (stringUInt32_le isLength) (decimalNumber_eq_some isLength).2.2.1 agree
  · rintro ⟨matched, outside⟩
    obtain ⟨network, mask, split, agree⟩ := (ipv4MatchNetmask_iff unfit ip pattern).mp matched
    refine ⟨plain, network, mask, split, ?_⟩
    cases isNetwork : dottedNumbers network with
    | none => exact .inl ⟨.inl isNetwork, by rwa [String.ofList_toList]⟩
    | some value =>
        cases written : writtenMask mask with
        | none => exact .inl ⟨.inr written, by rwa [String.ofList_toList]⟩
        | some netmask =>
            have leaves : address &&& netmask ≠ value &&& netmask := fun inside =>
              outside ⟨network, mask, address, value, netmask, eq_of_splitOn split, isAddress,
                isNetwork, written, inside⟩
            rw [readAddress, ipv4UInt32_of_dottedNumbers isNetwork] at agree
            rcases writtenMask_eq_some written with dotted | ⟨length, isLength, rfl⟩
            · rw [readMask_of_dottedNumbers unfit dotted] at agree
              exact absurd agree leaves
            · rw [readMask_of_decimalNumber unfit isLength] at agree
              exact .inr ⟨address, value, length, isAddress, isNetwork, isLength, agree, leaves⟩
  · rintro ⟨-, network, mask, split, misread⟩
    have unique {network' mask' : List Char} {value netmask : UInt32}
        (same : pattern.toList = network' ++ '/' :: mask')
        (isNetwork : dottedNumbers network' = some value)
        (written : writtenMask mask' = some netmask)
        : network = network' ∧ mask = mask' := by
      rw [same, splitOn_of_isInNetwork isNetwork written] at split
      simp only [List.cons.injEq, and_true] at split
      exact ⟨split.1.symm, split.2.symm⟩
    rcases misread with ⟨malformed, agree⟩ | ⟨address', value, length, isAddress', isNetwork, isLength,
      agree, leaves⟩
    · rw [String.ofList_toList] at agree
      refine ⟨(ipv4MatchNetmask_iff unfit ip pattern).mpr ⟨network, mask, split, agree⟩, ?_⟩
      rintro ⟨network', mask', -, value, netmask, same, -, isNetwork, written, -⟩
      obtain ⟨rfl, rfl⟩ := unique same isNetwork written
      rw [isNetwork, written] at malformed
      simp at malformed
    · obtain rfl := Option.some.inj (isAddress.symm.trans isAddress')
      refine ⟨(ipv4MatchNetmask_iff unfit ip pattern).mpr ⟨network, mask, split, ?_⟩, ?_⟩
      · rw [readAddress, ipv4UInt32_of_dottedNumbers isNetwork, readMask_of_decimalNumber unfit isLength]
        exact agree
      · rintro ⟨network', mask', address', value', netmask, same, isAddress'', isNetwork', written,
          inside⟩
        obtain ⟨rfl, rfl⟩ := unique same isNetwork' written
        obtain rfl := Option.some.inj (isAddress.symm.trans isAddress'')
        obtain rfl := Option.some.inj (isNetwork.symm.trans isNetwork')
        obtain rfl := Option.some.inj ((writtenMask_of_decimalNumber isLength).symm.trans written)
        exact leaves inside

-----------------------------------------------------------------------------------------
-- All patterns
-----------------------------------------------------------------------------------------

/-- A pattern with a character that is neither a digit nor a dot nor a slash is no network. -/
theorem notMem_of_isInNetwork {ip pattern : List Char} (inside : IsInNetwork ip pattern)
    {char : Char} (noDigit : char.isDigit = false) (noDot : char ≠ '.') (noSlash : char ≠ '/')
    : char ∉ pattern := by
  obtain ⟨network, mask, -, value, netmask, rfl, -, isNetwork, written, -⟩ := inside
  simp only [List.mem_append, List.mem_cons, not_or]
  exact ⟨notMem_of_dottedNumbers isNetwork noDigit noDot, noSlash,
    notMem_of_writtenMask written noDigit noDot⟩

/-- An address is matched with the patterns that stand for it, and only with these, except for a network
that is misread.
-/
theorem matchesString_iff (unfit : UInt32) {ip : String} (isAddress : isIpv4 ip.toList = true)
    (pattern : String)
    : (matchesString unfit ip pattern = true ↔ StandsFor ip.toList pattern.toList)
      ↔ ¬IsMisread unfit ip.toList pattern.toList := by
  obtain ⟨four, address, dotted⟩ := dottedNumbers_of_isIpv4 isAddress
  have isVersion : version ip = .ipv4 := by
    simp [version, (chars_of_dottedNumbers dotted).1, isAddress]
  simp only [matchesString, isVersion]
  by_cases asterisk : '*' ∈ pattern.toList
  · -- every pattern with an asterisk is compared part by part
    have noNetwork : ¬IsInNetwork ip.toList pattern.toList := fun inside =>
      notMem_of_isInNetwork inside (by decide) (by decide) (by decide) asterisk
    have other : pattern.toList ≠ ip.toList := fun same =>
      notMem_of_dottedNumbers dotted (by decide : '*'.isDigit = false) (by decide) (same ▸ asterisk)
    rw [if_pos asterisk, ipv4MatchWildcard_iff four]
    refine iff_of_true ?_ fun misread => misread.1 asterisk
    simp [StandsFor, noNetwork, other]
  · have fits : FitsParts ip.toList pattern.toList → pattern.toList = ip.toList :=
      eq_of_fitsParts asterisk
    rw [if_neg asterisk]
    by_cases slash : '/' ∈ pattern.toList
    · have other : pattern.toList ≠ ip.toList := fun same =>
        notMem_of_dottedNumbers dotted (by decide : '/'.isDigit = false) (by decide) (same ▸ slash)
      have onlyNetwork : StandsFor ip.toList pattern.toList ↔ IsInNetwork ip.toList pattern.toList := by
        refine ⟨?_, .inl⟩
        rintro (inside | parts | same)
        · exact inside
        · exact absurd (fits parts) other
        · exact absurd same other
      obtain ⟨matched, misread⟩ := matchesNetwork_iff unfit dotted asterisk
      rw [if_pos slash, onlyNetwork, ← misread]
      tauto
    · have noNetwork : ¬IsInNetwork ip.toList pattern.toList := by
        rintro ⟨network, mask, -, -, -, same, -⟩
        exact slash (by simp [same])
      have noMisread : ¬IsMisread unfit ip.toList pattern.toList := by
        rintro ⟨-, network, mask, split, -⟩
        exact slash (by simp [eq_of_splitOn split])
      rw [if_neg slash]
      refine iff_of_true ?_ noMisread
      rw [ipv4MatchLiteral, decide_eq_true_eq, ← String.toList_inj]
      constructor
      · exact fun same => .inr (.inr same.symm)
      · rintro (inside | parts | same)
        · exact absurd inside noNetwork
        · exact (fits parts).symm
        · exact same.symm

/-- An address is matched with its network. -/
theorem matchesString_iff_network
    : (matchesString 0 "10.1.2.3" "10.0.0.0/8" = true
        ↔ StandsFor "10.1.2.3".toList "10.0.0.0/8".toList)
      ↔ ¬IsMisread 0 "10.1.2.3".toList "10.0.0.0/8".toList :=
  matchesString_iff 0 (by decide) "10.0.0.0/8"

/-- A prefix length that is no number counts as zero, and matches every address. -/
theorem not_standsFor_prefixName
    : isIpv4 "10.1.2.3".toList = true
      ∧ matchesString 0 "10.1.2.3" "192.168.0.0/abc" = true
      ∧ ¬StandsFor "10.1.2.3".toList "192.168.0.0/abc".toList := by
  refine ⟨by decide, by decide, ?_⟩
  rintro (inside | parts | same)
  · exact absurd (notMem_of_isInNetwork inside (by decide : 'a'.isDigit = false) (by decide)
      (by decide)) (by decide)
  · exact absurd (eq_of_fitsParts (by decide) parts) (by decide)
  · exact absurd same (by decide)

end WiredServer.Ip
