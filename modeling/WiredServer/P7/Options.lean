import Mathlib

/-! The options of a P7 socket: one bit for the compression, for each combination of a cipher
with a digest and for each checksum. In a handshake they travel as enums, and the macros between
enums and options try the choices one after the other.
-/

namespace WiredServer.P7

/-- A set of options (`wi_uinteger_t`). -/
abbrev Options := UInt64

-----------------------------------------------------------------------------------------
-- Choices
-----------------------------------------------------------------------------------------

/-- The choices of one kind, in the order in which the macros try them: the enum of each in a
handshake, and the position of its option bit.
-/
class Choices (ι : Type) where
  all : List ι
  flag : ι → UInt32
  bit : ι → ℕ

/-- The option bit of a choice. -/
def option {ι : Type} [Choices ι] (choice : ι) : Options :=
  1 <<< UInt64.ofNat (Choices.bit choice)

/-- Whether options contain a choice. -/
def Options.has {ι : Type} [Choices ι] (options : Options) (choice : ι) : Bool :=
  options &&& option choice ≠ 0

/-- Whether options contain any choice of a kind. -/
def enabled (ι : Type) [Choices ι] (options : Options) : Bool :=
  (Choices.all : List ι).any fun choice => options.has choice

/-- The first choice of a kind in options. -/
def firstChoice (ι : Type) [Choices ι] (options : Options) : Option ι :=
  (Choices.all : List ι).find? fun choice => options.has choice

/-- The choice that an enum stands for. -/
def choiceWithFlag (ι : Type) [Choices ι] (flag : UInt32) : Option ι :=
  (Choices.all : List ι).find? fun choice => Choices.flag choice = flag

/-- The option of an enum. An enum without a choice becomes minus one, which has every bit. -/
def enumToOptions (ι : Type) [Choices ι] (flag : UInt32) : Options :=
  match choiceWithFlag ι flag with
  | some choice => option choice
  | none => -1

/-- The enum of options, or minus one when they contain no choice. -/
def optionsToEnum (ι : Type) [Choices ι] (options : Options) : UInt32 :=
  match firstChoice ι options with
  | some choice => Choices.flag choice
  | none => -1

/-- The compressions. -/
inductive Compression where
  | deflate
deriving DecidableEq, Repr

instance : Choices Compression where
  all := [.deflate]
  flag | .deflate => 0
  bit | .deflate => 0

/-- The ciphers (`wi_cipher_type_t`). -/
inductive CipherType where
  | aes128 | aes192 | aes256 | bf128 | des3192
deriving DecidableEq, Repr

/-- The checksums, and the digests of passwords. -/
inductive Checksum where
  | sha1 | sha256 | sha512
deriving DecidableEq, Repr

instance : Choices Checksum where
  all := [.sha1, .sha256, .sha512]
  flag
    | .sha1 => 0
    | .sha256 => 1
    | .sha512 => 2
  bit
    | .sha1 => 16
    | .sha256 => 17
    | .sha512 => 18

/-- The encryptions: a cipher whose key is exchanged with RSA, and a digest of the password. -/
structure Encryption where
  cipher : CipherType
  checksum : Checksum
deriving DecidableEq, Repr

/-- The number of an encryption: the ciphers with the first digest come first. -/
def Encryption.number (encryption : Encryption) : ℕ :=
  let digest :=
    match encryption.checksum with
    | .sha1 => 0
    | .sha256 => 5
    | .sha512 => 10
  match encryption.cipher with
  | .aes128 => digest
  | .aes192 => digest + 1
  | .aes256 => digest + 2
  | .bf128 => digest + 3
  | .des3192 => digest + 4

instance : Choices Encryption where
  all :=
    [
      ⟨.aes128, .sha1⟩, ⟨.aes192, .sha1⟩, ⟨.aes256, .sha1⟩, ⟨.bf128, .sha1⟩, ⟨.des3192, .sha1⟩,
      ⟨.aes128, .sha256⟩, ⟨.aes192, .sha256⟩, ⟨.aes256, .sha256⟩, ⟨.bf128, .sha256⟩,
      ⟨.des3192, .sha256⟩,
      ⟨.aes128, .sha512⟩, ⟨.aes192, .sha512⟩, ⟨.aes256, .sha512⟩, ⟨.bf128, .sha512⟩,
      ⟨.des3192, .sha512⟩
    ]
  flag encryption := .ofNat encryption.number
  bit encryption := encryption.number + 1

/-- `_WI_P7_ENCRYPTION_OPTIONS_TO_CIPHER`. -/
def encryptionOptionsToCipher (options : Options) : Option CipherType :=
  (firstChoice Encryption options).map Encryption.cipher

/-- `_WI_P7_ENCRYPTION_OPTIONS_TO_CHECKSUM`. -/
def encryptionOptionsToChecksum (options : Options) : Option Checksum :=
  (firstChoice Encryption options).map Encryption.checksum

/-- `WI_P7_COMPRESSION_ENABLED`. -/
abbrev compressionEnabled := enabled Compression

/-- `WI_P7_ENCRYPTION_ENABLED`. -/
abbrev encryptionEnabled := enabled Encryption

/-- `WI_P7_CHECKSUM_ENABLED`. -/
abbrev checksumEnabled := enabled Checksum

/-- `_WI_P7_COMPRESSION_ENUM_TO_OPTIONS`. -/
abbrev compressionEnumToOptions := enumToOptions Compression

/-- `_WI_P7_ENCRYPTION_ENUM_TO_OPTIONS`. -/
abbrev encryptionEnumToOptions := enumToOptions Encryption

/-- `_WI_P7_CHECKSUM_ENUM_TO_OPTIONS`. -/
abbrev checksumEnumToOptions := enumToOptions Checksum

/-- `_WI_P7_COMPRESSION_OPTIONS_TO_ENUM`. -/
abbrev compressionOptionsToEnum := optionsToEnum Compression

/-- `_WI_P7_ENCRYPTION_OPTIONS_TO_ENUM`. -/
abbrev encryptionOptionsToEnum := optionsToEnum Encryption

/-- `_WI_P7_CHECKSUM_OPTIONS_TO_ENUM`. -/
abbrev checksumOptionsToEnum := optionsToEnum Checksum

/-- The length of a digest: `WI_SHA1_DIGEST_LENGTH` and its siblings. -/
def Checksum.digestLength : Checksum → ℕ
  | .sha1 => 20
  | .sha256 => 32
  | .sha512 => 64

-----------------------------------------------------------------------------------------
-- Bits
-----------------------------------------------------------------------------------------

/-- What the tables of a kind of choices guarantee: bits and enums tell the choices apart. -/
class LawfulChoices (ι : Type) [Choices ι] : Prop where
  complete : ∀ choice : ι, choice ∈ (Choices.all : List ι)
  bit_lt : ∀ choice : ι, Choices.bit choice < 19
  bit_injective : Function.Injective (Choices.bit : ι → ℕ)
  flag_injective : Function.Injective (Choices.flag : ι → UInt32)

instance : LawfulChoices Compression where
  complete choice := by cases choice; decide
  bit_lt choice := by cases choice; decide
  bit_injective left right _ := by cases left; cases right; rfl
  flag_injective left right _ := by cases left; cases right; rfl

instance : LawfulChoices Checksum where
  complete choice := by cases choice <;> decide
  bit_lt choice := by cases choice <;> decide
  bit_injective left right same := by
    cases left <;> cases right <;> first | rfl | exact absurd same (by decide)
  flag_injective left right same := by
    cases left <;> cases right <;> first | rfl | exact absurd same (by decide)

/-- The number of an encryption determines it. -/
theorem Encryption.number_injective : Function.Injective Encryption.number := by
  rintro ⟨first, digest⟩ ⟨second, other⟩ same
  cases first <;> cases digest <;> cases second <;> cases other <;>
    first | rfl | exact absurd same (by decide)

/-- There are fifteen encryptions. -/
theorem Encryption.number_lt (encryption : Encryption) : encryption.number < 15 := by
  obtain ⟨cipher, checksum⟩ := encryption
  cases cipher <;> cases checksum <;> decide

instance : LawfulChoices Encryption where
  complete := by
    rintro ⟨cipher, checksum⟩
    cases cipher <;> cases checksum <;> decide
  bit_lt choice := by
    have bound := choice.number_lt
    change choice.number + 1 < 19
    omega
  bit_injective left right same := Encryption.number_injective (Nat.succ.inj same)
  flag_injective left right same := by
    have first := left.number_lt
    have second := right.number_lt
    apply Encryption.number_injective
    have numbers := congrArg UInt32.toNat same
    simp only [Choices.flag, UInt32.toNat_ofNat'] at numbers
    omega

/-- The first choice in options is one of theirs. -/
theorem firstChoice_has {ι : Type} [Choices ι] {options : Options} {choice : ι}
    (found : firstChoice ι options = some choice)
    : options.has choice = true := by
  simpa using List.find?_some found

/-- Options of a kind are enabled iff they have a first choice. -/
theorem enabled_eq_isSome {ι : Type} [Choices ι] (options : Options)
    : enabled ι options = (firstChoice ι options).isSome := by
  rw [enabled, firstChoice, List.isSome_find?]

section Bits

variable {ι : Type} [Choices ι] [LawfulChoices ι]

/-- The option of a choice is the power of two of its bit. -/
theorem option_toNat (choice : ι) : (option choice).toNat = 2 ^ Choices.bit choice := by
  have bound := LawfulChoices.bit_lt choice
  have small : 2 ^ Choices.bit choice < 2 ^ 64 :=
    Nat.pow_lt_pow_right (by decide) (by omega)
  have position : Choices.bit choice % 2 ^ 64 % 64 = Choices.bit choice := by omega
  rw [option, UInt64.toNat_shiftLeft, UInt64.toNat_ofNat', UInt64.toNat_one, Nat.one_shiftLeft,
    position, Nat.mod_eq_of_lt small]

/-- A choice is in options iff its bit is set. -/
theorem Options.has_eq_testBit (options : Options) (choice : ι)
    : options.has choice = options.toNat.testBit (Choices.bit choice) := by
  have masked : (options &&& option choice).toNat
      = (options.toNat.testBit (Choices.bit choice)).toNat * 2 ^ Choices.bit choice := by
    rw [UInt64.toNat_and, option_toNat, Nat.and_two_pow]
  rw [Options.has, Bool.eq_iff_iff, decide_eq_true_iff, Ne, ← UInt64.toNat_inj, masked]
  cases options.toNat.testBit (Choices.bit choice) <;> simp

/-- The union of options contains what either of them contains. -/
@[simp] theorem Options.has_or (left right : Options) (choice : ι)
    : (left ||| right).has choice = (left.has choice || right.has choice) := by
  simp [Options.has_eq_testBit]

/-- No options contain nothing. -/
@[simp] theorem Options.has_zero (choice : ι) : (0 : Options).has choice = false := by
  simp [Options.has_eq_testBit]

/-- All bits contain everything. -/
@[simp] theorem Options.has_all (choice : ι) : (-1 : Options).has choice = true := by
  have bound := LawfulChoices.bit_lt choice
  have ones : (-1 : Options).toNat = 2 ^ 64 - 1 := rfl
  rw [Options.has_eq_testBit, ones, Nat.testBit_two_pow_sub_one]
  exact decide_eq_true (by omega)

/-- The option of a choice contains the choices with its bit. -/
theorem Options.has_option {κ : Type} [Choices κ] [LawfulChoices κ] (choice : ι) (other : κ)
    : (option choice).has other = decide (Choices.bit choice = Choices.bit other) := by
  rw [Options.has_eq_testBit, option_toNat, Nat.testBit_two_pow]

/-- The option of a choice contains no other choice of its kind. -/
@[simp] theorem Options.has_option_self (choice other : ι)
    : (option choice).has other ↔ choice = other := by
  rw [Options.has_option, decide_eq_true_iff]
  exact LawfulChoices.bit_injective.eq_iff

/-- The enum of a choice stands for it. -/
theorem choiceWithFlag_flag (choice : ι)
    : choiceWithFlag ι (Choices.flag choice) = some choice := by
  cases found : choiceWithFlag ι (Choices.flag choice) with
  | none =>
      have missing := List.find?_eq_none.mp found choice (LawfulChoices.complete choice)
      simp at missing
  | some other =>
      have same := List.find?_some found
      simp only [decide_eq_true_eq] at same
      rw [LawfulChoices.flag_injective same]

/-- The enum of a choice becomes its option. -/
theorem enumToOptions_flag (choice : ι)
    : enumToOptions ι (Choices.flag choice) = option choice := by
  rw [enumToOptions, choiceWithFlag_flag]

/-- The options with at most one choice of a kind. -/
def optionOf (ι : Type) [Choices ι] : Option ι → Options
  | some choice => option choice
  | none => 0

/-- They contain that choice only. -/
@[simp] theorem Options.has_optionOf (chosen : Option ι) (choice : ι)
    : (optionOf ι chosen).has choice = true ↔ chosen = some choice := by
  cases chosen <;> simp [optionOf]

/-- Choices of two kinds have different bits. -/
def DisjointChoices (ι κ : Type) [Choices ι] [Choices κ] : Prop :=
  ∀ (choice : ι) (other : κ), Choices.bit choice ≠ Choices.bit other

/-- The choice of one kind contains none of a disjoint kind. -/
theorem Options.has_optionOf_disjoint {κ : Type} [Choices κ] [LawfulChoices κ]
    (disjoint : DisjointChoices ι κ) (chosen : Option ι) (choice : κ)
    : (optionOf ι chosen).has choice = false := by
  cases chosen with
  | none => simp [optionOf]
  | some other =>
      rw [optionOf, Options.has_option]
      exact decide_eq_false (disjoint other choice)

/-- The first choice is the only one. -/
theorem firstChoice_eq {options : Options} {chosen : Option ι}
    (only : ∀ choice, options.has choice = true ↔ chosen = some choice)
    : firstChoice ι options = chosen := by
  cases found : firstChoice ι options with
  | some choice => exact ((only choice).mp (firstChoice_has found)).symm
  | none =>
      cases chosen with
      | none => rfl
      | some choice =>
          have missing := List.find?_eq_none.mp found choice (LawfulChoices.complete choice)
          exact absurd ((only choice).mpr rfl) missing

end Bits

/-- The options with at most one choice of each kind. -/
def optionsOf (compression : Option Compression) (encryption : Option Encryption)
    (checksum : Option Checksum)
    : Options :=
  optionOf Compression compression ||| optionOf Encryption encryption
    ||| optionOf Checksum checksum

/-- The bits of compressions are below those of encryptions. -/
theorem disjoint_compression_encryption : DisjointChoices Compression Encryption := by
  intro compression encryption same
  cases compression
  exact absurd same (Nat.succ_ne_zero _).symm

/-- The bits of compressions are below those of checksums. -/
theorem disjoint_compression_checksum : DisjointChoices Compression Checksum := by
  intro compression checksum
  cases compression
  cases checksum <;> decide

/-- The bits of encryptions are below those of checksums. -/
theorem disjoint_encryption_checksum : DisjointChoices Encryption Checksum := by
  intro encryption checksum same
  have bound := encryption.number_lt
  change encryption.number + 1 = Choices.bit checksum at same
  cases checksum <;> simp only [Choices.bit] at same <;> omega

/-- DisjointChoices kinds are so in either order. -/
theorem DisjointChoices.symm {ι κ : Type} [Choices ι] [Choices κ] (disjoint : DisjointChoices ι κ)
    : DisjointChoices κ ι :=
  fun choice other same => disjoint other choice same.symm

section OptionsOf

variable (compression : Option Compression) (encryption : Option Encryption)
  (checksum : Option Checksum)

/-- The options contain the chosen compression only. -/
@[simp] theorem optionsOf_has_compression (choice : Compression)
    : (optionsOf compression encryption checksum).has choice = true
      ↔ compression = some choice := by
  simp [optionsOf, Options.has_optionOf_disjoint disjoint_compression_encryption.symm,
    Options.has_optionOf_disjoint disjoint_compression_checksum.symm]

/-- The options contain the chosen encryption only. -/
@[simp] theorem optionsOf_has_encryption (choice : Encryption)
    : (optionsOf compression encryption checksum).has choice = true
      ↔ encryption = some choice := by
  simp [optionsOf, Options.has_optionOf_disjoint disjoint_compression_encryption,
    Options.has_optionOf_disjoint disjoint_encryption_checksum.symm]

/-- The options contain the chosen checksum only. -/
@[simp] theorem optionsOf_has_checksum (choice : Checksum)
    : (optionsOf compression encryption checksum).has choice = true
      ↔ checksum = some choice := by
  simp [optionsOf, Options.has_optionOf_disjoint disjoint_compression_checksum,
    Options.has_optionOf_disjoint disjoint_encryption_checksum]

/-- The first compression is the chosen one. -/
@[simp] theorem firstChoice_compression
    : firstChoice Compression (optionsOf compression encryption checksum) = compression :=
  firstChoice_eq (optionsOf_has_compression compression encryption checksum)

/-- The first encryption is the chosen one. -/
@[simp] theorem firstChoice_encryption
    : firstChoice Encryption (optionsOf compression encryption checksum) = encryption :=
  firstChoice_eq (optionsOf_has_encryption compression encryption checksum)

/-- The first checksum is the chosen one. -/
@[simp] theorem firstChoice_checksum
    : firstChoice Checksum (optionsOf compression encryption checksum) = checksum :=
  firstChoice_eq (optionsOf_has_checksum compression encryption checksum)

end OptionsOf

end WiredServer.P7
