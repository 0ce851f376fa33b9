import WiredServer.Base.Numerals
import WiredServer.Lib.Joining

/-! The permissions of a drop box: an owner, a group and six bits, which are kept as text in a file of
the folder. Texts are C strings with one character for each byte; the strings of a message may hold a
zero byte, which ends them as C strings.
-/

namespace WiredServer.Files

-----------------------------------------------------------------------------------------
-- Data model
-----------------------------------------------------------------------------------------

/-- `wd_files_privileges_t` -/
structure FilePrivileges where
  owner : List Char
  group : List Char
  mode : UInt32
  deriving DecidableEq, Repr

/-- `wd_file_permissions_t` -/
inductive FilePermission where
  | ownerWrite
  | ownerRead
  | groupWrite
  | groupRead
  | everyoneWrite
  | everyoneRead
  deriving DecidableEq, Repr

/-- The bit of a permission. -/
def FilePermission.bit : FilePermission → UInt32
  | .ownerWrite => (2 : UInt32) <<< (6 : UInt32)
  | .ownerRead => (4 : UInt32) <<< (6 : UInt32)
  | .groupWrite => (2 : UInt32) <<< (3 : UInt32)
  | .groupRead => (4 : UInt32) <<< (3 : UInt32)
  | .everyoneWrite => (2 : UInt32) <<< (0 : UInt32)
  | .everyoneRead => (4 : UInt32) <<< (0 : UInt32)

/-- Whether privileges have a permission. -/
def FilePrivileges.has (privileges : FilePrivileges) (permission : FilePermission) : Bool :=
  privileges.mode &&& permission.bit ≠ 0

/-- What is read of an account for its access to files. A group that is not set is empty. -/
structure FileAccount where
  name : List Char
  group : List Char
  groups : List (List Char)
  accessAllDropboxes : Bool
  moveFiles : Bool
  renameFiles : Bool
  deriving DecidableEq, Repr

/-- `wd_files_privileges_is_writable_by_account` -/
def FilePrivileges.isWritableByAccount (privileges : FilePrivileges) (account : FileAccount) : Bool :=
  privileges.has .everyoneWrite
  || account.accessAllDropboxes
  || (privileges.has .groupWrite && privileges.group ≠ []
    && (privileges.group = account.group || account.groups.contains privileges.group))
  || (privileges.has .ownerWrite && privileges.owner ≠ [] && privileges.owner = account.name)

-----------------------------------------------------------------------------------------
-- Messages and texts
-----------------------------------------------------------------------------------------

/-- The fields of a message that sets permissions. -/
structure PrivilegesMessage where
  owner : Option (List Char)
  group : Option (List Char)
  permissions : FilePermission → Option Bool

/-- The bit that a message sets. -/
def PrivilegesMessage.bit (message : PrivilegesMessage) (permission : FilePermission) : UInt32 :=
  if message.permissions permission = some true then permission.bit else 0

/-- `wd_files_privileges_with_message` -/
def privilegesWithMessage (message : PrivilegesMessage) : FilePrivileges where
  owner := message.owner.getD []
  group := message.group.getD []
  mode := message.bit .ownerRead ||| message.bit .ownerWrite ||| message.bit .groupRead
    ||| message.bit .groupWrite ||| message.bit .everyoneRead ||| message.bit .everyoneWrite

/-- `WD_FILES_PERMISSIONS_FIELD_SEPARATOR` -/
def permissionsFieldSeparator : Char := Char.ofNat 0x1c

/-- The C string of a string. -/
def cText (text : List Char) : List Char :=
  text.takeWhile (· ≠ Char.ofNat 0)

/-- `wd_files_privileges_string` -/
def FilePrivileges.string (privileges : FilePrivileges) : List Char :=
  [permissionsFieldSeparator].intercalate
    [cText privileges.owner, cText privileges.group, Nat.toDigits 10 privileges.mode.toNat]

/-- `_wi_mutable_string_char_is_whitespace` -/
def charIsWhitespace (char : Char) : Bool :=
  char = ' ' || char = '\t' || char = '\n'

/-- `wi_string_by_deleting_surrounding_whitespace` -/
def deletingSurroundingWhitespace (text : List Char) : List Char :=
  (text.dropWhile charIsWhitespace).rdropWhile charIsWhitespace

/-- `wd_files_privileges_with_string` -/
def privilegesWithString (string : List Char) : Option FilePrivileges :=
  match (cText (deletingSurroundingWhitespace string)).splitOn permissionsFieldSeparator with
  | [owner, group, mode] => some { owner, group, mode := Ip.stringUInt32 mode }
  | _ => none

/-- `wd_files_privileges_default_drop_box_privileges` -/
def defaultDropBoxPrivileges : FilePrivileges where
  owner := []
  group := []
  mode := FilePermission.everyoneWrite.bit

-----------------------------------------------------------------------------------------
-- Files of permissions
-----------------------------------------------------------------------------------------

/-- A file that the server keeps for a folder: its contents, and whether it can be opened. -/
structure MetaFile where
  contents : List Char
  opens : Bool
  deriving DecidableEq, Repr

/-- `wd_files_drop_box_privileges`, for the file of permissions of the folder, if there is one. -/
def privilegesOfFile (permissions : Option MetaFile) : FilePrivileges :=
  match permissions with
  | none => defaultDropBoxPrivileges
  | some file =>
      if file.contents.length > 128 then defaultDropBoxPrivileges
      else if !file.opens then defaultDropBoxPrivileges
      else (privilegesWithString file.contents).getD defaultDropBoxPrivileges

/-- How making a directory ends. -/
inductive DirectoryMade where
  | made
  | exists
  | failed
  deriving DecidableEq, Repr

/-- What the calls of `wd_files_set_privileges` meet: how making the directory ends, and whether the file
can be opened and renamed.
-/
structure SetCalls where
  directory : DirectoryMade
  opens : Bool
  renames : Bool
  deriving DecidableEq, Repr

/-- `wd_files_set_privileges`: the file of permissions of the folder afterwards, and the result. -/
def setPrivileges (permissions : Option MetaFile) (privileges : FilePrivileges) (calls : SetCalls)
    : Option MetaFile × Bool :=
  if calls.directory = .failed then (permissions, false)
  else if !calls.opens then (permissions, false)
  else if !calls.renames then (permissions, false)
  else (some { contents := privileges.string, opens := true }, true)

-----------------------------------------------------------------------------------------
-- Reading back
-----------------------------------------------------------------------------------------

/-- The text of privileges fits a file that is read, and its fields are found in it again. -/
structure FilePrivileges.IsReadable (privileges : FilePrivileges) : Prop where
  size : privileges.string.length ≤ 128
  owner : permissionsFieldSeparator ∉ privileges.owner ∧ Char.ofNat 0 ∉ privileges.owner
  group : permissionsFieldSeparator ∉ privileges.group ∧ Char.ofNat 0 ∉ privileges.group
  start : ∀ char, privileges.owner.head? = some char → charIsWhitespace char = false

/-- A text that neither starts nor ends with whitespace keeps all of it. -/
theorem deletingSurroundingWhitespace_eq_self {text : List Char}
    (start : ∀ char, text.head? = some char → charIsWhitespace char = false)
    (last : ∀ char, text.getLast? = some char → charIsWhitespace char = false)
    : deletingSurroundingWhitespace text = text := by
  have kept : text.dropWhile charIsWhitespace = text := by
    cases text with
    | nil => rfl
    | cons first rest =>
        rw [List.dropWhile_cons_of_neg]
        simp [start first rfl]
  rw [deletingSurroundingWhitespace, kept, List.rdropWhile_eq_self_iff]
  intro nonempty
  rw [last _ (List.getLast?_eq_some_getLast nonempty)]
  decide

/-- What is left of a text starts with no whitespace. -/
theorem head_deletingSurroundingWhitespace {text : List Char} {char : Char}
    (head : (deletingSurroundingWhitespace text).head? = some char)
    : charIsWhitespace char = false := by
  have isPrefix : deletingSurroundingWhitespace text <+: text.dropWhile charIsWhitespace :=
    List.rdropWhile_prefix _ _
  obtain ⟨rest, whole⟩ := isPrefix
  cases left : deletingSurroundingWhitespace text with
  | nil =>
      rw [left] at head
      cases head
  | cons first others =>
      rw [left] at head whole
      cases head
      have dropped := List.head?_dropWhile_not charIsWhitespace text
      rw [← whole] at dropped
      simpa using dropped

/-- The C string of a text without a zero byte is the text. -/
theorem cText_eq_self_iff (text : List Char) : cText text = text ↔ Char.ofNat 0 ∉ text := by
  rw [cText, List.takeWhile_eq_self_iff]
  constructor
  · intro plain mem
    simpa using plain _ mem
  · intro absent char mem
    rw [decide_eq_true_eq]
    rintro rfl
    exact absent mem

/-- The digits of a number are read as the number, by induction on its decimal digits. -/
theorem digitsValue_toDigits (number : ℕ)
    : digitsValue 10 (Nat.toDigits 10 number) = some number := by
  have digit : ∀ digit < 10, digitValue (Nat.digitChar digit) = some digit := by decide
  induction number using Nat.strong_induction_on with
  | h number ih =>
      rw [Nat.toDigits_eq_if (by decide)]
      split
      · rename_i small
        simp [digitsValue, digit number small, small]
      · rename_i large
        have start := ih (number / 10) (by omega)
        rw [digitsValue] at start
        rw [digitsValue, List.foldlM_append, start]
        simp only [List.foldlM_cons, List.foldlM_nil, Option.bind_eq_bind, Option.bind_some,
          digit (number % 10) (Nat.mod_lt _ (by decide)), Nat.mod_lt number (by decide : 10 > 0),
          if_true, Option.pure_def, Nat.div_add_mod']

/-- The first digit of a number is a zero only for zero. -/
theorem head_toDigits (number : ℕ) (positive : number ≠ 0)
    : (Nat.toDigits 10 number).head? ≠ some '0' := by
  have digit : ∀ digit < 10, Nat.digitChar digit = '0' → digit = 0 := by decide
  induction number using Nat.strong_induction_on with
  | h number ih =>
      rw [Nat.toDigits_eq_if (by decide)]
      split
      · rename_i small
        intro zero
        exact positive (digit number small (Option.some.inj zero))
      · rename_i large
        rw [List.head?_append_of_ne_nil _ Nat.toDigits_ne_nil]
        exact ih (number / 10) (by omega) (by omega)

/-- The number that is written in decimal digits is read. -/
theorem stringUInt32_toDigits (number : UInt32)
    : Ip.stringUInt32 (Nat.toDigits 10 number.toNat) = number := by
  by_cases zero : number = 0
  · subst zero
    decide
  · have positive : number.toNat ≠ 0 := fun same => zero (UInt32.toNat_inj.mp same)
    have small := number.toNat_lt
    have value : signedValue (Nat.toDigits 10 number.toNat) = some (number.toNat : ℤ) := by
      cases digits : Nat.toDigits 10 number.toNat with
      | nil => exact absurd digits Nat.toDigits_ne_nil
      | cons first rest =>
          have head := head_toDigits number.toNat positive
          have isDigit : first.isDigit := Nat.isDigit_of_mem_toDigits (by decide) (by decide)
            (digits ▸ List.mem_cons_self : first ∈ Nat.toDigits 10 number.toNat)
          rw [digits] at head
          rw [signedValue_of_digit rest isDigit (fun same => head (congrArg some same)), ← digits,
            digitsValue_toDigits]
          rfl
    have modulo : (number.toNat : ℤ) % 2 ^ 64 = number.toNat := by omega
    simp only [Ip.stringUInt32, value, modulo, Int.natAbs_natCast]
    have whole : ((number.toNat : ℤ) % 2 ^ 32).toNat = number.toNat := by omega
    rw [if_pos (by omega), UInt32.ofInt, whole, UInt32.ofNat_toNat]

/-- Digits are neither whitespace nor the separator nor zero bytes. -/
theorem isDigit_plain {char : Char} (digit : char.isDigit)
    : charIsWhitespace char = false ∧ char ≠ permissionsFieldSeparator ∧ char ≠ Char.ofNat 0 := by
  refine ⟨?_, ?_, ?_⟩
  · by_contra blank
    simp only [charIsWhitespace, Bool.not_eq_false, Bool.or_eq_true, decide_eq_true_eq] at blank
    rcases blank with (rfl | rfl) | rfl <;> revert digit <;> decide
  · rintro rfl
    revert digit
    decide
  · rintro rfl
    revert digit
    decide

/-- The decimal digits of a number. -/
theorem toDigits_plain {number : ℕ} {char : Char} (mem : char ∈ Nat.toDigits 10 number)
    : charIsWhitespace char = false ∧ char ≠ permissionsFieldSeparator ∧ char ≠ Char.ofNat 0 :=
  isDigit_plain (Nat.isDigit_of_mem_toDigits (by decide) (by decide) mem)

/-- The text of privileges has the owner before a separator. -/
theorem FilePrivileges.string_eq (privileges : FilePrivileges)
    : privileges.string = cText privileges.owner
        ++ permissionsFieldSeparator :: (cText privileges.group
          ++ permissionsFieldSeparator :: Nat.toDigits 10 privileges.mode.toNat) := by
  simp [string, List.intercalate, List.intersperse]

/-- The text of privileges is not cut at its end. -/
theorem FilePrivileges.last_string (privileges : FilePrivileges) {char : Char}
    (last : privileges.string.getLast? = some char)
    : charIsWhitespace char = false := by
  rw [string_eq, List.getLast?_append_cons, List.getLast?_cons_of_ne_nil (by simp),
    List.getLast?_append_cons, List.getLast?_cons_of_ne_nil Nat.toDigits_ne_nil] at last
  exact (toDigits_plain (List.mem_of_getLast? last)).1

/-- Privileges that can be read are read. -/
theorem FilePrivileges.IsReadable.privilegesWithString_string {privileges : FilePrivileges}
    (readable : privileges.IsReadable)
    : privilegesWithString privileges.string = some privileges := by
  have owner : cText privileges.owner = privileges.owner :=
    (cText_eq_self_iff _).mpr readable.owner.2
  have group : cText privileges.group = privileges.group :=
    (cText_eq_self_iff _).mpr readable.group.2
  have start : ∀ char, privileges.string.head? = some char → charIsWhitespace char = false := by
    intro char head
    rw [string_eq, owner] at head
    cases first : privileges.owner with
    | nil =>
        rw [first] at head
        cases head
        decide
    | cons char' rest =>
        rw [first] at head
        cases head
        exact readable.start char (by rw [first]; rfl)
  have parts : (cText privileges.string).splitOn permissionsFieldSeparator
      = [privileges.owner, privileges.group, Nat.toDigits 10 privileges.mode.toNat] := by
    rw [string, owner, group]
    apply (Joining.splitOn_takeWhile_intercalate_iff (by decide) _).mpr
    refine ⟨by simp, fun part mem => ?_⟩
    simp only [List.mem_cons, List.not_mem_nil, or_false] at mem
    rcases mem with rfl | rfl | rfl
    · exact readable.owner
    · exact readable.group
    · exact ⟨fun mem => (toDigits_plain mem).2.1 rfl, fun mem => (toDigits_plain mem).2.2 rfl⟩
  rw [privilegesWithString,
    deletingSurroundingWhitespace_eq_self start fun _ last => privileges.last_string last, parts]
  simp only [stringUInt32_toDigits]

/-- Fields that are found in a text have no separator and no zero byte, and the first of them starts with
no whitespace.
-/
theorem plain_of_privilegesWithString {string : List Char} {privileges : FilePrivileges}
    (found : privilegesWithString string = some privileges)
    : (permissionsFieldSeparator ∉ privileges.owner ∧ Char.ofNat 0 ∉ privileges.owner)
      ∧ (permissionsFieldSeparator ∉ privileges.group ∧ Char.ofNat 0 ∉ privileges.group)
      ∧ ∀ char, privileges.owner.head? = some char → charIsWhitespace char = false := by
  set text := cText (deletingSurroundingWhitespace string) with isText
  have whole : [permissionsFieldSeparator].intercalate (text.splitOn permissionsFieldSeparator) = text :=
    List.intercalate_splitOn permissionsFieldSeparator
  have ended : Char.ofNat 0 ∉ text := fun mem => by simpa using List.mem_takeWhile_imp mem
  have plain {part : List Char} (mem : part ∈ text.splitOn permissionsFieldSeparator)
      : permissionsFieldSeparator ∉ part ∧ Char.ofNat 0 ∉ part :=
    ⟨Joining.separator_notMem_of_mem_splitOn mem,
      fun inside => ended (Joining.mem_of_mem_splitOn mem inside)⟩
  rw [privilegesWithString, ← isText] at found
  split at found
  · rename_i owner group mode parts
    cases found
    rw [parts] at plain whole
    refine ⟨plain (by simp), plain (by simp), fun char head => ?_⟩
    cases first : owner with
    | nil =>
        simp only [first] at head
        cases head
    | cons char' rest =>
        simp only [first] at head whole
        cases head
        have begins : text.head? = some char := by
          rw [← whole]
          rfl
        refine @head_deletingSurroundingWhitespace string char ?_
        cases left : deletingSurroundingWhitespace string with
        | nil =>
            rw [isText, left] at begins
            cases begins
        | cons other others =>
            rw [isText, left, cText, List.takeWhile_cons] at begins
            split at begins
            · exact begins
            · cases begins
  · cases found

/-- The default privileges can be read. -/
theorem defaultDropBoxPrivileges_isReadable : defaultDropBoxPrivileges.IsReadable where
  size := by decide
  owner := by decide
  group := by decide
  start _ head := by cases head

/-- Privileges that have been set for a folder are read as the ones of the message just when they can be
read.
-/
theorem privilegesOfFile_setPrivileges_iff (permissions : Option MetaFile)
    (message : PrivilegesMessage) (calls : SetCalls)
    (succeeds : (setPrivileges permissions (privilegesWithMessage message) calls).2 = true)
    : privilegesOfFile (setPrivileges permissions (privilegesWithMessage message) calls).1
        = privilegesWithMessage message
      ↔ (privilegesWithMessage message).IsReadable := by
  generalize privilegesWithMessage message = privileges at succeeds ⊢
  have written : (setPrivileges permissions privileges calls).1
      = some { contents := privileges.string, opens := true } := by
    revert succeeds
    unfold setPrivileges
    split <;> [simp; split <;> [simp; split <;> simp]]
  rw [written]
  simp only [privilegesOfFile, Bool.not_true, Bool.false_eq_true, if_false]
  constructor
  · split
    · rintro rfl
      exact defaultDropBoxPrivileges_isReadable
    · rename_i size
      cases found : privilegesWithString privileges.string with
      | none =>
          rintro rfl
          exact defaultDropBoxPrivileges_isReadable
      | some read =>
          rintro rfl
          obtain ⟨owner, group, start⟩ := plain_of_privilegesWithString found
          exact ⟨not_lt.mp size, owner, group, start⟩
  · intro readable
    rw [if_neg (not_lt.mpr readable.size), readable.privilegesWithString_string, Option.getD_some]

/-- Calls that succeed. -/
def successfulCalls : SetCalls where
  directory := .made
  opens := true
  renames := true

/-- A message that lets an owner and a group read and write. -/
def privateMessage (owner group : String) : PrivilegesMessage where
  owner := some owner.toList
  group := some group.toList
  permissions
    | .everyoneWrite | .everyoneRead => some false
    | _ => some true

theorem privilegesOfFile_setPrivileges_alice
    : privilegesOfFile (setPrivileges none (privilegesWithMessage (privateMessage "alice" "staff"))
        successfulCalls).1 = privilegesWithMessage (privateMessage "alice" "staff") := by
  apply (privilegesOfFile_setPrivileges_iff none (privateMessage "alice" "staff") successfulCalls
    rfl).mpr
  refine ⟨by decide, by decide, by decide, fun char head => ?_⟩
  cases head
  decide

/-- The name of a group with 130 letters. -/
def longGroup : String :=
  String.ofList (List.replicate 130 'a')

/-- A long name of a group opens the folder for everyone. -/
theorem privilegesOfFile_setPrivileges_longGroup
    : (setPrivileges none (privilegesWithMessage (privateMessage "alice" longGroup))
          successfulCalls).2 = true
      ∧ privilegesOfFile (setPrivileges none
          (privilegesWithMessage (privateMessage "alice" longGroup)) successfulCalls).1
        ≠ privilegesWithMessage (privateMessage "alice" longGroup)
      ∧ (privilegesOfFile (setPrivileges none
          (privilegesWithMessage (privateMessage "alice" longGroup)) successfulCalls).1).has
        .everyoneWrite = true := by
  decide +kernel

end WiredServer.Files
