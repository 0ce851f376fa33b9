import Mathlib
import WiredServer.Base.Ip
import WiredServer.Data.Dates
import WiredServer.Data.Formats
import WiredServer.Files.FileLines
import WiredServer.Lib.Trimming

/-! Configuration files. A file is read setting by setting over the defaults, and when settings have changed
it is written again with its other lines as they are.
-/

namespace WiredServer.Files

open Bytes Data Loop Trimming

-----------------------------------------------------------------------------------------
-- Texts
-----------------------------------------------------------------------------------------

/-- `_wi_mutable_string_char_is_whitespace`, for a byte. -/
def byteIsWhitespace (byte : UInt8) : Bool :=
  byte = 32 || byte = 9 || byte = 10

/-- The characters that the number parsers of the C library see of a text. -/
def characters (string : Block) : List Char :=
  (cstring string).map fun byte => Char.ofNat byte.toNat

/-- `wi_string_int64`, which is `wi_string_integer` on a 64-bit machine. -/
def stringInt64 (string : Block) : ℤ :=
  match signedValue (characters string) with
  | some value => if -2 ^ 63 ≤ value ∧ value < 2 ^ 63 then value else 0
  | none => 0

/-- `wi_string_int32`. -/
def stringInt32 (string : Block) : ℤ :=
  match signedValue (characters string) with
  | some value => if -2 ^ 31 ≤ value ∧ value < 2 ^ 31 then value else 0
  | none => 0

/-- `wi_string_bool`. -/
def stringBool (string : Block) : Bool :=
  (cstring string).map toLower = ascii "yes" || 0 < stringInt32 string

/-- What `printf` writes for `%d`: the lower half of a 64-bit number. -/
def decimalText (value : ℤ) : Block :=
  let value := value.bmod (2 ^ 32)
  (if value < 0 then [45] else [])
    ++ (Nat.toDigits 10 value.natAbs).map fun char => char.val.toUInt8

-----------------------------------------------------------------------------------------
-- Data model
-----------------------------------------------------------------------------------------

/-- `wi_config_type_t`. -/
inductive ConfigType where
  | integer
  | bool
  | string
  | stringList
  | path
  | user
  | group
  | port
  | regexp
  | timeInterval
deriving DecidableEq, Repr

/-- The instances that settings can have. Booleans are numbers, and `D` are the values of a double. -/
inductive ConfigInstance (D : Type) where
  | number (value : ℤ)
  | double (value : D)
  | string (string : Block)
  | array (strings : List Block)
  | regexp (string : Block)
deriving DecidableEq

/-- What the C library knows: the users and the groups with their numbers, the ports of services, which
regular expressions there are, and doubles as texts and as integers.
-/
structure Lookups (D : Type) where
  getpwnam : Block → Option UInt32
  getpwuid : UInt32 → Option Block
  getgrnam : Block → Option UInt32
  getgrgid : UInt32 → Option Block
  getservbyname : Block → Option ℤ
  compiles : Block → Bool
  stringDouble : Block → D
  doubleText : D → Block
  doubleOfInteger : ℤ → D
  integerOfDouble : D → ℤ

/-- A C library without users, groups and services. -/
def bareLookups : Lookups ℕ where
  getpwnam _ := none
  getpwuid _ := none
  getgrnam _ := none
  getgrgid _ := none
  getservbyname _ := none
  compiles _ := false
  stringDouble _ := 0
  doubleText _ := []
  doubleOfInteger := Int.toNat
  integerOfDouble := Int.ofNat

/-- A dictionary of instances. -/
abbrev Instances (D : Type) := AList fun _ : Block => ConfigInstance D

/-- The types and the defaults that `wi_config_init_with_path` is given. -/
structure ConfigTables (D : Type) where
  types : AList fun _ : Block => ConfigType
  defaults : Instances D

/-- `wi_config_t`. Before the first file is read there are no values. -/
structure Config (D : Type) where
  values : Option (Instances D)
  changes : Finset Block

variable {D : Type}

/-- The value of a setting (`wi_dictionary_data_for_key`). -/
def Config.value (config : Config D) (name : Block) : Option (ConfigInstance D) :=
  config.values.bind fun values => values.lookup name

-----------------------------------------------------------------------------------------
-- Settings
-----------------------------------------------------------------------------------------

/-- The byte that starts a comment. -/
def hash : UInt8 := 35

/-- `_wi_config_parse_string`: a name and a value, when there is exactly one equals sign. -/
def parseString (string : Block) : Option (Block × Block) :=
  match componentsSeparatedByString string (ascii "=") with
  | [name, value] => some (trim byteIsWhitespace name, trim byteIsWhitespace value)
  | _ => none

/-- The number of a user or a group, by its name or its number. -/
def accountNumber (named : Block → Option UInt32) (numbered : UInt32 → Option Block) (value : Block)
    : Option (ConfigInstance D) :=
  match named value with
  | some number => some (.number number.toNat)
  | none =>
      let number := Ip.stringUInt32 (characters value)
      if number ≠ 0 ∨ value = ascii "0" then
        (numbered number).map fun _ => .number number.toNat
      else none

/-- `_wi_config_instance_for_setting`, for a type that is known. -/
def instanceOfType (lookups : Lookups D) (value : Block) : ConfigType → Option (ConfigInstance D)
  | .integer => some (.number (stringInt64 value))
  | .bool => some (.number (if stringBool value then 1 else 0))
  | .string | .stringList | .path => some (.string value)
  | .user => accountNumber lookups.getpwnam lookups.getpwuid value
  | .group => accountNumber lookups.getgrnam lookups.getgrgid value
  | .port =>
      let port := stringUInteger (characters value)
      if port > 65535 then none
      else if port = 0 then (lookups.getservbyname value).map .number
      else some (.number port.toNat)
  | .regexp => if lookups.compiles value then some (.regexp value) else none
  | .timeInterval => some (.double (lookups.stringDouble value))

/-- `_wi_config_instance_for_setting`: the instance of a setting and its type. -/
def instanceForSetting (tables : ConfigTables D) (lookups : Lookups D) (name value : Block)
    : Option (ConfigInstance D × ConfigType) := do
  let type ← tables.types.lookup name
  let instance' ← instanceOfType lookups value type
  some (instance', type)

-----------------------------------------------------------------------------------------
-- Reading
-----------------------------------------------------------------------------------------

namespace OpenFile

/-- The strings of a loop over `wi_file_read_line` that ends at `NULL`, for at most so many rounds. -/
def loopLines (bufferSize rounds : ℕ) : ℕ → OpenFile → Access (Option (List Block))
  | 0, _ => .error .endless
  | fuel + 1, file => do
      match ← file.readLine bufferSize rounds with
      | none => .ok none
      | some (none, _) => .ok (some [])
      | some (some string, file) =>
          match ← loopLines bufferSize rounds fuel file with
          | none => .ok none
          | some strings => .ok (some (string :: strings))

/-- The loop has the lines that are left, by induction on the rounds. So the loops below are over the lines of
the contents.
-/
theorem loopLines_eq {bufferSize rounds fuel : ℕ} {file : OpenFile} (positive : 0 < bufferSize)
    (zeroFree : 0 ∉ file.unread) (enough : file.unread.length < rounds) (rounds' : file.unread.length < fuel)
    : loopLines bufferSize rounds fuel file = .ok (some (linesOf file.unread)) := by
  induction fuel generalizing file with
  | zero => exact absurd rounds' (Nat.not_lt_zero _)
  | succ fuel ih =>
      obtain ⟨next, ran, -, left⟩ := readLine_eq positive zeroFree enough
      rw [loopLines, ran]
      by_cases ended : file.unread = []
      · simp only [if_pos ended, bind, Except.bind]
        rw [ended]
        rfl
      · have shorter : next.unread.length < file.unread.length := by
          have some := List.length_pos_of_ne_nil ended
          rw [left, behindLine, List.length_drop]
          omega
        have freeNext : 0 ∉ next.unread := by
          rw [left]
          exact fun mem => zeroFree (List.mem_of_mem_drop mem)
        have rest := ih freeNext (by omega) (by omega)
        simp only [if_neg ended, bind, Except.bind, rest]
        rw [linesOf_eq ended, left]

end OpenFile

/-- The strings of a list setting so far. A value of another class is not among those that the tables give
to lists.
-/
def listStrings : Option (ConfigInstance D) → List Block
  | some (.array strings) => strings
  | _ => []

/-- A setting that has been read. A list has one string more. -/
def readSetting (tables : ConfigTables D) (lookups : Lookups D) (values : Instances D) (name value : Block)
    : Instances D :=
  match instanceForSetting tables lookups name value with
  | some (_, .stringList) => values.insert name (.array (listStrings (values.lookup name) ++ [value]))
  | some (instance', _) => values.insert name instance'
  | none => values

/-- A round of the loop of `wi_config_read_file`. Lines that cannot be interpreted are logged. -/
def readConfigLine (tables : ConfigTables D) (lookups : Lookups D) (values : Instances D) (string : Block)
    : Instances D :=
  if string.length > 0 ∧ string.head? ≠ some hash then
    match parseString string with
    | some (name, value) => readSetting tables lookups values name value
    | none => values
  else values

/-- The values that `wi_config_read_file` finds in a file, over the defaults. -/
def readValues (tables : ConfigTables D) (lookups : Lookups D) (contents : Block) : Instances D :=
  (linesOf contents).foldl (readConfigLine tables lookups) tables.defaults

/-- `wi_config_read_file` of a file that can be opened: the settings whose values differ from the previous
ones are changes too.
-/
def readFile [DecidableEq D] (tables : ConfigTables D) (lookups : Lookups D) (config : Config D)
    (contents : Block) : Config D :=
  let values := readValues tables lookups contents
  let differing := values.keys.filter fun name =>
    config.value name ≠ values.lookup name
  { values := some values, changes := config.changes ∪ differing.toFinset }

-----------------------------------------------------------------------------------------
-- Writing
-----------------------------------------------------------------------------------------

/-- The text of a user or a group: its name if it has one. -/
def accountText (numbered : UInt32 → Option Block) (number : ℤ) : Block :=
  (numbered (.ofInt number)).getD (decimalText number)

/-- `wi_number_integer`, if the instance is a number. -/
def Lookups.integer (lookups : Lookups D) : ConfigInstance D → Option ℤ
  | .number value => some value
  | .double value => some (lookups.integerOfDouble value)
  | _ => none

/-- `wi_number_double`, if the instance is a number. -/
def Lookups.double (lookups : Lookups D) : ConfigInstance D → Option D
  | .number value => some (lookups.doubleOfInteger value)
  | .double value => some value
  | _ => none

/-- The texts that are written for a value of a type. An instance of another class has none. -/
def settingTexts (lookups : Lookups D) (type : ConfigType) (value : ConfigInstance D) : Option (List Block) :=
  match type, value with
  | .integer, value => (lookups.integer value).map fun number => [decimalText number]
  | .bool, value => (lookups.integer value).map fun number => [ascii (if number ≠ 0 then "yes" else "no")]
  | .string, .string string => some [string]
  | .stringList, .array strings => some strings
  | .path, .string string => some [string]
  | .user, value => (lookups.integer value).map fun number => [accountText lookups.getpwuid number]
  | .group, value => (lookups.integer value).map fun number => [accountText lookups.getgrgid number]
  | .port, value => (lookups.integer value).map fun number => [decimalText number]
  | .regexp, .regexp string => some [string]
  | .timeInterval, value => (lookups.double value).map fun number => [lookups.doubleText number]
  | _, _ => none

/-- The line of a setting. -/
def settingLine (name text : Block) : Block :=
  name ++ ascii " = " ++ text

/-- `_wi_config_write_setting_to_file`: the lines that are written, if the setting is known and has a value.
There is no result if its instance is not of the class of its type.
-/
def writeSetting (tables : ConfigTables D) (lookups : Lookups D) (config : Config D) (name : Block)
    : Option (Option (List Block)) :=
  match tables.types.lookup name, config.value name with
  | some type, some value =>
      (settingTexts lookups type value).map fun texts => some (texts.map (settingLine name))
  | _, _ => some none

/-- What `wi_config_write_file` keeps while it reads the file: the lines of the temporary file, the changed
keys and the written ones.
-/
structure Writing where
  lines : List Block
  changedkeys : Finset Block
  writtenkeys : Finset Block

/-- The setting that a line is about, also if it is commented out. -/
def settingOfLine (string : Block) : Option Block :=
  (parseString (if string.head? = some hash then string.tail else string)).map Prod.fst

/-- A round of the first loop of `wi_config_write_file`. -/
def writeLine (tables : ConfigTables D) (lookups : Lookups D) (config : Config D) (writing : Writing)
    (string : Block) : Option Writing :=
  let kept := { writing with lines := writing.lines ++ [string] }
  if string.length = 0 then some kept
  else
    match settingOfLine string with
    | some name =>
        if name ∈ writing.changedkeys then
          (writeSetting tables lookups config name).map fun
            | some lines =>
                { lines := writing.lines ++ lines, changedkeys := writing.changedkeys.erase name,
                  writtenkeys := insert name writing.writtenkeys }
            | none => kept
        else if name ∈ writing.writtenkeys then some writing
        else some kept
    | none => some kept

/-- A round of the second loop of `wi_config_write_file`. -/
def writeRemaining (tables : ConfigTables D) (lookups : Lookups D) (config : Config D) (lines : List Block)
    (name : Block) : Option (List Block) :=
  (writeSetting tables lookups config name).map fun
    | some more => lines ++ more
    | none => lines

/-- The contents of a file to which lines have been written. -/
def contentsOf (lines : List Block) : Block :=
  lines.flatMap (· ++ [newline])

/-- The lines of the temporary file. The enumerator of a set gives its data in some order. -/
def temporaryLines (tables : ConfigTables D) (lookups : Lookups D) (enumerate : Finset Block → List Block)
    (config : Config D) (contents : Block) : Option (List Block) := do
  let writing ← (linesOf contents).foldlM (writeLine tables lookups config) ⟨[], config.changes, ∅⟩
  (enumerate writing.changedkeys).foldlM (writeRemaining tables lookups config) writing.lines

/-- `wi_config_write_file` of a file that can be opened: the temporary file is read line by line too. -/
def writeFile (tables : ConfigTables D) (lookups : Lookups D) (enumerate : Finset Block → List Block)
    (config : Config D) (contents : Block) : Option (Config D × Block) := do
  let lines ← temporaryLines tables lookups enumerate config contents
  some ({ config with changes := ∅ }, contentsOf (linesOf (contentsOf lines)))

/-- `wi_config_set_instance_for_name`, when a file has been read. -/
def setInstanceForName [DecidableEq D] (config : Config D) (instance' : ConfigInstance D) (name : Block)
    : Config D where
  values := config.values.map (·.insert name instance')
  changes :=
    if config.value name = some instance' then config.changes
    else insert name config.changes

/-- `wi_config_note_change`. -/
def noteChange (config : Config D) (name : Block) : Config D :=
  { config with changes := insert name config.changes }

/-- `wi_config_clear_changes`. -/
def clearChanges (config : Config D) : Config D :=
  { config with changes := ∅ }

end WiredServer.Files
