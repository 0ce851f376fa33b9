import WiredServer.Lib.Joining
import WiredServer.Server.AccountMessages

/-! What is read back of an account that was stored: when a new row and an edited row both give back
every value that a client's message set.
-/

namespace WiredServer.Server

section Dates

/-- The time zone of the server: the seconds by which local time is ahead, at each time. -/
structure Zone where
  offset : ℤ → ℤ
  bounded : ∀ time, |offset time| ≤ 14 * 3600

/-- The zone whose local time is the time itself. -/
def Zone.utc : Zone where
  offset _ := 0
  bounded _ := by decide

/-- The offset in hours and minutes that `wd_date_with_sqlite3_string` appends to a text, which is
that of the time at which it reads the text.
-/
def Zone.appended (zone : Zone) (now : ℤ) : ℤ :=
  let offset := (zone.offset now).natAbs
  let seconds : ℤ := ↑(offset / 3600 * 3600 + offset % 3600 / 60 * 60)
  if zone.offset now > 0 then seconds else -seconds

/-- Without an offset, none is appended. -/
theorem Zone.appended_utc (now : ℤ)
    : utc.appended now = 0 := by
  simp [appended, utc]

/-- A time is read back if the appended offset is the one that was added. -/
theorem read_local_iff (time offset appended : ℤ)
    : time + offset - appended = time ↔ offset = appended := by
  omega

/-- The local times that have a year of at most four digits. -/
def readableTimes : Set ℤ :=
  Set.Ico (-62167219200) 253402300800

instance : DecidablePred (· ∈ readableTimes) :=
  fun time => inferInstanceAs (Decidable (-62167219200 ≤ time ∧ time < 253402300800))

end Dates

namespace FieldType

variable (zone : Zone) (now : ℤ) (memory : BitVec 32)

/-- What `wd_account_sqlite3_update_string` writes for a value, a date as local time. -/
def toLocalColumn : (type : FieldType) → type.Value → type.Column
  | .string, value => toColumn .string value
  | .date, value => value + zone.offset value
  | .number, value => toColumn .number value
  | .boolean, value => value
  | .enum, value => value
  | .list, value => toColumn .list value

/-- What `wd_account_sqlite3_insert_string` writes for a value, a date as local time. -/
def toNewLocalColumn : (type : FieldType) → type.Value → type.Column
  | .string, value => toNewColumn memory .string value
  | .date, value => value + zone.offset value
  | .number, value => toNewColumn memory .number value
  | .boolean, value => value
  | .enum, value => toNewColumn memory .enum value
  | .list, value => toNewColumn memory .list value

/-- Whether `wd_date_with_sqlite3_string` can read a column. -/
def isReadable : (type : FieldType) → type.Column → Bool
  | .date, column => decide (column ∈ readableTimes)
  | .string, _ | .number, _ | .boolean, _ | .enum, _ | .list, _ => true

/-- What `wd_account_init_with_sqlite3_results` reads from a column with local times. -/
def fromLocalColumn : (type : FieldType) → type.Column → type.Value
  | .string, column => fromColumn .string column
  | .date, column => column - zone.appended now
  | .number, column => fromColumn .number column
  | .boolean, column => column
  | .enum, column => column
  | .list, column => fromColumn .list column

/-- Without an offset, the columns are those of the model without time zones. -/
theorem columns_utc (type : FieldType)
    : toLocalColumn .utc type = type.toColumn
      ∧ toNewLocalColumn .utc memory type = type.toNewColumn memory
      ∧ fromLocalColumn .utc now type = type.fromColumn := by
  cases type with
  | date =>
      refine ⟨funext fun value => ?_, funext fun value => ?_, funext fun column => ?_⟩
      · exact Int.add_zero value
      · exact Int.add_zero value
      · change column - Zone.utc.appended now = column
        rw [Zone.appended_utc]
        exact Int.sub_zero column
  | string | number | boolean | enum | list => exact ⟨rfl, rfl, rfl⟩

/-- A value that a column can hold: texts without NUL, dates at which the offset is that of now, in
hours and minutes, and whose year has at most four digits, numbers of 32 bits, and lists with
elements.
-/
def IsKept : (type : FieldType) → type.Value → Prop
  | .string, value => Char.ofNat 0 ∉ value.toList
  | .date, value =>
      zone.offset value = zone.appended now ∧ value + zone.offset value ∈ readableTimes
  | .number, value => 0 ≤ value ∧ value < 2 ^ 32
  | .boolean, _ => True
  | .enum, _ => True
  | .list, value => value ≠ []
      ∧ ∀ text ∈ value, listSeparator ∉ text.toList ∧ Char.ofNat 0 ∉ text.toList

/-- A list is read back from its joined text. -/
theorem splitList_joinList_iff (value : List String)
    : splitList (cString (cString (joinList value))) = value
      ↔ value ≠ [] ∧ ∀ text ∈ value, listSeparator ∉ text.toList ∧ Char.ofNat 0 ∉ text.toList := by
  have differ : listSeparator ≠ Char.ofNat 0 := by decide
  have texts := Joining.splitOn_takeWhile_intercalate_iff differ (value.map String.toList)
  rw [cString_cString, splitList, toList_cString, joinList, String.toList_ofList]
  constructor
  · intro same
    have split : (([listSeparator].intercalate (value.map String.toList)).takeWhile
        (· ≠ Char.ofNat 0)).splitOn listSeparator = value.map String.toList := by
      have mapped := congrArg (List.map String.toList) same
      rw [List.map_map] at mapped
      simpa using mapped
    simpa using texts.mp split
  · intro kept
    rw [texts.mpr (by simpa using kept), List.map_map]
    simp

/-- A number that is read from 32 bits. -/
theorem toNat_ofInt_eq_iff (value : ℤ)
    : ((BitVec.ofInt 32 value).toNat : ℤ) = value ↔ 0 ≤ value ∧ value < 2 ^ 32 := by
  rw [BitVec.toNat_ofInt]
  omega

/-- An edited column gives its value back just when it can hold it. -/
theorem fromLocalColumn_toLocalColumn_iff (type : FieldType) (value : type.Value)
    : type.isReadable (type.toLocalColumn zone value) = true
        ∧ type.fromLocalColumn zone now (type.toLocalColumn zone value) = value
      ↔ type.IsKept zone now value := by
  cases type with
  | string =>
      refine (and_iff_right rfl).trans ?_
      exact (iff_of_eq (congrArg (· = value) (cString_cString value))).trans
        (cString_eq_self_iff value)
  | date =>
      change decide (_ ∈ readableTimes) = true ∧ (_ : ℤ) + _ - _ = _ ↔ _
      rw [decide_eq_true_eq, and_comm, read_local_iff]
      rfl
  | number =>
      refine (and_iff_right rfl).trans ?_
      exact toNat_ofInt_eq_iff value
  | boolean => exact ⟨fun _ => trivial, fun _ => ⟨rfl, rfl⟩⟩
  | enum => exact ⟨fun _ => trivial, fun _ => ⟨rfl, rfl⟩⟩
  | list =>
      refine (and_iff_right rfl).trans ?_
      exact splitList_joinList_iff value

/-- A new column gives back a value of a message just when it can hold it and it is no enumeration,
whose number is not its name.
-/
theorem fromLocalColumn_toNewLocalColumn_iff (type : FieldType) (bits : ℕ)
    (carried : type.MessageValue)
    : type.isReadable (type.toNewLocalColumn zone memory (type.fromMessage bits carried)) = true
        ∧ type.fromLocalColumn zone now
            (type.toNewLocalColumn zone memory (type.fromMessage bits carried))
          = type.fromMessage bits carried
      ↔ type ≠ .enum ∧ type.IsKept zone now (type.fromMessage bits carried) := by
  have other (differ : type ≠ .enum) : type.toNewLocalColumn zone memory
      (type.fromMessage bits carried) = type.toLocalColumn zone (type.fromMessage bits carried) := by
    cases type <;> first | rfl | exact absurd rfl differ
  by_cases enum : type = .enum
  · subst enum
    refine ⟨fun ⟨_, same⟩ => ?_, fun ⟨differ, _⟩ => absurd rfl differ⟩
    cases same
  · rw [other enum, fromLocalColumn_toLocalColumn_iff]
    exact (and_iff_right enum).symm

/-- A column is read as a value, or is `NULL` where there is none. -/
def Reads (type : FieldType) (column : Option type.Column) (value : Option type.Value) : Prop :=
  column.all type.isReadable = true ∧ column.map (type.fromLocalColumn zone now) = value

end FieldType

/-- The kinds of accounts, each with its own table. -/
inductive AccountType where
  | user
  | group
  deriving DecidableEq, Repr

namespace AccountType

/-- The fields that `wd_accounts_create_user` and `wd_accounts_create_group` write. -/
def insertFlags : AccountType → ℕ
  | .user => FieldAccount.user ||| FieldAccount.userList
  | .group => FieldAccount.group

/-- The fields that `wd_accounts_edit_user` and `wd_accounts_edit_group` write. -/
def updateFlags : AccountType → ℕ
  | .user => FieldAccount.user
  | .group => FieldAccount.group

/-- The columns of the tables that are `NOT NULL`. -/
def isNotNull : AccountType → AccountField → Bool
  | _, .name => true
  | .user, .downloads | .user, .downloadTransferred => true
  | .user, .uploads | .user, .uploadTransferred => true
  | _, _ => false

/-- Creating and editing write the same columns. -/
theorem isFor_insertFlags (type : AccountType) (field : AccountField)
    : field.isFor type.insertFlags = field.isFor type.updateFlags := by
  cases type <;> cases field <;> rfl

/-- A column that is `NOT NULL` is written, and the others have no default. -/
theorem isNotNull_spec (type : AccountType) (field : AccountField)
    : (type.isNotNull field = true → field.isFor type.updateFlags = true)
      ∧ (field.isFor type.updateFlags = true → field.columnDefault.isSome = true →
        type.isNotNull field = true) := by
  cases type <;> cases field <;> decide

end AccountType

namespace Row

variable (type : AccountType) (row : Row)

/-- Whether SQLite takes a row, which has a value in each `NOT NULL` column. -/
def isComplete : Bool :=
  AccountField.all.all fun field => !type.isNotNull field || (row.columns field).isSome

/-- A row in the table, if SQLite takes it. -/
def stored : Option Row :=
  if row.isComplete type then some row else none

/-- A row of a table is `NULL` where the table has no column. -/
def IsIn : Prop :=
  ∀ field : AccountField, field.isFor type.updateFlags = false → row.columns field = none

/-- `wd_account_init_with_sqlite3_results` with local times, which ends the server if it cannot read
a date
-/
def localAccount (zone : Zone) (now : ℤ) : Option Account :=
  if AccountField.all.all fun field => (row.columns field).all field.type.isReadable then
    some ⟨fun field => (row.columns field).map (field.type.fromLocalColumn zone now)⟩
  else none

/-- A row is complete if each column is. -/
theorem isComplete_iff
    : row.isComplete type = true
      ↔ ∀ field, type.isNotNull field = true → (row.columns field).isSome = true := by
  simp only [isComplete, List.all_eq_true, Bool.or_eq_true, Bool.not_eq_true',
    ← Bool.not_eq_true, ← imp_iff_not_or]
  exact ⟨fun all field => all field (AccountField.mem_all field), fun all field _ => all field⟩

/-- An account is read if each of its values is. -/
theorem localAccount_eq_some_iff (zone : Zone) (now : ℤ) (account : Account)
    : row.localAccount zone now = some account
      ↔ ∀ field : AccountField,
        field.type.Reads zone now (row.columns field) (account.values field) := by
  simp only [localAccount, List.all_eq_true, Option.ite_none_right_eq_some, Option.some.injEq,
    FieldType.Reads, forall_and, Account.ext_iff, funext_iff]
  exact and_congr_left fun _ =>
    ⟨fun all field => all field (AccountField.mem_all field), fun all field _ => all field⟩

/-- An account that is stored in a row and read back. -/
theorem stored_bind_iff (zone : Zone) (now : ℤ) (account : Account)
    : (row.stored type).bind (·.localAccount zone now) = some account
      ↔ ∀ field : AccountField,
        (type.isNotNull field = true → (row.columns field).isSome = true)
        ∧ field.type.Reads zone now (row.columns field) (account.values field) := by
  rw [forall_and, ← Row.isComplete_iff, ← Row.localAccount_eq_some_iff]
  by_cases complete : row.isComplete type = true
  · rw [stored, if_pos complete, Option.bind_some]
    exact (and_iff_right complete).symm
  · rw [stored, if_neg complete, Option.bind_none]
    exact ⟨nofun, fun both => absurd both.1 complete⟩

end Row

namespace Account

variable (account : Account) (zone : Zone) (now : ℤ) (type : AccountType) (memory : BitVec 32)

/-- The row of `wd_account_sqlite3_insert_string` with local times. -/
def newLocalRow : Row where
  columns field :=
    if field.isFor type.insertFlags then
      ((account.values field).map (field.type.toNewLocalColumn zone memory)).or field.columnDefault
    else none
  newName := by cases type <;> rfl

/-- A row after `wd_account_sqlite3_update_string` with local times. -/
def updateLocalRow (row : Row) : Row where
  columns field :=
    if field.isFor type.updateFlags then (account.values field).map (field.type.toLocalColumn zone)
    else row.columns field
  newName := by cases type <;> simp [AccountType.updateFlags, AccountField.isFor, row.newName]

/-- Without an offset, the rows are those of the model without time zones. -/
theorem localRow_utc (row : Row)
    : account.newLocalRow .utc type memory = account.newRow type.insertFlags memory
      ∧ account.updateLocalRow .utc type row = account.updateRow type.updateFlags row := by
  constructor
  · simp only [newLocalRow, newRow, (FieldType.columns_utc 0 memory _).2.1]
  · simp only [updateLocalRow, updateRow, (FieldType.columns_utc 0 memory _).1]

/-- `INSERT INTO …` of an account -/
def insertRow : Option Row :=
  (account.newLocalRow zone type memory).stored type

/-- `UPDATE … SET …` of a row to an account -/
def editRow (row : Row) : Option Row :=
  (account.updateLocalRow zone type row).stored type

/-- Creating an account, and editing any account of its type to its values, both store what is read
back as its values.
-/
structure Restores : Prop where
  created : (account.insertRow zone type memory).bind (·.localAccount zone now) = some account
  edited : ∀ row : Row, row.IsIn type →
    (account.editRow zone type row).bind (·.localAccount zone now) = some account

end Account

/-- What a table keeps of a field: values of its own columns other than enumerations, if the column
can hold them, and the absence of those that may be `NULL`.
-/
def AccountType.Keeps (type : AccountType) (zone : Zone) (now : ℤ) (field : AccountField)
    : Option field.type.Value → Prop
  | some value =>
      field.isFor type.updateFlags = true ∧ field.type ≠ .enum ∧ field.type.IsKept zone now value
  | none => type.isNotNull field = false

section Result

variable {zone : Zone} {now : ℤ} {type : AccountType} {memory : BitVec 32}

/-- The values of a new account are those of the message. -/
theorem Account.values_readFromMessage_empty (message : AccountMessage) (field : AccountField)
    : (Account.empty.readFromMessage message).values field
      = (message.values field).map (field.type.fromMessage field.messageBits) := by
  simp only [readFromMessage, empty, ite_self]
  cases message.values field <;> rfl

/-- A new row keeps what its table keeps. -/
theorem AccountType.keeps_iff_newLocalRow (message : AccountMessage) (field : AccountField)
    : (type.isNotNull field = true → (((Account.empty.readFromMessage message).newLocalRow zone
          type memory).columns field).isSome = true)
        ∧ field.type.Reads zone now (((Account.empty.readFromMessage message).newLocalRow zone type
          memory).columns field) ((Account.empty.readFromMessage message).values field)
      ↔ type.Keeps zone now field ((Account.empty.readFromMessage message).values field) := by
  obtain ⟨written, default⟩ := type.isNotNull_spec field
  simp only [Account.newLocalRow, type.isFor_insertFlags]
  rw [Account.values_readFromMessage_empty]
  cases message.values field with
  | none =>
      rw [Option.map_none, Option.map_none, Option.none_or, Keeps]
      by_cases isFor : field.isFor type.updateFlags = true
      · rw [if_pos isFor, FieldType.Reads, Option.map_eq_none_iff]
        constructor
        · rintro ⟨needed, -, absent⟩
          rw [absent, Option.isSome_none] at needed
          exact Bool.eq_false_iff.mpr fun notNull => absurd (needed notNull) Bool.false_ne_true
        · intro nullable
          have absent : field.columnDefault = none := by
            rw [← Option.not_isSome_iff_eq_none]
            intro given
            rw [default isFor given] at nullable
            cases nullable
          rw [nullable, absent]
          exact ⟨nofun, rfl, rfl⟩
      · rw [if_neg isFor]
        have nullable : type.isNotNull field = false :=
          Bool.eq_false_iff.mpr fun notNull => isFor (written notNull)
        rw [nullable]
        exact ⟨fun _ => rfl, fun _ => ⟨nofun, rfl, rfl⟩⟩
  | some carried =>
      rw [Option.map_some, Option.map_some, Option.some_or, Keeps]
      by_cases isFor : field.isFor type.updateFlags = true
      · rw [if_pos isFor, ← field.type.fromLocalColumn_toNewLocalColumn_iff zone now memory,
          FieldType.Reads, Option.map_some, Option.all_some, Option.some_inj]
        exact ⟨fun both => ⟨isFor, both.2⟩, fun both => ⟨fun _ => rfl, both.2⟩⟩
      · rw [if_neg isFor, FieldType.Reads, Option.map_none]
        exact ⟨fun ⟨_, _, same⟩ => (by cases same), fun both => absurd both.1 isFor⟩

/-- An edited row keeps what its table keeps. -/
theorem AccountType.reads_updateLocalRow (account : Account) {row : Row} (isIn : row.IsIn type)
    {field : AccountField} (keeps : type.Keeps zone now field (account.values field))
    : (type.isNotNull field = true →
          ((account.updateLocalRow zone type row).columns field).isSome = true)
        ∧ field.type.Reads zone now ((account.updateLocalRow zone type row).columns field)
          (account.values field) := by
  simp only [Account.updateLocalRow]
  cases held : account.values field with
  | none =>
      rw [held, Keeps] at keeps
      rw [keeps]
      refine ⟨nofun, ?_⟩
      split
      · exact ⟨rfl, rfl⟩
      · rename_i outside
        rw [isIn field (Bool.eq_false_iff.mpr outside)]
        exact ⟨rfl, rfl⟩
  | some value =>
      rw [held, Keeps] at keeps
      obtain ⟨isFor, -, kept⟩ := keeps
      rw [if_pos isFor]
      obtain ⟨readable, same⟩ := (field.type.fromLocalColumn_toLocalColumn_iff zone now value).mpr kept
      exact ⟨fun _ => rfl, readable, congrArg some same⟩

/-- A message for a group with a color. -/
def groupWithColor : AccountMessage where
  values
    | .name => some "staff"
    | .color => some "wired.account.color.black"
    | _ => none

end Result

end WiredServer.Server
