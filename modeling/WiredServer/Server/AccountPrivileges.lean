import WiredServer.Lib.PathComponents
import WiredServer.Server.AccountMessages

/-! What an account without the privilege to raise privileges can give to a user account that it
creates or edits: its own privileges and limits, and a files directory that starts like its own.
-/

namespace WiredServer.Server

open FieldAccount

namespace Account

/-- `WD_ACCOUNT_NUMBER_ACCESSOR`, where 0 is no limit -/
def limit (account : Account) (field : AccountField) : ℕ :=
  (account.number field % 2 ^ 64).toNat

end Account

/-- A limit is looser than another one. -/
def Looser (limit other : ℕ) : Prop :=
  limit ≠ 0 ∧ (other = 0 ∨ limit < other)

/-- A files directory is another one or below it. -/
def FilesBelow (root files : String) : Prop :=
  PathComponents.Below '/' ['.'] ['.', '.'] root.toList files.toList

/-- An account has no privilege that another one lacks, no looser limit, and a files directory that
is not outside of the other's.
-/
structure WithinAccount (userAccount account : Account) : Prop where
  booleans : ∀ field, field.isFor privilege → account.boolean field → userAccount.boolean field
  limits : ∀ field, field.isFor privilege → ¬Looser (userAccount.limit field) (account.limit field)
  files : FilesBelow userAccount.files account.files

section Merging

/-- What an overridden field holds after `wd_account_override_privileges`. -/
def FieldType.merge (memory : Bool) (type : FieldType) (value : Option type.Value)
    (group : Option type.Value)
    : Option type.Value :=
  match value with
  | none => group
  | some value => if type.numberBool memory value then some value else group.or (some value)

/-- The group that an account of a group's name belongs to, if there is one of the name. -/
def Database.groupNamed (database : Database) (name : String) : Option Account :=
  if name ≠ "" then database.readGroup name else none

/-- The group that an account belongs to. -/
def Database.groupOf (database : Database) (account : Account) : Option Account :=
  database.groupNamed account.group

/-- Without a group, a field holds what it held. -/
@[simp]
theorem FieldType.merge_none (memory : Bool) (type : FieldType) (value : Option type.Value)
    : type.merge memory value none = value := by
  cases value <;> simp [merge]

/-- The values of an account with what its group gives it. -/
theorem Database.values_withGroup (database : Database) (memory : AccountField → Bool)
    (account : Account) (field : AccountField)
    : (database.withGroup memory account).values field
      = if field.isOverridden then
          field.type.merge (memory field) (account.values field)
            ((database.groupOf account).bind (·.values field))
        else account.values field := by
  unfold withGroup groupOf groupNamed
  by_cases grouped : account.group ≠ ""
  · rw [if_pos grouped, if_pos grouped]
    cases database.readGroup account.group with
    | none => simp
    | some group =>
        simp only [Account.overridePrivileges, Option.bind_some]
        split
        · cases account.values field <;> rfl
        · rfl
  · rw [if_neg grouped, if_neg grouped, Option.bind_none, FieldType.merge_none, ite_self]

end Merging

section Storing

/-- The fields that the check looks at: privileges other than the name, and the files directory. -/
def AccountField.isChecked (field : AccountField) : Bool :=
  (field ≠ .name && field.isFor privilege) || field = .files

/-- The checked fields have columns, and neither a date nor the name of an enumeration in them. -/
theorem AccountField.stored_of_isChecked {field : AccountField} (checked : field.isChecked = true)
    : field.isFor user = true ∧ field.isFor (user ||| userList) = true ∧ field.type ≠ .enum
      ∧ field.isOverridden = true ∧ field ≠ .name ∧ field ≠ .creationTime
      ∧ field ≠ .modificationTime ∧ field ≠ .editedBy ∧ field.columnDefault = none := by
  revert checked
  cases field <;> decide

/-- A value that is written and read back. -/
def FieldType.reread (type : FieldType) (value : type.Value) : type.Value :=
  type.fromColumn (type.toColumn value)

/-- A string that is written and read back is cut at the first NUL. -/
theorem FieldType.asString_map_reread (type : FieldType) (value : Option type.Value)
    : type.asString (value.map type.reread) = cString (type.asString value) := by
  cases type with
  | string =>
      cases value with
      | none => rfl
      | some value => exact cString_cString value
  | date | number | boolean | enum | list => cases value <;> rfl

/-- A stored account has the checked values of another one, as they are read back. -/
def Stores (account stored : Account) : Prop :=
  ∀ field : AccountField, field.isChecked = true →
    stored.values field = (account.values field).map field.type.reread

/-- Creating and editing write the same, except for an enumeration. -/
theorem FieldType.toNewColumn_eq {type : FieldType} (other : type ≠ .enum) (memory : BitVec 32)
    (value : type.Value)
    : type.toNewColumn memory value = type.toColumn value := by
  cases type <;> first | rfl | exact absurd rfl other

/-- A value that is set leaves the others. -/
theorem Account.values_set_of_ne (account : Account) {field other : AccountField}
    (value : field.type.Value) (ne : other ≠ field)
    : (account.set field value).values other = account.values other :=
  Function.update_of_ne ne _ _

/-- A value that is set is there. -/
theorem Account.values_set_self (account : Account) {field : AccountField}
    (value : field.type.Value)
    : (account.set field value).values field = some value :=
  Function.update_self _ _ _

/-- A new row stores the account. -/
theorem Account.stores_newRow (account : Account) (nick : String) (now : ℤ) (memory : BitVec 32)
    : Stores account (((account.set .creationTime now).set .editedBy nick).newRow
        (user ||| userList) memory).account := by
  intro field checked
  obtain ⟨-, isFor, type, -, -, creation, -, edited, default⟩ :=
    AccountField.stored_of_isChecked checked
  rw [Row.account, newRow]
  simp only [isFor, if_true, default, Option.or_none, Option.map_map]
  rw [values_set_of_ne _ _ edited, values_set_of_ne _ _ creation]
  congr 1
  funext value
  exact congrArg field.type.fromColumn (FieldType.toNewColumn_eq type memory value)

/-- An edit leaves the checked values. -/
theorem Database.values_edited (account : Account) (nick : String) (now : ℤ) {field : AccountField}
    (checked : field.isChecked = true)
    : (edited account nick now).values field = account.values field := by
  obtain ⟨-, -, -, -, name, -, modified, edited, -⟩ := AccountField.stored_of_isChecked checked
  rw [Database.edited, Account.values_set_of_ne _ _ edited, Account.values_set_of_ne _ _ modified]
  split
  · exact Account.values_set_of_ne _ _ name
  · rfl

/-- An edited row stores the account. -/
theorem Account.stores_updateRow (account : Account) (nick : String) (now : ℤ) (row : Row)
    : Stores account ((Database.edited account nick now).updateRow user row).account := by
  intro field checked
  obtain ⟨isFor, -⟩ := AccountField.stored_of_isChecked checked
  rw [Row.account, updateRow]
  simp only [isFor, if_true, Option.map_map, Database.values_edited account nick now checked]
  rfl

/-- The name of a new row. -/
theorem Account.name_newRow (account : Account) (nick : String) (now : ℤ) (memory : BitVec 32)
    : (((account.set .creationTime now).set .editedBy nick).newRow (user ||| userList) memory).name
      = cString account.name := by
  have same : (((account.set .creationTime now).set .editedBy nick)).values .name
      = account.values .name :=
    (values_set_of_ne _ _ (by decide)).trans (values_set_of_ne _ _ (by decide))
  have isFor : AccountField.name.isFor (user ||| userList) = true := by decide
  have default : AccountField.columnDefault .name = none := rfl
  rw [Row.name, Row.account, name, name, string, string, newRow]
  simp only [isFor, if_true, same, default, Option.or_none, Option.map_map]
  exact FieldType.asString_map_reread .string (account.values .name)

/-- The name of an edited row. -/
theorem Account.name_updateRow (account : Account) (row : Row)
    : (account.updateRow user row).name = cString account.name := by
  have isFor : AccountField.name.isFor user = true := by decide
  rw [Row.name, Row.account, name, name, string, string, updateRow]
  simp only [isFor, if_true, Option.map_map]
  exact FieldType.asString_map_reread .string (account.values .name)

/-- A message that the server accepts from an account: the user account with the values of the
message, the database afterwards, and the name under which the user is stored there.
-/
inductive Accepted (database : Database) (userAccount : Account) (nick : String) (now : ℤ)
    (memory : AccountField → Bool) (message : AccountMessage)
    : Account → Database → String → Prop where
  | create {number : BitVec 32} {next : Database}
      (created : database.messageCreateUser userAccount nick now memory message number = .ok next)
      : Accepted database userAccount nick now memory message
          (Account.empty.readFromMessage message) next
          (cString (Account.empty.readFromMessage message).name)
  | edit {account edited : Account} {next : Database}
      (found : database.readUser message.name = some account)
      (done : database.messageEditUser userAccount nick now memory message = .ok (next, edited))
      : Accepted database userAccount nick now memory message
          (account.readFromMessage message) next (cString edited.name)

/-- The message's name is the name of the account that it edits. -/
theorem name_readFromMessage {database : Database} {message : AccountMessage} {account : Account}
    (found : database.readUser message.name = some account)
    : (account.readFromMessage message).name = message.name := by
  obtain ⟨row, here, rfl⟩ := Option.map_eq_some_iff.mp found
  have named : row.account.name = message.name := database.users.named here
  rw [Account.name, Account.string, Account.readFromMessage]
  cases value : message.values .name with
  | none =>
      simp only [value]
      exact named
  | some value =>
      simp only [AccountMessage.name, value]
      rfl

/-- A new row is in the table. -/
theorem Table.rows_insertNew {table next : Table} {row : Row} (inserted : table.insertNew row = some next)
    : next.rows row.name = some row := by
  unfold insertNew at inserted
  split_ifs at inserted
  cases inserted
  exact Function.update_self _ _ _

/-- A changed row is in the table. -/
theorem Table.rows_update {table next : Table} {name : String} {change : Row → Row} {row : Row}
    (here : table.rows name = some row) (updated : table.update name change = some next)
    : next.rows (change row).name = some (change row) := by
  rw [update, here] at updated
  simp only at updated
  split_ifs at updated
  cases updated
  exact Function.update_self _ _ _

/-- An accepted message stores the account that was checked, and leaves the groups. -/
theorem Accepted.stores {database next : Database} {userAccount updated : Account}
    {nick name : String} {now : ℤ} {memory : AccountField → Bool} {message : AccountMessage}
    (accepted : Accepted database userAccount nick now memory message updated next name)
    : updated.verifyPrivilegesForUser userAccount database memory = .ok ()
      ∧ next.groups = database.groups
      ∧ ∃ stored, next.readUser name = some stored ∧ Stores updated stored := by
  cases accepted with
  | create created =>
      simp only [Database.messageCreateUser] at created
      split_ifs at created
      split at created
      · cases created
      rename_i number _ _ _ _ verified
      split at created <;> cases created
      rename_i inserted
      obtain ⟨users, isNew, rfl⟩ := Option.map_eq_some_iff.mp inserted
      refine ⟨verified, rfl, _, ?_, Account.stores_newRow _ nick now number⟩
      rw [Database.readUser, ← Account.name_newRow _ nick now number, Table.rows_insertNew isNew]
      rfl
  | @edit account edited next found done =>
      simp only [Database.messageEditUser] at done
      split at done
      · cases done
      rename_i account' toEdit
      have same : account' = account.readFromMessage message := by
        simp only [Database.accountToEdit] at toEdit
        split_ifs at toEdit
        rw [found] at toEdit
        exact (Except.ok.inj toEdit).symm
      subst same
      split at done
      · cases done
      rename_i verified
      split at done <;> cases done
      rename_i updated
      obtain ⟨users, changed, same⟩ := Option.map_eq_some_iff.mp updated
      cases same
      obtain ⟨row, here, -⟩ := Option.map_eq_some_iff.mp found
      rw [← name_readFromMessage found] at here
      refine ⟨verified, rfl, _, ?_, Account.stores_updateRow _ nick now row⟩
      rw [Database.readUser, ← Account.name_updateRow _ row, Table.rows_update here changed]
      rfl

end Storing

section Reading

/-- An account that was read from some database, as the accounts of sessions are. -/
def Account.IsRead (account : Account) : Prop :=
  ∃ (database : Database) (memory : AccountField → Bool) (name : String),
    database.readUserAndGroup memory name = some account

/-- A number that is read back is the low half of the number that was written. -/
theorem FieldType.reread_number (value : ℤ)
    : reread .number value = value % 2 ^ 32 := by
  rw [reread, toColumn, fromColumn, BitVec.toNat_ofInt]
  exact Int.toNat_of_nonneg (Int.emod_nonneg _ (by norm_num))

/-- A number that is read is not negative and has 32 bits. -/
theorem FieldType.asNumber_fromColumn (type : FieldType) (column : Option type.Column)
    : 0 ≤ type.asNumber (column.map type.fromColumn)
      ∧ type.asNumber (column.map type.fromColumn) < 2 ^ 32 := by
  cases column with
  | none => cases type <;> simp [asNumber]
  | some column =>
      cases type with
      | number =>
          have bound : (column : BitVec 32).toNat < 2 ^ 32 := BitVec.isLt _
          simp only [Option.map_some, asNumber, fromColumn]
          omega
      | string | date | boolean | enum | list => simp [asNumber]

/-- An overridden number is that of the account or that of the group. -/
theorem FieldType.asNumber_merge (memory : Bool) (type : FieldType) (value group : Option type.Value)
    : type.asNumber (type.merge memory value group) = type.asNumber value
      ∨ type.asNumber (type.merge memory value group) = type.asNumber group := by
  cases value with
  | none => exact .inr rfl
  | some value =>
      rw [merge]
      split
      · exact .inl rfl
      · cases group with
        | none => exact .inl rfl
        | some group => exact .inr rfl

/-- A string that is read has no NUL. -/
theorem FieldType.cString_asString (type : FieldType) (column : Option type.Column)
    : cString (type.asString (column.map type.fromColumn))
      = type.asString (column.map type.fromColumn) := by
  cases type with
  | string =>
      cases column with
      | none => rfl
      | some column => exact cString_cString column
  | date | number | boolean | enum | list => cases column <;> rfl

/-- A group is read from the row of its name, which has no NUL. -/
theorem Database.groupNamed_eq_some {database : Database} {name : String} {group : Account}
    (found : database.groupNamed name = some group)
    : cString name = name ∧ ∃ row : Row, group = row.account := by
  rw [groupNamed] at found
  split at found
  · obtain ⟨row, here, same⟩ := Option.map_eq_some_iff.mp found
    refine ⟨?_, row, same.symm⟩
    rw [← database.groups.named here]
    exact FieldType.cString_asString .string (row.columns .name)
  · cases found

/-- A number that a group has is not negative and has 32 bits. -/
theorem Database.asNumber_groupNamed (database : Database) (name : String) (field : AccountField)
    : 0 ≤ field.type.asNumber ((database.groupNamed name).bind (·.values field))
      ∧ field.type.asNumber ((database.groupNamed name).bind (·.values field)) < 2 ^ 32 := by
  cases found : database.groupNamed name with
  | none => exact field.type.asNumber_fromColumn none
  | some group =>
      obtain ⟨-, row, rfl⟩ := groupNamed_eq_some found
      exact field.type.asNumber_fromColumn (row.columns field)

/-- The numbers of an account that was read are not negative and have 32 bits. -/
theorem Account.IsRead.number {account : Account} (read : account.IsRead) (field : AccountField)
    : 0 ≤ account.number field ∧ account.number field < 2 ^ 32 := by
  obtain ⟨database, memory, name, read⟩ := read
  obtain ⟨user, found, rfl⟩ := Option.map_eq_some_iff.mp read
  obtain ⟨row, -, rfl⟩ := Option.map_eq_some_iff.mp found
  have own := field.type.asNumber_fromColumn (row.columns field)
  have group := database.asNumber_groupNamed row.account.group field
  rw [Account.number, Database.values_withGroup]
  split
  · rcases field.type.asNumber_merge (memory field) (row.account.values field)
      ((database.groupOf row.account).bind (·.values field)) with same | same
    · rw [same]
      exact own
    · rw [same]
      exact group
  · exact own

/-- The limits of an account that was read. -/
theorem Account.IsRead.limit {account : Account} (read : account.IsRead) (field : AccountField)
    : (account.limit field : ℤ) = account.number field := by
  have bounds := read.number field
  rw [Account.limit]
  omega

end Reading

section Comparing

/-- An account has a privilege if it or its group has it. -/
theorem FieldType.asBoolean_merge (memory : Bool) (type : FieldType)
    (value group : Option type.Value)
    : type.asBoolean (type.merge memory value group)
      = (type.asBoolean value || type.asBoolean group) := by
  cases type with
  | boolean =>
      cases value with
      | none => rfl
      | some value =>
          cases value with
          | true => rfl
          | false => cases group <;> rfl
  | string | date | number | enum | list => rfl

/-- What is set is of the type of privileges that users have or lack. -/
theorem FieldType.eq_boolean_of_asBoolean {type : FieldType} {value : Option type.Value}
    (has : type.asBoolean value = true)
    : type = .boolean := by
  cases type <;> first | rfl | exact absurd has Bool.false_ne_true

/-- An absent value is not set. -/
theorem FieldType.asBoolean_none (type : FieldType)
    : type.asBoolean none = false := by
  cases type <;> rfl

/-- A privilege that users have or lack is checked. -/
theorem AccountField.isChecked_of_boolean {field : AccountField} (isFor : field.isFor privilege = true)
    (boolean : field.type = .boolean)
    : field.isChecked = true := by
  revert isFor boolean
  cases field <;> decide

/-- A privilege that is written is read back. -/
theorem FieldType.asBoolean_map_reread (type : FieldType) (value : Option type.Value)
    : type.asBoolean (value.map type.reread) = type.asBoolean value := by
  cases type with
  | boolean => cases value <;> rfl
  | string | date | number | enum | list => rfl

/-- A number that is checked and the number that is read back later are both the group's, when the
account's own is 0, or the one is the account's own and the other its low half.
-/
theorem FieldType.asNumber_merge_reread (memory memory' : Bool) (type : FieldType)
    (value group : Option type.Value)
    : type.asNumber value % 2 ^ 32 = 0
        ∧ type.asNumber (type.merge memory value group)
          = type.asNumber (type.merge memory' (value.map type.reread) group)
        ∧ type.asNumber (type.merge memory value group) = type.asNumber group
      ∨ type.asNumber (type.merge memory value group) = type.asNumber value
        ∧ type.asNumber (type.merge memory' (value.map type.reread) group)
          = type.asNumber value % 2 ^ 32 := by
  cases type with
  | number =>
      cases value with
      | none => exact .inl ⟨rfl, rfl, rfl⟩
      | some value =>
          have low : reread .number value = value % 2 ^ 32 := reread_number value
          have same : numberBool memory' .number (reread .number value)
              = numberBool memory .number value := by
            rw [low, numberBool, numberBool, Int.emod_emod]
          rw [Option.map_some, merge, merge, same]
          cases zero : numberBool memory .number value with
          | false =>
              cases group with
              | none => exact .inr ⟨rfl, low⟩
              | some group =>
                  have divides : value % 2 ^ 32 = 0 := by simpa [numberBool] using zero
                  exact .inl ⟨divides, rfl, rfl⟩
          | true => exact .inr ⟨rfl, low⟩
  | string | date | boolean | enum | list => exact .inr ⟨rfl, rfl⟩

/-- The group of the name that is stored for an account. -/
def Database.storedGroup (database : Database) (account : Account) : Option Account :=
  database.groupNamed (cString account.group)

/-- The group of a stored account is the group of the name that was stored. -/
theorem Stores.groupOf {database next : Database} {account stored : Account}
    (stores : Stores account stored) (groups : next.groups = database.groups)
    : next.groupOf stored = database.storedGroup account := by
  have same : stored.group = cString account.group := by
    rw [Account.group, Account.group, Account.string, Account.string, stores .group (by decide),
      FieldType.asString_map_reread]
  rw [Database.groupOf, Database.storedGroup, same, Database.groupNamed, Database.groupNamed,
    Database.readGroup, Database.readGroup, groups]

/-- The group that was checked is the stored one, or there is none of its name, which has a NUL. -/
theorem Database.storedGroup_eq_or (database : Database) (account : Account)
    : database.storedGroup account = database.groupOf account
      ∨ cString account.group ≠ account.group ∧ database.groupOf account = none := by
  by_cases same : cString account.group = account.group
  · left
    rw [storedGroup, groupOf, same]
  · right
    refine ⟨same, ?_⟩
    cases found : database.groupOf account with
    | none => rfl
    | some group => exact absurd (groupNamed_eq_some found).1 same

/-- The checked values of a stored account with what its group gives it. -/
theorem Stores.values_withGroup {database next : Database} {account stored : Account}
    (stores : Stores account stored) (groups : next.groups = database.groups)
    (memory : AccountField → Bool) {field : AccountField} (checked : field.isChecked = true)
    : (next.withGroup memory stored).values field
      = field.type.merge (memory field) ((account.values field).map field.type.reread)
        ((database.storedGroup account).bind (·.values field)) := by
  obtain ⟨-, -, -, overridden, -⟩ := AccountField.stored_of_isChecked checked
  rw [Database.values_withGroup, if_pos overridden, stores field checked, stores.groupOf groups]

end Comparing

section Condition

/-- The number that a message carries, of which 32 bits are taken. -/
def FieldType.asMessageNumber : (type : FieldType) → Option type.MessageValue → ℕ
  | .number, some value => value % 2 ^ 32
  | _, _ => 0

/-- The limit that a message sets, which is 0 when the message has none. -/
def AccountMessage.limit (message : AccountMessage) (field : AccountField) : ℕ :=
  field.type.asMessageNumber (message.values field)

/-- A files directory that starts with the text of another one goes on between two components, and
does not climb.
-/
def ContinuesFiles (root files : String) : Prop :=
  let rest := files.toList.drop root.toList.length
  PathComponents.MeetsBetween '/' root.toList rest
    ∧ PathComponents.descends ['.'] ['.', '.'] 0 (PathComponents.components '/' rest) = true

instance (root files : String) : Decidable (ContinuesFiles root files) :=
  inferInstanceAs (Decidable (_ ∧ _))

/-- What keeps an accepted message from raising privileges: no limit of 2^31 or more is above that
of the account that sends it; if the name of the group is cut when it is stored, the group of the
name that is left has no privilege that the sender lacks; and the files directory that was checked
continues the sender's. If the login takes another one than was checked, because of what memory
contains or because it is cut, that one has to be below the sender's.
-/
structure KeepsWithin (database : Database) (userAccount : Account) (message : AccountMessage)
    (updated : Account) (checked taken : String)
    : Prop where
  limits : ∀ field, field.isFor privilege → message.limit field < 2 ^ 31
    ∨ userAccount.limit field = 0 ∨ message.limit field ≤ userAccount.limit field
  group : cString updated.group ≠ updated.group → ∀ group ∈ database.storedGroup updated,
    ∀ field, field.isFor privilege → group.boolean field → userAccount.boolean field
  files : if taken = checked then ContinuesFiles userAccount.files taken
    else FilesBelow userAccount.files taken

/-- A checked directory is below another one if it continues it. -/
theorem filesBelow_iff {root files : String} (starts : Account.hasPrefix files root = true)
    : FilesBelow root files ↔ ContinuesFiles root files := by
  obtain ⟨rest, same⟩ := List.isPrefixOf_iff_prefix.mp starts
  rw [FilesBelow, ContinuesFiles, ← same, List.drop_left]
  exact PathComponents.below_append_iff '/' ['.'] ['.', '.']

/-- What an accepted message passed, if its sender lacks the privilege to raise privileges. -/
theorem Account.verified {database : Database} {userAccount account : Account}
    {memory : AccountField → Bool} (unraised : userAccount.boolean .accountRaiseAccountPrivileges = false)
    (verified : account.verifyPrivilegesForUser userAccount database memory = .ok ())
    : (∀ field, verifyField userAccount (database.withGroup memory account) field = none)
      ∧ hasPrefix (database.withGroup memory account).files userAccount.files = true := by
  simp only [verifyPrivilegesForUser, unraised, Bool.false_eq_true, if_false] at verified
  split at verified
  · cases verified
  · rename_i none
    split_ifs at verified with starts
    exact ⟨fun field => List.findSome?_eq_none_iff.mp none field (AccountField.mem_all field), starts⟩

/-- A limit is not required, and has 32 bits in a message. -/
theorem AccountField.limit_of_isFor {field : AccountField} (isFor : field.isFor privilege = true)
    (number : field.type = .number)
    : field.entry.required = false ∧ field.messageBits = 32 := by
  revert isFor number
  cases field <;> decide

/-- A value of an account that a message was read into. -/
theorem Account.values_readFromMessage (account : Account) (message : AccountMessage)
    (field : AccountField)
    : (account.readFromMessage message).values field
      = match message.values field with
        | some value => some (field.type.fromMessage field.messageBits value)
        | none => if field.entry.required then account.values field else none :=
  rfl

/-- The signed number of 32 bits. -/
theorem toInt_ofNat (value : ℕ)
    : (BitVec.ofNat 32 value).toInt
      = if value % 2 ^ 32 < 2 ^ 31 then ((value % 2 ^ 32 : ℕ) : ℤ)
        else ((value % 2 ^ 32 : ℕ) : ℤ) - 2 ^ 32 := by
  rw [BitVec.toInt_eq_toNat_cond, BitVec.toNat_ofNat]
  split <;> split <;> omega

/-- A number of 32 bits in a message becomes a signed number. -/
theorem FieldType.asNumber_fromMessage (type : FieldType) (value : Option type.MessageValue)
    : type.asMessageNumber value < 2 ^ 32 ∧ type.asNumber (value.map (type.fromMessage 32))
      = if type.asMessageNumber value < 2 ^ 31 then (type.asMessageNumber value : ℤ)
        else type.asMessageNumber value - 2 ^ 32 := by
  cases value with
  | none => cases type <;> simp [asNumber, asMessageNumber]
  | some value =>
      cases type with
      | number => exact ⟨Nat.mod_lt _ (by norm_num), toInt_ofNat value⟩
      | string | date | boolean | enum | list => simp [asNumber, asMessageNumber]

/-- A field of another type has no number. -/
theorem FieldType.asNumber_of_ne {type : FieldType} (other : type ≠ .number)
    (value value' : Option type.Value)
    : type.asNumber value = type.asNumber value' := by
  cases type with
  | number => exact absurd rfl other
  | string | date | boolean | enum | list => rfl

/-- The limit of an account that a message was read into is the message's, as a signed number. -/
theorem Account.number_readFromMessage (account : Account) (message : AccountMessage)
    {field : AccountField} (isFor : field.isFor privilege = true)
    : message.limit field < 2 ^ 32 ∧ (account.readFromMessage message).number field
      = if message.limit field < 2 ^ 31 then (message.limit field : ℤ)
        else message.limit field - 2 ^ 32 := by
  obtain ⟨bound, same⟩ := field.type.asNumber_fromMessage (message.values field)
  refine ⟨bound, ?_⟩
  rw [Account.number, AccountMessage.limit, ← same]
  by_cases number : field.type = .number
  · obtain ⟨required, bits⟩ := AccountField.limit_of_isFor isFor number
    rw [values_readFromMessage, required, bits]
    cases message.values field <;> rfl
  · exact FieldType.asNumber_of_ne number _ _

end Condition

section Result

variable {database next : Database} {userAccount updated effective : Account}
  {nick name : String} {now : ℤ} {memory later : AccountField → Bool} {message : AccountMessage}

variable (later) in
/-- An accepted message gives no privilege that its sender lacks, if the group that is stored has
none that was not checked.
-/
theorem Accepted.booleans_iff {stored : Account}
    (checked : ∀ field,
      Account.verifyField userAccount (database.withGroup memory updated) field = none)
    (groups : next.groups = database.groups) (stores : Stores updated stored)
    : (∀ field, field.isFor privilege → (next.withGroup later stored).boolean field →
        userAccount.boolean field)
      ↔ (cString updated.group ≠ updated.group → ∀ group ∈ database.storedGroup updated,
        ∀ field, field.isFor privilege → group.boolean field → userAccount.boolean field) := by
  have passes : ∀ field, field.isFor privilege = true → field.type = .boolean →
      (updated.boolean field
        || field.type.asBoolean ((database.groupOf updated).bind (·.values field))) = true →
      userAccount.boolean field = true := by
    intro field isFor boolean has
    obtain ⟨-, -, -, overridden, -⟩ :=
      AccountField.stored_of_isChecked (AccountField.isChecked_of_boolean isFor boolean)
    have passed := checked field
    have before : (database.withGroup memory updated).boolean field = true := by
      rw [Account.boolean, Database.values_withGroup, if_pos overridden, FieldType.asBoolean_merge]
      exact has
    rw [Account.verifyField, if_pos isFor, boolean] at passed
    simpa [before] using passed
  have effective : ∀ field, field.isFor privilege = true → field.type = .boolean →
      (next.withGroup later stored).boolean field = (updated.boolean field
        || field.type.asBoolean ((database.storedGroup updated).bind (·.values field))) := by
    intro field isFor boolean
    rw [Account.boolean, stores.values_withGroup groups later
      (AccountField.isChecked_of_boolean isFor boolean), FieldType.asBoolean_merge,
      FieldType.asBoolean_map_reread]
    rfl
  constructor
  · intro within _ group found field isFor has
    refine within field isFor ?_
    rw [effective field isFor (FieldType.eq_boolean_of_asBoolean has), Option.mem_def.mp found]
    exact Bool.or_eq_true_iff.mpr (.inr has)
  · intro gives field isFor has
    have boolean := FieldType.eq_boolean_of_asBoolean has
    rw [effective field isFor boolean] at has
    rcases database.storedGroup_eq_or updated with same | ⟨cut, -⟩
    · -- the stored group was checked with the account
      rw [same] at has
      exact passes field isFor boolean has
    · rcases Bool.or_eq_true_iff.mp has with own | ofGroup
      · exact passes field isFor boolean (Bool.or_eq_true_iff.mpr (.inl own))
      · cases found : database.storedGroup updated with
        | none =>
            rw [found, Option.bind_none, FieldType.asBoolean_none] at ofGroup
            exact absurd ofGroup Bool.false_ne_true
        | some group =>
            rw [found] at ofGroup
            exact gives cut group found field isFor ofGroup

/-- A number that was checked against the sender's limit. -/
theorem Account.limit_of_verifyField {account : Account} {field : AccountField}
    (isFor : field.isFor privilege = true) (number : field.type = .number)
    (passed : verifyField userAccount account field = none)
    : userAccount.number field ≤ 0
      ∨ account.number field ≤ userAccount.number field ∧ account.number field ≠ 0 := by
  rw [verifyField, if_pos isFor, number] at passed
  simp only at passed
  split_ifs at passed with raised
  omega

/-- The account that a message was read into before the check. -/
theorem Accepted.updated_eq
    (accepted : Accepted database userAccount nick now memory message updated next name)
    : ∃ account : Account, updated = account.readFromMessage message := by
  cases accepted with
  | create => exact ⟨_, rfl⟩
  | edit => exact ⟨_, rfl⟩

/-- An accepted message sets a limit that is looser than its sender's just when the limit is at
least 2^31 and above the sender's.
-/
theorem Accepted.limits_iff {stored : Account} (read : userAccount.IsRead)
    (accepted : Accepted database userAccount nick now memory message updated next name)
    (checked : ∀ field,
      Account.verifyField userAccount (database.withGroup memory updated) field = none)
    (groups : next.groups = database.groups) (stores : Stores updated stored)
    (effective : (next.withGroup later stored).IsRead) {field : AccountField}
    (isFor : field.isFor privilege = true)
    : ¬Looser (userAccount.limit field) ((next.withGroup later stored).limit field)
      ↔ message.limit field < 2 ^ 31 ∨ userAccount.limit field = 0
        ∨ message.limit field ≤ userAccount.limit field := by
  have userLimit := read.limit field
  by_cases number : field.type = .number
  · have isChecked : field.isChecked = true := by
      revert isFor number
      cases field <;> decide
    obtain ⟨-, -, -, overridden, -⟩ := AccountField.stored_of_isChecked isChecked
    obtain ⟨account, rfl⟩ := accepted.updated_eq
    have passed := Account.limit_of_verifyField isFor number (checked field)
    obtain ⟨bound, own⟩ := account.number_readFromMessage message isFor
    have limit := effective.limit field
    have group := database.asNumber_groupNamed
      (cString (account.readFromMessage message).group) field
    rw [← Database.storedGroup] at group
    have cases := field.type.asNumber_merge_reread (memory field) (later field)
      ((account.readFromMessage message).values field)
      ((database.storedGroup (account.readFromMessage message)).bind (·.values field))
    rw [Account.number, stores.values_withGroup groups later isChecked] at limit
    have merged : (database.withGroup memory (account.readFromMessage message)).number field
        = field.type.asNumber (field.type.merge (memory field)
            ((account.readFromMessage message).values field)
            ((database.groupOf (account.readFromMessage message)).bind (·.values field))) := by
      rw [Account.number, Database.values_withGroup, if_pos overridden]
    rw [merged] at passed
    rw [Account.number] at own
    rw [Looser]
    rcases database.storedGroup_eq_or (account.readFromMessage message) with same | ⟨-, unchecked⟩
    · rw [← same] at passed
      rcases cases with ⟨zero, same, isGroup⟩ | ⟨isOwn, low⟩
      · -- the group's limit was checked, and the message has none
        rw [← same] at limit
        split at own <;> omega
      · -- the message's own limit was checked as a signed number
        rw [isOwn] at passed
        rw [low] at limit
        split at own <;> omega
    · -- no group was checked, and the message's own limit decides
      rw [unchecked, Option.bind_none, FieldType.merge_none] at passed
      rcases cases with ⟨zero, -, -⟩ | ⟨-, low⟩
      · split at own <;> omega
      · rw [low] at limit
        split at own <;> omega
  · have zero : userAccount.number field = field.type.asNumber none :=
      FieldType.asNumber_of_ne number (userAccount.values field) none
    rw [show field.type.asNumber none = 0 by cases field.type <;> rfl] at zero
    have unlimited : userAccount.limit field = 0 := by omega
    simp [Looser, unlimited]

/-- The files directory of a stored account, and the one that was checked. -/
theorem filesBelow_withGroup_iff (next : Database) (stored : Account)
    (later : AccountField → Bool)
    (starts : Account.hasPrefix (database.withGroup memory updated).files userAccount.files = true)
    : FilesBelow userAccount.files (next.withGroup later stored).files
      ↔ if (next.withGroup later stored).files = (database.withGroup memory updated).files then
          ContinuesFiles userAccount.files (next.withGroup later stored).files
        else FilesBelow userAccount.files (next.withGroup later stored).files := by
  split
  · rename_i same
    exact filesBelow_iff (same ▸ starts)
  · rfl

/-- What an account without the privilege to raise privileges makes of a user account is within its
own privileges just when the message sets no limit of 2^31 or more above its own, names no group by
a text that is cut to the name of a group with more privileges, and continues its files directory by
components that do not climb.
-/
theorem withinAccount_iff (read : userAccount.IsRead)
    (unraised : userAccount.boolean .accountRaiseAccountPrivileges = false)
    (accepted : Accepted database userAccount nick now memory message updated next name)
    (readLater : next.readUserAndGroup later name = some effective)
    : WithinAccount userAccount effective
      ↔ KeepsWithin database userAccount message updated
          (database.withGroup memory updated).files effective.files := by
  obtain ⟨verified, groups, stored, found, stores⟩ := accepted.stores
  obtain ⟨checked, starts⟩ := Account.verified unraised verified
  have isRead : effective.IsRead := ⟨next, later, name, readLater⟩
  rw [Database.readUserAndGroup, found, Option.map_some, Option.some.injEq] at readLater
  subst readLater
  have limits := fun (field : AccountField) (isFor : field.isFor privilege = true) =>
    accepted.limits_iff read checked groups stores isRead isFor
  have booleans := Accepted.booleans_iff later checked groups stores
  have files := filesBelow_withGroup_iff next stored later starts
  constructor
  · intro within
    exact ⟨fun field isFor => (limits field isFor).mp (within.limits field isFor),
      booleans.mp within.booleans, files.mp within.files⟩
  · intro keeps
    exact ⟨booleans.mpr keeps.group,
      fun field isFor => (limits field isFor).mpr (keeps.limits field isFor),
      files.mpr keeps.files⟩

end Result

section NewUser

/-- An administrator who may create users, with the files directory `/a`. -/
def administratorRow : Row where
  columns
    | .name => some "admin"
    | .files => some "/a"
    | .accountCreateUsers => some true
    | _ => none
  newName := rfl

/-- The database in which the administrator is the only user. -/
def administratorDatabase : Database where
  users := Table.empty.insert administratorRow
  groups := .empty

/-- A message that creates a user with a files directory. -/
def newUserMessage (files : String) : AccountMessage where
  values
    | .name => some "eve"
    | .files => some files
    | _ => none

/-- The database after the message. -/
def newUserDatabase (files : String) : Database where
  users := administratorDatabase.users.insert
    ((((Account.empty.readFromMessage (newUserMessage files)).set .creationTime 0).set .editedBy
      "admin").newRow (user ||| userList) 0)
  groups := .empty

/-- The server accepts each files directory that starts with `/a`. -/
theorem accepted_newUser {files : String} (starts : Account.hasPrefix files "/a" = true)
    : Accepted administratorDatabase administratorRow.account "admin" 0 (fun _ => true)
        (newUserMessage files) (Account.empty.readFromMessage (newUserMessage files))
        (newUserDatabase files) "eve" := by
  have unraised : administratorRow.account.boolean .accountRaiseAccountPrivileges = false := by decide
  have checked : ∀ field, Account.verifyField administratorRow.account
      (Account.empty.readFromMessage (newUserMessage files)) field = none := by
    intro field
    cases field <;> rfl
  have verified : (Account.empty.readFromMessage (newUserMessage files)).verifyPrivilegesForUser
      administratorRow.account administratorDatabase (fun _ => true) = .ok () := by
    have none : AccountField.all.findSome? (Account.verifyField administratorRow.account
        (Account.empty.readFromMessage (newUserMessage files))) = none :=
      List.findSome?_eq_none_iff.mpr fun field _ => checked field
    have alone : administratorDatabase.withGroup (fun _ => true)
        (Account.empty.readFromMessage (newUserMessage files))
          = Account.empty.readFromMessage (newUserMessage files) := rfl
    rw [Account.verifyPrivilegesForUser, alone, unraised, none]
    exact if_pos starts
  have created : administratorDatabase.messageCreateUser administratorRow.account "admin" 0
      (fun _ => true) (newUserMessage files) 0 = .ok (newUserDatabase files) := by
    rw [Database.messageCreateUser, verified]
    rfl
  have name : cString (Account.empty.readFromMessage (newUserMessage files)).name = "eve" := by
    change cString "eve" = "eve"
    decide
  rw [← name]
  exact .create created

/-- A user with the files directory `/a/b` is within what its creator has. -/
theorem withinAccount_iff_newUser
    : ∃ effective, (newUserDatabase "/a/b").readUserAndGroup (fun _ => true) "eve" = some effective
        ∧ WithinAccount administratorRow.account effective := by
  have unlimited : ∀ field, (newUserMessage "/a/b").limit field = 0 := by
    intro field
    cases field <;> rfl
  refine ⟨_, rfl, (withinAccount_iff ⟨administratorDatabase, fun _ => true, "admin", rfl⟩
    (by decide) (accepted_newUser (by decide)) rfl).mpr
    ⟨fun field _ => .inl ?_, fun cut => absurd rfl cut, ?_⟩⟩
  · rw [unlimited]
    norm_num
  · split
    · decide
    · rename_i differ
      exact absurd rfl differ

/-- A user with the files directory `/ab` is not, although its creator has only `/a`. -/
theorem not_withinAccount_newUser
    : ¬∀ (database next : Database) (userAccount updated effective : Account) (nick name : String)
        (now : ℤ) (memory later : AccountField → Bool) (message : AccountMessage),
        userAccount.IsRead → userAccount.boolean .accountRaiseAccountPrivileges = false →
        Accepted database userAccount nick now memory message updated next name →
        next.readUserAndGroup later name = some effective →
        WithinAccount userAccount effective := by
  intro always
  have within := always administratorDatabase (newUserDatabase "/ab") administratorRow.account _ _
    "admin" "eve" 0 (fun _ => true) (fun _ => true) _
    ⟨administratorDatabase, fun _ => true, "admin", rfl⟩ (by decide)
    (accepted_newUser (by decide)) rfl
  have below : PathComponents.Below '/' ['.'] ['.', '.'] ['/', 'a'] (['/', 'a'] ++ ['b']) :=
    within.files
  exact absurd ((PathComponents.below_append_iff '/' ['.'] ['.', '.']).mp below).1 (by decide)

end NewUser

end WiredServer.Server
