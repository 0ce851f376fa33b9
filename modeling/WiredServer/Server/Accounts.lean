import Mathlib

/-! Accounts of users and groups: the table of their fields, the values that an account holds in
memory, the columns of its row in the database, and what a group account gives its members.
-/

namespace WiredServer.Server

/-- `wd_account_field_type_t` -/
inductive FieldType where
  | string
  | date
  | number
  | boolean
  | enum
  | list
  deriving DecidableEq, Repr

namespace FieldAccount

/-- `WD_ACCOUNT_FIELD_USER_LIST` -/
abbrev userList : ℕ := 1
/-- `WD_ACCOUNT_FIELD_GROUP_LIST` -/
abbrev groupList : ℕ := 2
/-- `WD_ACCOUNT_FIELD_USER` -/
abbrev user : ℕ := 4
/-- `WD_ACCOUNT_FIELD_GROUP` -/
abbrev group : ℕ := 8
/-- `WD_ACCOUNT_FIELD_PRIVILEGE` -/
abbrev privilege : ℕ := 16
/-- `WD_ACCOUNT_FIELD_USER_AND_GROUP` -/
abbrev userAndGroup : ℕ := user ||| group
/-- `WD_ACCOUNT_FIELD_USER_LIST_AND_GROUP_LIST` -/
abbrev userListAndGroupList : ℕ := userList ||| groupList
/-- `WD_ACCOUNT_FIELD_USER_AND_PRIVILEGE` -/
abbrev userAndPrivilege : ℕ := user ||| privilege
/-- `WD_ACCOUNT_FIELD_USER_AND_GROUP_AND_PRIVILEGE` -/
abbrev userAndGroupAndPrivilege : ℕ := user ||| group ||| privilege

end FieldAccount

/-- A field's entry in the table, without the name of its column. -/
structure FieldEntry where
  protocolName : String
  type : FieldType
  account : ℕ
  required : Bool

/-- The fields of an account, by the names of their columns. Only `newName` has no column. -/
inductive AccountField where
  | name | newName | fullName | comment | creationTime | modificationTime | loginTime | editedBy
  | downloads | downloadTransferred | uploads | uploadTransferred | group | groups | password
  | color | files | userGetInfo | userDisconnectUsers | userBanUsers | userCannotBeDisconnected
  | userCannotSetNick | userGetUsers | chatKickUsers | chatSetTopic | chatCreateChats
  | messageSendMessages | messageBroadcast | fileListFiles | fileSearchFiles | fileGetInfo
  | fileCreateLinks | fileRenameFiles | fileSetType | fileSetComment | fileSetPermissions
  | fileSetExecutable | fileSetLabel | fileRecursiveListDepthLimit | fileCreateDirectories
  | fileMoveFiles | fileDeleteFiles | fileAccessAllDropboxes | accountChangePassword
  | accountListAccounts | accountReadAccounts | accountCreateUsers | accountEditUsers
  | accountDeleteUsers | accountCreateGroups | accountEditGroups | accountDeleteGroups
  | accountRaiseAccountPrivileges | transferDownloadFiles | transferUploadFiles
  | transferUploadAnywhere | transferUploadDirectories | transferDownloadSpeedLimit
  | transferUploadSpeedLimit | transferDownloadLimit | transferUploadLimit | logViewLog
  | eventsViewEvents | settingsGetSettings | settingsSetSettings | banlistGetBans
  | banlistAddBans | banlistDeleteBans | boardReadBoards | boardAddBoards | boardMoveBoards
  | boardRenameBoards | boardDeleteBoards | boardGetBoardInfo | boardSetBoardInfo
  | boardAddThreads | boardMoveThreads | boardAddPosts | boardEditOwnThreadsAndPosts
  | boardEditAllThreadsAndPosts | boardDeleteOwnThreadsAndPosts | boardDeleteAllThreadsAndPosts
  | trackerListServers | trackerRegisterServers
  deriving DecidableEq, Repr

namespace AccountField

open FieldAccount

/-- The entry of a privilege that users and groups have or lack. -/
abbrev privilegeEntry (protocolName : String) : FieldEntry :=
  ⟨protocolName, .boolean, userAndGroupAndPrivilege, false⟩

/-- The entry of a limit of users and groups. -/
abbrev limitEntry (protocolName : String) : FieldEntry :=
  ⟨protocolName, .number, userAndGroupAndPrivilege, false⟩

/-- The table of `wd_accounts_initialize`. -/
abbrev entry : AccountField → FieldEntry
  | .name =>
      ⟨"wired.account.name", .string, userAndGroupAndPrivilege ||| userListAndGroupList, true⟩
  | .newName => ⟨"wired.account.new_name", .string, 0, false⟩
  | .fullName => ⟨"wired.account.full_name", .string, user ||| userList, true⟩
  | .comment => ⟨"wired.account.comment", .string, userAndGroup ||| userListAndGroupList, true⟩
  | .creationTime =>
      ⟨"wired.account.creation_time", .date, userAndGroup ||| userListAndGroupList, true⟩
  | .modificationTime =>
      ⟨"wired.account.modification_time", .date, userAndGroup ||| userListAndGroupList, true⟩
  | .loginTime => ⟨"wired.account.login_time", .date, user ||| userList, true⟩
  | .editedBy =>
      ⟨"wired.account.edited_by", .string, userAndGroup ||| userListAndGroupList, true⟩
  | .downloads => ⟨"wired.account.downloads", .number, user ||| userList, true⟩
  | .downloadTransferred =>
      ⟨"wired.account.download_transferred", .number, user ||| userList, true⟩
  | .uploads => ⟨"wired.account.uploads", .number, user ||| userList, true⟩
  | .uploadTransferred => ⟨"wired.account.upload_transferred", .number, user ||| userList, true⟩
  | .group => ⟨"wired.account.group", .string, userAndPrivilege ||| userList, true⟩
  | .groups => ⟨"wired.account.groups", .list, userAndPrivilege ||| userList, true⟩
  | .password => ⟨"wired.account.password", .string, user ||| userList, true⟩
  | .color => ⟨"wired.account.color", .enum, userAndGroup ||| userListAndGroupList, false⟩
  | .files => ⟨"wired.account.files", .string, userAndGroup, false⟩
  | .userGetInfo => privilegeEntry "wired.account.user.get_info"
  | .userDisconnectUsers => privilegeEntry "wired.account.user.disconnect_users"
  | .userBanUsers => privilegeEntry "wired.account.user.ban_users"
  | .userCannotBeDisconnected => privilegeEntry "wired.account.user.cannot_be_disconnected"
  | .userCannotSetNick => privilegeEntry "wired.account.user.cannot_set_nick"
  | .userGetUsers => privilegeEntry "wired.account.user.get_users"
  | .chatKickUsers => privilegeEntry "wired.account.chat.kick_users"
  | .chatSetTopic => privilegeEntry "wired.account.chat.set_topic"
  | .chatCreateChats => privilegeEntry "wired.account.chat.create_chats"
  | .messageSendMessages => privilegeEntry "wired.account.message.send_messages"
  | .messageBroadcast => privilegeEntry "wired.account.message.broadcast"
  | .fileListFiles => privilegeEntry "wired.account.file.list_files"
  | .fileSearchFiles => privilegeEntry "wired.account.file.search_files"
  | .fileGetInfo => privilegeEntry "wired.account.file.get_info"
  | .fileCreateLinks => privilegeEntry "wired.account.file.create_links"
  | .fileRenameFiles => privilegeEntry "wired.account.file.rename_files"
  | .fileSetType => privilegeEntry "wired.account.file.set_type"
  | .fileSetComment => privilegeEntry "wired.account.file.set_comment"
  | .fileSetPermissions => privilegeEntry "wired.account.file.set_permissions"
  | .fileSetExecutable => privilegeEntry "wired.account.file.set_executable"
  | .fileSetLabel => privilegeEntry "wired.account.file.set_label"
  | .fileRecursiveListDepthLimit => limitEntry "wired.account.file.recursive_list_depth_limit"
  | .fileCreateDirectories => privilegeEntry "wired.account.file.create_directories"
  | .fileMoveFiles => privilegeEntry "wired.account.file.move_files"
  | .fileDeleteFiles => privilegeEntry "wired.account.file.delete_files"
  | .fileAccessAllDropboxes => privilegeEntry "wired.account.file.access_all_dropboxes"
  | .accountChangePassword => privilegeEntry "wired.account.account.change_password"
  | .accountListAccounts => privilegeEntry "wired.account.account.list_accounts"
  | .accountReadAccounts => privilegeEntry "wired.account.account.read_accounts"
  | .accountCreateUsers => privilegeEntry "wired.account.account.create_users"
  | .accountEditUsers => privilegeEntry "wired.account.account.edit_users"
  | .accountDeleteUsers => privilegeEntry "wired.account.account.delete_users"
  | .accountCreateGroups => privilegeEntry "wired.account.account.create_groups"
  | .accountEditGroups => privilegeEntry "wired.account.account.edit_groups"
  | .accountDeleteGroups => privilegeEntry "wired.account.account.delete_groups"
  | .accountRaiseAccountPrivileges =>
      privilegeEntry "wired.account.account.raise_account_privileges"
  | .transferDownloadFiles => privilegeEntry "wired.account.transfer.download_files"
  | .transferUploadFiles => privilegeEntry "wired.account.transfer.upload_files"
  | .transferUploadAnywhere => privilegeEntry "wired.account.transfer.upload_anywhere"
  | .transferUploadDirectories => privilegeEntry "wired.account.transfer.upload_directories"
  | .transferDownloadSpeedLimit => limitEntry "wired.account.transfer.download_speed_limit"
  | .transferUploadSpeedLimit => limitEntry "wired.account.transfer.upload_speed_limit"
  | .transferDownloadLimit => limitEntry "wired.account.transfer.download_limit"
  | .transferUploadLimit => limitEntry "wired.account.transfer.upload_limit"
  | .logViewLog => privilegeEntry "wired.account.log.view_log"
  | .eventsViewEvents => privilegeEntry "wired.account.events.view_events"
  | .settingsGetSettings => privilegeEntry "wired.account.settings.get_settings"
  | .settingsSetSettings => privilegeEntry "wired.account.settings.set_settings"
  | .banlistGetBans => privilegeEntry "wired.account.banlist.get_bans"
  | .banlistAddBans => privilegeEntry "wired.account.banlist.add_bans"
  | .banlistDeleteBans => privilegeEntry "wired.account.banlist.delete_bans"
  | .boardReadBoards => privilegeEntry "wired.account.board.read_boards"
  | .boardAddBoards => privilegeEntry "wired.account.board.add_boards"
  | .boardMoveBoards => privilegeEntry "wired.account.board.move_boards"
  | .boardRenameBoards => privilegeEntry "wired.account.board.rename_boards"
  | .boardDeleteBoards => privilegeEntry "wired.account.board.delete_boards"
  | .boardGetBoardInfo => privilegeEntry "wired.account.board.get_board_info"
  | .boardSetBoardInfo => privilegeEntry "wired.account.board.set_board_info"
  | .boardAddThreads => privilegeEntry "wired.account.board.add_threads"
  | .boardMoveThreads => privilegeEntry "wired.account.board.move_threads"
  | .boardAddPosts => privilegeEntry "wired.account.board.add_posts"
  | .boardEditOwnThreadsAndPosts => privilegeEntry "wired.account.board.edit_own_threads_and_posts"
  | .boardEditAllThreadsAndPosts => privilegeEntry "wired.account.board.edit_all_threads_and_posts"
  | .boardDeleteOwnThreadsAndPosts =>
      privilegeEntry "wired.account.board.delete_own_threads_and_posts"
  | .boardDeleteAllThreadsAndPosts =>
      privilegeEntry "wired.account.board.delete_all_threads_and_posts"
  | .trackerListServers => privilegeEntry "wired.account.tracker.list_servers"
  | .trackerRegisterServers => privilegeEntry "wired.account.tracker.register_servers"

/-- All fields, in the order of the table. -/
def all : List AccountField :=
  [.name, .newName, .fullName, .comment, .creationTime, .modificationTime, .loginTime, .editedBy,
    .downloads, .downloadTransferred, .uploads, .uploadTransferred, .group, .groups, .password,
    .color, .files, .userGetInfo, .userDisconnectUsers, .userBanUsers, .userCannotBeDisconnected,
    .userCannotSetNick, .userGetUsers, .chatKickUsers, .chatSetTopic, .chatCreateChats,
    .messageSendMessages, .messageBroadcast, .fileListFiles, .fileSearchFiles, .fileGetInfo,
    .fileCreateLinks, .fileRenameFiles, .fileSetType, .fileSetComment, .fileSetPermissions,
    .fileSetExecutable, .fileSetLabel, .fileRecursiveListDepthLimit, .fileCreateDirectories,
    .fileMoveFiles, .fileDeleteFiles, .fileAccessAllDropboxes, .accountChangePassword,
    .accountListAccounts, .accountReadAccounts, .accountCreateUsers, .accountEditUsers,
    .accountDeleteUsers, .accountCreateGroups, .accountEditGroups, .accountDeleteGroups,
    .accountRaiseAccountPrivileges, .transferDownloadFiles, .transferUploadFiles,
    .transferUploadAnywhere, .transferUploadDirectories, .transferDownloadSpeedLimit,
    .transferUploadSpeedLimit, .transferDownloadLimit, .transferUploadLimit, .logViewLog,
    .eventsViewEvents, .settingsGetSettings, .settingsSetSettings, .banlistGetBans,
    .banlistAddBans, .banlistDeleteBans, .boardReadBoards, .boardAddBoards, .boardMoveBoards,
    .boardRenameBoards, .boardDeleteBoards, .boardGetBoardInfo, .boardSetBoardInfo,
    .boardAddThreads, .boardMoveThreads, .boardAddPosts, .boardEditOwnThreadsAndPosts,
    .boardEditAllThreadsAndPosts, .boardDeleteOwnThreadsAndPosts, .boardDeleteAllThreadsAndPosts,
    .trackerListServers, .trackerRegisterServers]

/-- Every field is in the table. -/
theorem mem_all (field : AccountField)
    : field ∈ all := by
  cases field <;> decide

/-- The type of a field. -/
abbrev type (field : AccountField) : FieldType :=
  field.entry.type

/-- Whether a field is marked with one of the flags. -/
def isFor (field : AccountField) (flags : ℕ) : Bool :=
  field.entry.account &&& flags ≠ 0

end AccountField

/-- The value of an enumeration in memory or in a column: a name, or the number that
`wd_account_sqlite3_insert_string` writes in its place.
-/
inductive EnumValue where
  | name (name : String)
  | number (number : BitVec 32)
  deriving DecidableEq, Repr

/-- The C string of a string, which ends at the first NUL. -/
def cString (string : String) : String :=
  String.ofList (string.toList.takeWhile (· ≠ Char.ofNat 0))

/-- The characters of a C string. -/
theorem toList_cString (string : String)
    : (cString string).toList = string.toList.takeWhile (· ≠ Char.ofNat 0) :=
  String.toList_ofList

/-- A C string is its own C string. -/
@[simp]
theorem cString_cString (string : String)
    : cString (cString string) = cString string := by
  rw [cString, toList_cString, List.takeWhile_takeWhile]
  simp only [and_self, Bool.decide_eq_true, cString]

/-- A string is its own C string if it has no NUL. -/
theorem cString_eq_self_iff (string : String)
    : cString string = string ↔ Char.ofNat 0 ∉ string.toList := by
  rw [← String.toList_inj, toList_cString, List.takeWhile_eq_self_iff]
  constructor
  · intro plain inside
    exact absurd (plain _ inside) (by decide)
  · intro outside character inside
    rw [decide_eq_true_eq]
    rintro rfl
    exact outside inside

namespace FieldType

/-- What a field of a type holds in memory. A date is its time in seconds. -/
abbrev Value : FieldType → Type
  | .string => String
  | .date => ℤ
  | .number => ℤ
  | .boolean => Bool
  | .enum => EnumValue
  | .list => List String

/-- What the column of a field holds, if it is not `NULL`. Numbers are written with `%u`. -/
abbrev Column : FieldType → Type
  | .string => String
  | .date => ℤ
  | .number => BitVec 32
  | .boolean => Bool
  | .enum => EnumValue
  | .list => String

/-- What a message carries for a field. A number is the unsigned integer of the protocol. -/
abbrev MessageValue : FieldType → Type
  | .string => String
  | .date => ℤ
  | .number => ℕ
  | .boolean => Bool
  | .enum => String
  | .list => List String

/-- What `wi_p7_message_number_for_name` and its siblings make of a message's value. An unsigned
integer becomes a signed number of as many bits.
-/
def fromMessage (bits : ℕ) : (type : FieldType) → type.MessageValue → type.Value
  | .string, value => value
  | .date, value => value
  | .number, value => (BitVec.ofNat bits value).toInt
  | .boolean, value => value
  | .enum, value => .name value
  | .list, value => value

/-- The character between the elements of a list in its column. -/
def listSeparator : Char := Char.ofNat 0x1c

/-- `wi_array_components_joined_by_string` -/
def joinList (value : List String) : String :=
  String.ofList ([listSeparator].intercalate (value.map String.toList))

/-- What `wd_account_sqlite3_update_string` writes for a value. The text of the statement takes a
string as a C string.
-/
def toColumn : (type : FieldType) → type.Value → type.Column
  | .string, value => cString value
  | .date, value => value
  | .number, value => BitVec.ofInt 32 value
  | .boolean, value => value
  | .enum, value => value
  | .list, value => cString (joinList value)

/-- What `wd_account_sqlite3_insert_string` writes for a value. It takes the name of an enumeration
for a number, which gives whatever memory contains.
-/
def toNewColumn (memory : BitVec 32) : (type : FieldType) → type.Value → type.Column
  | .string, value => toColumn .string value
  | .date, value => value
  | .number, value => toColumn .number value
  | .boolean, value => value
  | .enum, _ => .number memory
  | .list, value => toColumn .list value

/-- `wi_string_components_separated_by_string` -/
def splitList (text : String) : List String :=
  (text.toList.splitOn listSeparator).map String.ofList

/-- What `wd_account_init_with_sqlite3_results` reads from a column. Texts are read as C strings. -/
def fromColumn : (type : FieldType) → type.Column → type.Value
  | .string, column => cString column
  | .date, column => column
  | .number, column => (column.toNat : ℤ)
  | .boolean, column => column
  | .enum, column => column
  | .list, column => splitList (cString column)

/-- `wi_number_bool`, which returns whatever memory contains for a value that is no number -/
def numberBool (memory : Bool) : (type : FieldType) → type.Value → Bool
  | .number, value => value % 2 ^ 32 ≠ 0
  | .boolean, value => value
  | .enum, .number bits => bits ≠ 0
  | .enum, .name _ => memory
  | .string, _ | .date, _ | .list, _ => memory

/-- `WD_ACCOUNT_STRING_ACCESSOR` -/
def asString : (type : FieldType) → Option type.Value → String
  | .string, some value => value
  | _, _ => ""

/-- `WD_ACCOUNT_BOOLEAN_ACCESSOR` -/
def asBoolean : (type : FieldType) → Option type.Value → Bool
  | .boolean, some value => value
  | _, _ => false

/-- The number of a field, which is 0 when it is absent. -/
def asNumber : (type : FieldType) → Option type.Value → ℤ
  | .number, some value => value
  | _, _ => 0

/-- `WD_ACCOUNT_LIST_ACCESSOR` -/
def asList : (type : FieldType) → Option type.Value → List String
  | .list, some value => value
  | _, _ => []

end FieldType

/-- `wd_account_t`: the values of the fields that are present -/
@[ext]
structure Account where
  values : (field : AccountField) → Option field.type.Value

namespace Account

/-- The account without any values. -/
def empty : Account where
  values _ := none

variable (account : Account) (field : AccountField)

/-- The value of a field of type string. -/
def string : String :=
  field.type.asString (account.values field)

/-- The value of a field of type boolean. -/
def boolean : Bool :=
  field.type.asBoolean (account.values field)

/-- The value of a field of type number. -/
def number : ℤ :=
  field.type.asNumber (account.values field)

/-- `wd_account_name` -/
def name : String := account.string .name

/-- `wd_account_group` -/
def group : String := account.string .group

/-- `wd_account_groups` -/
def groups : List String :=
  FieldType.asList _ (account.values .groups)

/-- `wd_account_new_name` -/
def newName : String := account.string .newName

/-- `wd_account_files` -/
def files : String := account.string .files

/-- `wi_mutable_dictionary_set_data_for_key` on the values -/
def set (value : field.type.Value) : Account where
  values := Function.update account.values field (some value)

end Account

/-- The fields that `wd_account_override_privileges` looks at. -/
def AccountField.isOverridden (field : AccountField) : Bool :=
  (field ≠ .name && field.isFor FieldAccount.privilege) || field = .files || field = .color

/-- `wd_account_override_privileges`: what is absent, zero or false in the first account is taken
from the second
-/
def Account.overridePrivileges (memory : AccountField → Bool) (account1 account2 : Account)
    : Account where
  values field :=
    if field.isOverridden then
      match account1.values field with
      | none => account2.values field
      | some value =>
          if field.type.numberBool (memory field) value then some value
          else (account2.values field).or (some value)
    else account1.values field

/-- A row of `users` or `groups`. -/
structure Row where
  columns : (field : AccountField) → Option field.type.Column
  newName : columns .newName = none

/-- `wd_account_init_with_sqlite3_results` -/
def Row.account (row : Row) : Account where
  values field := (row.columns field).map field.type.fromColumn

/-- The primary key of a row. -/
def Row.name (row : Row) : String :=
  row.account.name

/-- A table of accounts by their primary key. -/
structure Table where
  rows : String → Option Row
  named : ∀ {name row}, rows name = some row → row.name = name

namespace Table

/-- The table without rows. -/
def empty : Table where
  rows _ := none
  named := nofun

/-- A table with a row more, or with another row for its name. -/
def insert (table : Table) (row : Row) : Table where
  rows := Function.update table.rows row.name (some row)
  named {name found} here := by
    by_cases same : name = row.name
    · subst same
      rw [Function.update_self] at here
      rw [Option.some.inj here]
    · rw [Function.update_of_ne same] at here
      exact table.named here

/-- `DELETE FROM … WHERE name = ?` -/
def delete (table : Table) (name : String) : Table where
  rows := Function.update table.rows name none
  named {other found} here := by
    by_cases same : other = name
    · rw [same, Function.update_self] at here
      cases here
    · rw [Function.update_of_ne same] at here
      exact table.named here

/-- `INSERT INTO …`, which fails if there is a row of the name -/
def insertNew (table : Table) (row : Row) : Option Table :=
  if (table.rows row.name).isSome then none else some (table.insert row)

/-- `UPDATE … SET … WHERE name = ?`, which fails if there is another row of the new name -/
def update (table : Table) (name : String) (change : Row → Row) : Option Table :=
  match table.rows name with
  | some row =>
      if (change row).name ≠ name && (table.rows (change row).name).isSome then none
      else some ((table.delete name).insert (change row))
  | none => some table

/-- `UPDATE … SET …` on all rows, which does not change their names -/
def map (table : Table) (change : Row → Row) (keeps : ∀ row, (change row).name = row.name)
    : Table where
  rows name := (table.rows name).map change
  named {name found} here := by
    obtain ⟨row, was, rfl⟩ := Option.map_eq_some_iff.mp here
    rw [keeps, table.named was]

end Table

/-- The tables `users` and `groups`. -/
structure Database where
  users : Table
  groups : Table

namespace Database

variable (database : Database) (memory : AccountField → Bool)

/-- `wd_accounts_read_user` -/
def readUser (name : String) : Option Account :=
  (database.users.rows name).map Row.account

/-- `wd_accounts_read_group` -/
def readGroup (name : String) : Option Account :=
  (database.groups.rows name).map Row.account

/-- An account with what its group gives it. -/
def withGroup (account : Account) : Account :=
  if account.group ≠ "" then
    match database.readGroup account.group with
    | some group => account.overridePrivileges memory group
    | none => account
  else account

/-- `wd_accounts_read_user_and_group` -/
def readUserAndGroup (name : String) : Option Account :=
  (database.readUser name).map (database.withGroup memory)

end Database

end WiredServer.Server
