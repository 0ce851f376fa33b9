import WiredServer.Server.Accounts

/-! The messages that create, edit and delete accounts: which changes an account may make to others,
and what is stored of a change.
-/

namespace WiredServer.Server

/-- What a message carries for the fields of an account. -/
structure AccountMessage where
  values : (field : AccountField) → Option field.type.MessageValue

namespace AccountMessage

variable (message : AccountMessage)

/-- `wired.account.name` -/
def name : String := (message.values .name).getD ""

/-- `wired.account.new_name` -/
def newName : Option String := message.values .newName

end AccountMessage

/-- The bits of a number in a message, by the types of the fields in the specification. -/
def AccountField.messageBits : AccountField → ℕ
  | .downloadTransferred | .uploadTransferred => 64
  | _ => 32

namespace Account

/-- `wd_account_read_from_message`: a field that the message lacks is removed, if it is not required
-/
def readFromMessage (account : Account) (message : AccountMessage) : Account where
  values field :=
    match message.values field with
    | some value => some (field.type.fromMessage field.messageBits value)
    | none => if field.entry.required then account.values field else none

/-- The check of one privilege in `wd_account_verify_privileges_for_user`, with the error. -/
def verifyField (userAccount newAccount : Account) (field : AccountField) : Option String :=
  if field.isFor FieldAccount.privilege then
    match field.type with
    | .string | .date | .list | .enum => none
    | .number =>
        let integer1 := userAccount.number field
        let integer2 := newAccount.number field
        if integer1 > 0 ∧ (integer2 > integer1 ∨ integer2 = 0) then
          some ("Tried to increase \"" ++ field.entry.protocolName ++ "\" to "
            ++ toString (integer2 % 2 ^ 32))
        else none
    | .boolean =>
        if !userAccount.boolean field && newAccount.boolean field then
          some ("Tried to enable \"" ++ field.entry.protocolName ++ "\"")
        else none
  else none

/-- `wi_string_has_prefix` -/
def hasPrefix (string prefix1 : String) : Bool :=
  prefix1.toList.isPrefixOf string.toList

/-- `wd_account_verify_privileges_for_user`, which sets no error for the files. -/
def verifyPrivilegesForUser (account userAccount : Account) (database : Database)
    (memory : AccountField → Bool)
    : Except (Option String) Unit :=
  let newAccount := database.withGroup memory account
  if userAccount.boolean .accountRaiseAccountPrivileges then .ok ()
  else
    match AccountField.all.findSome? (verifyField userAccount newAccount) with
    | some error => .error (some error)
    | none => if hasPrefix newAccount.files userAccount.files then .ok () else .error none

end Account

/-- The value of a column that an `INSERT` does not name. -/
def AccountField.columnDefault : (field : AccountField) → Option field.type.Column
  | .downloads | .downloadTransferred | .uploads | .uploadTransferred => some (0 : BitVec 32)
  | _ => none

namespace Account

/-- The row of `wd_account_sqlite3_insert_string`. -/
def newRow (account : Account) (flags : ℕ) (memory : BitVec 32) : Row where
  columns field :=
    if field.isFor flags then
      ((account.values field).map (field.type.toNewColumn memory)).or field.columnDefault
    else none
  newName := by simp [AccountField.isFor]

/-- A row after `wd_account_sqlite3_update_string`. -/
def updateRow (account : Account) (flags : ℕ) (row : Row) : Row where
  columns field :=
    if field.isFor flags then (account.values field).map field.type.toColumn
    else row.columns field
  newName := by simp [AccountField.isFor, row.newName]

end Account

/-- A row whose primary and secondary groups have the new name of a group. -/
def Row.renameGroup (name newname : String) (row : Row) : Row where
  columns
    | .group =>
        let group : Option String := row.columns .group
        if group = some name then (if newname = "" then none else some newname) else group
    | .groups =>
        ((row.columns .groups).map (FieldType.fromColumn .list)).map fun groups =>
          FieldType.joinList (groups.replace name newname)
    | field => row.columns field
  newName := row.newName

/-- Renaming a group leaves the names of users. -/
theorem Row.name_renameGroup (name newname : String) (row : Row)
    : (row.renameGroup name newname).name = row.name :=
  rfl

/-- A row whose primary group is removed if it is a group of the name. -/
def Row.leaveGroup (name : String) (row : Row) : Row where
  columns
    | .group =>
        let group : Option String := row.columns .group
        if group = some name then none else group
    | field => row.columns field
  newName := row.newName

/-- Removing a group leaves the names of users. -/
theorem Row.name_leaveGroup (name : String) (row : Row)
    : (row.leaveGroup name).name = row.name :=
  rfl

namespace Database

variable (database : Database) (account : Account) (nick : String) (now : ℤ)

/-- `wd_accounts_create_user` -/
def createUser (memory : BitVec 32) : Option Database :=
  (database.users.insertNew
    (((account.set .creationTime now).set .editedBy nick).newRow
      (FieldAccount.user ||| FieldAccount.userList) memory)).map fun users =>
    { users, groups := database.groups }

/-- `wd_accounts_create_group` -/
def createGroup (memory : BitVec 32) : Option Database :=
  (database.groups.insertNew
    (((account.set .creationTime now).set .editedBy nick).newRow FieldAccount.group memory)).map
    fun groups => { users := database.users, groups }

/-- The changes that an edit makes to an account before it is written. -/
def edited : Account :=
  let renamed := if account.newName ≠ "" ∧ account.name ≠ account.newName then
    account.set .name account.newName else account
  (renamed.set .modificationTime now).set .editedBy nick

/-- `wd_accounts_edit_user`, with the account whose sessions are reloaded -/
def editUser : Option (Database × Account) :=
  let account1 := edited account nick now
  (database.users.update account.name (account1.updateRow FieldAccount.user)).map fun users =>
    ({ users, groups := database.groups }, account1)

/-- `wd_accounts_rename_group` -/
def renameGroup (name newname : String) : Database where
  users := database.users.map (Row.renameGroup name newname) (Row.name_renameGroup name newname)
  groups := database.groups

/-- `wd_accounts_edit_group`, with the account whose members are reloaded -/
def editGroup : Option (Database × Account) :=
  let account1 := edited account nick now
  (database.groups.update account.name (account1.updateRow FieldAccount.group)).map fun groups =>
    let database1 : Database := { users := database.users, groups }
    if account.newName ≠ "" ∧ account.name ≠ account.newName then
      (database1.renameGroup account.name account.newName, account1)
    else (database1, account1)

/-- `wd_accounts_delete_user` -/
def deleteUser : Database where
  users := database.users.delete account.name
  groups := database.groups

/-- `wd_accounts_delete_group`, with what `groups_delete_trigger` does if there is such a group -/
def deleteGroup : Database where
  users :=
    if (database.groups.rows account.name).isSome then
      database.users.map (Row.leaveGroup account.name) (Row.name_leaveGroup account.name)
    else database.users
  groups := database.groups.delete account.name

end Database

/-- The errors of the handlers for accounts. -/
inductive AccountError where
  | permissionDenied
  | accountExists
  | accountNotFound
  | invalidMessage
  | internalError
  deriving DecidableEq, Repr

namespace Database

variable (database : Database) (userAccount : Account) (nick : String) (now : ℤ)
  (memory : AccountField → Bool) (message : AccountMessage)

/-- `wd_message_account_create_user`, up to its reply -/
def messageCreateUser (number : BitVec 32) : Except AccountError Database :=
  let account := Account.empty.readFromMessage message
  if !userAccount.boolean .accountCreateUsers then .error .permissionDenied
  else if (database.readUser message.name).isSome then .error .accountExists
  else if account.name = "" then .error .invalidMessage
  else
    match account.verifyPrivilegesForUser userAccount database memory with
    | .error _ => .error .permissionDenied
    | .ok () =>
        match database.createUser account nick now number with
        | some next => .ok next
        | none => .error .internalError

/-- The account that an edit is about, with the changes of the message, if the account has the
privilege to edit and the new name is free.
-/
def accountToEdit (read : String → Option Account) (privilege : AccountField)
    : Except AccountError Account :=
  if !userAccount.boolean privilege then .error .permissionDenied
  else if message.newName.any fun newname =>
      newname ≠ message.name && (read newname).isSome then .error .accountExists
  else
    match read message.name with
    | none => .error .accountNotFound
    | some account => .ok (account.readFromMessage message)

/-- `wd_message_account_edit_user`, up to its reply -/
def messageEditUser : Except AccountError (Database × Account) :=
  match accountToEdit userAccount message database.readUser .accountEditUsers with
  | .error error => .error error
  | .ok account =>
      match account.verifyPrivilegesForUser userAccount database memory with
      | .error _ => .error .permissionDenied
      | .ok () =>
          match database.editUser account nick now with
          | some next => .ok next
          | none => .error .internalError

/-- `wd_message_account_edit_group`, up to its reply -/
def messageEditGroup : Except AccountError (Database × Account) :=
  match accountToEdit userAccount message database.readGroup .accountEditGroups with
  | .error error => .error error
  | .ok account =>
      match account.verifyPrivilegesForUser userAccount database memory with
      | .error _ => .error .permissionDenied
      | .ok () =>
          match database.editGroup account nick now with
          | some next => .ok next
          | none => .error .internalError

end Database

end WiredServer.Server
