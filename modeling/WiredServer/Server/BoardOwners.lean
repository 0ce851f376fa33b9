import WiredServer.Server.AccountMessages
import WiredServer.Server.Boards

/-! What deleting, renaming and editing accounts does to the owners and groups of boards and to the
authors of threads and posts.
-/

namespace WiredServer.Server

namespace BoardDatabase

variable (database : BoardDatabase)

/-- `UPDATE boards SET owner = ? WHERE owner = ?`, which fails if it would make an owner `NULL` -/
def updateOwner (newuser : Option String) (olduser : String) : Option BoardDatabase :=
  match newuser with
  | some newuser => some { database with
      boards := database.boards.mapRows fun _ row =>
        if row.owner = olduser then { row with owner := newuser } else row }
  | none =>
      if ∃ board ∈ database.boards.keys, (database.boards.row board).any (·.owner = olduser) then none
      else some database

/-- `UPDATE threads SET login = ? WHERE login = ?`, and the same for `posts` -/
def updateLogins (newuser olduser : String) : BoardDatabase where
  boards := database.boards
  threads := database.threads.mapRows fun _ row =>
    if row.login = olduser then { row with login := newuser } else row
  posts := database.posts.mapRows fun _ row =>
    if row.login = olduser then { row with login := newuser } else row

/-- `wd_boards_renamed_user`, which only logs an error -/
def renamedUser (olduser : String) (newuser : Option String) : BoardDatabase :=
  let database1 := (database.updateOwner newuser olduser).getD database
  match newuser with
  | some newuser => database1.updateLogins newuser olduser
  | none => database1

/-- `wd_boards_renamed_group` with a new name -/
def renamedGroup (oldgroup newgroup : String) : BoardDatabase where
  boards := database.boards.mapRows fun _ row =>
    if row.group = oldgroup then { row with group := newgroup } else row
  threads := database.threads
  posts := database.posts

/-- Without a new name, nothing is changed. -/
@[simp]
theorem renamedUser_none (olduser : String)
    : database.renamedUser olduser none = database := by
  simp only [renamedUser, updateOwner]
  split <;> rfl

end BoardDatabase

/-- The tables of accounts and of boards. -/
structure Storage where
  accounts : Database
  boards : BoardDatabase

/-- The operations that change an account for good, with the account after the changes of a message,
and for an edit the nick of the editor and the time.
-/
inductive AccountChange where
  | deleteUser (account : Account)
  | deleteGroup (account : Account)
  | editUser (account : Account) (nick : String) (now : ℤ)
  | editGroup (account : Account) (nick : String) (now : ℤ)

namespace AccountChange

/-- `wd_accounts_delete_user`, `wd_accounts_delete_group`, `wd_accounts_edit_user` and
`wd_accounts_edit_group`, which reply an error if the account cannot be written
-/
def apply (storage : Storage) : AccountChange → Option Storage
  | .deleteUser account => some {
      accounts := storage.accounts.deleteUser account
      boards := storage.boards.renamedUser account.name none }
  | .deleteGroup account => some {
      accounts := storage.accounts.deleteGroup account
      -- the same call as for a user
      boards := storage.boards.renamedUser account.name none }
  | .editUser account nick now =>
      (storage.accounts.editUser account nick now).map fun (accounts, _) =>
        -- the accessor of the new name never returns a null pointer
        { accounts, boards := storage.boards.renamedUser account.name (some account.newName) }
  | .editGroup account nick now =>
      (storage.accounts.editGroup account nick now).map fun (accounts, _) =>
        if account.newName ≠ "" ∧ account.name ≠ account.newName then
          { accounts, boards := storage.boards.renamedGroup account.name account.newName }
        else { accounts, boards := storage.boards }

end AccountChange

section Purpose

variable (before after : BoardDatabase)

/-- Exactly the owners of a user's boards and the logins of the user's threads and posts are changed.
-/
structure RenamesUser (olduser newuser : String) : Prop where
  boards : ∀ board, after.boards.row board = (before.boards.row board).map fun row =>
    { row with owner := if row.owner = olduser then newuser else row.owner }
  threads : ∀ thread, after.threads.row thread = (before.threads.row thread).map fun row =>
    { row with login := if row.login = olduser then newuser else row.login }
  posts : ∀ post, after.posts.row post = (before.posts.row post).map fun row =>
    { row with login := if row.login = olduser then newuser else row.login }

/-- Exactly the groups of a group's boards are changed. -/
structure RenamesGroup (oldgroup newgroup : String) : Prop where
  boards : ∀ board, after.boards.row board = (before.boards.row board).map fun row =>
    { row with group := if row.group = oldgroup then newgroup else row.group }
  threads : after.threads = before.threads
  posts : after.posts = before.posts

/-- Exactly the boards of a group change their group, and no board changes its owner. -/
def LeavesGroup (group : String) : Prop :=
  ∀ board, ∀ row ∈ before.boards.row board, ∃ row' ∈ after.boards.row board,
    row'.owner = row.owner ∧ (row'.group ≠ row.group ↔ row.group = group)

/-- No board is owned by a user. -/
def OwnsNoBoard (database : BoardDatabase) (user : String) : Prop :=
  ∀ board, ∀ row ∈ database.boards.row board, row.owner ≠ user

/-- What a change of an account means for boards, threads and posts. -/
def AccountChange.KeepsOwners : AccountChange → Prop
  | .deleteUser account => OwnsNoBoard after account.name
  | .deleteGroup account => LeavesGroup before after account.name
  | .editUser account _ _ =>
      if account.newName = "" then after = before
      else RenamesUser before after account.name account.newName
  | .editGroup account _ _ =>
      if account.newName = "" then after = before
      else RenamesGroup before after account.name account.newName

end Purpose

/-- When a change of an account does what it means: no board is owned by a deleted user or belongs to
a deleted group, and a user who is edited without a new name owns no board and wrote no thread or
post.
-/
def AccountChange.isHarmless (database : BoardDatabase) : AccountChange → Prop
  | .deleteUser account => OwnsNoBoard database account.name
  | .deleteGroup account => ∀ board, ∀ row ∈ database.boards.row board, row.group ≠ account.name
  | .editUser account _ _ => account.newName ≠ "" ∨ account.name = ""
      ∨ OwnsNoBoard database account.name
        ∧ (∀ thread, ∀ row ∈ database.threads.row thread, row.login ≠ account.name)
        ∧ ∀ post, ∀ row ∈ database.posts.row post, row.login ≠ account.name
  | .editGroup _ _ _ => True

section Results

variable (database : BoardDatabase)

/-- A user is renamed by a new name. -/
theorem renamesUser_renamedUser (olduser newuser : String)
    : RenamesUser database (database.renamedUser olduser (some newuser)) olduser newuser := by
  refine ⟨fun board => ?_, fun thread => ?_, fun post => ?_⟩
  · refine congrArg (Option.map · _) (funext fun row => ?_)
    split <;> simp_all
  · refine congrArg (Option.map · _) (funext fun row => ?_)
    split <;> simp_all
  · refine congrArg (Option.map · _) (funext fun row => ?_)
    split <;> simp_all

/-- A group is renamed by a new name. -/
theorem renamesGroup_renamedGroup (oldgroup newgroup : String)
    : RenamesGroup database (database.renamedGroup oldgroup newgroup) oldgroup newgroup := by
  refine ⟨fun board => ?_, rfl, rfl⟩
  refine congrArg (Option.map · _) (funext fun row => ?_)
  split <;> simp_all

/-- A group that keeps its name changes nothing. -/
theorem renamesGroup_self (group : String)
    : RenamesGroup database database group group := by
  refine ⟨fun board => ?_, rfl, rfl⟩
  have same : ∀ row : BoardPrivileges,
      { row with group := if row.group = group then group else row.group } = row := by
    intro row
    have column : (if row.group = group then group else row.group) = row.group := by
      split
      · rename_i here
        exact here.symm
      · rfl
    rw [column]
  simp only [same, Option.map_id']

/-- Renaming a user leaves the database as it is just when it has no board, thread or post of the
user, or the name stays.
-/
theorem renamedUser_eq_self_iff (olduser newuser : String)
    : database.renamedUser olduser (some newuser) = database
      ↔ olduser = newuser ∨ OwnsNoBoard database olduser
        ∧ (∀ thread, ∀ row ∈ database.threads.row thread, row.login ≠ olduser)
        ∧ ∀ post, ∀ row ∈ database.posts.row post, row.login ≠ olduser := by
  have boards := KeyedTable.ite_set_eq_self_iff BoardPrivileges.owner
    (fun owner row => { row with owner }) (fun _ _ => rfl) (fun _ => rfl) olduser newuser
  have threads := KeyedTable.ite_set_eq_self_iff (fun row : ThreadRow => row.login)
    (fun login row => { row with login }) (fun _ _ => rfl) (fun _ => rfl) olduser newuser
  have posts := KeyedTable.ite_set_eq_self_iff (fun row : PostRow => row.login)
    (fun login row => { row with login }) (fun _ _ => rfl) (fun _ => rfl) olduser newuser
  rw [BoardDatabase.ext_iff]
  simp only [BoardDatabase.renamedUser, BoardDatabase.updateOwner, BoardDatabase.updateLogins,
    Option.getD_some, KeyedTable.mapRows_eq_self_iff, boards, threads, posts]
  by_cases stays : olduser = newuser
  · simp [stays]
  · simp [stays, OwnsNoBoard]

/-- A database that is left as it is leaves a group just when no board belongs to the group. -/
theorem leavesGroup_self_iff (group : String)
    : LeavesGroup database database group
      ↔ ∀ board, ∀ row ∈ database.boards.row board, row.group ≠ group := by
  constructor
  · intro leaves board row here
    obtain ⟨row', here', -, changed⟩ := leaves board row here
    obtain rfl : row' = row := Option.some.inj (here'.symm.trans here)
    exact fun same => changed.mpr same rfl
  · intro others board row here
    exact ⟨row, here, rfl, iff_of_false (not_not_intro rfl) (others board row here)⟩

/-- A change of an account does what it means for boards, threads and posts just when it deletes no
user who owns a board and no group that a board belongs to, and when no edit without a new name is
about a user who owns a board or wrote a thread or post.
-/
theorem AccountChange.keepsOwners_iff {change : AccountChange} {storage next : Storage}
    (applied : change.apply storage = some next)
    : change.KeepsOwners storage.boards next.boards ↔ change.isHarmless storage.boards := by
  cases change with
  | deleteUser account =>
      cases applied
      simp only [KeepsOwners, isHarmless, BoardDatabase.renamedUser_none]
  | deleteGroup account =>
      cases applied
      simp only [KeepsOwners, isHarmless, BoardDatabase.renamedUser_none]
      exact leavesGroup_self_iff storage.boards account.name
  | editUser account nick now =>
      obtain ⟨edited, -, rfl⟩ := Option.map_eq_some_iff.mp applied
      by_cases renamed : account.newName = ""
      · simp only [KeepsOwners, isHarmless, if_pos renamed]
        rw [renamed, renamedUser_eq_self_iff]
        simp
      · simp only [KeepsOwners, isHarmless, if_neg renamed]
        exact iff_of_true (renamesUser_renamedUser _ _ _) (.inl renamed)
  | editGroup account nick now =>
      obtain ⟨edited, -, rfl⟩ := Option.map_eq_some_iff.mp applied
      refine iff_of_true ?_ trivial
      simp only [KeepsOwners]
      by_cases renamed : account.newName = ""
      · rw [if_pos renamed, if_neg fun both => both.1 renamed]
      · rw [if_neg renamed]
        by_cases stays : account.name = account.newName
        · rw [if_neg fun both => both.2 stays, ← stays]
          exact renamesGroup_self storage.boards account.name
        · rw [if_pos ⟨renamed, stays⟩]
          exact renamesGroup_renamedGroup _ _ _

section DefaultBoard

/-- The tables of a new server, with the board that it creates. -/
def defaultStorage : Storage where
  accounts := { users := .empty, groups := .empty }
  boards := { BoardDatabase.empty with
    boards := KeyedTable.empty.put "General" { owner := "admin", group := "", mode := 438 } }

/-- The account of the board's owner. -/
def adminAccount : Account :=
  Account.empty.set .name "admin"

/-- The account of the board's owner with a new name. -/
def renamedAdmin : Account :=
  adminAccount.set .newName "root"

/-- Renaming the owner of the board renames the owner. -/
theorem AccountChange.keepsOwners_iff_renamedAdmin
    : ∃ next, apply defaultStorage (.editUser renamedAdmin "admin" 0) = some next
        ∧ KeepsOwners defaultStorage.boards next.boards
          (.editUser renamedAdmin "admin" 0) :=
  ⟨_, rfl, (keepsOwners_iff rfl).mpr (.inl (by decide))⟩

/-- Deleting the owner of the board does not. -/
theorem AccountChange.not_keepsOwners_admin
    : ∃ next, apply defaultStorage (.deleteUser adminAccount) = some next
        ∧ ¬KeepsOwners defaultStorage.boards next.boards (.deleteUser adminAccount) := by
  refine ⟨_, rfl, fun keeps => ?_⟩
  rw [BoardDatabase.renamedUser_none] at keeps
  exact keeps "General" { owner := "admin", group := "", mode := 438 } rfl rfl

end DefaultBoard

end Results

end WiredServer.Server
