import WiredServer.Server.AccountPersistence
import WiredServer.Server.PathSubscriptions
import WiredServer.Server.SessionThreads

/-! The sessions beside the database of accounts: what logins, subscriptions and the messages that
create, edit and delete accounts do to the accounts that the sessions carry. The handlers run one by
one.
-/

namespace WiredServer.Server

-----------------------------------------------------------------------------------------
-- Sessions
-----------------------------------------------------------------------------------------

/-- What a session may be subscribed to, apart from directories. -/
inductive Topic where
  | accounts
  | boards
  | log
  | events
  deriving DecidableEq, Repr

/-- There are four topics. -/
instance : Fintype Topic where
  elems := {.accounts, .boards, .log, .events}
  complete topic := by cases topic <;> decide

/-- The privilege for which the handlers of a topic ask. -/
def Topic.privilege : Topic → AccountField
  | .accounts => .accountListAccounts
  | .boards => .boardReadBoards
  | .log => .logViewLog
  | .events => .eventsViewEvents

/-- Whether `wd_accounts_reload_account` looks at a topic. -/
def Topic.isReloaded : Topic → Bool
  | .accounts | .boards | .log => true
  | .events => false

/-- What a `wd_user_t` has of its account. -/
structure Member where
  state : UserState
  login : Option String
  account : Option Account
  isSubscribed : Topic → Bool

/-- A session that has just connected. -/
def Member.initial : Member where
  state := .connected
  login := none
  account := none
  isSubscribed _ := false

/-- `wd_user_subscribe_boards`, `wd_user_unsubscribe_boards` and their siblings -/
def Member.subscribe (member : Member) (topic : Topic) (value : Bool) : Member :=
  { member with isSubscribed := Function.update member.isSubscribed topic value }

/-- `wd_message_board_subscribe_boards` and its siblings for the other topics -/
def Member.messageSubscribe (member : Member) (account : Account) (topic : Topic)
    : Except String Member :=
  if !account.boolean topic.privilege then .error "wired.error.permission_denied"
  else if member.isSubscribed topic then .error "wired.error.already_subscribed"
  else .ok (member.subscribe topic true)

/-- `wd_message_board_unsubscribe_boards` and its siblings for the other topics -/
def Member.messageUnsubscribe (member : Member) (account : Account) (topic : Topic)
    : Except String Member :=
  if !account.boolean topic.privilege then .error "wired.error.permission_denied"
  else if !member.isSubscribed topic then .error "wired.error.not_subscribed"
  else .ok (member.subscribe topic false)

/-- What `wd_accounts_reload_account` makes of a session whose account is read again. -/
def Member.reload (member : Member) (newaccount : Account) : Member :=
  { member with
    account := some newaccount
    login := some newaccount.name
    isSubscribed := fun topic =>
      member.isSubscribed topic && (!topic.isReloaded || newaccount.boolean topic.privilege) }

/-- The sessions, the directories to which they are subscribed, and the accounts in the database. -/
structure Members (σ : Type) where
  database : Database
  subscriptions : Subscriptions σ
  member : σ → Member

-----------------------------------------------------------------------------------------
-- The handlers
-----------------------------------------------------------------------------------------

/-- A row with another value in a column. -/
def Row.with (row : Row) (field : AccountField) (column : field.type.Column)
    (stored : AccountField.newName ≠ field)
    : Row where
  columns := Function.update row.columns field (some column)
  newName := by rw [Function.update_of_ne stored, row.newName]

/-- `wd_accounts_update_login_time` -/
def Database.updateLoginTime (database : Database) (name : String) (now : ℤ) : Option Database :=
  (database.users.update name (·.with .loginTime now (by decide))).map fun users =>
    { database with users }

/-- `wd_accounts_change_password`, in which the statement takes the password as a C string -/
def Database.changePassword (database : Database) (name password : String) : Option Database :=
  (database.users.update name (·.with .password (cString password) (by decide))).map fun users =>
    { database with users }

/-- `wd_message_account_create_group`, up to its reply -/
def Database.messageCreateGroup (database : Database) (userAccount : Account) (nick : String)
    (now : ℤ) (memory : AccountField → Bool) (message : AccountMessage) (number : BitVec 32)
    : Except AccountError Database :=
  let account := Account.empty.readFromMessage message
  if !userAccount.boolean .accountCreateGroups then .error .permissionDenied
  else if (database.readGroup message.name).isSome then .error .accountExists
  else if account.name = "" then .error .invalidMessage
  else
    match account.verifyPrivilegesForUser userAccount database memory with
    | .error _ => .error .permissionDenied
    | .ok () =>
        match database.createGroup account nick now number with
        | some next => .ok next
        | none => .error .internalError

/-- `wd_message_account_delete_group` -/
def Database.messageDeleteGroup (database : Database) (userAccount : Account) (name : String)
    : Except String Database :=
  if !userAccount.boolean .accountDeleteGroups then .error "wired.error.permission_denied"
  else
    match database.readGroup name with
    | none => .error "wired.error.account_not_found"
    | some account => .ok (database.deleteGroup account)

/-- What the handlers read beside their messages: whether directories are watched, what the system
answers when one is to be watched, the nick of the session, the time, the users in the order of
`wd_users`, and memory that is read in place of a value.
-/
structure HandlerSurroundings (σ : Type) where
  watching : Bool
  opened : List Char → Option ℕ
  nick : String
  now : ℤ
  order : List σ
  memory : AccountField → Bool
  memories : σ → AccountField → Bool
  number : BitVec 32

namespace Members

variable {σ : Type} [DecidableEq σ]

/-- A change of a session. -/
def setMember (state : Members σ) (user : σ) (member : Member) : Members σ :=
  { state with member := Function.update state.member user member }

/-- The session that was changed. -/
@[simp]
theorem member_setMember (state : Members σ) (user : σ) (member : Member)
    : (state.setMember user member).member user = member :=
  Function.update_self ..

variable (state : Members σ) (around : HandlerSurroundings σ) (user : σ)

/-- `wd_message_send_login`: the login is stored before anything is checked -/
def sendLogin (banned : Bool) (login password : String) : Members σ :=
  let asked := state.setMember user { state.member user with login := some login }
  if banned then asked
  else
    match state.database.readUserAndGroup around.memory login with
    | none => asked
    | some account =>
        if account.string .password = password then
          { asked.setMember user
              { asked.member user with account := some account, state := .loggedIn } with
            database :=
              (state.database.updateLoginTime account.name around.now).getD state.database }
        else asked

/-- `wd_accounts_reload_account` -/
def reloadAccount (name : String) : Members σ :=
  match state.database.readUserAndGroup (around.memories user) name with
  | none => state
  | some newaccount =>
      { state.setMember user ((state.member user).reload newaccount) with
        subscriptions := state.subscriptions.reloadAccount around.watching user
          (newaccount.boolean .fileListFiles) }

/-- One turn of `wd_accounts_reload_user_account` -/
def reloadIfUser (account : Account) (state : Members σ) (user : σ) : Members σ :=
  match (state.member user).account with
  | none => state
  | some useraccount =>
      if useraccount.name = account.name then
        state.reloadAccount around user
          (if account.newName = "" then account.name else account.newName)
      else state

/-- One turn of `wd_accounts_reload_group_account` -/
def reloadIfGroup (account : Account) (state : Members σ) (user : σ) : Members σ :=
  match (state.member user).account with
  | none => state
  | some useraccount =>
      if useraccount.group = account.name then
        state.reloadAccount around user useraccount.name
      else state

/-- `wd_users_users_with_login` -/
def usersWithLogin (name : String) : Finset σ :=
  state.subscriptions.users.filter fun peer => (state.member peer).login = some name

/-- `wd_message_account_delete_user` -/
def messageDeleteUser (userAccount : Account) (name : String) (disconnectUsers : Bool)
    : Except String (Members σ) :=
  if !userAccount.boolean .accountDeleteUsers then .error "wired.error.permission_denied"
  else
    match state.database.readUser name with
    | none => .error "wired.error.account_not_found"
    | some account =>
        if !disconnectUsers ∧ (state.usersWithLogin account.name).Nonempty then
          .error "wired.error.account_in_use"
        else .ok { state with
          database := state.database.deleteUser account
          member := fun peer =>
            if peer ∈ state.usersWithLogin account.name then
              { state.member peer with state := .disconnected }
            else state.member peer }

end Members

/-- The messages of a client. -/
inductive MemberRequest where
  | clientInfo
  | sendLogin (banned : Bool) (login password : String)
  | subscribe (topic : Topic)
  | unsubscribe (topic : Topic)
  | subscribeDirectory (found : Bool) (path realpath : List Char)
  | unsubscribeDirectory (found : Bool) (realpath : List Char)
  | changePassword (password : String)
  | createUser (message : AccountMessage)
  | createGroup (message : AccountMessage)
  | editUser (message : AccountMessage)
  | editGroup (message : AccountMessage)
  | deleteUser (name : String) (disconnectUsers : Bool)
  | deleteGroup (name : String)

/-- The handler of a message, as far as the gate knows it. -/
def MemberRequest.handler : MemberRequest → Handler
  | clientInfo => .clientInfo
  | sendLogin .. => .sendLogin
  | subscribe .accounts => .other "wired.account.subscribe_accounts"
  | subscribe .boards => .other "wired.board.subscribe_boards"
  | subscribe .log => .other "wired.log.subscribe"
  | subscribe .events => .other "wired.event.subscribe"
  | unsubscribe .accounts => .other "wired.account.unsubscribe_accounts"
  | unsubscribe .boards => .other "wired.board.unsubscribe_boards"
  | unsubscribe .log => .other "wired.log.unsubscribe"
  | unsubscribe .events => .other "wired.event.unsubscribe"
  | subscribeDirectory .. => .other "wired.file.subscribe_directory"
  | unsubscribeDirectory .. => .other "wired.file.unsubscribe_directory"
  | changePassword _ => .other "wired.account.change_password"
  | createUser _ => .other "wired.account.create_user"
  | createGroup _ => .other "wired.account.create_group"
  | editUser _ => .other "wired.account.edit_user"
  | editGroup _ => .other "wired.account.edit_group"
  | deleteUser .. => .deleteUser
  | deleteGroup _ => .other "wired.account.delete_group"

/-- What happens to the sessions. -/
inductive MembersAction (σ : Type) where
  | addUser (user : σ)
  | request (user : σ) (request : MemberRequest) (around : HandlerSurroundings σ)
  | fseventsCallback (path : List Char) (isDirectory : Bool) (opened : σ → List Char → Option ℕ)
      (around : HandlerSurroundings σ)
  | writeFails (user : σ)
  | removeUser (user : σ) (around : HandlerSurroundings σ)

namespace Members

variable {σ : Type} [DecidableEq σ]

/-- The handler of a message. A handler that needs the account of a session that has none ends the
server. A request that fails leaves all as it is, apart from the login.
-/
def handle (state : Members σ) (user : σ) (around : HandlerSurroundings σ)
    : MemberRequest → Option (Members σ)
  | .clientInfo => some (state.setMember user { state.member user with state := .gaveClientInfo })
  | .sendLogin banned login password => some (state.sendLogin around user banned login password)
  | .subscribe topic =>
      (state.member user).account.map fun account =>
        state.setMember user
          (((state.member user).messageSubscribe account topic).toOption.getD (state.member user))
  | .unsubscribe topic =>
      (state.member user).account.map fun account =>
        state.setMember user
          (((state.member user).messageUnsubscribe account topic).toOption.getD
            (state.member user))
  | .subscribeDirectory found path realpath =>
      (state.member user).account.map fun account =>
        { state with
          subscriptions := (state.subscriptions.messageFileSubscribeDirectory around.watching user
            path realpath around.opened (account.boolean .fileListFiles) found).toOption.getD
              state.subscriptions }
  | .unsubscribeDirectory found realpath =>
      (state.member user).account.map fun account =>
        { state with
          subscriptions := (state.subscriptions.messageFileUnsubscribeDirectory around.watching user
            realpath around.opened (account.boolean .fileListFiles) found).toOption.getD
              state.subscriptions }
  | .changePassword password =>
      (state.member user).account.map fun account =>
        if account.boolean .accountChangePassword then
          { state with
            database := (state.database.changePassword account.name password).getD state.database }
        else state
  | .createUser message =>
      (state.member user).account.map fun account =>
        { state with
          database := (state.database.messageCreateUser account around.nick around.now
            around.memory message around.number).toOption.getD state.database }
  | .createGroup message =>
      (state.member user).account.map fun account =>
        { state with
          database := (state.database.messageCreateGroup account around.nick around.now
            around.memory message around.number).toOption.getD state.database }
  | .editUser message =>
      (state.member user).account.map fun account =>
        match state.database.messageEditUser account around.nick around.now around.memory
            message with
        | .error _ => state
        | .ok (database, edited) =>
            around.order.foldl (reloadIfUser around edited) { state with database }
  | .editGroup message =>
      (state.member user).account.map fun account =>
        match state.database.messageEditGroup account around.nick around.now around.memory
            message with
        | .error _ => state
        | .ok (database, edited) =>
            around.order.foldl (reloadIfGroup around edited) { state with database }
  | .deleteUser name disconnectUsers =>
      (state.member user).account.map fun account =>
        (state.messageDeleteUser account name disconnectUsers).toOption.getD state
  | .deleteGroup name =>
      (state.member user).account.map fun account =>
        { state with
          database :=
            (state.database.messageDeleteGroup account name).toOption.getD state.database }

/-- Whether the surroundings list the users. -/
def Lists (state : Members σ) (around : HandlerSurroundings σ) : Prop :=
  around.order.Nodup ∧ around.order.toFinset = state.subscriptions.users

/-- Whether the surroundings list the users can be decided. -/
instance (state : Members σ) (around : HandlerSurroundings σ) : Decidable (state.Lists around) :=
  inferInstanceAs (Decidable (_ ∧ _))

/-- The next state. The gate of `wd_messages_handle_message` drops messages that are out of sequence. -/
def step (action : MembersAction σ) (state : Members σ) : Option (Members σ) :=
  match action with
  | .addUser user =>
      if user ∈ state.subscriptions.users then none
      else some { state.setMember user .initial with
        subscriptions := state.subscriptions.addUser user }
  | .request user request around =>
      if user ∈ state.subscriptions.users ∧ state.Lists around then
        if request.handler.isInSequence (state.member user).state then
          state.handle user around request
        else some state
      else none
  | .fseventsCallback path isDirectory opened around =>
      if state.Lists around then
        some { state with
          subscriptions := state.subscriptions.filesFseventsCallback around.watching path
            around.order isDirectory (fun user => (state.member user).state = .loggedIn) opened }
      else none
  | .writeFails user =>
      if user ∈ state.subscriptions.users then
        some (state.setMember user { state.member user with state := .disconnected })
      else none
  | .removeUser user around =>
      if user ∈ state.subscriptions.users then
        some { state with subscriptions := state.subscriptions.removeUser around.watching user }
      else none

/-- The server before its first session, with the accounts of its database. -/
def initial (database : Database) : Members σ where
  database := database
  subscriptions := .initial
  member _ := .initial

end Members

-----------------------------------------------------------------------------------------
-- What a reload gives the sessions
-----------------------------------------------------------------------------------------

/-- The directories of a session whose account is read again. -/
def SubscribedUser.reload (own : SubscribedUser) (listFiles : Bool) : SubscribedUser :=
  if !listFiles && own.subscribedPaths ≠ 0 then .initial else own

/-- A reload changes the directories of one session. -/
theorem Subscriptions.user_reloadAccount {σ : Type} [DecidableEq σ] (watching : Bool)
    (subscriptions : Subscriptions σ) (user : σ) (listFiles : Bool)
    : (subscriptions.reloadAccount watching user listFiles).user
      = Function.update subscriptions.user user ((subscriptions.user user).reload listFiles) := by
  rw [reloadAccount, SubscribedUser.reload]
  split
  · rfl
  · rw [Function.update_eq_self]

namespace Members

variable {σ : Type} [DecidableEq σ]

section Reloading

variable (around : HandlerSurroundings σ) (state : Members σ)

/-- The account that `wd_accounts_reload_user_account` reads for a session, if it reloads it. -/
def userRead (database : Database) (edited : Account) (user : σ) (member : Member)
    : Option Account :=
  member.account.bind fun useraccount =>
    if useraccount.name = edited.name then
      database.readUserAndGroup (around.memories user)
        (if edited.newName = "" then edited.name else edited.newName)
    else none

/-- The account that `wd_accounts_reload_group_account` reads for a session, if it reloads it. -/
def groupRead (database : Database) (edited : Account) (user : σ) (member : Member)
    : Option Account :=
  member.account.bind fun useraccount =>
    if useraccount.group = edited.name then
      database.readUserAndGroup (around.memories user) useraccount.name
    else none

/-- A session is given the account that was read for it. -/
def give (read : σ → Member → Option Account) (state : Members σ) (user : σ) : Members σ :=
  match read user (state.member user) with
  | none => state
  | some newaccount =>
      { state.setMember user ((state.member user).reload newaccount) with
        subscriptions := state.subscriptions.reloadAccount around.watching user
          (newaccount.boolean .fileListFiles) }

variable {around state} {read : σ → Member → Option Account}

/-- A turn of `wd_accounts_reload_user_account`. -/
theorem reloadIfUser_eq (edited : Account) (user : σ)
    : reloadIfUser around edited state user
      = state.give around (userRead around state.database edited) user := by
  cases account : (state.member user).account with
  | none => simp [reloadIfUser, give, userRead, account]
  | some useraccount =>
      by_cases same : useraccount.name = edited.name
      · simp only [reloadIfUser, give, userRead, account, Option.bind_some, same, if_true]
        rfl
      · simp [reloadIfUser, give, userRead, account, same]

/-- A turn of `wd_accounts_reload_group_account`. -/
theorem reloadIfGroup_eq (edited : Account) (user : σ)
    : reloadIfGroup around edited state user
      = state.give around (groupRead around state.database edited) user := by
  cases account : (state.member user).account with
  | none => simp [reloadIfGroup, give, groupRead, account]
  | some useraccount =>
      by_cases same : useraccount.group = edited.name
      · simp only [reloadIfGroup, give, groupRead, account, Option.bind_some, same, if_true]
        rfl
      · simp [reloadIfGroup, give, groupRead, account, same]

/-- A reload leaves the database. -/
@[simp]
theorem database_give (user : σ)
    : (state.give around read user).database = state.database := by
  rw [give]
  split <;> rfl

/-- A loop of turns reads the database as it was before. -/
theorem foldl_turns {turn : Members σ → σ → Members σ}
    {readFrom : Database → σ → Member → Option Account}
    (turn_eq : ∀ (state : Members σ) user,
      turn state user = state.give around (readFrom state.database) user)
    (order : List σ)
    : order.foldl turn state = order.foldl (give around (readFrom state.database)) state := by
  induction order generalizing state with
  | nil => rfl
  | cons user order ih =>
      rw [List.foldl_cons, List.foldl_cons, turn_eq, ih, database_give]

/-- What a session has after it was given the account that was read for it. -/
def afterReload (user : σ) (read : Option Account) (state : Members σ) : Member × SubscribedUser :=
  match read with
  | none => (state.member user, state.subscriptions.user user)
  | some newaccount =>
      ((state.member user).reload newaccount,
        (state.subscriptions.user user).reload (newaccount.boolean .fileListFiles))

/-- A reload changes only the session that it is about. -/
theorem session_give (user other : σ)
    : ((state.give around read user).member other,
        (state.give around read user).subscriptions.user other)
      = if other = user then state.afterReload user (read user (state.member user))
        else (state.member other, state.subscriptions.user other) := by
  unfold give afterReload
  by_cases same : other = user
  · subst same
    rw [if_pos rfl]
    split
    · rfl
    · simp [setMember, Subscriptions.user_reloadAccount]
  · rw [if_neg same]
    split
    · rfl
    · simp [setMember, Subscriptions.user_reloadAccount, same]

/-- A reload leaves the sessions that there are. -/
@[simp]
theorem users_give (user : σ)
    : (state.give around read user).subscriptions.users = state.subscriptions.users := by
  rw [give]
  split
  · rfl
  · simp only [Subscriptions.reloadAccount]
    split <;> rfl

/-- A loop that reloads each session at most once leaves the database and the sessions that there are,
and gives each of its sessions the account that was read for it.
-/
theorem foldl_give {order : List σ} (distinct : order.Nodup)
    : (order.foldl (give around read) state).database = state.database
      ∧ (order.foldl (give around read) state).subscriptions.users = state.subscriptions.users
      ∧ ∀ user, ((order.foldl (give around read) state).member user,
          (order.foldl (give around read) state).subscriptions.user user)
        = if user ∈ order then state.afterReload user (read user (state.member user))
          else (state.member user, state.subscriptions.user user) := by
  induction order generalizing state with
  | nil => exact ⟨rfl, rfl, fun user => rfl⟩
  | cons first order ih =>
      obtain ⟨absent, distinct⟩ := List.nodup_cons.mp distinct
      obtain ⟨database, users, sessions⟩ := @ih (state.give around read first) distinct
      refine ⟨database.trans (database_give first), users.trans (users_give first), fun user => ?_⟩
      have session : ((state.give around read first).member user,
            (state.give around read first).subscriptions.user user)
          = if user = first then state.afterReload first (read first (state.member first))
            else (state.member user, state.subscriptions.user user) := session_give first user
      rw [List.foldl_cons, sessions user]
      by_cases same : user = first
      · subst same
        rw [if_neg absent, if_pos List.mem_cons_self, session, if_pos rfl]
      · rw [if_neg same] at session
        obtain ⟨member, directories⟩ := Prod.mk.inj session
        simp only [List.mem_cons, same, false_or, afterReload, member, directories]

end Reloading

end Members

end WiredServer.Server
