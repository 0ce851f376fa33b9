import WiredServer.Lib.Machine
import WiredServer.Server.Accounts

/-! The threads of the sessions: each reads the messages of its client one by one and runs their
handlers, and meanwhile the handlers of other sessions and failed writes disconnect it. An action is
what one thread does between two accesses to what the threads share.
-/

namespace WiredServer.Server

/-- `wd_user_state_t` -/
inductive UserState where
  | connected
  | gaveClientInfo
  | saidHello
  | gaveUser
  | loggedIn
  | disconnected
  deriving DecidableEq, Repr

/-- The number of a state, by which states are compared. -/
def UserState.value : UserState → ℕ
  | .connected => 0
  | .gaveClientInfo => 1
  | .saidHello => 2
  | .gaveUser => 3
  | .loggedIn => 4
  | .disconnected => 5

/-- The handlers that store the state of a session or that the gate knows, and the others by the
names of their messages.
-/
inductive Handler where
  | clientInfo
  | sendPing
  | sendLogin
  | setNick
  | setStatus
  | setIcon
  | disconnectUser
  | banUser
  | deleteUser
  | downloadFile
  | uploadFile
  | other (name : String)
  deriving DecidableEq, Repr

/-- The messages of the other handlers. -/
def otherMessages : List String :=
  ["wired.ping", "wired.user.set_idle", "wired.user.get_info", "wired.user.get_users",
    "wired.chat.join_chat", "wired.chat.leave_chat", "wired.chat.set_topic", "wired.chat.send_me",
    "wired.chat.send_say", "wired.chat.create_chat", "wired.chat.invite_user",
    "wired.chat.decline_invitation", "wired.chat.kick_user", "wired.message.send_message",
    "wired.message.send_offline_message", "wired.message.set_offline_public_key",
    "wired.message.send_broadcast", "wired.board.get_boards", "wired.board.get_threads",
    "wired.board.get_thread", "wired.board.add_board", "wired.board.rename_board",
    "wired.board.move_board", "wired.board.delete_board", "wired.board.get_board_info",
    "wired.board.set_board_info", "wired.board.add_thread", "wired.board.edit_thread",
    "wired.board.move_thread", "wired.board.delete_thread", "wired.board.add_post",
    "wired.board.edit_post", "wired.board.delete_post", "wired.board.subscribe_boards",
    "wired.board.unsubscribe_boards", "wired.file.list_directory", "wired.file.get_info",
    "wired.file.move", "wired.file.link", "wired.file.set_type", "wired.file.set_comment",
    "wired.file.set_executable", "wired.file.set_permissions", "wired.file.set_label",
    "wired.file.delete", "wired.file.create_directory", "wired.file.search",
    "wired.file.preview_file", "wired.file.subscribe_directory",
    "wired.file.unsubscribe_directory", "wired.account.change_password",
    "wired.account.list_users", "wired.account.list_groups", "wired.account.read_user",
    "wired.account.read_group", "wired.account.create_user", "wired.account.create_group",
    "wired.account.edit_user", "wired.account.edit_group", "wired.account.delete_group",
    "wired.account.subscribe_accounts", "wired.account.unsubscribe_accounts",
    "wired.transfer.upload_directory", "wired.log.get_log", "wired.log.subscribe",
    "wired.log.unsubscribe", "wired.event.get_first_time", "wired.event.get_events",
    "wired.event.delete_events", "wired.event.subscribe", "wired.event.unsubscribe",
    "wired.settings.get_settings", "wired.settings.set_settings", "wired.banlist.get_bans",
    "wired.banlist.add_ban", "wired.banlist.delete_ban", "wired.tracker.get_categories",
    "wired.tracker.get_servers", "wired.tracker.send_register", "wired.tracker.send_update"]

/-- `wd_message_handlers` -/
def handlerForName : String → Option Handler
  | "wired.client_info" => some .clientInfo
  | "wired.send_ping" => some .sendPing
  | "wired.send_login" => some .sendLogin
  | "wired.user.set_nick" => some .setNick
  | "wired.user.set_status" => some .setStatus
  | "wired.user.set_icon" => some .setIcon
  | "wired.user.disconnect_user" => some .disconnectUser
  | "wired.user.ban_user" => some .banUser
  | "wired.account.delete_user" => some .deleteUser
  | "wired.transfer.download_file" => some .downloadFile
  | "wired.transfer.upload_file" => some .uploadFile
  | name => if name ∈ otherMessages then some (.other name) else none

/-- The handlers that a session may run before it has logged in. -/
def Handler.isBeforeLogin : Handler → Bool
  | .clientInfo | .sendPing | .sendLogin | .setNick | .setStatus | .setIcon => true
  | _ => false

/-- The gate of `wd_messages_handle_message`. -/
def Handler.isInSequence (handler : Handler) : UserState → Bool
  | .connected => handler = .clientInfo
  | .gaveClientInfo =>
      handler = .sendPing || handler = .sendLogin || handler = .setNick || handler = .setStatus
        || handler = .setIcon
  | .saidHello | .gaveUser | .loggedIn | .disconnected => true

/-- Where a handler is. The sessions that it has still to disconnect are in `peers`. -/
inductive HandlerPoint (υ : Type) where
  | start
  | checking
  | accepted (account : Account)
  | storing
  | counting
  | found (peer : υ)
  | disconnecting (peers : List υ)
  | transferring
  | failing
  | finishing

/-- Where the thread of a session is: in the handshake, in `wd_messages_loop_for_user`, in
`wd_messages_handle_message` or in a handler.
-/
inductive Point (υ : Type) where
  | absent
  | accepting
  | waiting
  | reading
  | handling (handler : Handler)
  | running (handler : Handler) (point : HandlerPoint υ)
  | leaving
  | uncounting
  | closing
  | removing
  | gone

/-- `wd_user_t`, and where its thread is. Nothing in the code stores `hasLoggedIn`, which is whether
a login of the session has been counted.
-/
structure Session (υ : Type) where
  state : UserState
  login : Option String
  account : Option Account
  transferring : Bool
  hasLoggedIn : Bool
  point : Point υ

/-- What the threads share: `wd_users`, the sessions, and `wd_current_users`, which is an integer
here, so that one below 0 shows.
-/
structure State (υ : Type) where
  users : List υ
  session : υ → Session υ
  currentUsers : ℤ

/-- `wi_socket_state_t` -/
inductive SocketState where
  | ready
  | timeout
  | error
  deriving DecidableEq, Repr

/-- What a thread reads from its client. -/
inductive Received where
  | nothing
  | invalid
  | message (name : String)
  deriving DecidableEq, Repr

/-- What a handler learns from its message, from the database, from the list of bans and from the
transfer that it runs.
-/
inductive HandlerInput (υ : Type) where
  | next
  | login (name : String)
  | account (banned : Bool) (account : Option Account) (password : String)
  | peer (peer : υ)
  | ban (added : Bool)
  | delete (name : String) (disconnects found deleted : Bool)
  | transfer (succeeds : Bool)

/-- The actions of a session's thread. `expired` and `late` are whether 120 seconds have passed,
inside the wait and after it.
-/
inductive ThreadAction (υ : Type) where
  | accept
  | accepted (succeeds : Bool)
  | wait (socket : SocketState) (expired late : Bool)
  | read (received : Received)
  | enter
  | handle (input : HandlerInput υ)
  | leave

/-- The actions of all threads. Any thread may fail to write to a session at any time, and an edit of
an account may give a session its account again.
-/
inductive Action (υ : Type) where
  | thread (user : υ) (action : ThreadAction υ)
  | writeFails (user : υ)
  | reload (user : υ) (account : Account)

namespace State

variable {υ : Type} [DecidableEq υ]

/-- The state before any connection. -/
def initial : State υ where
  users := []
  session _ := {
    state := .connected
    login := none
    account := none
    transferring := false
    hasLoggedIn := false
    point := .absent }
  currentUsers := 0

/-- A change of a session. -/
def setSession (state : State υ) (user : υ) (session : Session υ) : State υ :=
  { state with session := Function.update state.session user session }

/-- `wd_user_set_state` -/
def setUserState (state : State υ) (user : υ) (value : UserState) : State υ :=
  state.setSession user { state.session user with state := value }

/-- The thread of a session goes on to a point. -/
def goTo (state : State υ) (user : υ) (point : Point υ) : State υ :=
  state.setSession user { state.session user with point := point }

/-- The next step of a handler. A handler that needs the account of a session that has none ends the
server.
-/
def stepHandler (state : State υ) (user : υ) (handler : Handler) (point : HandlerPoint υ)
    (input : HandlerInput υ)
    : Option (State υ) :=
  let session := state.session user
  let done := some (state.goTo user .waiting)
  let goOn := fun point => some (state.goTo user (.running handler point))
  match handler, point, input with
  | .clientInfo, .start, .next => goOn .storing
  | .clientInfo, .storing, .next =>
      some ((state.setUserState user .gaveClientInfo).goTo user .waiting)
  | .sendLogin, .start, .login name =>
      some ((state.setSession user { session with login := some name }).goTo user
        (.running handler .checking))
  | .sendLogin, .checking, .account banned account password =>
      if banned then done
      else
        match account with
        | none => done
        | some account =>
            if account.string .password = password then goOn (.accepted account) else done
  | .sendLogin, .accepted account, .next =>
      some ((state.setSession user { session with account := some account }).goTo user
        (.running handler .storing))
  | .sendLogin, .storing, .next =>
      some ((state.setUserState user .loggedIn).goTo user (.running handler .counting))
  | .sendLogin, .counting, .next =>
      some { (state.setSession user { session with hasLoggedIn := true }).goTo user .waiting with
        currentUsers := state.currentUsers + 1 }
  | .disconnectUser, .start, .peer peer =>
      session.account.bind fun account =>
        if account.boolean .userDisconnectUsers ∧ peer ∈ state.users then goOn (.found peer)
        else done
  | .disconnectUser, .found peer, .next =>
      (state.session peer).account.bind fun account =>
        if account.boolean .userCannotBeDisconnected then done else goOn (.disconnecting [peer])
  | .banUser, .start, .peer peer =>
      session.account.bind fun account =>
        if account.boolean .userBanUsers ∧ peer ∈ state.users then goOn (.found peer)
        else done
  | .banUser, .found peer, .ban added =>
      (state.session peer).account.bind fun account =>
        if account.boolean .userCannotBeDisconnected ∨ !added then done
        else goOn (.disconnecting [peer])
  | .deleteUser, .start, .delete name disconnects found deleted =>
      session.account.bind fun account =>
        let peers := state.users.filter fun peer => (state.session peer).login = some name
        if account.boolean .accountDeleteUsers ∧ found ∧ (disconnects ∨ peers = []) ∧ deleted then
          goOn (.disconnecting peers)
        else done
  | .disconnectUser, .disconnecting (peer :: peers), .next
  | .banUser, .disconnecting (peer :: peers), .next
  | .deleteUser, .disconnecting (peer :: peers), .next =>
      some ((state.setUserState peer .disconnected).goTo user
        (.running handler (.disconnecting peers)))
  | .disconnectUser, .disconnecting [], .next
  | .banUser, .disconnecting [], .next
  | .deleteUser, .disconnecting [], .next => done
  | .downloadFile, .start, .transfer starts
  | .uploadFile, .start, .transfer starts =>
      session.account.bind fun _ =>
        if starts then
          some ((state.setSession user { session with transferring := true }).goTo user
            (.running handler .transferring))
        else done
  | .downloadFile, .transferring, .transfer succeeds
  | .uploadFile, .transferring, .transfer succeeds =>
      goOn (if succeeds then .finishing else .failing)
  | .downloadFile, .failing, .next
  | .uploadFile, .failing, .next =>
      some ((state.setUserState user .disconnected).goTo user (.running handler .finishing))
  | .downloadFile, .finishing, .next
  | .uploadFile, .finishing, .next =>
      some ((state.setSession user { session with transferring := false }).goTo user .waiting)
  | .sendPing, .start, .next
  | .setNick, .start, .next
  | .setStatus, .start, .next
  | .setIcon, .start, .next
  | .other _, .start, .next => done
  | _, _, _ => none

/-- The point after `wi_socket_wait` and the test of the state in `wd_messages_loop_for_user`. -/
def afterWait (value : UserState) (socket : SocketState) (expired late : Bool) : Point υ :=
  if socket = .timeout ∧ !expired ∧ value.value ≤ UserState.loggedIn.value then .waiting
  else if value = .disconnected then .leaving
  else if socket = .error ∨ late then .leaving
  else .reading

/-- The point after a message was read. -/
def afterRead : Received → Point υ
  | .nothing => .leaving
  | .invalid => .waiting
  | .message name => (handlerForName name).elim .waiting .handling

/-- The next step of a session's thread. -/
def stepThread (state : State υ) (user : υ) (action : ThreadAction υ) : Option (State υ) :=
  let session := state.session user
  match session.point, action with
  | .absent, .accept => some (state.goTo user .accepting)
  | .accepting, .accepted succeeds =>
      if succeeds then some ({ state with users := state.users ++ [user] }.goTo user .waiting)
      else some (state.goTo user .gone)
  | .waiting, .wait socket expired late =>
      some (state.goTo user (afterWait session.state socket expired late))
  | .reading, .read received => some (state.goTo user (afterRead received))
  | .handling handler, .enter =>
      some (state.goTo user
        (if handler.isInSequence session.state then .running handler .start else .waiting))
  | .running handler point, .handle input => state.stepHandler user handler point input
  | .leaving, .leave =>
      some (state.goTo user
        (if UserState.loggedIn.value ≤ session.state.value then .uncounting else .closing))
  | .uncounting, .leave =>
      some { state.goTo user .closing with currentUsers := state.currentUsers - 1 }
  | .closing, .leave => some ((state.setUserState user .disconnected).goTo user .removing)
  | .removing, .leave => some ({ state with users := state.users.erase user }.goTo user .gone)
  | _, _ => none

/-- The next step of any thread. -/
def step (action : Action υ) (state : State υ) : Option (State υ) :=
  match action with
  | .thread user action => state.stepThread user action
  | .writeFails user =>
      -- the session is not written to during its handshake and while it has a transfer
      if user ∈ state.users ∧ !(state.session user).transferring then
        some (state.setUserState user .disconnected)
      else none
  | .reload user account =>
      if user ∈ state.users ∧ (state.session user).account.isSome then
        some (state.setSession user { state.session user with
          account := some account
          login := some account.name })
      else none

end State

end WiredServer.Server
