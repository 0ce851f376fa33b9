import WiredServer.Lib.Machine
import WiredServer.Lib.RunningTotals
import WiredServer.P7.Options
import WiredServer.Server.Accounts
import WiredServer.Server.Banlist

/-! The servers that a tracker knows, active or not, and the totals of the active ones in its status. -/

namespace WiredServer.Server

/-- A cipher with its key, as it is stored. -/
structure Cipher where
  type : P7.CipherType
  key : List UInt8
  iv : Option (List UInt8)
  deriving DecidableEq, Repr

/-- `wd_server_t`, a server that the tracker knows -/
structure TrackedServer where
  active : Bool := false
  ip : String
  registerTime : Date := 0
  updateTime : Date := 0
  cipher : Option Cipher
  tracker : Bool := false
  category : Option String := none
  url : Option String := none
  displayIp : Option String := none
  port : UInt32 := 0
  name : Option String := none
  description : Option String := none
  users : UInt32 := 0
  filesCount : UInt64 := 0
  filesSize : UInt64 := 0
  deriving DecidableEq, Repr

/-- A row of the table `servers`, by its column `ip`. -/
structure StoredServer where
  port : ℤ
  cipher : Option Cipher
  deriving DecidableEq, Repr

/-- `wired.tracker.send_register`; a number that cannot be read from its field is missing. -/
structure SendRegister where
  tracker : Option Bool
  category : String
  ip : Option String
  port : Option UInt32
  users : Option UInt32
  name : String
  description : String
  filesCount : Option UInt64
  filesSize : Option UInt64
  deriving DecidableEq, Repr

/-- `wired.tracker.send_update` -/
structure SendUpdate where
  users : Option UInt32
  filesCount : Option UInt64
  filesSize : Option UInt64
  deriving DecidableEq, Repr

/-- A session of a server that registers with the tracker. -/
structure TrackerUser where
  ip : String
  isIpv6 : Bool
  cipher : Option Cipher
  account : Account

/-- `WD_SERVER_PORT` -/
def serverPort : UInt32 :=
  4871

/-- `WD_SERVERS_MIN_UPDATE_INTERVAL` -/
def serversMinUpdateInterval : Date :=
  360 * 1000000

/-- The totals `wd_tracker_current_servers`, `_users`, `_files` and `_size` -/
inductive TrackerTotal where
  | servers | users | files | size
  deriving DecidableEq, Repr

/-- There are four totals. -/
instance : Fintype TrackerTotal where
  elems := {.servers, .users, .files, .size}
  complete total := by cases total <;> decide

namespace TrackedServer

variable (server : TrackedServer)

/-- What a server adds to a total. -/
def count : TrackerTotal → UInt64
  | .servers => 1
  | .users => server.users.toUInt64
  | .files => server.filesCount
  | .size => server.filesSize

/-- `wd_server_init_with_sqlite3_results` -/
def ofRow (ip : String) (row : StoredServer) : TrackedServer where
  ip := ip
  port := UInt32.ofInt row.port
  cipher := row.cipher

/-- `wd_server_init_with_message`; the caller gives it its address. -/
def ofMessage (ip : String) (message : SendRegister) : TrackedServer where
  active := true
  ip := ip
  cipher := none
  displayIp := message.ip
  category := some message.category
  name := some message.name
  description := some message.description
  tracker := message.tracker.getD false
  port := message.port.getD 0
  users := message.users.getD 0
  filesCount := message.filesCount.getD 0
  filesSize := message.filesSize.getD 0

/-- The URL under which a server is listed. -/
def urlOf (displayIp : String) (port : UInt32) (isIpv6 : Bool) : String :=
  "wired://" ++ (if isIpv6 then "[" ++ displayIp ++ "]" else displayIp)
    ++ (if port ≠ serverPort then ":" ++ toString port.toNat ++ "/" else "/")

/-- The server that `wd_servers_register_server` adds. -/
def registered (categories : List String) (now : Date) (user : TrackerUser) (message : SendRegister)
    : TrackedServer :=
  let server := ofMessage user.ip message
  let displayIp := server.displayIp.getD user.ip
  { server with
    registerTime := now
    displayIp := some displayIp
    url := some (urlOf displayIp server.port user.isIpv6)
    category := some (
      if message.category ≠ "" && !categories.contains message.category then ""
      else message.category)
    cipher := user.cipher }

/-- A server with the numbers of an update. -/
def updated (now : Date) (message : SendUpdate) : TrackedServer :=
  { server with
    updateTime := now
    users := message.users.getD server.users
    filesCount := message.filesCount.getD server.filesCount
    filesSize := message.filesSize.getD server.filesSize }

/-- The row that is stored for a server. -/
def row : StoredServer where
  port := server.port.toBitVec.toInt
  cipher := server.cipher

/-- When a server was last heard of. -/
def lastTime : Date :=
  if server.updateTime > 0 then server.updateTime else server.registerTime

end TrackedServer

/-- The state of the tracker. `belowZero` is no variable of the source: it says whether a total was
smaller than what was subtracted from it.
-/
structure Tracker where
  servers : KeyedTable String TrackedServer
  current : TrackerTotal → UInt64
  belowZero : Bool
  database : KeyedTable String StoredServer

/-- The replies of the tracker. -/
inductive TrackerReply where
  | okay | trackerNotEnabled | permissionDenied | notRegistered
  deriving DecidableEq, Repr

namespace Tracker

/-- `wd_servers_load_servers` when the process starts -/
def loadServers (database : KeyedTable String StoredServer) : Tracker where
  servers :=
    { row ip := (database.row ip).map (TrackedServer.ofRow ip)
      keys := database.keys
      mem_keys ip := by rw [database.mem_keys, Option.isSome_map] }
  current _ := 0
  belowZero := false
  database := database

variable (state : Tracker) (server : TrackedServer)

/-- `wd_servers_add_server`; a server that has changed is put back the same way. -/
def addServer : Tracker :=
  { state with servers := state.servers.put server.ip server }

/-- `wd_servers_remove_server` -/
def removeServer : Tracker :=
  { state with servers := state.servers.delete server.ip }

/-- `wd_servers_add_stats_for_server` -/
def addStatsForServer : Tracker :=
  { state with current := fun total => state.current total + server.count total }

/-- `wd_servers_remove_stats_for_server` -/
def removeStatsForServer : Tracker :=
  { state with
    current := fun total => state.current total - server.count total
    belowZero := state.belowZero || decide (∃ total, state.current total < server.count total) }

/-- `DELETE` and `INSERT` of the row of a server -/
def storeServer : Tracker :=
  { state with database := (state.database.delete server.ip).put server.ip server.row }

/-- The removal of the server that `wd_servers_register_server` finds under the address. -/
def removeExistingServer (ip : String) : Tracker :=
  match state.servers.row ip with
  | none => state
  | some existing => (state.removeServer existing).removeStatsForServer existing

/-- `wd_servers_register_server` -/
def registerServer (categories : List String) (now : Date) (user : TrackerUser)
    (message : SendRegister)
    : Tracker :=
  let server := TrackedServer.registered categories now user message
  (((state.removeExistingServer server.ip).addServer server).addStatsForServer server).storeServer
    server

/-- `wd_servers_update_server` -/
def updateServer (ip : String) (now : Date) (message : SendUpdate) : Bool × Tracker :=
  match state.servers.row ip with
  | none => (false, state)
  | some server =>
      if server.active then
        let updated := server.updated now message
        (true, ((state.removeStatsForServer server).addServer updated).addStatsForServer updated)
      else (false, state)

/-- A server of `wd_servers_update_servers`. -/
def expireServer (now : Date) (ip : String) : Tracker :=
  match state.servers.row ip with
  | none => state
  | some server =>
      if server.active && now - server.lastTime > serversMinUpdateInterval then
        (state.removeStatsForServer server).addServer { server with active := false }
      else state

/-- `wd_servers_update_servers`, with the servers in the order in which they are enumerated -/
def updateServers (now : Date) (ips : List String) : Tracker :=
  ips.foldl (fun state ip => state.expireServer now ip) state

/-- `wd_message_tracker_send_register` -/
def sendRegister (enableTracker : Bool) (categories : List String) (now : Date) (user : TrackerUser)
    (message : SendRegister)
    : TrackerReply × Tracker :=
  if !enableTracker then (.trackerNotEnabled, state)
  else if !user.account.boolean .trackerRegisterServers then (.permissionDenied, state)
  else (.okay, state.registerServer categories now user message)

/-- `wd_message_tracker_send_update` -/
def sendUpdate (enableTracker : Bool) (now : Date) (user : TrackerUser) (message : SendUpdate)
    : TrackerReply × Tracker :=
  if !enableTracker then (.trackerNotEnabled, state)
  else if !user.account.boolean .trackerRegisterServers then (.permissionDenied, state)
  else
    match state.updateServer user.ip now message with
    | (true, next) => (.okay, next)
    | (false, next) => (.notRegistered, next)

/-- The branch of `wd_server_receive_thread` for an update, whose sender is not answered if it is
not known.
-/
def receiveUpdate (enableTracker : Bool) (now : Date) (ip : String) (message : SendUpdate)
    : Option TrackerReply × Tracker :=
  if (state.servers.row ip).isNone then (none, state)
  else if !enableTracker then (some .trackerNotEnabled, state)
  else
    match state.updateServer ip now message with
    | (true, next) => (none, next)
    | (false, next) => (some .notRegistered, next)

/-- A registration is carried out if the tracker is enabled and the account has the privilege. -/
theorem sendRegister_snd (enableTracker : Bool) (categories : List String) (now : Date)
    (user : TrackerUser) (message : SendRegister)
    : (state.sendRegister enableTracker categories now user message).2
      = if enableTracker = true ∧ user.account.boolean .trackerRegisterServers = true then
          state.registerServer categories now user message
        else state := by
  unfold sendRegister
  cases enableTracker <;> cases user.account.boolean .trackerRegisterServers <;> rfl

/-- An update is carried out if the tracker is enabled and the account has the privilege. -/
theorem sendUpdate_snd (enableTracker : Bool) (now : Date) (user : TrackerUser)
    (message : SendUpdate)
    : (state.sendUpdate enableTracker now user message).2
      = if enableTracker = true ∧ user.account.boolean .trackerRegisterServers = true then
          (state.updateServer user.ip now message).2
        else state := by
  unfold sendUpdate
  cases enableTracker <;> cases user.account.boolean .trackerRegisterServers
  case true.true => rcases state.updateServer user.ip now message with ⟨_ | _, next⟩ <;> rfl
  all_goals rfl

/-- An update without a session is carried out if the tracker is enabled. -/
theorem receiveUpdate_snd (enableTracker : Bool) (now : Date) (ip : String) (message : SendUpdate)
    : (state.receiveUpdate enableTracker now ip message).2
      = if enableTracker = true then (state.updateServer ip now message).2 else state := by
  unfold receiveUpdate
  cases here : state.servers.row ip with
  | none =>
      have unknown : (state.updateServer ip now message).2 = state := by rw [updateServer, here]
      simp [unknown]
  | some server =>
      cases enableTracker
      · rfl
      · rcases state.updateServer ip now message with ⟨_ | _, next⟩ <;> rfl

end Tracker

/-- What happens to a tracker. -/
inductive TrackerAction where
  | restart
  | sendRegister (enableTracker : Bool) (categories : List String) (now : Date) (user : TrackerUser)
      (message : SendRegister)
  | sendUpdate (enableTracker : Bool) (now : Date) (user : TrackerUser) (message : SendUpdate)
  | receiveUpdate (enableTracker : Bool) (now : Date) (ip : String) (message : SendUpdate)
  | updateServers (now : Date) (ips : List String)

/-- The state after an action. The timer enumerates every server once. -/
def TrackerAction.step : TrackerAction → Tracker → Option Tracker
  | .restart, state => some (.loadServers state.database)
  | .sendRegister enableTracker categories now user message, state =>
      some (state.sendRegister enableTracker categories now user message).2
  | .sendUpdate enableTracker now user message, state =>
      some (state.sendUpdate enableTracker now user message).2
  | .receiveUpdate enableTracker now ip message, state =>
      some (state.receiveUpdate enableTracker now ip message).2
  | .updateServers now ips, state =>
      if ips.Nodup ∧ ips.toFinset = state.servers.keys then some (state.updateServers now ips)
      else none

/-- The timer goes through every server once. -/
theorem TrackerAction.step_updateServers {now : Date} {ips : List String} {state next : Tracker}
    : (TrackerAction.updateServers now ips).step state = some next
      ↔ (ips.Nodup ∧ ips.toFinset = state.servers.keys) ∧ state.updateServers now ips = next := by
  rw [step]
  split_ifs with all
  · rw [Option.some_inj, and_iff_right all]
  · exact iff_of_false nofun fun both => all both.1

end WiredServer.Server
