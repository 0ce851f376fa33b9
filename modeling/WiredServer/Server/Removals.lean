import WiredServer.Server.Banlist
import WiredServer.Server.Chats
import WiredServer.Server.SessionThreads

/-! The requests that disconnect or ban a user. Both handlers announce the removal before they carry
it out, and in the chats of the user who asks. What they announce is right exactly when this user is
in the chats of the peer, and in no chat when the ban cannot be stored.
-/

namespace WiredServer.Server

/-- What the handlers that remove users read of a `wd_user_t`, whose account is missing until it has
logged in.
-/
structure OnlineUser where
  account : Option Account
  ip : String
  state : UserState

/-- `wd_users`, `wd_chats` and the table `banlist` -/
structure Online (υ : Type) where
  userWithId : BitVec 32 → Option υ
  users : υ → OnlineUser
  chats : Chats υ
  bans : List Ban

/-- The messages `wired.chat.user_disconnect` and `wired.chat.user_ban`. -/
structure RemovalNotice where
  name : String
  chat : BitVec 32
  disconnectedId : BitVec 32
  disconnectMessage : String
  deriving DecidableEq, Repr

/-- A message that was broadcast to a chat, and the users to whom it was sent. -/
structure ChatBroadcast (υ : Type) where
  chat : ℕ
  notice : RemovalNotice
  recipients : List υ
  deriving DecidableEq, Repr

/-- The errors in the replies, with the string of an internal one. -/
inductive RemovalError where
  | named (name : String)
  | internal (string : String)
  deriving DecidableEq, Repr

/-- What a handler has done when it returns. The reply is `wired.okay` if it is no error. -/
structure RemovalOutcome (υ : Type) where
  broadcasts : List (ChatBroadcast υ)
  reply : Option RemovalError
  after : Online υ

/-- The statements of `wd_banlist_add_ban`. -/
inductive BanStatement where
  | select
  | insert
  deriving DecidableEq, Repr

section Bans

-- `kept` is the date that a SELECT will give back for one that was stored, in whole seconds and at
-- the offset from UTC of that day; `failure` is the error of a statement that fails.
variable (kept : Date → Option Date) (failure : BanStatement → Option String) (now : Date)
variable (ip : String) (expiration : Option Date) (bans : List Ban)

/-- `wd_banlist_add_ban` -/
def addBan : Except RemovalError (List Ban) :=
  if expiration.any (· - now < 1000000) then .error (.internal "Ban has negative expiration date")
  else
    match failure .select with
    | some string => .error (.internal string)
    | none =>
        if bans.any (·.ip = ip) then .error (.named "wired.error.ban_exists")
        else
          match failure .insert with
          | some string => .error (.internal string)
          | none => .ok (bans ++ [⟨ip, (expiration.map fun date => .on (kept date)).getD .never⟩])

/-- A ban lasts another second at least, is the first one of its address, and the database works. -/
structure CanBan : Prop where
  lasts : ∀ date ∈ expiration, now + 1000000 ≤ date
  works : ∀ statement, failure statement = none
  first : ∀ ban ∈ bans, ban.ip ≠ ip

variable {kept failure now ip expiration bans}

/-- The bans that can be stored are. -/
theorem addBan_isOk_iff
    : (addBan kept failure now ip expiration bans).isOk
      ↔ CanBan failure now ip expiration bans := by
  have lasting : ¬expiration.any (· - now < 1000000)
      ↔ ∀ date ∈ expiration, now + 1000000 ≤ date := by
    cases expiration with
    | none => simp
    | some date =>
        simp only [Option.any_some, decide_eq_true_eq, Option.mem_some_iff, forall_eq', not_lt]
        exact le_sub_iff_add_le'
  have free : ¬bans.any (·.ip = ip) ↔ ∀ ban ∈ bans, ban.ip ≠ ip := by
    simp only [List.any_eq_true, decide_eq_true_eq, not_exists, not_and, ne_eq]
  constructor
  · intro ok
    unfold addBan at ok
    split at ok
    · cases ok
    rename_i short
    split at ok
    · cases ok
    rename_i select
    split at ok
    · cases ok
    rename_i listed
    split at ok
    · cases ok
    rename_i insert
    refine ⟨lasting.mp short, ?_, free.mp listed⟩
    intro statement
    cases statement with
    | select => exact select
    | insert => exact insert
  · intro can
    rw [addBan, if_neg (lasting.mpr can.lasts), can.works, can.works]
    dsimp only
    rw [if_neg (free.mpr can.first)]
    rfl

end Bans

namespace Chats

variable {υ : Type} [DecidableEq υ]

/-- `wd_chats_chats_with_user` -/
def chatsWithUser (chats : Chats υ) (user : υ) : List ℕ :=
  chats.numbers.filter fun number => user ∈ (chats.chat number).users

/-- The chats are found that the user is in. -/
@[simp]
theorem mem_chatsWithUser {chats : Chats υ} {user : υ} {number : ℕ}
    : number ∈ chats.chatsWithUser user
      ↔ number ∈ chats.numbers ∧ user ∈ (chats.chat number).users := by
  rw [chatsWithUser, List.mem_filter, decide_eq_true_iff]

/-- No chat is found twice. -/
theorem chatsWithUser_nodup (chats : Chats υ) (user : υ)
    : (chats.chatsWithUser user).Nodup :=
  (List.Nodup.of_map _ chats.distinct).filter _

end Chats

namespace Online

variable {υ : Type} [DecidableEq υ] (online : Online υ)

section Handlers

variable (kept : Date → Option Date) (failure : BanStatement → Option String) (now : Date)
variable (user : υ) (uid : BitVec 32) (disconnectMessage : String)

/-- `wd_chat_broadcast_message` -/
def chatBroadcastMessage (number : ℕ) (notice : RemovalNotice) : ChatBroadcast υ where
  chat := number
  notice := notice
  recipients := (online.chats.chat number).users.filter fun member =>
    (online.users member).state = .loggedIn

/-- The notice for a chat, with the name of its message. -/
def noticeFor (name : String) (number : ℕ) : RemovalNotice where
  name := name
  chat := chatId number
  disconnectedId := uid
  disconnectMessage := disconnectMessage

/-- The loop of both handlers over the chats of a user. -/
def announce (name : String) : List (ChatBroadcast υ) :=
  (online.chats.chatsWithUser user).map fun number =>
    online.chatBroadcastMessage number (noticeFor uid disconnectMessage name number)

/-- `wd_user_set_state` -/
def setState (peer : υ) (state : UserState) : Online υ :=
  { online with users := Function.update online.users peer { online.users peer with state } }

/-- The checks of both handlers, which find the peer or the error of the reply. Reading the account
of a user who has none ends the server.
-/
def peerToRemove (privilege : AccountField) : Option (Except String υ) := do
  let userAccount ← (online.users user).account
  if !userAccount.boolean privilege then return .error "wired.error.permission_denied"
  let some peer := online.userWithId uid | return .error "wired.error.user_not_found"
  let peerAccount ← (online.users peer).account
  if peerAccount.boolean .userCannotBeDisconnected then
    return .error "wired.error.user_cannot_be_disconnected"
  return .ok peer

/-- `wd_message_user_disconnect_user` -/
def messageUserDisconnectUser : Option (RemovalOutcome υ) :=
  (online.peerToRemove user uid .userDisconnectUsers).map fun
    | .error error => ⟨[], some (.named error), online⟩
    | .ok peer =>
        ⟨online.announce user uid disconnectMessage "wired.chat.user_disconnect", none,
          online.setState peer .disconnected⟩

/-- `wd_message_user_ban_user` -/
def messageUserBanUser (expiration : Option Date) : Option (RemovalOutcome υ) :=
  (online.peerToRemove user uid .userBanUsers).map fun
    | .error error => ⟨[], some (.named error), online⟩
    | .ok peer =>
        let broadcasts := online.announce user uid disconnectMessage "wired.chat.user_ban"
        match addBan kept failure now (online.users peer).ip expiration online.bans with
        | .error error => ⟨broadcasts, some error, online⟩
        | .ok bans => ⟨broadcasts, none, { online.setState peer .disconnected with bans }⟩

end Handlers

/-- A user may remove the peer with an identifier. -/
structure MayRemove (user : υ) (uid : BitVec 32) (privilege : AccountField) (peer : υ) : Prop where
  privileged : ∃ account, (online.users user).account = some account
    ∧ account.boolean privilege = true
  found : online.userWithId uid = some peer
  unprotected : ∃ account, (online.users peer).account = some account
    ∧ account.boolean .userCannotBeDisconnected = false

variable {online} {user peer : υ} {uid : BitVec 32} {privilege : AccountField}

omit [DecidableEq υ] in
/-- The checks let through the peer that the user may remove. -/
theorem peerToRemove_eq_ok_iff
    : online.peerToRemove user uid privilege = some (.ok peer)
      ↔ online.MayRemove user uid privilege peer := by
  constructor
  · intro passed
    unfold peerToRemove at passed
    obtain ⟨userAccount, account, passed⟩ := Option.bind_eq_some_iff.mp passed
    split at passed
    · cases passed
    rename_i privileged
    split at passed
    · rename_i found
      obtain ⟨peerAccount, peerRead, passed⟩ := Option.bind_eq_some_iff.mp passed
      split at passed
      · cases passed
      rename_i unprotected
      cases passed
      exact ⟨⟨userAccount, account, by simpa using privileged⟩, found,
        ⟨peerAccount, peerRead, by simpa using unprotected⟩⟩
    · cases passed
  · rintro ⟨⟨userAccount, account, privileged⟩, found, ⟨peerAccount, peerRead, unprotected⟩⟩
    simp [peerToRemove, account, privileged, found, peerRead, unprotected]

end Online

/-- The requests that remove a user. -/
inductive Removal where
  | disconnect
  | ban (expiration : Option Date)

namespace Removal

/-- The privilege that a user needs for a request. -/
def privilege : Removal → AccountField
  | disconnect => .userDisconnectUsers
  | ban _ => .userBanUsers

/-- The message that announces what a request does. -/
def noticeName : Removal → String
  | disconnect => "wired.chat.user_disconnect"
  | ban _ => "wired.chat.user_ban"

section Requests

variable {υ : Type} [DecidableEq υ]
variable (kept : Date → Option Date) (failure : BanStatement → Option String) (now : Date)
variable (online : Online υ) (user : υ) (uid : BitVec 32) (disconnectMessage : String)

/-- The handler of a request. There is no outcome if the server ends in it. -/
def handle : Removal → Option (RemovalOutcome υ)
  | disconnect => online.messageUserDisconnectUser user uid disconnectMessage
  | ban expiration =>
      online.messageUserBanUser kept failure now user uid disconnectMessage expiration

/-- Nothing but the ban keeps the handler from removing a peer who passed the checks. -/
def CanFinish (peer : υ) : Removal → Prop
  | disconnect => True
  | ban expiration => CanBan failure now (online.users peer).ip expiration online.bans

/-- Broadcasts that announce in each chat with a peer, once and to all who are logged in, what a
request does.
-/
structure Announces (removal : Removal) (peer : υ) (broadcasts : List (ChatBroadcast υ))
    : Prop where
  once : (broadcasts.map ChatBroadcast.chat).Nodup
  everywhere : ∀ number, number ∈ broadcasts.map ChatBroadcast.chat
    ↔ number ∈ online.chats.numbers ∧ peer ∈ (online.chats.chat number).users
  notices : ∀ broadcast ∈ broadcasts,
    broadcast.notice = ⟨removal.noticeName, chatId broadcast.chat, uid, disconnectMessage⟩
  recipients : ∀ broadcast ∈ broadcasts, ∀ member, member ∈ broadcast.recipients
    ↔ member ∈ (online.chats.chat broadcast.chat).users ∧ (online.users member).state = .loggedIn

/-- What the outcome of a request should be: one that succeeds announces the removal in the chats of
the peer, and one that fails does not and leaves the state of the peer.
-/
structure AnnouncesRightly (removal : Removal) (outcome : RemovalOutcome υ) : Prop where
  succeeds : outcome.reply = none → ∃ peer, online.userWithId uid = some peer
    ∧ Announces online uid disconnectMessage removal peer outcome.broadcasts
  fails : outcome.reply ≠ none → outcome.broadcasts = []
    ∧ ∀ peer, online.userWithId uid = some peer →
      (outcome.after.users peer).state = (online.users peer).state

/-- A user who may remove a peer is in the same chats if the request can be finished, and else in no
chat.
-/
def IsHeard (removal : Removal) : Prop :=
  ∀ peer, online.MayRemove user uid removal.privilege peer →
    (removal.CanFinish failure now online peer → ∀ number ∈ online.chats.numbers,
      user ∈ (online.chats.chat number).users ↔ peer ∈ (online.chats.chat number).users)
    ∧ (¬removal.CanFinish failure now online peer → ∀ number ∈ online.chats.numbers,
      user ∉ (online.chats.chat number).users)

variable {kept failure now online user uid disconnectMessage} {removal : Removal} {peer : υ}

/-- The announcements in the chats of the user are right for a peer in the same chats. -/
theorem announces_announce_iff
    : Announces online uid disconnectMessage removal peer
        (online.announce user uid disconnectMessage removal.noticeName)
      ↔ ∀ number ∈ online.chats.numbers,
        user ∈ (online.chats.chat number).users ↔ peer ∈ (online.chats.chat number).users := by
  have chats : (online.announce user uid disconnectMessage removal.noticeName).map
      ChatBroadcast.chat = online.chats.chatsWithUser user := by
    rw [Online.announce, List.map_map]
    exact List.map_id _
  constructor
  · intro announces number listed
    have everywhere := announces.everywhere number
    rw [chats, Chats.mem_chatsWithUser, and_iff_right listed, and_iff_right listed] at everywhere
    exact everywhere
  · intro same
    constructor
    case once =>
      rw [chats]
      exact online.chats.chatsWithUser_nodup user
    case everywhere =>
      intro number
      rw [chats, Chats.mem_chatsWithUser]
      exact and_congr_right (same number)
    case notices =>
      intro broadcast announced
      obtain ⟨number, _, rfl⟩ := List.mem_map.mp announced
      rfl
    case recipients =>
      intro broadcast announced member
      obtain ⟨number, _, rfl⟩ := List.mem_map.mp announced
      simp [Online.chatBroadcastMessage]

/-- Nothing is announced for a user who is in no chat. -/
theorem announce_eq_nil_iff {name : String}
    : online.announce user uid disconnectMessage name = []
      ↔ ∀ number ∈ online.chats.numbers, user ∉ (online.chats.chat number).users := by
  rw [Online.announce, List.map_eq_nil_iff, List.eq_nil_iff_forall_not_mem]
  simp only [Chats.mem_chatsWithUser, not_and]

/-- A request that the checks refuse fails and changes nothing. -/
theorem handle_of_refused {error : String}
    (refused : online.peerToRemove user uid removal.privilege = some (.error error))
    : removal.handle kept failure now online user uid disconnectMessage
      = some ⟨[], some (.named error), online⟩ := by
  cases removal with
  | disconnect => exact congrArg (Option.map _) refused
  | ban expiration => exact congrArg (Option.map _) refused

/-- A request that the checks let through announces the removal in the chats of the user, and then
succeeds if it can be finished.
-/
theorem handle_of_mayRemove (may : online.MayRemove user uid removal.privilege peer)
    : ∃ outcome, removal.handle kept failure now online user uid disconnectMessage = some outcome
      ∧ outcome.broadcasts = online.announce user uid disconnectMessage removal.noticeName
      ∧ (outcome.reply = none ↔ removal.CanFinish failure now online peer)
      ∧ (outcome.reply ≠ none → outcome.after = online) := by
  have passed := Online.peerToRemove_eq_ok_iff.mpr may
  cases removal with
  | disconnect =>
      refine ⟨_, congrArg (Option.map _) passed, rfl, ?_, fun failed => absurd rfl failed⟩
      exact iff_of_true rfl trivial
  | ban expiration =>
      refine ⟨_, congrArg (Option.map _) passed, ?_⟩
      have stored := @addBan_isOk_iff kept failure now (online.users peer).ip expiration online.bans
      dsimp only [CanFinish]
      rw [← stored]
      cases addBan kept failure now (online.users peer).ip expiration online.bans with
      | error error => exact ⟨rfl, iff_of_false nofun nofun, fun _ => rfl⟩
      | ok bans => exact ⟨rfl, iff_of_true rfl rfl, fun failed => absurd rfl failed⟩

end Requests

end Removal

/-- Requests that remove users announce it rightly exactly when those who ask are heard. -/
theorem announcesRightly_iff {υ : Type} [DecidableEq υ] (kept : Date → Option Date)
    (failure : BanStatement → Option String) (now : Date) (online : Online υ) (user : υ)
    (uid : BitVec 32) (disconnectMessage : String) (removal : Removal)
    : (∀ outcome, removal.handle kept failure now online user uid disconnectMessage = some outcome
        → removal.AnnouncesRightly online uid disconnectMessage outcome)
      ↔ removal.IsHeard failure now online user uid := by
  constructor
  · intro right peer may
    obtain ⟨outcome, handled, broadcasts, reply, _⟩ := @Removal.handle_of_mayRemove
      υ _ kept failure now online user uid disconnectMessage removal peer may
    have outcomeRight := right outcome handled
    constructor
    · intro finish
      obtain ⟨peer', found, announces⟩ := outcomeRight.succeeds (reply.mpr finish)
      obtain rfl := Option.some.inj (found.symm.trans may.found)
      rw [broadcasts] at announces
      exact Removal.announces_announce_iff.mp announces
    · intro stuck
      have silent := (outcomeRight.fails fun succeeded => stuck (reply.mp succeeded)).1
      rw [broadcasts] at silent
      exact Removal.announce_eq_nil_iff.mp silent
  · intro heard outcome handled
    rcases checked : online.peerToRemove user uid removal.privilege with _ | error | peer
    · -- the server ends, and there is no outcome
      cases removal <;> cases (congrArg (Option.map _) checked).symm.trans handled
    · rw [Removal.handle_of_refused checked] at handled
      cases handled
      exact ⟨nofun, fun _ => ⟨rfl, fun _ _ => rfl⟩⟩
    · have may := Online.peerToRemove_eq_ok_iff.mp checked
      obtain ⟨outcome', handled', broadcasts, reply, unchanged⟩ := @Removal.handle_of_mayRemove
        υ _ kept failure now online user uid disconnectMessage removal peer may
      obtain rfl := Option.some.inj (handled'.symm.trans handled)
      constructor
      · intro succeeded
        refine ⟨peer, may.found, ?_⟩
        rw [broadcasts]
        exact Removal.announces_announce_iff.mpr ((heard peer may).1 (reply.mp succeeded))
      · intro failed
        rw [unchanged failed, broadcasts]
        refine ⟨Removal.announce_eq_nil_iff.mpr ?_, fun _ _ => rfl⟩
        exact (heard peer may).2 fun finish => failed (reply.mpr finish)

/-- A user in the public chat, and a peer who is in a private chat as well. -/
def privatePeer : Online Bool where
  userWithId id := if id = 2 then some false else if id = 1 then some true else none
  users
    | true => ⟨some (Account.empty.set .userDisconnectUsers true), "10.0.0.1", .loggedIn⟩
    | false => ⟨some Account.empty, "10.0.0.2", .loggedIn⟩
  chats :=
    { numbers := [publicChat, 2]
      distinct := by decide
      chat := fun number =>
        { users := if number = publicChat then [true, false] else [false], invited := ∅ }
      current := 2 }
  bans := []

/-- The private chat of a peer does not learn that the peer was disconnected. -/
theorem not_announcesRightly_privatePeer
    : ¬∀ outcome, Removal.disconnect.handle some (fun _ => none) 0 privatePeer true 2 "Bye"
        = some outcome → Removal.disconnect.AnnouncesRightly privatePeer 2 "Bye" outcome := by
  intro right
  obtain ⟨peer, found, announces⟩ := (right _ rfl).succeeds rfl
  have same : false = peer := Option.some.inj found
  subst same
  have heard := (announces.everywhere 2).mpr (by decide)
  exact absurd heard (by decide)

end WiredServer.Server
