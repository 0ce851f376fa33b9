import WiredServer.Lib.Machine

/-! The chats: their members and invitations, the dictionary in which they are found, and the handlers
that change them.
-/

set_option linter.unusedSectionVars false

namespace WiredServer.Server

/-- `wd_chat_t`, the members in the order in which they joined -/
@[ext]
structure Chat (υ : Type) where
  users : List υ
  invited : Finset υ

/-- A chat without one of its members. -/
def Chat.without {υ : Type} [DecidableEq υ] (chat : Chat υ) (user : υ) : Chat υ :=
  { chat with users := chat.users.erase user }

/-- The identifier of a chat. Chats are numbered as they are made, and an identifier has 32 bits. -/
def chatId (number : ℕ) : BitVec 32 := BitVec.ofNat 32 number

/-- `WD_PUBLIC_CHAT_ID` -/
def publicChat : ℕ := 1

/-- `wd_chats`, in which every identifier is a key once, with all chats that were made and
`wd_chats_current_id`.
-/
structure Chats (υ : Type) where
  numbers : List ℕ
  distinct : (numbers.map chatId).Nodup
  chat : ℕ → Chat υ
  current : ℕ

namespace Chats

variable {υ : Type} [DecidableEq υ]

/-- The chats before any session. -/
def initial : Chats υ where
  numbers := [publicChat]
  distinct := List.nodup_singleton _
  chat _ := { users := [], invited := ∅ }
  current := publicChat

variable (chats : Chats υ) (number : ℕ) (user peer : υ) (id : BitVec 32)

/-- `wd_chats_add_chat` -/
def addChat : Chats υ :=
  { chats with
    numbers := chats.numbers.filter (chatId · ≠ chatId number) ++ [number]
    distinct := by
      rw [List.map_append, List.map_singleton]
      refine (chats.distinct.sublist (List.filter_sublist.map _)).append
        (List.nodup_singleton _) (List.disjoint_singleton.mpr ?_)
      simp }

/-- The removal of a chat from `wd_chats`, by its identifier. -/
def removeChat : Chats υ :=
  { chats with
    numbers := chats.numbers.filter (chatId · ≠ chatId number)
    distinct := chats.distinct.sublist (List.filter_sublist.map _) }

/-- `wd_chats_chat_with_id` -/
def chatWithId : Option ℕ :=
  chats.numbers.find? (chatId · = id)

/-- A change of a chat. -/
def setChat (chat : Chat υ) : Chats υ :=
  { chats with chat := Function.update chats.chat number chat }

section Updates

variable {chats number} {other : ℕ}

@[simp]
theorem setChat_numbers (chat : Chat υ)
    : (chats.setChat number chat).numbers = chats.numbers :=
  rfl

@[simp]
theorem setChat_current (chat : Chat υ)
    : (chats.setChat number chat).current = chats.current :=
  rfl

@[simp]
theorem setChat_chat_self (chat : Chat υ)
    : (chats.setChat number chat).chat number = chat :=
  Function.update_self ..

theorem setChat_chat_of_ne (ne : other ≠ number) (chat : Chat υ)
    : (chats.setChat number chat).chat other = chats.chat other :=
  Function.update_of_ne ne ..

end Updates

/-- The end of `wd_chat_add_user_and_broadcast`. -/
def addUser : Chats υ :=
  chats.setChat number
    { chats.chat number with users := (chats.chat number).users ++ [user] }

/-- The beginning of `wd_chat_remove_user`. -/
def eraseUser : Chats υ :=
  chats.setChat number ((chats.chat number).without user)

/-- `wd_chat_add_invitation_for_user` -/
def addInvitation : Chats υ :=
  chats.setChat number
    { chats.chat number with invited := insert user (chats.chat number).invited }

/-- `wd_chat_remove_invitation_for_user` -/
def removeInvitation : Chats υ :=
  chats.setChat number
    { chats.chat number with invited := (chats.chat number).invited.erase user }

/-- A private chat without members, on which `wd_chat_remove_user` and `wd_chats_remove_user` remove it
from `wd_chats`.
-/
def isAbandoned : Bool :=
  number ≠ publicChat && (chats.chat number).users = []

/-- `wd_chat_remove_user`, and what `wd_chats_remove_user` does to each chat -/
def chatRemoveUser : Chats υ :=
  let left := chats.eraseUser number user
  if left.isAbandoned number then left.removeChat number else left

/-- `wd_chats_remove_user` -/
def chatsRemoveUser : Chats υ :=
  chats.numbers.foldl (fun chats number => chats.chatRemoveUser number user) chats

/-- `wd_chat_private_chat`, with the number of the chat -/
def privateChat : Chats υ × ℕ :=
  let number := chats.current + 1
  ({ chats.setChat number { users := [], invited := ∅ } with current := number }, number)

/-- `wd_message_chat_create_chat` -/
def createChat (mayCreate : Bool) : Except String (Chats υ) :=
  if !mayCreate then .error "wired.error.permission_denied"
  else
    let (chats, number) := chats.privateChat
    .ok ((chats.addInvitation number user).addChat number)

/-- `wd_message_chat_join_chat` -/
def joinChat : Except String (Chats υ) :=
  match chats.chatWithId id with
  | none => .error "wired.error.chat_not_found"
  | some number =>
      if user ∈ (chats.chat number).users then .error "wired.error.already_on_chat"
      else if number ≠ publicChat ∧ user ∉ (chats.chat number).invited then
        .error "wired.error.not_invited_to_chat"
      else
        let joined := chats.addUser number user
        .ok (if number ≠ publicChat then joined.removeInvitation number user else joined)

/-- `wd_message_chat_leave_chat` -/
def leaveChat : Except String (Chats υ) :=
  match chats.chatWithId id with
  | none => .error "wired.error.chat_not_found"
  | some number =>
      if user ∉ (chats.chat number).users then .error "wired.error.not_on_chat"
      else .ok (chats.chatRemoveUser number user)

/-- `wd_message_chat_kick_user`, after the peer was found -/
def kickUser (mayKick : Bool) : Except String (Chats υ) :=
  match chats.chatWithId id with
  | none => .error "wired.error.chat_not_found"
  | some number =>
      if user ∉ (chats.chat number).users ∨ peer ∉ (chats.chat number).users then
        .error "wired.error.not_on_chat"
      else if number = publicChat ∧ !mayKick then .error "wired.error.permission_denied"
      else .ok (chats.chatRemoveUser number peer)

/-- `wd_message_chat_invite_user`, after the peer was found -/
def inviteUser : Except String (Chats υ) :=
  match chats.chatWithId id with
  | none => .error "wired.error.chat_not_found"
  | some number =>
      if user ∉ (chats.chat number).users then .error "wired.error.not_on_chat"
      else if peer ∈ (chats.chat number).users then .error "wired.error.already_on_chat"
      else .ok (chats.addInvitation number peer)

/-- `wd_message_chat_decline_invitation`, after the peer was found -/
def declineInvitation : Except String (Chats υ) :=
  match chats.chatWithId id with
  | none => .error "wired.error.chat_not_found"
  | some number =>
      if number ≠ publicChat ∧ user ∉ (chats.chat number).invited then
        .error "wired.error.not_invited_to_chat"
      else .ok (chats.removeInvitation number user)

end Chats

end WiredServer.Server
