import WiredServer.Server.Chats

/-! The life of chats over whole sequences of connections, chat messages and session ends: which of
them keep every chat until its last member leaves and every list free of removed users.
-/

set_option linter.unusedSectionVars false

namespace WiredServer.Server

variable {υ : Type} [DecidableEq υ]

namespace Chats

section Lookup

variable {chats : Chats υ} {number other : ℕ} {user : υ}

/-- In `wd_chats`, chats with the same identifier are the same. -/
theorem eq_of_chatId (member : number ∈ chats.numbers) (member' : other ∈ chats.numbers)
    (same : chatId number = chatId other)
    : number = other :=
  List.inj_on_of_nodup_map chats.distinct member member' same

theorem mem_of_chatWithId {id : BitVec 32} (found : chats.chatWithId id = some number)
    : number ∈ chats.numbers :=
  List.mem_of_find?_eq_some found

@[simp]
theorem removeChat_chat
    : (chats.removeChat number).chat = chats.chat :=
  rfl

/-- A chat that a user leaves loses that member, and the other chats are as they were. -/
theorem chatRemoveUser_chat
    : (chats.chatRemoveUser number user).chat
        = Function.update chats.chat number ((chats.chat number).without user) := by
  rw [chatRemoveUser]
  split <;> rfl

/-- A private chat that the last member leaves is removed. -/
theorem mem_chatRemoveUser (member : number ∈ chats.numbers)
    : other ∈ (chats.chatRemoveUser number user).numbers ↔ other ∈ chats.numbers
        ∧ ¬(other = number ∧ number ≠ publicChat ∧ ((chats.chat number).without user).users = []) := by
  have left : (chats.eraseUser number user).isAbandoned number = true ↔
      number ≠ publicChat ∧ ((chats.chat number).without user).users = [] := by
    simp [isAbandoned, eraseUser]
  rw [chatRemoveUser]
  split
  · rename_i abandoned
    have same : other ∈ chats.numbers → (chatId other ≠ chatId number ↔ other ≠ number) :=
      fun member' => not_congr ⟨eq_of_chatId member' member, fun equal => equal ▸ rfl⟩
    have gone := left.mp abandoned
    simp only [removeChat, List.mem_filter, decide_eq_true_eq, gone, ne_eq, not_false_eq_true,
      and_true]
    exact and_congr_right same
  · rename_i stays
    rw [left] at stays
    simp [eraseUser, stays]

/-- When a user's session ends, the user is taken from each of some chats, and of these the private
chats without members are removed.
-/
theorem foldl_chatRemoveUser {numbers : List ℕ} (nodup : numbers.Nodup)
    (members : ∀ number ∈ numbers, number ∈ chats.numbers)
    : (∀ other, (numbers.foldl (·.chatRemoveUser · user) chats).chat other
          = if other ∈ numbers then (chats.chat other).without user else chats.chat other)
      ∧ ∀ other, other ∈ (numbers.foldl (·.chatRemoveUser · user) chats).numbers ↔
          other ∈ chats.numbers ∧ ¬(other ∈ numbers ∧ other ≠ publicChat
            ∧ ((chats.chat other).without user).users = []) := by
  induction numbers generalizing chats with
  | nil => simp
  | cons first numbers ih =>
      obtain ⟨absent, nodup⟩ := List.nodup_cons.mp nodup
      have member := members first List.mem_cons_self
      have later : ∀ number ∈ numbers, number ∈ (chats.chatRemoveUser first user).numbers := by
        intro number has
        rw [mem_chatRemoveUser member]
        exact ⟨members number (List.mem_cons_of_mem _ has), fun same => absent (same.1 ▸ has)⟩
      obtain ⟨chat, listed⟩ := ih nodup later
      have others : ∀ other ∈ numbers, (chats.chatRemoveUser first user).chat other
          = chats.chat other := fun other has => by
        have ne : other ≠ first := fun same => absent (same ▸ has)
        rw [chatRemoveUser_chat, Function.update_of_ne ne]
      refine ⟨fun other => ?_, fun other => ?_⟩
      · rw [List.foldl_cons, chat]
        by_cases has : other ∈ numbers
        · rw [if_pos has, others other has, if_pos (List.mem_cons_of_mem _ has)]
        · rw [if_neg has, chatRemoveUser_chat]
          by_cases same : other = first
          · subst same
            simp
          · rw [Function.update_of_ne same, if_neg (by simp [same, has])]
      · rw [List.foldl_cons, listed, mem_chatRemoveUser member]
        by_cases has : other ∈ numbers
        · have ne : other ≠ first := fun same => absent (same ▸ has)
          simp [has, ne, others other has]
        · by_cases same : other = first
          · subst same
            simp [has]
          · simp [has, same]

/-- What the end of a session does to each chat. -/
theorem chatsRemoveUser_chat
    : (chats.chatsRemoveUser user).chat number
        = if number ∈ chats.numbers then (chats.chat number).without user
          else chats.chat number :=
  (foldl_chatRemoveUser (.of_map _ chats.distinct) fun _ => id).1 number

theorem chatRemoveUser_current
    : (chats.chatRemoveUser number user).current = chats.current := by
  rw [chatRemoveUser]
  split <;> rfl

theorem chatsRemoveUser_current
    : (chats.chatsRemoveUser user).current = chats.current := by
  rw [chatsRemoveUser]
  generalize chats.numbers = numbers
  induction numbers generalizing chats with
  | nil => rfl
  | cons first numbers ih => exact ih.trans chatRemoveUser_current

/-- Which chats the end of a session leaves in `wd_chats`. -/
theorem mem_chatsRemoveUser
    : number ∈ (chats.chatsRemoveUser user).numbers ↔ number ∈ chats.numbers
        ∧ ¬(number ≠ publicChat ∧ ((chats.chat number).without user).users = []) := by
  rw [chatsRemoveUser, (foldl_chatRemoveUser (.of_map _ chats.distinct) fun _ => id).2 number]
  constructor
  · exact fun ⟨member, stays⟩ => ⟨member, fun gone => stays ⟨member, gone⟩⟩
  · exact fun ⟨member, stays⟩ => ⟨member, fun gone => stays gone.2⟩

end Lookup

end Chats

/-- Whether a session has connected and whether it has ended. -/
inductive Presence where
  | absent
  | present
  | removed
  deriving DecidableEq, Repr

/-- The chats, and the sessions that have them. -/
structure ChatServer (υ : Type) where
  chats : Chats υ
  presence : υ → Presence

/-- A connection, a message of a session about chats, with what its account allows, and the end of a
session.
-/
inductive ChatAction (υ : Type) where
  | connect (user : υ)
  | create (user : υ) (mayCreate : Bool)
  | join (user : υ) (id : BitVec 32)
  | leave (user : υ) (id : BitVec 32)
  | kick (user peer : υ) (id : BitVec 32) (mayKick : Bool)
  | invite (user peer : υ) (id : BitVec 32)
  | decline (user peer : υ) (id : BitVec 32)
  | finish (user : υ)

namespace ChatServer

/-- The server before any session. -/
def initial : ChatServer υ where
  chats := .initial
  presence _ := .absent

/-- A handler of a session, if the session is there. One that replies an error changes nothing. -/
def handle (server : ChatServer υ) (user : υ) (result : Except String (Chats υ))
    : Option (ChatServer υ) :=
  if server.presence user = .present then
    some (match result with
      | .ok chats => { server with chats }
      | .error _ => server)
  else none

/-- A handler that looks for a peer first. -/
def withPeer (server : ChatServer υ) (peer : υ) (result : Except String (Chats υ))
    : Except String (Chats υ) :=
  if server.presence peer = .present then result else .error "wired.error.user_not_found"

/-- The next state after an action. -/
def step (action : ChatAction υ) (server : ChatServer υ) : Option (ChatServer υ) :=
  match action with
  | .connect user =>
      if server.presence user = .absent then
        some { server with presence := Function.update server.presence user .present }
      else none
  | .create user mayCreate => server.handle user (server.chats.createChat user mayCreate)
  | .join user id => server.handle user (server.chats.joinChat user id)
  | .leave user id => server.handle user (server.chats.leaveChat user id)
  | .kick user peer id mayKick =>
      server.handle user (server.withPeer peer (server.chats.kickUser user peer id mayKick))
  | .invite user peer id =>
      server.handle user (server.withPeer peer (server.chats.inviteUser user peer id))
  | .decline user peer id =>
      server.handle user (server.withPeer peer (server.chats.declineInvitation user id))
  | .finish user =>
      if server.presence user = .present then
        some { chats := server.chats.chatsRemoveUser user
               presence := Function.update server.presence user .removed }
      else none

/-- A chat that is or is no longer as it was. -/
def Changes (server next : ChatServer υ) (number : ℕ) : Prop :=
  next.chats.chat number ≠ server.chats.chat number
    ∨ number ∈ server.chats.numbers ∧ number ∉ next.chats.numbers

/-- No chat refers to a user that has been removed. -/
def RefersToUsers (server : ChatServer υ) : Prop :=
  ∀ number ∈ server.chats.numbers, ∀ user,
    user ∈ (server.chats.chat number).users ∨ user ∈ (server.chats.chat number).invited →
    server.presence user ≠ .removed

/-- An action keeps the chats: the end of a session changes only chats that had its user as a member or
had invited it, a private chat is removed exactly when its last member leaves, and no chat comes to
refer to a user that has been removed.
-/
structure KeepsChats (action : ChatAction υ) (server next : ChatServer υ) : Prop where
  changes : ∀ user, action = .finish user → ∀ number, server.Changes next number →
    user ∈ (server.chats.chat number).users ∨ user ∈ (server.chats.chat number).invited
  stays : ∀ number ∈ server.chats.numbers, number ≠ publicChat →
    (number ∉ next.chats.numbers ↔
      (server.chats.chat number).users ≠ [] ∧ (next.chats.chat number).users = [])
  refers : next.RefersToUsers

/-- A session ends while every private chat has members, and while the session has no invitation to a
chat that goes on without it. A chat is made whose identifier no other private chat has.
-/
def isOrderly (action : ChatAction υ) (server : ChatServer υ) : Bool :=
  match action with
  | .finish user => server.chats.numbers.all fun number =>
      (number = publicChat || (server.chats.chat number).users ≠ [])
        && (user ∉ (server.chats.chat number).invited
          || number ≠ publicChat && ((server.chats.chat number).without user).users = [])
  | .create _ mayCreate => !mayCreate || server.chats.numbers.all fun number =>
      number = publicChat || chatId number ≠ chatId (server.chats.current + 1)
  | .connect _ | .join _ _ | .leave _ _ | .kick _ _ _ _ | .invite _ _ _ | .decline _ _ _ => true

/-- What holds of the chats between two actions. -/
structure Regular (server : ChatServer υ) : Prop where
  nodup : ∀ number, (server.chats.chat number).users.Nodup
  made : ∀ number ∈ server.chats.numbers, number ≤ server.chats.current
  refers : server.RefersToUsers

section Steps

variable {server next : ChatServer υ} {action : ChatAction υ} {user : υ}

/-- A handler of a session that is there replies an error or has a result. -/
theorem handle_cases {result : Except String (Chats υ)}
    (stepped : server.handle user result = some next)
    : server.presence user = .present ∧ ((∃ error, result = .error error) ∧ next = server
        ∨ ∃ chats, result = .ok chats ∧ next = { server with chats }) := by
  unfold handle at stepped
  split at stepped
  · rename_i present
    cases result with
    | error error => exact ⟨present, .inl ⟨⟨error, rfl⟩, (Option.some.inj stepped).symm⟩⟩
    | ok chats => exact ⟨present, .inr ⟨chats, rfl, (Option.some.inj stepped).symm⟩⟩
  · cases stepped

theorem withPeer_ok {peer : υ} {result : Except String (Chats υ)} {chats : Chats υ}
    (found : server.withPeer peer result = .ok chats)
    : server.presence peer = .present ∧ result = .ok chats := by
  rw [withPeer] at found
  split at found
  · exact ⟨‹_›, found⟩
  · cases found

/-- A join adds its user to a chat that is found and does not have it as a member. -/
theorem joinChat_cases {chats chats' : Chats υ} {id : BitVec 32}
    (joined : chats.joinChat user id = .ok chats')
    : ∃ number ∈ chats.numbers, ∃ chat : Chat υ, user ∉ (chats.chat number).users
        ∧ chats' = chats.setChat number chat ∧ chat.users = (chats.chat number).users ++ [user]
        ∧ chat.invited ⊆ (chats.chat number).invited := by
  unfold Chats.joinChat at joined
  split at joined
  · cases joined
  rename_i number found
  split at joined
  · cases joined
  rename_i absent
  split at joined
  · cases joined
  cases joined
  refine ⟨number, Chats.mem_of_chatWithId found, ?_⟩
  split
  · refine ⟨{ (chats.addUser number user).chat number with
      invited := ((chats.addUser number user).chat number).invited.erase user }, absent, ?_, ?_, ?_⟩
    · simp [Chats.removeInvitation, Chats.addUser, Chats.setChat]
    · simp [Chats.addUser]
    · simpa [Chats.addUser] using Finset.erase_subset _ _
  · exact ⟨_, absent, rfl, rfl, Finset.Subset.refl _⟩

/-- A leave removes its user from a chat that is found. -/
theorem leaveChat_cases {chats chats' : Chats υ} {id : BitVec 32}
    (left : chats.leaveChat user id = .ok chats')
    : ∃ number ∈ chats.numbers, ∃ member ∈ (chats.chat number).users,
        chats' = chats.chatRemoveUser number member := by
  unfold Chats.leaveChat at left
  split at left
  · cases left
  rename_i number found
  split at left
  · cases left
  rename_i member
  exact ⟨number, Chats.mem_of_chatWithId found, user, not_not.mp member, (Except.ok.inj left).symm⟩

/-- A kick removes a member from a chat that is found. -/
theorem kickUser_cases {chats chats' : Chats υ} {peer : υ} {id : BitVec 32} {mayKick : Bool}
    (kicked : chats.kickUser user peer id mayKick = .ok chats')
    : ∃ number ∈ chats.numbers, ∃ member ∈ (chats.chat number).users,
        chats' = chats.chatRemoveUser number member := by
  unfold Chats.kickUser at kicked
  split at kicked
  · cases kicked
  rename_i number found
  split at kicked
  · cases kicked
  rename_i members
  split at kicked
  · cases kicked
  exact ⟨number, Chats.mem_of_chatWithId found, peer, (not_or.mp members).2 |> not_not.mp,
    (Except.ok.inj kicked).symm⟩

/-- An invitation is added to a chat that is found. -/
theorem inviteUser_cases {chats chats' : Chats υ} {peer : υ} {id : BitVec 32}
    (invited : chats.inviteUser user peer id = .ok chats')
    : ∃ number ∈ chats.numbers, chats' = chats.addInvitation number peer := by
  unfold Chats.inviteUser at invited
  split at invited
  · cases invited
  rename_i number found
  split at invited
  · cases invited
  split at invited
  · cases invited
  exact ⟨number, Chats.mem_of_chatWithId found, (Except.ok.inj invited).symm⟩

/-- An invitation is removed from a chat that is found. -/
theorem declineInvitation_cases {chats chats' : Chats υ} {id : BitVec 32}
    (declined : chats.declineInvitation user id = .ok chats')
    : ∃ number ∈ chats.numbers, chats' = chats.removeInvitation number user := by
  unfold Chats.declineInvitation at declined
  split at declined
  · cases declined
  rename_i number found
  split at declined
  · cases declined
  exact ⟨number, Chats.mem_of_chatWithId found, (Except.ok.inj declined).symm⟩

/-- What an action other than the end of a session has to keep. -/
structure Keeps (server next : ChatServer υ) : Prop where
  regular : next.Regular
  stays : ∀ number ∈ server.chats.numbers, number ≠ publicChat →
    (number ∉ next.chats.numbers ↔
      (server.chats.chat number).users ≠ [] ∧ (next.chats.chat number).users = [])

theorem Keeps.keepsChats (keeps : Keeps server next) (goesOn : ∀ user, action ≠ .finish user)
    : KeepsChats action server next :=
  ⟨fun user ends => absurd ends (goesOn user), keeps.stays, keeps.regular.refers⟩

/-- An action that changes nothing. -/
theorem Keeps.same (regular : server.Regular)
    : Keeps server server :=
  ⟨regular, fun number member _ => by simp [member]⟩

/-- An action that changes one chat, whose members stay and have been joined by users that are there. -/
theorem Keeps.setChat {number : ℕ} {chat : Chat υ} (regular : server.Regular)
    (nodup : chat.users.Nodup)
    (members : (server.chats.chat number).users ⊆ chat.users)
    (refers : ∀ other, other ∈ chat.users ∨ other ∈ chat.invited →
      other ∈ (server.chats.chat number).users ∨ other ∈ (server.chats.chat number).invited
        ∨ server.presence other = .present)
    (member : number ∈ server.chats.numbers)
    : Keeps server { server with chats := server.chats.setChat number chat } where
  regular := by
    refine ⟨fun other => ?_, regular.made, fun other has user referred => ?_⟩
    · by_cases same : other = number
      · subst same
        rwa [Chats.setChat_chat_self]
      · rw [Chats.setChat_chat_of_ne same]
        exact regular.nodup other
    · by_cases same : other = number
      · subst same
        rw [Chats.setChat_chat_self] at referred
        rcases refers user referred with before | before | present
        · exact regular.refers other member user (.inl before)
        · exact regular.refers other member user (.inr before)
        · rw [present]
          nofun
      · rw [Chats.setChat_chat_of_ne same] at referred
        exact regular.refers other has user referred
  stays other has private' := by
    have kept : (server.chats.chat other).users ≠ [] →
        ((server.chats.setChat number chat).chat other).users ≠ [] := by
      by_cases same : other = number
      · subst same
        rw [Chats.setChat_chat_self]
        intro some' none'
        exact some' (List.subset_nil.mp (none' ▸ members))
      · rw [Chats.setChat_chat_of_ne same]
        exact id
    simp only [Chats.setChat_numbers, has, not_true_eq_false, false_iff, not_and]
    exact kept

/-- A user that leaves a chat of which it is a member. -/
theorem Keeps.chatRemoveUser {number : ℕ} {member : υ} (regular : server.Regular)
    (listed : number ∈ server.chats.numbers)
    (isMember : member ∈ (server.chats.chat number).users)
    : Keeps server { server with chats := server.chats.chatRemoveUser number member } where
  regular := by
    refine ⟨fun other => ?_, fun other has => ?_, fun other has user referred => ?_⟩
    · simp only [Chats.chatRemoveUser_chat]
      by_cases same : other = number
      · subst same
        rw [Function.update_self]
        exact (regular.nodup other).erase member
      · rw [Function.update_of_ne same]
        exact regular.nodup other
    · simp only [Chats.chatRemoveUser_current]
      exact regular.made other ((Chats.mem_chatRemoveUser listed).mp has).1
    · have before := ((Chats.mem_chatRemoveUser listed).mp has).1
      simp only [Chats.chatRemoveUser_chat] at referred
      refine regular.refers other before user ?_
      by_cases same : other = number
      · subst same
        rw [Function.update_self] at referred
        exact referred.imp_left List.mem_of_mem_erase
      · rwa [Function.update_of_ne same] at referred
  stays other has private' := by
    rw [Chats.mem_chatRemoveUser listed]
    simp only [Chats.chatRemoveUser_chat]
    by_cases same : other = number
    · subst same
      have some' := List.ne_nil_of_mem isMember
      simp [has, private', some']
    · rw [Function.update_of_ne same]
      simp [has, same]

/-- A new chat has no members, has invited its creator, and takes the place of a chat with its
identifier.
-/
theorem createChat_cases {chats chats' : Chats υ} {mayCreate : Bool}
    (created : chats.createChat user mayCreate = .ok chats')
    : mayCreate = true
      ∧ chats'.chat = Function.update chats.chat (chats.current + 1)
          { users := [], invited := {user} }
      ∧ (∀ other, other ∈ chats'.numbers ↔ other ∈ chats.numbers
          ∧ chatId other ≠ chatId (chats.current + 1) ∨ other = chats.current + 1)
      ∧ chats'.current = chats.current + 1 := by
  unfold Chats.createChat at created
  split at created
  · cases created
  rename_i may
  cases created
  refine ⟨by simpa using may, ?_, fun other => ?_, rfl⟩
  · simp [Chats.addInvitation, Chats.addChat, Chats.setChat]
  · simp [Chats.addInvitation, Chats.addChat, Chats.setChat]

/-- A creation keeps the chats if no other private chat has the identifier of the new one, and only
then.
-/
theorem keepsChats_create {mayCreate : Bool} (regular : server.Regular)
    (stepped : step (.create user mayCreate) server = some next)
    : next.Regular ∧ (KeepsChats (.create user mayCreate) server next
        ↔ isOrderly (.create user mayCreate) server = true) := by
  obtain ⟨present, ⟨⟨error, refused⟩, rfl⟩ | ⟨chats, created, rfl⟩⟩ := handle_cases stepped
  · have may : mayCreate = false := by
      unfold Chats.createChat at refused
      split at refused
      · rename_i may
        simpa using may
      · cases refused
    refine ⟨regular, ?_⟩
    simp [isOrderly, may, (Keeps.same regular).keepsChats]
  obtain ⟨may, chat, listed, current⟩ := createChat_cases created
  have old : ∀ number ∈ server.chats.numbers, number ≠ server.chats.current + 1 :=
    fun number member => by
      have := regular.made number member
      omega
  have after : Regular { server with chats } := by
    refine ⟨fun number => ?_, fun number member => ?_, fun number member other referred => ?_⟩
    · simp only [chat]
      by_cases same : number = server.chats.current + 1
      · subst same
        simp
      · rw [Function.update_of_ne same]
        exact regular.nodup number
    · rcases (listed number).mp member with ⟨before, -⟩ | rfl
      · have := regular.made number before
        simp only [current]
        omega
      · exact current.ge
    · simp only [chat] at referred
      rcases (listed number).mp member with ⟨before, -⟩ | rfl
      · rw [Function.update_of_ne (old number before)] at referred
        exact regular.refers number before other referred
      · rw [Function.update_self] at referred
        have own : other = user := by simpa using referred
        rw [own, present]
        nofun
  refine ⟨after, ?_⟩
  have orderly : isOrderly (.create user mayCreate) server = true ↔
      ∀ number ∈ server.chats.numbers, number ≠ publicChat →
        chatId number ≠ chatId (server.chats.current + 1) := by
    simp [isOrderly, may, or_iff_not_imp_left]
  rw [orderly]
  have kept : ∀ number ∈ server.chats.numbers,
      chats.chat number = server.chats.chat number := fun number member => by
    rw [chat, Function.update_of_ne (old number member)]
  constructor
  · intro keeps number member private'
    have stays := keeps.stays number member private'
    rw [kept number member, listed] at stays
    intro same
    exact (stays.mp (by simp [same, old number member])).1 (stays.mp (by
      simp [same, old number member])).2
  · intro distinct
    refine ⟨nofun, fun number member private' => ?_, after.refers⟩
    simp only [listed, kept number member]
    simp [member, distinct number member private']

/-- The end of a session keeps the chats if every private chat has members and the session's user is
not invited to a chat that goes on, and only then.
-/
theorem keepsChats_finish (regular : server.Regular)
    (stepped : step (.finish user) server = some next)
    : (KeepsChats (.finish user) server next ↔ isOrderly (.finish user) server = true)
      ∧ (isOrderly (.finish user) server = true → next.Regular) := by
  rw [step] at stepped
  split at stepped
  case isFalse => cases stepped
  case isTrue present =>
  cases stepped
  have orderly : isOrderly (.finish user) server = true ↔ ∀ number ∈ server.chats.numbers,
      (number ≠ publicChat → (server.chats.chat number).users ≠ [])
        ∧ (number ∈ (server.chats.chatsRemoveUser user).numbers →
          user ∉ (server.chats.chat number).invited) := by
    simp only [isOrderly, List.all_eq_true, Bool.and_eq_true, Bool.or_eq_true, decide_eq_true_eq,
      Chats.mem_chatsRemoveUser]
    refine forall₂_congr fun number member => ?_
    simp only [member, true_and]
    tauto
  have left : ∀ number ∈ server.chats.numbers, (server.chats.chatsRemoveUser user).chat number
      = (server.chats.chat number).without user := fun number member => by
    rw [Chats.chatsRemoveUser_chat, if_pos member]
  have refers : (∀ number ∈ server.chats.numbers,
        number ∈ (server.chats.chatsRemoveUser user).numbers →
          user ∉ (server.chats.chat number).invited)
      ↔ RefersToUsers { chats := server.chats.chatsRemoveUser user
                        presence := Function.update server.presence user .removed } := by
    constructor
    · intro uninvited number member other referred
      have before := (Chats.mem_chatsRemoveUser.mp member).1
      simp only [left number before] at referred
      have ne : other ≠ user := by
        rintro rfl
        rcases referred with isMember | invited
        · exact (regular.nodup number).not_mem_erase isMember
        · exact uninvited number before member invited
      simp only [Function.update_of_ne ne]
      exact regular.refers number before other (referred.imp_left List.mem_of_mem_erase)
    · intro refers number before member invited
      have removed := refers number member user (.inr (by simp only [left number before]; exact invited))
      simp at removed
  have members : (∀ number ∈ server.chats.numbers, number ≠ publicChat →
        (server.chats.chat number).users ≠ [])
      ↔ ∀ number ∈ server.chats.numbers, number ≠ publicChat →
        (number ∉ (server.chats.chatsRemoveUser user).numbers ↔
          (server.chats.chat number).users ≠ []
            ∧ ((server.chats.chatsRemoveUser user).chat number).users = []) := by
    refine forall₃_congr fun number member private' => ?_
    rw [Chats.mem_chatsRemoveUser, left number member]
    have none' : (server.chats.chat number).users = [] →
        ((server.chats.chat number).without user).users = [] := fun none' => by
      simp [Chat.without, none']
    simp only [member, private', ne_eq, not_false_eq_true, true_and, not_not]
    tauto
  refine ⟨?_, fun isOrderly => ?_⟩
  · rw [orderly, forall₂_and, members, refers]
    constructor
    · exact fun keeps => ⟨keeps.stays, keeps.refers⟩
    · rintro ⟨stays, refers⟩
      refine ⟨fun other ends number changed => ?_, stays, refers⟩
      cases ends
      left
      by_contra outside
      have same : (server.chats.chat number).without user = server.chats.chat number := by
        rw [Chat.without, List.erase_of_not_mem outside]
      rcases changed with changed | ⟨member, gone⟩
      · apply changed
        simp only [Chats.chatsRemoveUser_chat, same, ite_self]
      · have ⟨private', empty⟩ : number ≠ publicChat
            ∧ ((server.chats.chat number).without user).users = [] := by
          by_contra stays
          exact gone (Chats.mem_chatsRemoveUser.mpr ⟨member, stays⟩)
        exact ((stays number member private').mp gone).1 (same ▸ empty)
  · rw [orderly, forall₂_and] at isOrderly
    refine ⟨fun number => ?_, fun number member => ?_, refers.mp isOrderly.2⟩
    · simp only [Chats.chatsRemoveUser_chat]
      split
      · exact (regular.nodup number).erase user
      · exact regular.nodup number
    · simp only [Chats.chatsRemoveUser_current]
      exact regular.made number (Chats.mem_chatsRemoveUser.mp member).1

/-- What an action other than a creation and the end of a session keeps. -/
theorem keeps_of_step (regular : server.Regular) (stepped : step action server = some next)
    (finishes : ∀ user, action ≠ .finish user)
    (creates : ∀ user mayCreate, action ≠ .create user mayCreate)
    : Keeps server next := by
  cases action with
  | connect user =>
      rw [step] at stepped
      split at stepped <;> cases stepped
      refine ⟨⟨regular.nodup, regular.made, fun number member other referred => ?_⟩, fun number member _ => by
        simp [member]⟩
      by_cases same : other = user
      · simp [same]
      · simp only [Function.update_of_ne same]
        exact regular.refers number member other referred
  | create user mayCreate => exact absurd rfl (creates user mayCreate)
  | join user id =>
      obtain ⟨present, ⟨-, rfl⟩ | ⟨chats, joined, rfl⟩⟩ := handle_cases stepped
      · exact .same regular
      obtain ⟨number, member, chat, absent, rfl, users, invited⟩ := joinChat_cases joined
      refine .setChat regular ?_ (by simp [users]) (fun other referred => ?_) member
      · rw [users]
        exact (regular.nodup number).append (List.nodup_singleton user)
          (List.disjoint_singleton.mpr absent)
      · rw [users, List.mem_append, List.mem_singleton] at referred
        rcases referred with (before | rfl) | before
        · exact .inl before
        · exact .inr (.inr present)
        · exact .inr (.inl (invited before))
  | leave user id =>
      obtain ⟨present, ⟨-, rfl⟩ | ⟨chats, left, rfl⟩⟩ := handle_cases stepped
      · exact .same regular
      obtain ⟨number, listed, member, isMember, rfl⟩ := leaveChat_cases left
      exact .chatRemoveUser regular listed isMember
  | kick user peer id mayKick =>
      obtain ⟨present, ⟨-, rfl⟩ | ⟨chats, kicked, rfl⟩⟩ := handle_cases stepped
      · exact .same regular
      obtain ⟨number, listed, member, isMember, rfl⟩ := kickUser_cases (withPeer_ok kicked).2
      exact .chatRemoveUser regular listed isMember
  | invite user peer id =>
      obtain ⟨present, ⟨-, rfl⟩ | ⟨chats, invited, rfl⟩⟩ := handle_cases stepped
      · exact .same regular
      obtain ⟨found, invited⟩ := withPeer_ok invited
      obtain ⟨number, member, rfl⟩ := inviteUser_cases invited
      refine .setChat regular (regular.nodup number) (List.Subset.refl _)
        (fun other referred => ?_) member
      simp only [Finset.mem_insert] at referred
      rcases referred with before | rfl | before
      · exact .inl before
      · exact .inr (.inr found)
      · exact .inr (.inl before)
  | decline user peer id =>
      obtain ⟨present, ⟨-, rfl⟩ | ⟨chats, declined, rfl⟩⟩ := handle_cases stepped
      · exact .same regular
      obtain ⟨number, member, rfl⟩ := declineInvitation_cases (withPeer_ok declined).2
      refine .setChat regular (regular.nodup number) (List.Subset.refl _)
        (fun other referred => ?_) member
      rcases referred with before | before
      · exact .inl before
      · exact .inr (.inl (Finset.mem_of_mem_erase before))
  | finish user => exact absurd rfl (finishes user)

end Steps

/-- An action in a regular state keeps the chats exactly if it is orderly, and then the state after it
is regular.
-/
theorem keepsChats_iff {action : ChatAction υ} {server next : ChatServer υ}
    (regular : server.Regular) (stepped : step action server = some next)
    : (KeepsChats action server next ↔ isOrderly action server = true)
      ∧ (isOrderly action server = true → next.Regular) := by
  by_cases finishes : ∃ user, action = .finish user
  · obtain ⟨user, rfl⟩ := finishes
    exact keepsChats_finish regular stepped
  by_cases creates : ∃ user mayCreate, action = .create user mayCreate
  · obtain ⟨user, mayCreate, rfl⟩ := creates
    obtain ⟨after, keeps⟩ := keepsChats_create regular stepped
    exact ⟨keeps, fun _ => after⟩
  push Not at finishes creates
  have keeps := keeps_of_step regular stepped finishes creates
  have orderly : isOrderly action server = true := by
    cases action with
    | finish user => exact absurd rfl (finishes user)
    | create user mayCreate => exact absurd rfl (creates user mayCreate)
    | connect | join | leave | kick | invite | decline => rfl
  exact ⟨iff_of_true (keeps.keepsChats finishes) orderly, fun _ => keeps.regular⟩

/-- An action keeps the chats in the state in which it is taken. -/
def KeepsChatsFrom (action : ChatAction υ) (server : ChatServer υ) : Prop :=
  ∀ next, step action server = some next → KeepsChats action server next

/-- Every action of a sequence keeps the chats exactly if every session ends while all private chats
have members and without an invitation to a chat that goes on, and every new chat has an identifier
that no other private chat has.
-/
theorem keepsChats_iff_of_run {actions : List (ChatAction υ)} {last : ChatServer υ}
    (ran : Machine.run step actions initial = some last)
    : Machine.Meets step KeepsChatsFrom actions initial ↔
      Machine.Meets step (isOrderly · ·) actions initial := by
  have first : Regular (initial : ChatServer υ) :=
    ⟨fun _ => List.nodup_nil, fun number member => (List.mem_singleton.mp member).le,
      fun number _ user referred => by simp [initial, Chats.initial] at referred⟩
  refine Machine.meets_iff_meets_of_run ?_ ?_ ran first
  · intro action server next regular stepped
    rw [← (keepsChats_iff regular stepped).1]
    exact ⟨fun keeps => keeps next stepped,
      fun keeps other stepped' => Option.some.inj (stepped.symm.trans stepped') ▸ keeps⟩
  · exact fun action server next orderly regular stepped =>
      (keepsChats_iff regular stepped).2 orderly

/-- A user makes a chat, joins it, invites another and leaves, and both sessions end. -/
theorem keepsChats_iff_of_run_invitation
    : Machine.Meets step KeepsChatsFrom
        [.connect 0, .connect 1, .create 0 true, .join 0 2, .invite 0 1 2, .join 1 2, .leave 0 2,
          .finish 0, .finish 1] (initial : ChatServer ℕ) := by
  have reached : (Machine.run step
      [.connect 0, .connect 1, .create 0 true, .join 0 2, .invite 0 1 2, .join 1 2, .leave 0 2,
        .finish 0, .finish 1] (initial : ChatServer ℕ)).isSome = true := by
    decide
  obtain ⟨last, ran⟩ := Option.isSome_iff_exists.mp reached
  exact (keepsChats_iff_of_run ran).mpr (by decide)

/-- A user makes a chat. Before the user joins it, the session of another user ends, which removes the
chat.
-/
theorem not_keepsChats_unjoined
    : ¬∀ (actions : List (ChatAction ℕ)) (last : ChatServer ℕ),
        Machine.run step actions initial = some last →
        Machine.Meets step KeepsChatsFrom actions initial := by
  intro always
  have reached : (Machine.run step [.connect 0, .connect 1, .create 0 true, .finish 1]
      (initial : ChatServer ℕ)).isSome = true := by
    decide
  obtain ⟨last, ran⟩ := Option.isSome_iff_exists.mp reached
  have keeps := (((always _ last ran).2 _ rfl).2 _ rfl).2 _ rfl |>.1 _ rfl
  have joined := ((keeps.stays 2 (by decide) (by decide)).mp (by decide)).1
  exact joined (by decide)

end ChatServer

end WiredServer.Server
