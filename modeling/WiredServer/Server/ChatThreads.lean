import WiredServer.Server.Chats

/-! The threads of the sessions at the chats: an action is what a thread does under one lock, and the
actions of all threads interleave in any way that the lock of `wd_chats` allows.
-/

set_option linter.unusedSectionVars false

namespace WiredServer.Server

/-- The messages of a session about chats, with what its account allows. -/
inductive ChatRequest (υ : Type) where
  | create (mayCreate : Bool)
  | join (id : BitVec 32)
  | leave (id : BitVec 32)
  | kick (peer : υ) (id : BitVec 32) (mayKick : Bool)
  | invite (peer : υ) (id : BitVec 32)
  | decline (peer : υ) (id : BitVec 32)

/-- Where the thread of a session is: before it looks for the chat of a message, after it has found it,
between the locks of a handler, or in `wd_chats_remove_user`, which holds `wd_chats` for writing.
-/
inductive ChatPoint (υ : Type) where
  | absent
  | idle
  | looking (request : ChatRequest υ) (id : BitVec 32)
  | found (request : ChatRequest υ) (number : ℕ)
  | adding (number : ℕ)
  | joining (number : ℕ)
  | mayJoin (number : ℕ)
  | joined (number : ℕ)
  | kicking (number : ℕ) (peer : υ) (mayKick : Bool)
  | removing (number : ℕ) (member : υ)
  | testing (number : ℕ)
  | dropping (number : ℕ)
  | asking (number : ℕ) (peer : υ)
  | inviting (number : ℕ) (peer : υ)
  | declining (number : ℕ)
  | sweeping (rest : List ℕ)
  | sweepTesting (number : ℕ) (rest : List ℕ)
  | sweepDropping (number : ℕ) (rest : List ℕ)
  | ending
  | ended

/-- Whether the session of a thread is in `wd_users`. -/
def ChatPoint.isPresent {υ : Type} : ChatPoint υ → Bool
  | .absent | .ended => false
  | _ => true

/-- What the threads share, and where they are. `locked` is whether a thread holds `wd_chats` for
writing from one action to the next. Nothing in the code stores `entitled`, the users that made a
chat or were invited to it by a member.
-/
structure ChatState (υ : Type) where
  chats : Chats υ
  point : υ → ChatPoint υ
  locked : Bool
  entitled : ℕ → Finset υ

/-- The actions of a session's thread. A session that ends goes through `wd_chats` in any order. -/
inductive ChatStep (υ : Type) where
  | connect
  | start (request : ChatRequest υ)
  | next
  | finish (keys : List ℕ)

namespace ChatState

variable {υ : Type} [DecidableEq υ]

/-- The state before any session. -/
def initial : ChatState υ where
  chats := .initial
  point _ := .absent
  locked := false
  entitled _ := ∅

/-- The thread of a session goes on to a point. -/
def goTo (state : ChatState υ) (user : υ) (point : ChatPoint υ) : ChatState υ :=
  { state with point := Function.update state.point user point }

/-- The start of a handler. Only `create_chat` looks for no chat. The others that name a peer look for
it first.
-/
def stepStart (state : ChatState υ) (user : υ) : ChatRequest υ → ChatState υ
  | .create mayCreate =>
      if mayCreate then
        let (chats, number) := state.chats.privateChat
        { state with
          chats := chats.addInvitation number user
          entitled := Function.update state.entitled number
            (insert user (state.entitled number)) }.goTo user (.adding number)
      else state
  | .join id => state.goTo user (.looking (.join id) id)
  | .leave id => state.goTo user (.looking (.leave id) id)
  | .kick peer id mayKick =>
      if (state.point peer).isPresent then
        state.goTo user (.looking (.kick peer id mayKick) id)
      else state
  | .invite peer id =>
      if (state.point peer).isPresent then state.goTo user (.looking (.invite peer id) id)
      else state
  | .decline peer id =>
      if (state.point peer).isPresent then state.goTo user (.looking (.decline peer id) id)
      else state

/-- The point of a handler after its chat was found and its first test. -/
def afterFound (state : ChatState υ) (user : υ) (number : ℕ) : ChatRequest υ → ChatPoint υ
  | .create _ => .idle
  | .join _ => if user ∈ (state.chats.chat number).users then .idle else .joining number
  | .leave _ =>
      if user ∈ (state.chats.chat number).users then .removing number user else .idle
  | .kick peer _ mayKick =>
      if user ∈ (state.chats.chat number).users then .kicking number peer mayKick else .idle
  | .invite peer _ => if user ∈ (state.chats.chat number).users then .asking number peer else .idle
  | .decline _ _ =>
      if number ≠ publicChat ∧ user ∉ (state.chats.chat number).invited then .idle
      else .declining number

/-- The next step of a session's thread. -/
def stepNext (state : ChatState υ) (user : υ) : Option (ChatState υ) :=
  let chats := state.chats
  match state.point user with
  | .looking request id =>
      if state.locked then none
      else some (state.goTo user ((chats.chatWithId id).elim .idle (.found request)))
  | .found request number => some (state.goTo user (state.afterFound user number request))
  | .adding number =>
      if state.locked then none
      else some ({ state with chats := chats.addChat number }.goTo user .idle)
  | .joining number =>
      some (state.goTo user
        (if number ≠ publicChat ∧ user ∉ (chats.chat number).invited then .idle
        else .mayJoin number))
  | .mayJoin number =>
      some ({ state with chats := chats.addUser number user }.goTo user
        (if number ≠ publicChat then .joined number else .idle))
  | .joined number =>
      some ({ state with chats := chats.removeInvitation number user }.goTo user .idle)
  | .kicking number peer mayKick =>
      some (state.goTo user
        (if peer ∉ (chats.chat number).users ∨ number = publicChat ∧ !mayKick then .idle
        else .removing number peer))
  | .removing number member =>
      some ({ state with chats := chats.eraseUser number member }.goTo user (.testing number))
  | .testing number =>
      -- the members are counted without their lock
      some (state.goTo user (if chats.isAbandoned number then .dropping number else .idle))
  | .dropping number =>
      if state.locked then none
      else some ({ state with chats := chats.removeChat number }.goTo user .idle)
  | .asking number peer =>
      some (state.goTo user
        (if peer ∈ (chats.chat number).users then .idle else .inviting number peer))
  | .inviting number peer =>
      some ({ state with
        chats := chats.addInvitation number peer
        entitled :=
          if user ∈ (chats.chat number).users then
            Function.update state.entitled number (insert peer (state.entitled number))
          else state.entitled }.goTo user .idle)
  | .declining number =>
      some ({ state with chats := chats.removeInvitation number user }.goTo user .idle)
  | .sweeping [] => some ({ state with locked := false }.goTo user .ending)
  | .sweeping (number :: rest) =>
      some ({ state with chats := chats.eraseUser number user }.goTo user
        (.sweepTesting number rest))
  | .sweepTesting number rest =>
      some (state.goTo user
        (if chats.isAbandoned number then .sweepDropping number rest else .sweeping rest))
  | .sweepDropping number rest =>
      some ({ state with chats := chats.removeChat number }.goTo user (.sweeping rest))
  | .ending => some (state.goTo user .ended)
  | .absent | .idle | .ended => none

/-- The next step of any thread. -/
def step (action : υ × ChatStep υ) (state : ChatState υ) : Option (ChatState υ) :=
  match action.2, state.point action.1 with
  | .connect, .absent => some (state.goTo action.1 .idle)
  | .start request, .idle => some (state.stepStart action.1 request)
  | .next, _ => state.stepNext action.1
  | .finish keys, .idle =>
      if keys.Perm state.chats.numbers ∧ !state.locked then
        some ({ state with locked := true }.goTo action.1 (.sweeping keys))
      else none
  | _, _ => none

/-- Every member of a private chat made it or was invited by a member, nobody is in a chat twice, no
session that has ended is in a chat, and every chat with members is in `wd_chats`.
-/
structure KeepsMembers (state : ChatState υ) : Prop where
  entitled : ∀ number, number ≠ publicChat → ∀ user ∈ (state.chats.chat number).users,
    user ∈ state.entitled number
  nodup : ∀ number, (state.chats.chat number).users.Nodup
  present : ∀ number, ∀ user ∈ (state.chats.chat number).users, state.point user ≠ .ended
  reachable : ∀ number, (state.chats.chat number).users ≠ [] → number ∈ state.chats.numbers

/-- A removal from `wd_chats` or a new chat takes no chat with members away. -/
def isVacant (state : ChatState υ) (number : ℕ) : Bool :=
  state.chats.numbers.all fun other =>
    chatId other ≠ chatId number || (state.chats.chat other).users = []

/-- A user joins a chat that is still in `wd_chats`, a chat that is removed or replaced there has no
members by then, and whoever invites to a private chat is still a member.
-/
def isTimely (action : υ × ChatStep υ) (state : ChatState υ) : Bool :=
  match action.2, state.point action.1 with
  | .next, .mayJoin number => number ∈ state.chats.numbers
  | .next, .dropping number | .next, .sweepDropping number _ | .next, .adding number =>
      state.isVacant number
  | .next, .inviting number _ =>
      number = publicChat || action.1 ∈ (state.chats.chat number).users
  | _, _ => true

/-- What is known of the chats at any time. -/
structure Members (chats : Chats υ) (entitled : ℕ → Finset υ) : Prop where
  users : ∀ number, number ≠ publicChat → ∀ user ∈ (chats.chat number).users,
    user ∈ entitled number
  invited : ∀ number, number ≠ publicChat → ∀ user ∈ (chats.chat number).invited,
    user ∈ entitled number
  nodup : ∀ number, (chats.chat number).users.Nodup
  reachable : ∀ number, (chats.chat number).users ≠ [] → number ∈ chats.numbers

/-- What a thread knows of the chats at its point. -/
def Knows (chats : Chats υ) (entitled : ℕ → Finset υ) (user : υ) : ChatPoint υ → Prop
  | .joining number => user ∉ (chats.chat number).users
  | .mayJoin number => user ∉ (chats.chat number).users
      ∧ (number ≠ publicChat → user ∈ entitled number)
  | .sweeping rest | .sweepTesting _ rest | .sweepDropping _ rest =>
      ∀ number, user ∈ (chats.chat number).users → number ∈ rest
  | .ending | .ended => ∀ number, user ∉ (chats.chat number).users
  | _ => True

/-- What is known of the chats, by all threads. -/
structure Sound (state : ChatState υ) : Prop where
  members : Members state.chats state.entitled
  knows : ∀ user, Knows state.chats state.entitled user (state.point user)

section Members

variable {chats chats' : Chats υ} {entitled entitled' : ℕ → Finset υ} {number : ℕ} {user : υ}

/-- What a thread knows stays true while nobody makes its user a member of a chat or takes from those
who are entitled.
-/
theorem Knows.mono {point : ChatPoint υ} (knows : Knows chats entitled user point)
    (members : ∀ number, user ∈ (chats'.chat number).users → user ∈ (chats.chat number).users)
    (grows : ∀ number, user ∈ entitled number → user ∈ entitled' number)
    : Knows chats' entitled' user point := by
  cases point with
  | joining number => exact fun member => knows (members number member)
  | mayJoin number =>
      exact ⟨fun member => knows.1 (members number member),
        fun private' => grows number (knows.2 private')⟩
  | sweeping rest | sweepTesting number rest | sweepDropping number rest =>
      exact fun number member => knows number (members number member)
  | ending | ended => exact fun number member => knows number (members number member)
  | absent | idle | looking | found | adding | joined | kicking | removing | testing | dropping
  | asking | inviting | declining => trivial

/-- A change of one chat. -/
theorem Members.setChat {chat : Chat υ} (holds : Members chats entitled)
    (users : number ≠ publicChat → ∀ user ∈ chat.users, user ∈ entitled number)
    (invited : number ≠ publicChat → ∀ user ∈ chat.invited, user ∈ entitled number)
    (nodup : chat.users.Nodup) (reachable : chat.users ≠ [] → number ∈ chats.numbers)
    : Members (chats.setChat number chat) entitled := by
  have cases : ∀ other, other = number ∧ (chats.setChat number chat).chat other = chat
      ∨ (chats.setChat number chat).chat other = chats.chat other := by
    intro other
    by_cases same : other = number
    · subst same
      exact .inl ⟨rfl, Function.update_self ..⟩
    · exact .inr (Function.update_of_ne same ..)
  constructor <;> intro other
  · rcases cases other with ⟨rfl, same⟩ | same <;> rw [same]
    · exact users
    · exact holds.users other
  · rcases cases other with ⟨rfl, same⟩ | same <;> rw [same]
    · exact invited
    · exact holds.invited other
  · rcases cases other with ⟨rfl, same⟩ | same <;> rw [same]
    · exact nodup
    · exact holds.nodup other
  · rcases cases other with ⟨rfl, same⟩ | same <;> rw [same]
    · exact reachable
    · exact holds.reachable other

/-- More users are entitled. -/
theorem Members.entitle (holds : Members chats entitled)
    (grows : ∀ number, entitled number ⊆ entitled' number)
    : Members chats entitled' where
  users number private' user member := grows number (holds.users number private' user member)
  invited number private' user member := grows number (holds.invited number private' user member)
  nodup := holds.nodup
  reachable := holds.reachable

/-- A chat is made. -/
theorem Members.privateChat (holds : Members chats entitled)
    : Members chats.privateChat.1 entitled := by
  have made : Members (chats.setChat (chats.current + 1) { users := [], invited := ∅ }) entitled :=
    holds.setChat (by simp) (by simp) List.nodup_nil (by simp)
  exact ⟨made.users, made.invited, made.nodup, made.reachable⟩

/-- A member leaves a chat. -/
theorem Members.eraseUser (holds : Members chats entitled)
    : Members (chats.eraseUser number user) entitled := by
  refine holds.setChat (fun private' other member => ?_) (holds.invited number)
    ((holds.nodup number).erase user) fun some' => holds.reachable number fun none' => ?_
  · exact holds.users number private' other (List.mem_of_mem_erase member)
  · exact some' (by rw [Chat.without, none', List.erase_nil])

/-- An invitation is removed. -/
theorem Members.removeInvitation (holds : Members chats entitled)
    : Members (chats.removeInvitation number user) entitled :=
  holds.setChat (holds.users number)
    (fun private' other member =>
      holds.invited number private' other (Finset.mem_of_mem_erase member))
    (holds.nodup number) (holds.reachable number)

/-- An entitled user is invited. -/
theorem Members.addInvitation (holds : Members chats entitled)
    (may : number ≠ publicChat → user ∈ entitled number)
    : Members (chats.addInvitation number user) entitled := by
  refine holds.setChat (holds.users number) (fun private' other member => ?_)
    (holds.nodup number) (holds.reachable number)
  rcases Finset.mem_insert.mp member with rfl | member
  · exact may private'
  · exact holds.invited number private' other member

/-- An entitled user joins a chat in `wd_chats`. -/
theorem Members.addUser (holds : Members chats entitled)
    (absent : user ∉ (chats.chat number).users)
    (may : number ≠ publicChat → user ∈ entitled number) (listed : number ∈ chats.numbers)
    : Members (chats.addUser number user) entitled := by
  refine holds.setChat (fun private' other member => ?_) (holds.invited number) ?_
    fun _ => listed
  · rcases List.mem_append.mp member with member | member
    · exact holds.users number private' other member
    · exact List.mem_singleton.mp member ▸ may private'
  · exact (holds.nodup number).append (List.nodup_singleton user)
      (List.disjoint_singleton.mpr absent)

/-- Every chat with a given identifier in `wd_chats` is without members. -/
def Vacant (chats : Chats υ) (number : ℕ) : Prop :=
  ∀ other ∈ chats.numbers, chatId other = chatId number → (chats.chat other).users = []

theorem vacant_of_isVacant {state : ChatState υ} (vacant : state.isVacant number = true)
    : Vacant state.chats number := by
  intro other member same
  have holds := List.all_eq_true.mp vacant other member
  simpa [same] using holds

/-- A chat without members is removed. -/
theorem Members.removeChat (holds : Members chats entitled) (vacant : Vacant chats number)
    : Members (chats.removeChat number) entitled where
  users := holds.users
  invited := holds.invited
  nodup := holds.nodup
  reachable other some' := by
    have member := holds.reachable other some'
    refine List.mem_filter.mpr ⟨member, ?_⟩
    simpa using fun same => some' (vacant other member same)

/-- A new chat takes the place of chats without members. -/
theorem Members.addChat (holds : Members chats entitled) (vacant : Vacant chats number)
    : Members (chats.addChat number) entitled where
  users := holds.users
  invited := holds.invited
  nodup := holds.nodup
  reachable other some' :=
    List.mem_append_left _ ((holds.removeChat vacant).reachable other some')

end Members

section Steps

variable {state next : ChatState υ} {user : υ}

/-- A thread goes on to a point whose facts hold, and makes nobody else a member. -/
theorem Sound.move {chats : Chats υ} {entitled : ℕ → Finset υ} {locked : Bool}
    {point : ChatPoint υ} (sound : Sound state) (members : Members chats entitled)
    (joins : ∀ number, ∀ other ≠ user, other ∈ (chats.chat number).users →
      other ∈ (state.chats.chat number).users)
    (grows : ∀ number, state.entitled number ⊆ entitled number)
    (knows : Knows chats entitled user point)
    : Sound { chats, entitled, locked, point := Function.update state.point user point } where
  members := members
  knows other := by
    by_cases same : other = user
    · subst same
      simpa only [Function.update_self] using knows
    · simp only [Function.update_of_ne same]
      exact (sound.knows other).mono (fun number => joins number other same)
        fun number member => grows number member

/-- A thread goes on to a point whose facts hold. -/
theorem Sound.goTo {point : ChatPoint υ} (sound : Sound state)
    (knows : Knows state.chats state.entitled user point)
    : Sound (state.goTo user point) :=
  sound.move sound.members (fun _ _ _ => id) (fun _ => Finset.Subset.refl _) knows

/-- Members of a chat after one of its chats was changed. -/
theorem mem_setChat {chats : Chats υ} {number other : ℕ} {chat : Chat υ} {member : υ}
    (isMember : member ∈ ((chats.setChat number chat).chat other).users)
    : other = number ∧ member ∈ chat.users
      ∨ other ≠ number ∧ member ∈ (chats.chat other).users := by
  by_cases same : other = number
  · subst same
    rw [Chats.setChat_chat_self] at isMember
    exact .inl ⟨rfl, isMember⟩
  · rw [Chats.setChat_chat_of_ne same] at isMember
    exact .inr ⟨same, isMember⟩

theorem mem_of_mem_eraseUser {chats : Chats υ} {number other : ℕ} {member leaving : υ}
    (isMember : member ∈ ((chats.eraseUser number leaving).chat other).users)
    : member ∈ (chats.chat other).users := by
  rcases mem_setChat isMember with ⟨rfl, still⟩ | ⟨-, still⟩
  · exact List.mem_of_mem_erase still
  · exact still

theorem mem_of_mem_invitation {chats : Chats υ} {number other : ℕ} {member : υ}
    {invited : Finset υ}
    (isMember : member ∈ ((chats.setChat number
      { chats.chat number with invited := invited }).chat other).users)
    : member ∈ (chats.chat other).users := by
  rcases mem_setChat isMember with ⟨rfl, still⟩ | ⟨-, still⟩
  · exact still
  · exact still

/-- One user more is entitled to a chat. -/
theorem subset_entitle {entitled : ℕ → Finset υ} {number : ℕ} {member : υ} (other : ℕ)
    : entitled other ⊆ Function.update entitled number (insert member (entitled number)) other := by
  by_cases same : other = number
  · subst same
    rw [Function.update_self]
    exact Finset.subset_insert member _
  · rw [Function.update_of_ne same]

/-- The step of a thread keeps what is known, if it is timely. -/
theorem sound_of_next (sound : Sound state) (timely : isTimely (user, .next) state = true)
    (stepped : state.stepNext user = some next)
    : Sound next := by
  have mine := sound.knows user
  have same : ∀ number, state.entitled number ⊆ state.entitled number := fun _ =>
    Finset.Subset.refl _
  unfold stepNext at stepped
  simp only at stepped
  split at stepped
  case h_1 request id here =>
      split at stepped
      · cases stepped
      cases stepped
      refine sound.goTo ?_
      cases state.chats.chatWithId id <;> trivial
  case h_2 request number here =>
      cases stepped
      refine sound.goTo ?_
      cases request with
      | join =>
          rw [afterFound]
          split
          · trivial
          · assumption
      | create | leave | kick | invite | decline =>
          rw [afterFound]
          try split
          all_goals trivial
  case h_3 number here =>
      simp only [isTimely, here] at timely
      split at stepped <;> cases stepped
      exact sound.move (sound.members.addChat (vacant_of_isVacant timely)) (fun _ _ _ => id) same
        trivial
  case h_4 number here =>
      cases stepped
      refine sound.goTo ?_
      rw [here] at mine
      split
      · trivial
      · rename_i may
        refine ⟨mine, fun private' => sound.members.invited number private' user ?_⟩
        by_contra uninvited
        exact may ⟨private', uninvited⟩
  case h_5 number here =>
      simp only [isTimely, here, decide_eq_true_eq] at timely
      rw [here] at mine
      cases stepped
      refine sound.move (sound.members.addUser mine.1 mine.2 timely) ?_ same ?_
      · intro other member ne isMember
        rcases mem_setChat isMember with ⟨rfl, still⟩ | ⟨-, still⟩
        · rcases List.mem_append.mp still with still | own
          · exact still
          · exact absurd (List.mem_singleton.mp own) ne
        · exact still
      · split <;> trivial
  case h_6 number here =>
      cases stepped
      exact sound.move sound.members.removeInvitation (fun _ _ _ => mem_of_mem_invitation) same
        trivial
  case h_7 number peer mayKick here =>
      cases stepped
      refine sound.goTo ?_
      split <;> trivial
  case h_8 number member here =>
      cases stepped
      exact sound.move sound.members.eraseUser (fun _ _ _ => mem_of_mem_eraseUser) same trivial
  case h_9 number here =>
      cases stepped
      refine sound.goTo ?_
      split <;> trivial
  case h_10 number here =>
      simp only [isTimely, here] at timely
      split at stepped <;> cases stepped
      exact sound.move (sound.members.removeChat (vacant_of_isVacant timely)) (fun _ _ _ => id)
        same trivial
  case h_11 number peer here =>
      cases stepped
      refine sound.goTo ?_
      split <;> trivial
  case h_12 number peer here =>
      simp only [isTimely, here, Bool.or_eq_true, decide_eq_true_eq] at timely
      cases stepped
      split
      · refine sound.move ((sound.members.entitle subset_entitle).addInvitation fun _ => ?_)
          (fun _ _ _ => mem_of_mem_invitation) subset_entitle trivial
        simp
      · rename_i outside
        refine sound.move (sound.members.addInvitation fun private' => ?_)
          (fun _ _ _ => mem_of_mem_invitation) same trivial
        exact absurd (timely.resolve_left private') outside
  case h_13 number here =>
      cases stepped
      exact sound.move sound.members.removeInvitation (fun _ _ _ => mem_of_mem_invitation) same
        trivial
  case h_14 here =>
      rw [here] at mine
      cases stepped
      exact sound.move sound.members (fun _ _ _ => id) same fun number member =>
        absurd (mine number member) List.not_mem_nil
  case h_15 number rest here =>
      rw [here] at mine
      cases stepped
      refine sound.move sound.members.eraseUser (fun _ _ _ => mem_of_mem_eraseUser) same ?_
      intro other isMember
      rcases mem_setChat isMember with ⟨rfl, still⟩ | ⟨ne, still⟩
      · exact absurd still (sound.members.nodup other).not_mem_erase
      · exact (List.mem_cons.mp (mine other still)).resolve_left ne
  case h_16 number rest here =>
      rw [here] at mine
      cases stepped
      refine sound.goTo ?_
      split <;> exact mine
  case h_17 number rest here =>
      simp only [isTimely, here] at timely
      rw [here] at mine
      cases stepped
      exact sound.move (sound.members.removeChat (vacant_of_isVacant timely)) (fun _ _ _ => id)
        same mine
  case h_18 here =>
      rw [here] at mine
      cases stepped
      exact sound.goTo mine
  all_goals cases stepped

/-- The start of a handler keeps what is known. -/
theorem sound_of_start (sound : Sound state) (request : ChatRequest υ)
    : Sound (state.stepStart user request) := by
  cases request with
  | create mayCreate =>
      rw [stepStart]
      split
      · refine sound.move ?_ ?_ subset_entitle trivial
        · refine (sound.members.privateChat.entitle subset_entitle).addInvitation fun _ => ?_
          simp
        · intro number other ne isMember
          rcases mem_setChat (mem_of_mem_invitation isMember) with ⟨rfl, none'⟩ | ⟨-, still⟩
          · exact absurd none' List.not_mem_nil
          · exact still
      · exact sound
  | join id | leave id => exact sound.goTo trivial
  | kick peer id mayKick | invite peer id | decline peer id =>
      rw [stepStart]
      split
      · exact sound.goTo trivial
      · exact sound

/-- Every timely step of a thread keeps what is known. -/
theorem sound_of_step {action : υ × ChatStep υ} (timely : isTimely action state = true)
    (sound : Sound state) (stepped : step action state = some next)
    : Sound next := by
  obtain ⟨user, action⟩ := action
  unfold step at stepped
  split at stepped
  · cases stepped
    exact sound.goTo trivial
  · cases stepped
    exact sound_of_start sound _
  · rename_i request here
    simp only at here
    subst here
    exact sound_of_next sound timely stepped
  · split at stepped <;> cases stepped
    rename_i keys here may
    refine sound.move sound.members (fun _ _ _ => id) (fun _ => Finset.Subset.refl _) ?_
    intro number isMember
    exact may.1.mem_iff.mpr (sound.members.reachable number (List.ne_nil_of_mem isMember))
  · cases stepped

/-- In every run in which each user joins a chat that is still in `wd_chats`, no chat is removed or
replaced there while it has members, and only members invite to private chats, every member of a
private chat made it or was invited by a member, nobody is in a chat twice or after the end of the
session, and every chat with members is in `wd_chats`.
-/
theorem keepsMembers_of_run {actions : List (υ × ChatStep υ)} {last : ChatState υ}
    (ran : Machine.run step actions initial = some last)
    (timely : Machine.Meets step (isTimely · ·) actions initial)
    : last.KeepsMembers := by
  have first : Sound (initial : ChatState υ) := by
    refine ⟨⟨?_, ?_, ?_, ?_⟩, fun _ => trivial⟩ <;> intro number <;> simp [initial, Chats.initial]
  have sound := Machine.holds_of_run
    (fun action state next timely sound stepped => sound_of_step timely sound stepped)
    ran timely first
  refine ⟨sound.members.users, sound.members.nodup, fun number user member ended => ?_,
    sound.members.reachable⟩
  have outside := sound.knows user
  rw [ended] at outside
  exact outside number member

end Steps

/-- The steps of a handler that looks for a chat and passes its tests. -/
def handling (user : υ) (request : ChatRequest υ) (steps : ℕ) : List (υ × ChatStep υ) :=
  (user, .start request) :: List.replicate steps (user, .next)

/-- Two users connect, one makes a chat, joins it and invites the other, and the other joins. -/
def joiningRun : List (ℕ × ChatStep ℕ) :=
  [(0, .connect), (1, .connect)] ++ handling 0 (.create true) 1 ++ handling 0 (.join 2) 5
    ++ handling 0 (.invite 1 2) 4 ++ handling 1 (.join 2) 3

/-- When the other joins before the first leaves, the chats keep their members. -/
theorem keepsMembers_of_run_joined
    : ∃ last, Machine.run step (joiningRun ++ [(1, .next), (1, .next)] ++ handling 0 (.leave 2) 4)
        initial = some last ∧ last.KeepsMembers := by
  have reached : (Machine.run step
      (joiningRun ++ [(1, .next), (1, .next)] ++ handling 0 (.leave 2) 4)
      (initial : ChatState ℕ)).isSome = true := by
    decide
  obtain ⟨last, ran⟩ := Option.isSome_iff_exists.mp reached
  exact ⟨last, ran, keepsMembers_of_run ran (by decide)⟩

/-- When the first leaves while the other joins, the other is a member of a chat that is not in
`wd_chats`.
-/
theorem not_keepsMembers_raced
    : ¬∀ (actions : List (ℕ × ChatStep ℕ)) (last : ChatState ℕ),
        Machine.run step actions initial = some last → last.KeepsMembers := by
  intro always
  have reached : (Machine.run step
      (joiningRun ++ handling 0 (.leave 2) 4 ++ [(1, .next), (0, .next)])
      (initial : ChatState ℕ)).map (fun last =>
        ((last.chats.chat 2).users, last.chats.numbers)) = some ([1], [1]) := by
    decide
  obtain ⟨last, ran, chats⟩ := Option.map_eq_some_iff.mp reached
  simp only [Prod.mk.injEq] at chats
  have listed := (always _ last ran).reachable 2 (by simp [chats.1])
  rw [chats.2] at listed
  simp at listed

end ChatState

end WiredServer.Server
