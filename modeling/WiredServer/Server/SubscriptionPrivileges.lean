import WiredServer.Server.SessionAccounts

/-! The privileges behind the subscriptions of the sessions. An account that is edited takes with it
the subscriptions for which it has no privilege any more, except those to events, and a login under
another account takes none.
-/

namespace WiredServer.Server

/-- What an account must have for the subscriptions of a session. -/
def Account.Entitles (account : Account) (isSubscribed : Topic → Bool)
    (subscribedPaths : Multiset (List Char)) : Prop :=
  (∀ topic, isSubscribed topic = true → account.boolean topic.privilege = true)
    ∧ (subscribedPaths ≠ 0 → account.boolean .fileListFiles = true)

/-- What an account must have can be checked. -/
instance (account : Account) (isSubscribed : Topic → Bool)
    (subscribedPaths : Multiset (List Char))
    : Decidable (account.Entitles isSubscribed subscribedPaths) :=
  inferInstanceAs (Decidable (_ ∧ _))

/-- A session that has subscriptions carries an account that has the privileges for them. -/
def IsEntitled (session : Member × SubscribedUser) : Prop :=
  (session.1.account = none → (∀ topic, session.1.isSubscribed topic = false)
      ∧ session.2.subscribedPaths = 0)
    ∧ ∀ account, session.1.account = some account →
      account.Entitles session.1.isSubscribed session.2.subscribedPaths

/-- Whether a message edits an account, which the sessions that carry it then read again. -/
def MemberRequest.editsAccounts : MemberRequest → Bool
  | .editUser _ | .editGroup _ => true
  | _ => false

namespace Members

variable {σ : Type} [DecidableEq σ]

/-- All sessions have the privileges for their subscriptions. -/
def Entitled (state : Members σ) : Prop :=
  ∀ user ∈ state.subscriptions.users,
    IsEntitled (state.member user, state.subscriptions.user user)

/-- The account as which a session is let in by a message. -/
def entering (state : Members σ) (around : HandlerSurroundings σ) : MemberRequest → Option Account
  | .sendLogin banned login password =>
      if banned then none
      else
        (state.database.readUserAndGroup around.memory login).filter
          (·.string .password = password)
  | _ => none

/-- The account that a message gives a session again. -/
def given (state : Members σ) (around : HandlerSurroundings σ) (user : σ) (request : MemberRequest)
    (peer : σ)
    : Option Account :=
  match (state.member user).account, request with
  | some account, .editUser message =>
      match state.database.messageEditUser account around.nick around.now around.memory message with
      | .error _ => none
      | .ok (database, edited) => userRead around database edited peer (state.member peer)
  | some account, .editGroup message =>
      match state.database.messageEditGroup account around.nick around.now around.memory message with
      | .error _ => none
      | .ok (database, edited) => groupRead around database edited peer (state.member peer)
  | _, _ => none

/-- A message lets no session in as an account that has not the privileges for all its subscriptions,
and takes from no account the privilege to view events whose session is subscribed to them.
-/
def KeepsPrivileges (action : MembersAction σ) (state : Members σ) : Prop :=
  match action with
  | .request user request around =>
      request.handler.isInSequence (state.member user).state = true →
        (∀ account ∈ state.entering around request,
          account.Entitles (state.member user).isSubscribed
            (state.subscriptions.user user).subscribedPaths)
        ∧ ∀ peer ∈ state.subscriptions.users, ∀ account ∈ state.given around user request peer,
          (state.member peer).isSubscribed .events = true →
            account.boolean .eventsViewEvents = true
  | _ => True

/-- The condition can be checked. -/
instance (action : MembersAction σ) (state : Members σ) : Decidable (KeepsPrivileges action state) :=
  match action with
  | .request .. => inferInstanceAs (Decidable (_ → _ ∧ _))
  | .addUser _ | .fseventsCallback .. | .writeFails _ | .removeUser .. => .isTrue trivial

end Members

-----------------------------------------------------------------------------------------
-- One session
-----------------------------------------------------------------------------------------

section Session

variable {member : Member} {directories : SubscribedUser} {account : Account}

/-- A session that carries an account. -/
theorem isEntitled_iff (carries : member.account = some account)
    : IsEntitled (member, directories)
      ↔ account.Entitles member.isSubscribed directories.subscribedPaths := by
  simp [IsEntitled, carries]

/-- The state and the login of a session say nothing of its privileges. -/
theorem isEntitled_congr {other : Member} {directories' : SubscribedUser}
    (carries : other.account = member.account) (topics : other.isSubscribed = member.isSubscribed)
    (paths : directories'.subscribedPaths = directories.subscribedPaths)
    : IsEntitled (other, directories') ↔ IsEntitled (member, directories) := by
  simp only [IsEntitled, carries, topics, paths]

/-- A session that has just connected has no subscriptions. -/
theorem isEntitled_initial : IsEntitled (Member.initial, SubscribedUser.initial) :=
  ⟨fun _ => ⟨fun _ => rfl, rfl⟩, nofun⟩

/-- The session keeps what it may have when it subscribes to a topic, for which it needs the privilege. -/
theorem IsEntitled.messageSubscribe (entitled : IsEntitled (member, directories))
    (carries : member.account = some account) (topic : Topic)
    : IsEntitled ((member.messageSubscribe account topic).toOption.getD member, directories) := by
  rw [Member.messageSubscribe]
  split_ifs with lacks already
  · exact entitled
  · exact entitled
  · obtain ⟨topics, paths⟩ := (isEntitled_iff carries).mp entitled
    have subscribed : (member.subscribe topic true).account = some account := carries
    refine (isEntitled_iff subscribed).mpr ⟨fun other isSubscribed => ?_, paths⟩
    by_cases same : other = topic
    · subst same
      simpa using lacks
    · exact topics other (by simpa [Member.subscribe, same] using isSubscribed)

/-- The session keeps what it may have when it ends a subscription. -/
theorem IsEntitled.messageUnsubscribe (entitled : IsEntitled (member, directories))
    (carries : member.account = some account) (topic : Topic)
    : IsEntitled ((member.messageUnsubscribe account topic).toOption.getD member, directories) := by
  rw [Member.messageUnsubscribe]
  split_ifs with lacks already
  · exact entitled
  · exact entitled
  · obtain ⟨topics, paths⟩ := (isEntitled_iff carries).mp entitled
    have subscribed : (member.subscribe topic false).account = some account := carries
    refine (isEntitled_iff subscribed).mpr ⟨fun other isSubscribed => ?_, paths⟩
    by_cases same : other = topic
    · subst same
      simp [Member.subscribe] at isSubscribed
    · exact topics other (by simpa [Member.subscribe, same] using isSubscribed)

/-- After an account was read again, only the subscription to events can be without its privilege. -/
theorem isEntitled_reload_iff (newaccount : Account)
    : IsEntitled (member.reload newaccount,
          directories.reload (newaccount.boolean .fileListFiles))
      ↔ (member.isSubscribed .events = true → newaccount.boolean .eventsViewEvents = true) := by
  have subscribed : (member.reload newaccount).account = some newaccount := rfl
  rw [isEntitled_iff subscribed]
  constructor
  · intro entitles isSubscribed
    exact entitles.1 .events (by simpa [Member.reload, Topic.isReloaded] using isSubscribed)
  · intro events
    refine ⟨fun topic isSubscribed => ?_, fun paths => ?_⟩
    · rw [Member.reload, Bool.and_eq_true, Bool.or_eq_true] at isSubscribed
      obtain ⟨was, unlooked | has⟩ := isSubscribed
      · cases topic with
        | events => exact events was
        | accounts | boards | log => cases unlooked
      · exact has
    · by_contra lacks
      rw [SubscribedUser.reload, Bool.eq_false_of_not_eq_true lacks] at paths
      by_cases empty : directories.subscribedPaths = 0
      · exact paths (by simp [empty])
      · exact paths (by simp [empty, SubscribedUser.initial])

/-- The session keeps what it may have when its subscriptions to directories change. -/
theorem IsEntitled.withDirectories (entitled : IsEntitled (member, directories))
    {directories' : SubscribedUser}
    (may : directories'.subscribedPaths ≠ 0 → directories'.subscribedPaths ≠ directories.subscribedPaths →
      ∃ account, member.account = some account ∧ account.boolean .fileListFiles = true)
    : IsEntitled (member, directories') := by
  by_cases same : directories'.subscribedPaths = directories.subscribedPaths
  · exact (isEntitled_congr rfl rfl same).mpr entitled
  refine ⟨fun none => ⟨(entitled.1 none).1, ?_⟩, fun account carries => ⟨?_, fun paths => ?_⟩⟩
  · by_contra paths
    obtain ⟨account, carries, -⟩ := may paths same
    rw [none] at carries
    cases carries
  · exact (entitled.2 account carries).1
  · obtain ⟨other, carries', lists⟩ := may paths same
    cases carries.symm.trans carries'
    exact lists

end Session

-----------------------------------------------------------------------------------------
-- One step
-----------------------------------------------------------------------------------------

namespace Members

section Steps

variable {σ : Type} [DecidableEq σ] {state next : Members σ} {user : σ}
  {around : HandlerSurroundings σ}

/-- A step that changes one session keeps the privileges if it keeps them in this one. -/
theorem entitled_iff_of_one (entitled : state.Entitled) (here : user ∈ state.subscriptions.users)
    (users : next.subscriptions.users = state.subscriptions.users)
    (others : ∀ other, other ≠ user → next.member other = state.member other
      ∧ next.subscriptions.user other = state.subscriptions.user other)
    : next.Entitled ↔ IsEntitled (next.member user, next.subscriptions.user user) := by
  constructor
  · intro all
    exact all user (users ▸ here)
  · intro own other listed
    by_cases same : other = user
    · rw [same]
      exact own
    · obtain ⟨member, directories⟩ := others other same
      rw [member, directories]
      exact entitled other (users ▸ listed)

/-- A change of what a session has apart from its directories. -/
theorem entitled_setMember_iff (entitled : state.Entitled) (here : user ∈ state.subscriptions.users)
    (member : Member)
    : (state.setMember user member).Entitled
      ↔ IsEntitled (member, state.subscriptions.user user) := by
  have users : (state.setMember user member).subscriptions.users = state.subscriptions.users := rfl
  have others : ∀ other, other ≠ user → (state.setMember user member).member other = state.member other
      ∧ (state.setMember user member).subscriptions.user other = state.subscriptions.user other :=
    fun other ne => ⟨Function.update_of_ne ne _ _, rfl⟩
  rw [entitled_iff_of_one entitled here users others, member_setMember]
  rfl

/-- A change of the directories of a session. -/
theorem entitled_directories (entitled : state.Entitled) (here : user ∈ state.subscriptions.users)
    {subscriptions : Subscriptions σ} {directories : SubscribedUser}
    (users : subscriptions.users = state.subscriptions.users)
    (same : subscriptions.user = Function.update state.subscriptions.user user directories)
    (may : directories.subscribedPaths ≠ 0 →
      directories.subscribedPaths ≠ (state.subscriptions.user user).subscribedPaths →
      ∃ account, (state.member user).account = some account
        ∧ account.boolean .fileListFiles = true)
    : { state with subscriptions }.Entitled := by
  have others : ∀ other, other ≠ user →
      ({ state with subscriptions } : Members σ).member other = state.member other
      ∧ subscriptions.user other = state.subscriptions.user other :=
    fun other ne => ⟨rfl, by rw [same, Function.update_of_ne ne]⟩
  refine (entitled_iff_of_one entitled here users others).mpr ?_
  rw [same, Function.update_self]
  exact (entitled user here).withDirectories may

/-- A login keeps the privileges exactly when it is refused or the account has them. -/
theorem entitled_sendLogin_iff (entitled : state.Entitled) (here : user ∈ state.subscriptions.users)
    (banned : Bool) (login password : String)
    : (state.sendLogin around user banned login password).Entitled
      ↔ ∀ account ∈ state.entering around (.sendLogin banned login password),
        account.Entitles (state.member user).isSubscribed
          (state.subscriptions.user user).subscribedPaths := by
  have asked : (state.setMember user { state.member user with login := some login }).Entitled :=
    (entitled_setMember_iff entitled here _).mpr
      ((isEntitled_congr (by rfl) (by rfl) rfl).mpr (entitled user here))
  simp only [sendLogin, entering]
  cases banned with
  | true => exact iff_of_true asked nofun
  | false =>
      cases read : state.database.readUserAndGroup around.memory login with
      | none => exact iff_of_true asked nofun
      | some account =>
          by_cases right : account.string .password = password
          · have letIn : ∀ other : Account, other ∈ (some account).filter
                (fun other => decide (other.string .password = password)) ↔ other = account := by
              simp [Option.filter, right, eq_comm]
            have subscribed : ((state.setMember user
                { state.member user with login := some login }).member user).isSubscribed
                = (state.member user).isSubscribed := by
              rw [member_setMember]
            simp only [Bool.false_eq_true, if_false, letIn, forall_eq, right, if_true]
            -- the time of the login in the database says nothing of the sessions
            refine (entitled_setMember_iff asked here _).trans ?_
            exact (isEntitled_iff rfl).trans (iff_of_eq (by rw [subscribed]; rfl))
          · simpa [Option.filter, right] using asked

/-- A loop that reads accounts again keeps the privileges exactly when no session that is subscribed to
events loses the privilege for them.
-/
theorem entitled_foldl_give_iff {read : σ → Member → Option Account} {order : List σ}
    (entitled : state.Entitled) (distinct : order.Nodup)
    (lists : order.toFinset = state.subscriptions.users)
    : (order.foldl (give around read) state).Entitled
      ↔ ∀ peer ∈ state.subscriptions.users, ∀ account ∈ read peer (state.member peer),
        (state.member peer).isSubscribed .events = true →
          account.boolean .eventsViewEvents = true := by
  obtain ⟨-, users, sessions⟩ : (order.foldl (give around read) state).database = state.database ∧ _ :=
    foldl_give distinct
  unfold Entitled
  rw [users]
  refine forall₂_congr fun peer listed => ?_
  have mem : peer ∈ order := List.mem_toFinset.mp (lists ▸ listed)
  rw [sessions peer, if_pos mem]
  cases given : read peer (state.member peer) with
  | none => exact iff_of_true (entitled peer listed) nofun
  | some account =>
      rw [afterReload, isEntitled_reload_iff]
      simp

/-- A directory that has gone ends only subscriptions that there are. -/
theorem entitled_callback {path : List Char} {order : List σ} {isLoggedIn : σ → Bool}
    {opened : σ → List Char → Option ℕ} {watching : Bool} (entitled : state.Entitled)
    (lists : ∀ user ∈ order, user ∈ state.subscriptions.users)
    : { state with
        subscriptions := order.foldl
          (Subscriptions.filesFseventsCallbackForUser watching path isLoggedIn opened)
          state.subscriptions }.Entitled := by
  induction order generalizing state with
  | nil => exact entitled
  | cons user order ih =>
      have here := lists user List.mem_cons_self
      rw [List.foldl_cons, Subscriptions.filesFseventsCallbackForUser]
      split
      · rename_i watched
        have nonempty : (state.subscriptions.user user).subscribedPaths ≠ 0 := by
          intro empty
          simp [empty] at watched
        have after : { state with
            subscriptions := state.subscriptions.unsubscribePath watching user path
              (opened user) }.Entitled := by
          refine entitled_directories entitled here rfl
            (Subscriptions.user_unsubscribePath ..) fun _ _ => ?_
          cases carries : (state.member user).account with
          | none => exact absurd ((entitled user here).1 carries).2 nonempty
          | some account => exact ⟨account, rfl, ((entitled user here).2 account carries).2 nonempty⟩
        exact ih after fun other mem => lists other (List.mem_cons_of_mem _ mem)
      · exact ih entitled fun other mem => lists other (List.mem_cons_of_mem _ mem)

/-- An edit keeps the privileges exactly when no session that is subscribed to events loses the one for
them.
-/
theorem entitled_edit_iff (database : Database) {turn : Members σ → σ → Members σ}
    (readFrom : Database → σ → Member → Option Account)
    (turn_eq : ∀ (state : Members σ) user,
      turn state user = state.give around (readFrom state.database) user)
    (entitled : state.Entitled) (lists : state.Lists around)
    : (around.order.foldl turn { state with database }).Entitled
      ↔ ∀ peer ∈ state.subscriptions.users,
        ∀ account ∈ readFrom database peer (state.member peer),
          (state.member peer).isSubscribed .events = true →
            account.boolean .eventsViewEvents = true := by
  have written : { state with database }.Entitled := entitled
  rw [foldl_turns turn_eq, entitled_foldl_give_iff written lists.1 lists.2]

/-- Nothing is asked of an account that there is not. -/
theorem forall_mem_none {asked : Account → Prop}
    : ∀ account ∈ (none : Option Account), asked account :=
  fun account mem => absurd mem (Option.not_mem_none account)

omit [DecidableEq σ] in
/-- A message that edits no account gives none again. -/
theorem given_of_not_editsAccounts {request : MemberRequest} (other : request.editsAccounts = false)
    (peer : σ)
    : state.given around user request peer = none := by
  unfold given
  cases request with
  | editUser message | editGroup message => cases other
  | _ => cases (state.member user).account <;> rfl

omit [DecidableEq σ] in
/-- A message that lets nobody in and edits no account takes no privilege from anybody. -/
theorem entitled_iff_of_keeps (after : next.Entitled) {request : MemberRequest}
    (nobody : state.entering around request = none) (other : request.editsAccounts = false)
    : next.Entitled
      ↔ (∀ account ∈ state.entering around request,
          account.Entitles (state.member user).isSubscribed
            (state.subscriptions.user user).subscribedPaths)
        ∧ ∀ peer ∈ state.subscriptions.users, ∀ account ∈ state.given around user request peer,
          (state.member peer).isSubscribed .events = true →
            account.boolean .eventsViewEvents = true := by
  refine iff_of_true after ⟨?_, fun peer _ => ?_⟩
  · rw [nobody]
    exact forall_mem_none
  · rw [given_of_not_editsAccounts other]
    exact forall_mem_none

/-- A handler keeps the privileges exactly when its message does. -/
theorem entitled_handle_iff (entitled : state.Entitled) (here : user ∈ state.subscriptions.users)
    (lists : state.Lists around) {request : MemberRequest}
    (handled : state.handle user around request = some next)
    : next.Entitled
      ↔ (∀ account ∈ state.entering around request,
          account.Entitles (state.member user).isSubscribed
            (state.subscriptions.user user).subscribedPaths)
        ∧ ∀ peer ∈ state.subscriptions.users, ∀ account ∈ state.given around user request peer,
          (state.member peer).isSubscribed .events = true →
            account.boolean .eventsViewEvents = true := by
  have own := entitled user here
  cases request with
  | clientInfo =>
      cases handled
      refine entitled_iff_of_keeps ?_ rfl rfl
      exact (entitled_setMember_iff entitled here _).mpr
        ((isEntitled_congr (by rfl) (by rfl) rfl).mpr own)
  | sendLogin banned login password =>
      cases handled
      rw [entitled_sendLogin_iff entitled here]
      refine (and_iff_left fun peer _ => ?_).symm
      rw [given_of_not_editsAccounts rfl]
      exact forall_mem_none
  | subscribe topic =>
      obtain ⟨account, carries, rfl⟩ := Option.map_eq_some_iff.mp handled
      refine entitled_iff_of_keeps ?_ rfl rfl
      exact (entitled_setMember_iff entitled here _).mpr (own.messageSubscribe carries topic)
  | unsubscribe topic =>
      obtain ⟨account, carries, rfl⟩ := Option.map_eq_some_iff.mp handled
      refine entitled_iff_of_keeps ?_ rfl rfl
      exact (entitled_setMember_iff entitled here _).mpr (own.messageUnsubscribe carries topic)
  | subscribeDirectory found path realpath =>
      obtain ⟨account, carries, rfl⟩ := Option.map_eq_some_iff.mp handled
      refine entitled_iff_of_keeps ?_ rfl rfl
      rw [Subscriptions.messageFileSubscribeDirectory]
      split_ifs with lacks missing
      · exact entitled
      · exact entitled
      · exact entitled_directories entitled here rfl rfl fun _ _ =>
          ⟨account, carries, by simpa using lacks⟩
  | unsubscribeDirectory found realpath =>
      obtain ⟨account, carries, rfl⟩ := Option.map_eq_some_iff.mp handled
      refine entitled_iff_of_keeps ?_ rfl rfl
      rw [Subscriptions.messageFileUnsubscribeDirectory]
      split_ifs with lacks missing known
      · exact entitled
      · exact entitled
      · exact entitled_directories entitled here rfl (Subscriptions.user_unsubscribePath ..)
          fun _ _ => ⟨account, carries, by simpa using lacks⟩
      · exact entitled
  | changePassword password =>
      obtain ⟨account, carries, rfl⟩ := Option.map_eq_some_iff.mp handled
      refine entitled_iff_of_keeps ?_ rfl rfl
      split_ifs
      · exact entitled
      · exact entitled
  | createUser message | createGroup message | deleteGroup name =>
      obtain ⟨account, carries, rfl⟩ := Option.map_eq_some_iff.mp handled
      exact entitled_iff_of_keeps entitled rfl rfl
  | editUser message =>
      obtain ⟨account, carries, rfl⟩ := Option.map_eq_some_iff.mp handled
      simp only [entering, Members.given, carries]
      cases state.database.messageEditUser account around.nick around.now around.memory message with
      | error error =>
          exact iff_of_true entitled ⟨forall_mem_none, fun peer _ => forall_mem_none⟩
      | ok result =>
          have kept := entitled_edit_iff result.1
            (fun database => userRead around database result.2)
            (fun state user => reloadIfUser_eq result.2 user) entitled lists
          exact kept.trans (and_iff_right forall_mem_none).symm
  | editGroup message =>
      obtain ⟨account, carries, rfl⟩ := Option.map_eq_some_iff.mp handled
      simp only [entering, Members.given, carries]
      cases state.database.messageEditGroup account around.nick around.now around.memory message with
      | error error =>
          exact iff_of_true entitled ⟨forall_mem_none, fun peer _ => forall_mem_none⟩
      | ok result =>
          have kept := entitled_edit_iff result.1
            (fun database => groupRead around database result.2)
            (fun state user => reloadIfGroup_eq result.2 user) entitled lists
          exact kept.trans (and_iff_right forall_mem_none).symm
  | deleteUser name disconnectUsers =>
      obtain ⟨account, carries, rfl⟩ := Option.map_eq_some_iff.mp handled
      refine entitled_iff_of_keeps ?_ rfl rfl
      rw [messageDeleteUser]
      split_ifs
      · exact entitled
      · cases state.database.readUser name with
        | none => exact entitled
        | some deleted =>
            dsimp only
            split_ifs
            · exact entitled
            · intro peer listed
              refine (isEntitled_congr ?_ ?_ rfl).mpr (entitled peer listed)
              · dsimp only [Except.toOption, Option.getD_some]
                split_ifs <;> rfl
              · dsimp only [Except.toOption, Option.getD_some]
                split_ifs <;> rfl

/-- A step keeps the privileges exactly when it meets the condition. -/
theorem entitled_step_iff {action : MembersAction σ} (entitled : state.Entitled)
    (stepped : step action state = some next)
    : next.Entitled ↔ KeepsPrivileges action state := by
  cases action with
  | addUser user =>
      rw [step] at stepped
      split_ifs at stepped with here
      cases stepped
      refine iff_of_true (fun other listed => ?_) trivial
      by_cases same : other = user
      · subst same
        simpa [Subscriptions.addUser] using isEntitled_initial
      · have was := (Finset.mem_insert.mp listed).resolve_left same
        simpa [Subscriptions.addUser, setMember, same] using entitled other was
  | request user request around =>
      rw [step] at stepped
      split_ifs at stepped with possible inSequence
      · rw [entitled_handle_iff entitled possible.1 possible.2 stepped]
        simp only [KeepsPrivileges, inSequence, true_imp_iff]
      · cases stepped
        exact iff_of_true entitled fun isIn => absurd isIn inSequence
  | fseventsCallback path isDirectory opened around =>
      rw [step] at stepped
      split_ifs at stepped with lists
      cases stepped
      refine iff_of_true ?_ trivial
      rw [Subscriptions.filesFseventsCallback]
      split_ifs
      · exact entitled
      · exact entitled_callback entitled fun user mem =>
          lists.2 ▸ List.mem_toFinset.mpr mem
  | writeFails user =>
      rw [step] at stepped
      split_ifs at stepped with here
      cases stepped
      refine iff_of_true ((entitled_setMember_iff entitled here _).mpr ?_) trivial
      exact (isEntitled_congr (by rfl) (by rfl) rfl).mpr (entitled user here)
  | removeUser user around =>
      rw [step] at stepped
      split_ifs at stepped with here
      cases stepped
      refine iff_of_true (fun other listed => ?_) trivial
      obtain ⟨differs, was⟩ := Finset.mem_erase.mp listed
      simpa [Subscriptions.removeUser, Subscriptions.unsubscribePaths, differs] using
        entitled other was

/-- All along a run, each session that is subscribed to accounts, boards, the log, events or a directory
carries an account that has the privilege for it, exactly when no session is let in as an account
that lacks one for its subscriptions, and no edit takes the privilege to view events from the account
of a session that is subscribed to them.
-/
theorem entitled_throughout_iff {database : Database} {actions : List (MembersAction σ)}
    {last : Members σ} (ran : Machine.run step actions (initial database) = some last)
    : (∀ seen middle, seen <+: actions → Machine.run step seen (initial database) = some middle →
        middle.Entitled)
      ↔ Machine.Meets step KeepsPrivileges actions (initial database) := by
  have given : ∀ (action : MembersAction σ) (state next : Members σ), state.Entitled →
      step action state = some next → (next.Entitled ↔ KeepsPrivileges action state) :=
    fun action state next => entitled_step_iff
  have first : (initial database : Members σ).Entitled := by
    intro user listed
    simp [initial, Subscriptions.initial] at listed
  exact Machine.throughout_iff_meets given ran first

end Steps

/-- The user `alice`, who may edit users and view events. -/
def aliceRow : Row where
  columns
    | .name => some "alice"
    | .accountEditUsers => some true
    | .accountRaiseAccountPrivileges => some true
    | .eventsViewEvents => some true
    | _ => none
  newName := rfl

/-- The database in which `alice` is the only user. -/
def aliceDatabase : Database where
  users := Table.empty.insert aliceRow
  groups := .empty

/-- The surroundings of a server with one session. -/
def aliceAround : HandlerSurroundings ℕ where
  watching := false
  opened _ := none
  nick := "alice"
  now := 0
  order := [0]
  memory _ := true
  memories _ _ := true
  number := 0

/-- `alice` logs in and subscribes to events. -/
def aliceSubscribes : List (MembersAction ℕ) :=
  [.addUser 0, .request 0 .clientInfo aliceAround,
    .request 0 (.sendLogin false "alice" "") aliceAround,
    .request 0 (.subscribe .events) aliceAround]

/-- An edit that leaves `alice` without any privilege. -/
def aliceGivesUp : MembersAction ℕ :=
  .request 0 (.editUser ⟨fun field =>
    match field with
    | .name => some "alice"
    | _ => none⟩) aliceAround

/-- The privileges hold until `alice` edits herself, who then is still subscribed to events. -/
theorem entitled_throughout_iff_alice
    : ∃ before last : Members ℕ,
        Machine.run step aliceSubscribes (initial aliceDatabase) = some before
        ∧ Machine.run step (aliceSubscribes ++ [aliceGivesUp]) (initial aliceDatabase) = some last
        ∧ (∀ seen middle, seen <+: aliceSubscribes →
            Machine.run step seen (initial aliceDatabase) = some middle → middle.Entitled)
        ∧ ¬∀ seen middle, seen <+: aliceSubscribes ++ [aliceGivesUp] →
            Machine.run step seen (initial aliceDatabase) = some middle → middle.Entitled := by
  have reached : (Machine.run step aliceSubscribes (initial aliceDatabase)).isSome = true := by
    decide
  have goesOn : (Machine.run step (aliceSubscribes ++ [aliceGivesUp])
      (initial aliceDatabase)).isSome = true := by
    decide
  obtain ⟨before, ran⟩ := Option.isSome_iff_exists.mp reached
  obtain ⟨last, ranOn⟩ := Option.isSome_iff_exists.mp goesOn
  refine ⟨before, last, ran, ranOn, (entitled_throughout_iff ran).mpr (by decide), fun all => ?_⟩
  exact absurd ((entitled_throughout_iff ranOn).mp all) (by decide)

end Members

end WiredServer.Server
