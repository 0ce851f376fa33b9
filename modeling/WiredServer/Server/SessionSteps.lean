import WiredServer.Server.SessionThreads

/-! What a step of the server does to the sessions: a session is disconnected by another thread, it is
given its account again, or its own thread moves on.
-/

set_option linter.unusedSectionVars false

namespace WiredServer.Server

variable {υ : Type} [DecidableEq υ]

/-- The points at which a thread reads and handles messages, except between storing and counting a
login.
-/
def Point.isServing : Point υ → Bool
  | .running .sendLogin .counting => false
  | .waiting | .reading | .handling _ | .running _ _ => true
  | .absent | .accepting | .leaving | .uncounting | .closing | .removing | .gone => false

/-- The session of a thread is in `wd_users`. -/
def Point.isListed : Point υ → Bool
  | .absent | .accepting | .gone => false
  | .waiting | .reading | .handling _ | .running _ _ | .leaving | .uncounting | .closing
  | .removing => true

/-- A thread that serves its client has listed its session. -/
theorem Point.isListed_of_isServing {point : Point υ} (serving : point.isServing = true)
    : point.isListed = true := by
  cases point <;> first | rfl | cases serving

/-- A step of a session's own thread, with what it adds to `wd_current_users`. -/
inductive OwnStep : Session υ → Session υ → ℤ → Prop where
  | accept {before after : Session υ} (here : before.point = .absent)
      (there : after.point = .accepting) (state : after.state = before.state)
      (logged : after.hasLoggedIn = before.hasLoggedIn)
      : OwnStep before after 0
  | connect {before after : Session υ} (here : before.point = .accepting)
      (there : after.point = .waiting ∨ after.point = .gone) (state : after.state = before.state)
      (logged : after.hasLoggedIn = before.hasLoggedIn)
      : OwnStep before after 0
  | serve {before after : Session υ} (here : before.point.isServing = true)
      (there : after.point = .waiting ∨ after.point = .reading ∨ after.point = .leaving
        ∨ (∃ handler, after.point = .handling handler)
        ∨ ∃ handler point point', before.point = .running handler point
          ∧ after.point = .running handler point' ∧ after.point.isServing = true)
      (state : after.state = before.state) (logged : after.hasLoggedIn = before.hasLoggedIn)
      : OwnStep before after 0
  | enter {before after : Session υ} {handler : Handler} (here : before.point = .handling handler)
      (inSequence : handler.isInSequence before.state = true)
      (there : after.point = .running handler .start) (state : after.state = before.state)
      (logged : after.hasLoggedIn = before.hasLoggedIn)
      : OwnStep before after 0
  | storeClientInfo {before after : Session υ} (here : before.point = .running .clientInfo .storing)
      (there : after.point = .waiting) (state : after.state = .gaveClientInfo)
      (logged : after.hasLoggedIn = before.hasLoggedIn)
      : OwnStep before after 0
  | storeLoggedIn {before after : Session υ} (here : before.point = .running .sendLogin .storing)
      (there : after.point = .running .sendLogin .counting) (state : after.state = .loggedIn)
      (logged : after.hasLoggedIn = before.hasLoggedIn)
      : OwnStep before after 0
  | count {before after : Session υ} (here : before.point = .running .sendLogin .counting)
      (there : after.point = .waiting) (state : after.state = before.state)
      (logged : after.hasLoggedIn = true)
      : OwnStep before after 1
  | fail {before after : Session υ} {handler : Handler}
      (here : before.point = .running handler .failing)
      (there : after.point = .running handler .finishing) (state : after.state = .disconnected)
      (logged : after.hasLoggedIn = before.hasLoggedIn)
      : OwnStep before after 0
  | leave {before after : Session υ} (here : before.point = .leaving)
      (there : after.point = if UserState.loggedIn.value ≤ before.state.value then .uncounting
        else .closing)
      (state : after.state = before.state) (logged : after.hasLoggedIn = before.hasLoggedIn)
      : OwnStep before after 0
  | uncount {before after : Session υ} (here : before.point = .uncounting)
      (there : after.point = .closing) (state : after.state = before.state)
      (logged : after.hasLoggedIn = before.hasLoggedIn)
      : OwnStep before after (-1)
  | close {before after : Session υ} (here : before.point = .closing)
      (there : after.point = .removing) (state : after.state = .disconnected)
      (logged : after.hasLoggedIn = before.hasLoggedIn)
      : OwnStep before after 0
  | remove {before after : Session υ} (here : before.point = .removing)
      (there : after.point = .gone) (state : after.state = before.state)
      (logged : after.hasLoggedIn = before.hasLoggedIn)
      : OwnStep before after 0

namespace State

section Updates

variable (state : State υ) (user other : υ) (session : Session υ) (point : Point υ)
  (value : UserState)

@[simp]
theorem setSession_session_self
    : (state.setSession user session).session user = session := by
  simp [setSession]

theorem setSession_session_of_ne {user other : υ} (ne : other ≠ user)
    : (state.setSession user session).session other = state.session other := by
  simp [setSession, ne]

@[simp]
theorem goTo_session_self
    : (state.goTo user point).session user = { state.session user with point := point } :=
  setSession_session_self state user _

theorem goTo_session_of_ne {user other : υ} (ne : other ≠ user)
    : (state.goTo user point).session other = state.session other :=
  setSession_session_of_ne state _ ne

@[simp]
theorem setUserState_session_self
    : (state.setUserState user value).session user = { state.session user with state := value } :=
  setSession_session_self state user _

theorem setUserState_session_of_ne {user other : υ} (ne : other ≠ user)
    : (state.setUserState user value).session other = state.session other :=
  setSession_session_of_ne state _ ne

end Updates

/-- What a step of the thread of one session leaves and does. -/
structure Owns (state next : State υ) (user : υ) : Prop where
  others : ∀ other, other ≠ user → next.session other = state.session other
  own : OwnStep (state.session user) (next.session user)
    (next.currentUsers - state.currentUsers)
  users : next.users = state.users
      ∧ (next.session user).point.isListed = (state.session user).point.isListed
    ∨ (state.session user).point = .accepting ∧ next.users = state.users ++ [user]
      ∧ (next.session user).point = .waiting
    ∨ (state.session user).point = .removing ∧ next.users = state.users.erase user
      ∧ (next.session user).point = .gone

section OwnSteps

variable {state next : State υ} {user : υ}

/-- A step that changes one session. -/
theorem owns_of_session {session : Session υ}
    (same : next.session = Function.update state.session user session)
    (users : next.users = state.users)
    (listed : session.point.isListed = (state.session user).point.isListed) {change : ℤ}
    (counted : next.currentUsers = state.currentUsers + change)
    (own : OwnStep (state.session user) session change)
    : state.Owns next user where
  others other ne := by rw [same, Function.update_of_ne ne]
  own := by
    rw [same, Function.update_self, counted, add_sub_cancel_left]
    exact own
  users := .inl ⟨users, by rw [same, Function.update_self, listed]⟩

/-- A thread that goes on to a point, after a change of its session. -/
theorem owns_goTo_setSession {session : Session υ} {point : Point υ}
    (listed : point.isListed = (state.session user).point.isListed)
    (own : OwnStep (state.session user) { session with point := point } 0)
    : state.Owns ((state.setSession user session).goTo user point) user :=
  owns_of_session (by simp [goTo, setSession]) rfl listed (add_zero _).symm own

/-- A thread that goes on to a point. -/
theorem owns_goTo {point : Point υ}
    (listed : point.isListed = (state.session user).point.isListed)
    (own : OwnStep (state.session user) { state.session user with point := point } 0)
    : state.Owns (state.goTo user point) user :=
  owns_of_session rfl rfl listed (add_zero _).symm own

/-- A handler that is done. -/
theorem owns_done (serving : (state.session user).point.isServing = true)
    : state.Owns (state.goTo user .waiting) user :=
  owns_goTo (Point.isListed_of_isServing serving).symm (.serve serving (.inl rfl) rfl rfl)

/-- A handler that goes on. -/
theorem owns_goOn {handler : Handler} {point point' : HandlerPoint υ}
    (here : (state.session user).point = .running handler point)
    (serving : (state.session user).point.isServing = true)
    (stays : (Point.running handler point').isServing = true)
    : state.Owns (state.goTo user (.running handler point')) user :=
  owns_goTo (Point.isListed_of_isServing serving).symm (.serve serving
    (.inr (.inr (.inr (.inr ⟨handler, point, point', here, rfl, stays⟩)))) rfl rfl)

/-- A step of a handler disconnects the next session of its list, or moves its own session on. -/
theorem stepHandler_cases {handler : Handler} {point : HandlerPoint υ} {input : HandlerInput υ}
    (here : (state.session user).point = .running handler point)
    (stepped : state.stepHandler user handler point input = some next)
    : (∃ peer peers, point = .disconnecting (peer :: peers)
        ∧ next = (state.setUserState peer .disconnected).goTo user
          (.running handler (.disconnecting peers)))
      ∨ state.Owns next user := by
  unfold stepHandler at stepped
  simp only at stepped
  have serving : point ≠ .counting → (state.session user).point.isServing = true := by
    intro other
    rw [here]
    cases handler <;> cases point <;> first | rfl | exact absurd rfl other
  split at stepped
  case h_13 | h_14 | h_15 =>
      -- the next session of the list is disconnected
      exact .inl ⟨_, _, rfl, (Option.some.inj stepped).symm⟩
  all_goals right
  case h_1 =>
      exact Option.some.inj stepped ▸ owns_goOn here (serving nofun) rfl
  case h_2 =>
      exact Option.some.inj stepped ▸ owns_goTo_setSession (here ▸ rfl)
        (.storeClientInfo here rfl rfl rfl)
  case h_3 | h_5 =>
      refine Option.some.inj stepped ▸ owns_goTo_setSession (here ▸ rfl)
          (.serve (serving nofun) ?_ rfl rfl)
      exact .inr (.inr (.inr (.inr ⟨_, _, _, here, rfl, rfl⟩)))
  case h_4 =>
      split at stepped
      · exact Option.some.inj stepped ▸ owns_done (serving nofun)
      split at stepped
      · exact Option.some.inj stepped ▸ owns_done (serving nofun)
      split at stepped
      · exact Option.some.inj stepped ▸ owns_goOn here (serving nofun) rfl
      · exact Option.some.inj stepped ▸ owns_done (serving nofun)
  case h_6 =>
      exact Option.some.inj stepped ▸ owns_goTo_setSession (here ▸ rfl)
        (.storeLoggedIn here rfl rfl rfl)
  case h_7 =>
      cases stepped
      have counts : ((state.setSession user { state.session user with hasLoggedIn := true }).goTo user
          .waiting).session = Function.update state.session user
            { state.session user with hasLoggedIn := true, point := .waiting } := by
        simp [goTo, setSession]
      exact owns_of_session counts rfl (here ▸ rfl) rfl (.count here rfl rfl rfl)
  case h_8 | h_9 | h_10 | h_11 | h_12 =>
      obtain ⟨account, -, stepped⟩ := Option.bind_eq_some_iff.mp stepped
      split at stepped
      · first
        | exact Option.some.inj stepped ▸ owns_goOn here (serving nofun) rfl
        | exact Option.some.inj stepped ▸ owns_done (serving nofun)
      · first
        | exact Option.some.inj stepped ▸ owns_goOn here (serving nofun) rfl
        | exact Option.some.inj stepped ▸ owns_done (serving nofun)
  case h_16 | h_17 | h_18 | h_27 | h_28 | h_29 | h_30 | h_31 =>
      exact Option.some.inj stepped ▸ owns_done (serving nofun)
  case h_19 | h_20 =>
      obtain ⟨account, -, stepped⟩ := Option.bind_eq_some_iff.mp stepped
      split at stepped
      · refine Option.some.inj stepped ▸ owns_goTo_setSession (here ▸ rfl)
          (.serve (serving nofun) ?_ rfl rfl)
        exact .inr (.inr (.inr (.inr ⟨_, _, _, here, rfl, rfl⟩)))
      · exact Option.some.inj stepped ▸ owns_done (serving nofun)
  case h_21 | h_22 =>
      rename_i succeeds
      refine Option.some.inj stepped ▸ owns_goOn here (serving nofun) ?_
      cases succeeds <;> rfl
  case h_23 | h_24 =>
      exact Option.some.inj stepped ▸ owns_goTo_setSession (here ▸ rfl) (.fail here rfl rfl rfl)
  case h_25 | h_26 =>
      exact Option.some.inj stepped ▸
        owns_goTo_setSession (here ▸ rfl) (.serve (serving nofun) (.inl rfl) rfl rfl)
  case h_32 => cases stepped

/-- The thread of a session disconnects another session, or moves its own session on. -/
theorem stepThread_cases {action : ThreadAction υ} (stepped : state.stepThread user action = some next)
    : (∃ handler peer peers,
        (state.session user).point = .running handler (.disconnecting (peer :: peers))
        ∧ next = (state.setUserState peer .disconnected).goTo user
          (.running handler (.disconnecting peers)))
      ∨ state.Owns next user := by
  unfold stepThread at stepped
  simp only at stepped
  split at stepped
  · -- a connection is accepted
    rename_i here
    exact .inr (Option.some.inj stepped ▸ owns_goTo (here ▸ rfl) (.accept here rfl rfl rfl))
  · -- the handshake ends
    rename_i here
    right
    split at stepped
    · refine Option.some.inj stepped ▸ ⟨fun other ne => ?_, ?_, .inr (.inl ⟨here, rfl, ?_⟩)⟩
      · exact goTo_session_of_ne _ _ ne
      · simp only [goTo, setSession, Function.update_self, sub_self]
        exact .connect here (.inl rfl) rfl rfl
      · simp [goTo, setSession]
    · exact Option.some.inj stepped ▸ owns_goTo (here ▸ rfl) (.connect here (.inr rfl) rfl rfl)
  · -- the thread waits for a message
    rename_i here
    refine .inr (Option.some.inj stepped ▸ owns_goTo ?_ (.serve (here ▸ rfl) ?_ rfl rfl))
    · rw [here, afterWait]
      split_ifs <;> rfl
    · rw [afterWait]
      split_ifs <;> simp
  · -- a message is read
    rename_i received here
    refine .inr (Option.some.inj stepped ▸ owns_goTo ?_ (.serve (here ▸ rfl) ?_ rfl rfl))
    all_goals
      cases received with
      | nothing => simp [afterRead, here, Point.isListed]
      | invalid => simp [afterRead, here, Point.isListed]
      | message name =>
          cases found : handlerForName name <;> simp [afterRead, found, here, Point.isListed]
  · -- the gate
    rename_i handler here
    right
    cases inSequence : handler.isInSequence (state.session user).state with
    | false =>
        rw [inSequence] at stepped
        exact Option.some.inj stepped ▸ owns_goTo (here ▸ rfl) (.serve (here ▸ rfl) (.inl rfl) rfl rfl)
    | true =>
        rw [inSequence] at stepped
        exact Option.some.inj stepped ▸ owns_goTo (here ▸ rfl) (.enter here inSequence rfl rfl rfl)
  · -- a handler
    rename_i handler point input here
    rcases stepHandler_cases here stepped with ⟨peer, peers, rfl, same⟩ | owns
    · exact .inl ⟨handler, peer, peers, here, same⟩
    · exact .inr owns
  · rename_i here
    refine .inr (Option.some.inj stepped ▸ owns_goTo ?_ (.leave here rfl rfl rfl))
    rw [here]
    split <;> rfl
  · rename_i here
    cases stepped
    exact .inr (owns_of_session rfl rfl (here ▸ rfl) (sub_eq_add_neg _ _)
      (.uncount here rfl rfl rfl))
  · rename_i here
    exact .inr (Option.some.inj stepped ▸ owns_goTo_setSession (here ▸ rfl)
      (.close here rfl rfl rfl))
  · rename_i here
    refine .inr (Option.some.inj stepped ▸ ⟨fun other ne => ?_, ?_,
      .inr (.inr ⟨here, rfl, by simp [goTo, setSession]⟩)⟩)
    · exact goTo_session_of_ne _ _ ne
    · simp only [goTo, setSession, Function.update_self, sub_self]
      exact .remove here rfl rfl rfl
  · cases stepped

end OwnSteps

section Steps

/-- What other threads do to the sessions: they may disconnect them, or change what no thread looks
at to go on.
-/
structure Disturbs (state next : State υ) : Prop where
  point : ∀ user, (next.session user).point = (state.session user).point
  logged : ∀ user, (next.session user).hasLoggedIn = (state.session user).hasLoggedIn
  value : ∀ user, (next.session user).state = (state.session user).state
    ∨ (next.session user).state = .disconnected
  users : next.users = state.users
  counted : next.currentUsers = state.currentUsers

/-- A session that is disconnected. -/
theorem disturbs_setUserState (state : State υ) (user : υ)
    : state.Disturbs (state.setUserState user .disconnected) where
  point other := by
    by_cases same : other = user
    · rw [same, setUserState_session_self]
    · rw [setUserState_session_of_ne _ _ same]
  logged other := by
    by_cases same : other = user
    · rw [same, setUserState_session_self]
    · rw [setUserState_session_of_ne _ _ same]
  value other := by
    by_cases same : other = user
    · rw [same, setUserState_session_self]
      exact .inr rfl
    · rw [setUserState_session_of_ne _ _ same]
      exact .inl rfl
  users := rfl
  counted := rfl

/-- A session that is given an account again. -/
theorem disturbs_reload (state : State υ) (user : υ) (login : Option String)
    (account : Option Account)
    : state.Disturbs (state.setSession user
        { state.session user with account := account, login := login }) where
  point other := by
    by_cases same : other = user
    · rw [same, setSession_session_self]
    · rw [setSession_session_of_ne _ _ same]
  logged other := by
    by_cases same : other = user
    · rw [same, setSession_session_self]
    · rw [setSession_session_of_ne _ _ same]
  value other := by
    by_cases same : other = user
    · rw [same, setSession_session_self]
      exact .inl rfl
    · rw [setSession_session_of_ne _ _ same]
      exact .inl rfl
  users := rfl
  counted := rfl

/-- Whether the session whose thread an action moves meets a condition. -/
def allows (condition : Session υ → Bool) (action : Action υ) (state : State υ) : Bool :=
  match action with
  | .thread user _ => condition (state.session user)
  | .writeFails _ | .reload _ _ => true

/-- What disturbances keep, and what the steps of threads keep whose sessions meet a condition, is
kept by every step in which the moving session meets it. The condition is nothing to a thread that
disconnects others.
-/
theorem holds_of_step {invariant : State υ → Prop} {condition : Session υ → Bool}
    (calm : ∀ session handler peers,
      session.point = .running handler (.disconnecting peers) → condition session = true)
    (disturbed : ∀ state next, Disturbs state next → invariant state → invariant next)
    (owned : ∀ state next user, Owns state next user → condition (state.session user) = true →
      invariant state → invariant next)
    (action : Action υ) (state next : State υ) (allowed : allows condition action state = true)
    (holds : invariant state) (stepped : step action state = some next)
    : invariant next := by
  cases action with
  | thread user action =>
      rcases stepThread_cases stepped with ⟨handler, peer, peers, here, same⟩ | owns
      · have disturbs := state.disturbs_setUserState peer
        have there := (disturbs.point user).trans here
        have serving : (Point.running handler (.disconnecting (peer :: peers))).isServing = true := by
          cases handler <;> rfl
        have moves : (state.setUserState peer .disconnected).Owns next user := by
          rw [same]
          exact owns_goOn there (there ▸ serving) (by cases handler <;> rfl)
        exact owned _ next user moves (calm _ handler _ there) (disturbed state _ disturbs holds)
      · exact owned state next user owns allowed holds
  | writeFails user =>
      rw [step] at stepped
      split at stepped <;> cases stepped
      exact disturbed state _ (state.disturbs_setUserState user) holds
  | reload user account =>
      rw [step] at stepped
      split at stepped <;> cases stepped
      exact disturbed state _ (state.disturbs_reload user _ _) holds

end Steps

end State

end WiredServer.Server
