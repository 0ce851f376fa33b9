import WiredServer.Server.SessionSteps

/-! Which handlers a session runs before it has logged in, and what becomes of a session that was
disconnected, in every interleaving of the threads.
-/

set_option linter.unusedSectionVars false

namespace WiredServer.Server

variable {υ : Type} [DecidableEq υ]

namespace State

section Clients

/-- A client connects. -/
def connecting (user : υ) : List (Action υ) :=
  [.thread user .accept, .thread user (.accepted true)]

/-- A message of a client arrives and passes the gate. -/
def sending (user : υ) (name : String) : List (Action υ) :=
  [.thread user (.wait .ready false false), .thread user (.read (.message name)),
    .thread user .enter]

/-- The steps of a handler. -/
def handling (user : υ) (inputs : List (HandlerInput υ)) : List (Action υ) :=
  inputs.map fun input => .thread user (.handle input)

/-- A client connects and sends what it is. -/
def identifying (user : υ) : List (Action υ) :=
  connecting user ++ sending user "wired.client_info" ++ handling user [.next, .next]

/-- A client logs in as an account, up to where the handler stores the state. -/
def loggingIn (user : υ) (name : String) (account : Account) : List (Action υ) :=
  sending user "wired.send_login" ++ handling user
    [.login name, .account false (some account) "", .next]

/-- The account of an administrator, without a password. -/
def administrator : Account where
  values
    | .userDisconnectUsers | .accountDeleteUsers => some true
    | _ => none

/-- The account of a user, without a password. -/
def somebody : Account :=
  .empty

end Clients

section Disconnected

/-- A handler that stores the state of its own session does not find it disconnected. -/
def storesBeforeDisconnect (session : Session υ) : Bool :=
  match session.point with
  | .running .clientInfo .storing | .running .sendLogin .storing => session.state ≠ .disconnected
  | _ => true

/-- A session is disconnected. -/
def IsDisconnected (state : State υ) (user : υ) : Prop :=
  (state.session user).state = .disconnected

/-- A step of the own thread leaves a session disconnected. -/
theorem state_of_ownStep {before after : Session υ} {change : ℤ} (own : OwnStep before after change)
    (stores : storesBeforeDisconnect before = true) (disconnected : before.state = .disconnected)
    : after.state = .disconnected := by
  cases own with
  | storeClientInfo here | storeLoggedIn here =>
      rw [storesBeforeDisconnect, here] at stores
      simp [disconnected] at stores
  | fail here there state | close here there state => exact state
  | accept here there state | connect here there state | serve here there state
  | enter here inSequence there state | count here there state | leave here there state
  | uncount here there state | remove here there state => exact state.trans disconnected

/-- A session that is disconnected stays disconnected in every run in which no client_info and no
login stores the state of a session that is disconnected.
-/
theorem staysDisconnected_of_run {actions : List (Action υ)} {state last : State υ}
    (ran : Machine.run step actions state = some last)
    (stores : Machine.Meets step (allows storesBeforeDisconnect · ·) actions state) {user : υ}
    (disconnected : state.IsDisconnected user)
    : last.IsDisconnected user := by
  have calm : ∀ (session : Session υ) handler peers,
      session.point = .running handler (.disconnecting peers) →
      storesBeforeDisconnect session = true := by
    intro session handler peers here
    rw [storesBeforeDisconnect, here]
    cases handler <;> rfl
  have disturbed : ∀ state next : State υ, Disturbs state next → state.IsDisconnected user →
      next.IsDisconnected user :=
    fun state next disturbs disconnected => (disturbs.value user).elim (·.trans disconnected) id
  have owned : ∀ (state next : State υ) mover, Owns state next mover →
      storesBeforeDisconnect (state.session mover) = true → state.IsDisconnected user →
      next.IsDisconnected user := by
    intro state next mover owns stores disconnected
    by_cases same : user = mover
    · subst same
      exact state_of_ownStep owns.own stores disconnected
    · rw [IsDisconnected, owns.others user same]
      exact disconnected
  exact Machine.holds_of_run (holds_of_step calm disturbed owned) ran stores disconnected

/-- A user who is logged in sends a login again. After its account was set, an administrator
disconnects the session, and then the handler stores the state.
-/
def kickedRun : List (Action ℕ) :=
  identifying 0 ++ loggingIn 0 "admin" administrator ++ handling 0 [.next, .next]
    ++ identifying 1 ++ loggingIn 1 "bob" somebody ++ handling 1 [.next, .next]
    ++ loggingIn 1 "bob" somebody
    ++ sending 0 "wired.user.disconnect_user" ++ handling 0 [.peer 1, .next, .next]

/-- Without another login in between, the session that was disconnected ends disconnected. -/
theorem staysDisconnected_of_run_noLogin
    : ∃ last : State ℕ, Machine.run step
          [.thread 1 (.wait .ready false false), .thread 1 .leave, .thread 1 .leave]
          ((initial : State ℕ).goTo 1 .waiting |>.setUserState 1 .disconnected) = some last
        ∧ last.IsDisconnected 1 := by
  have reached : (Machine.run step
      [.thread 1 (.wait .ready false false), .thread 1 .leave, .thread 1 .leave]
      ((initial : State ℕ).goTo 1 .waiting |>.setUserState 1 .disconnected)).isSome = true := by
    decide
  obtain ⟨last, ran⟩ := Option.isSome_iff_exists.mp reached
  exact ⟨last, ran, staysDisconnected_of_run ran (by decide) rfl⟩

/-- The session is logged in again although it was disconnected. -/
theorem not_staysDisconnected_kicked
    : ¬∀ (actions rest : List (Action ℕ)) (state last : State ℕ) (user : ℕ),
        Machine.run step actions initial = some state → Machine.run step rest state = some last →
        state.IsDisconnected user → last.IsDisconnected user := by
  intro always
  have reached : ((Machine.run step kickedRun initial).bind fun state =>
      (Machine.run step (handling 1 [.next]) state).map fun last =>
        ((state.session 1).state, (last.session 1).state))
        = some (UserState.disconnected, UserState.loggedIn) := by
    decide
  obtain ⟨state, ran, more⟩ := Option.bind_eq_some_iff.mp reached
  obtain ⟨last, goesOn, states⟩ := Option.map_eq_some_iff.mp more
  simp only [Prod.mk.injEq] at states
  have final := always kickedRun _ state last 1 ran goesOn states.1
  rw [IsDisconnected, states.2] at final
  cases final

end Disconnected

section Gate

/-- Only sessions that have logged in run handlers other than client_info, send_ping, send_login,
set_nick, set_status and set_icon.
-/
def RunsInSequence (state : State υ) : Prop :=
  ∀ user handler point, (state.session user).point = .running handler point →
    (state.session user).hasLoggedIn = true ∨ handler.isBeforeLogin = true

/-- The gate does not find a session disconnected that has not logged in and wants to run another
handler.
-/
def entersConnected (session : Session υ) : Bool :=
  match session.point with
  | .handling handler =>
      session.hasLoggedIn || handler.isBeforeLogin || session.state ≠ .disconnected
  | _ => true

/-- What is known of a session: before it has logged in, it has one of the first two states or is
disconnected, except between storing and counting its login, and runs only handlers for that time.
-/
structure Gated (session : Session υ) : Prop where
  early : session.hasLoggedIn = false → session.state = .connected ∨ session.state = .gaveClientInfo
    ∨ session.state = .disconnected ∨ session.point = .running .sendLogin .counting
  running : ∀ handler point, session.point = .running handler point →
    session.hasLoggedIn = true ∨ handler.isBeforeLogin = true

/-- A handler that the gate lets through before the session has logged in. -/
theorem isBeforeLogin_of_isInSequence {handler : Handler} {value : UserState}
    (inSequence : handler.isInSequence value = true)
    (early : value = .connected ∨ value = .gaveClientInfo)
    : handler.isBeforeLogin = true := by
  rcases early with rfl | rfl
  · have same : handler = .clientInfo := by simpa [Handler.isInSequence] using inSequence
    rw [same]
    rfl
  · cases handler <;> first | rfl | simp [Handler.isInSequence] at inSequence

/-- A disturbance keeps what is known of a session. -/
theorem Gated.disturbed {state next : State υ} (disturbs : state.Disturbs next) {user : υ}
    (gated : Gated (state.session user))
    : Gated (next.session user) where
  early unlogged := by
    rw [disturbs.logged] at unlogged
    rw [disturbs.point]
    rcases disturbs.value user with same | disconnected
    · rw [same]
      exact gated.early unlogged
    · exact .inr (.inr (.inl disconnected))
  running handler point here := by
    rw [disturbs.logged]
    exact gated.running handler point ((disturbs.point user).symm.trans here)

/-- A step that keeps the state of a session, and does not count a login. -/
theorem Gated.of_same {before after : Session υ} (gated : Gated before)
    (state : after.state = before.state) (logged : after.hasLoggedIn = before.hasLoggedIn)
    (uncounted : before.point ≠ .running .sendLogin .counting)
    (running : ∀ handler point, after.point = .running handler point →
      before.hasLoggedIn = true ∨ handler.isBeforeLogin = true)
    : Gated after where
  early unlogged := by
    rw [state]
    rcases gated.early (logged.symm.trans unlogged) with early | early | early | early
    · exact .inl early
    · exact .inr (.inl early)
    · exact .inr (.inr (.inl early))
    · exact absurd early uncounted
  running handler point here := by
    rw [logged]
    exact running handler point here

/-- A step of the own thread keeps what is known of a session, if the gate does not let a
disconnected session through.
-/
theorem Gated.own {before after : Session υ} {change : ℤ} (own : OwnStep before after change)
    (enters : entersConnected before = true) (gated : Gated before)
    : Gated after := by
  cases own with
  | accept here there state logged =>
      refine gated.of_same state logged (by simp [here]) ?_
      simp [there]
  | connect here there state logged =>
      refine gated.of_same state logged (by simp [here]) ?_
      rcases there with there | there <;> simp [there]
  | serve here there state logged =>
      have uncounted : before.point ≠ .running .sendLogin .counting := by
        intro counting
        rw [counting] at here
        cases here
      refine gated.of_same state logged uncounted fun handler point running => ?_
      rcases there with there | there | there | ⟨_, there⟩ | ⟨handler', point', _, was, there, _⟩
      · simp [there] at running
      · simp [there] at running
      · simp [there] at running
      · simp [there] at running
      · rw [there] at running
        cases running
        exact gated.running handler point' was
  | enter here inSequence there state logged =>
      refine gated.of_same state logged (by simp [here]) fun handler point running => ?_
      rw [there] at running
      cases running
      cases has : before.hasLoggedIn with
      | true => exact .inl rfl
      | false =>
          right
          rcases gated.early has with early | early | early | early
          · exact isBeforeLogin_of_isInSequence inSequence (.inl early)
          · exact isBeforeLogin_of_isInSequence inSequence (.inr early)
          · rw [entersConnected, here] at enters
            simpa [has, early] using enters
          · rw [here] at early
            cases early
  | storeClientInfo here there state logged =>
      exact ⟨fun _ => .inr (.inl state), fun handler point running => by simp [there] at running⟩
  | storeLoggedIn here there state logged =>
      refine ⟨fun _ => .inr (.inr (.inr there)), fun handler point running => ?_⟩
      rw [there] at running
      cases running
      exact .inr rfl
  | count here there state logged =>
      exact ⟨fun unlogged => by simp [logged] at unlogged,
        fun handler point running => by simp [there] at running⟩
  | @fail handler here there state logged =>
      refine ⟨fun _ => .inr (.inr (.inl state)), fun handler' point running => ?_⟩
      rw [there] at running
      cases running
      rw [logged]
      exact gated.running handler .failing here
  | leave here there state logged =>
      refine gated.of_same state logged (by simp [here]) fun handler point running => ?_
      rw [there] at running
      split at running <;> cases running
  | close here there state logged =>
      exact ⟨fun _ => .inr (.inr (.inl state)), fun handler point running => by
        simp [there] at running⟩
  | uncount here there state logged | remove here there state logged =>
      refine gated.of_same state logged (by simp [here]) ?_
      simp [there]

/-- In every run in which the gate finds no session disconnected that has not logged in and wants to
run another handler, only sessions that have logged in run other handlers.
-/
theorem runsInSequence_of_run {actions : List (Action υ)} {state : State υ}
    (ran : Machine.run step actions initial = some state)
    (enters : Machine.Meets step (allows entersConnected · ·) actions initial)
    : state.RunsInSequence := by
  have calm : ∀ (session : Session υ) handler peers,
      session.point = .running handler (.disconnecting peers) → entersConnected session = true := by
    intro session handler peers here
    rw [entersConnected, here]
  have disturbed : ∀ state next : State υ, Disturbs state next →
      (∀ user, Gated (state.session user)) → ∀ user, Gated (next.session user) :=
    fun state next disturbs gated user => (gated user).disturbed disturbs
  have owned : ∀ (state next : State υ) mover, Owns state next mover →
      entersConnected (state.session mover) = true →
      (∀ user, Gated (state.session user)) → ∀ user, Gated (next.session user) := by
    intro state next mover owns enters gated user
    by_cases same : user = mover
    · subst same
      exact (gated user).own owns.own enters
    · rw [owns.others user same]
      exact gated user
  have first : ∀ user, Gated ((initial : State υ).session user) :=
    fun user => ⟨fun _ => .inl rfl, nofun⟩
  have gated := Machine.holds_of_run (holds_of_step calm disturbed owned) ran enters first
  exact fun user handler point here => (gated user).running handler point here

/-- A client sends the login `bob` with a wrong password. While its next message is read, an
administrator deletes the account `bob` and disconnects its sessions.
-/
def deletedRun : List (Action ℕ) :=
  identifying 0 ++ loggingIn 0 "admin" administrator ++ handling 0 [.next, .next]
    ++ identifying 1 ++ sending 1 "wired.send_login"
    ++ handling 1 [.login "bob", .account false (some somebody) "guess"]
    ++ [.thread 1 (.wait .ready false false)]
    ++ sending 0 "wired.account.delete_user"
    ++ handling 0 [.delete "bob" true true true, .next, .next]

/-- When the client sends no other message, nothing runs out of sequence. -/
theorem runsInSequence_of_run_login
    : ∃ state, Machine.run step
          (deletedRun ++ [.thread 1 (.read (.message "wired.send_login")), .thread 1 .enter])
          initial = some state ∧ state.RunsInSequence := by
  have reached : (Machine.run step
      (deletedRun ++ [.thread 1 (.read (.message "wired.send_login")), .thread 1 .enter])
      (initial : State ℕ)).isSome = true := by
    decide
  obtain ⟨state, ran⟩ := Option.isSome_iff_exists.mp reached
  exact ⟨state, ran, runsInSequence_of_run ran (by decide)⟩

/-- The handler of the client's next message runs, although the client has never logged in. -/
theorem not_runsInSequence_deleted
    : ¬∀ (actions : List (Action ℕ)) (state : State ℕ),
        Machine.run step actions initial = some state → state.RunsInSequence := by
  intro always
  have reached : (Machine.run step
      (deletedRun ++ [.thread 1 (.read (.message "wired.chat.send_say")), .thread 1 .enter])
      (initial : State ℕ)).map (fun state =>
        ((state.session 1).hasLoggedIn, match (state.session 1).point with
          | .running handler _ => some handler
          | _ => none)) = some (false, some (.other "wired.chat.send_say")) := by
    decide
  obtain ⟨state, ran, here⟩ := Option.map_eq_some_iff.mp reached
  simp only [Prod.mk.injEq] at here
  obtain ⟨unlogged, running⟩ := here
  split at running
  · rename_i handler point isRunning
    cases running
    rcases always _ state ran 1 _ point isRunning with logged | early
    · rw [unlogged] at logged
      cases logged
    · cases early
  · cases running

end Gate

end State

end WiredServer.Server
