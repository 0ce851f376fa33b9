import WiredServer.Server.SessionGate

/-! Which account a session carries. It has none before its own thread has found a password right, and
its login is the name of its account as long as no session that has one asks for another.
-/

set_option linter.unusedSectionVars false

namespace WiredServer.Server

variable {υ : Type} [DecidableEq υ]

/-- The points of a login at which the password has been found right. -/
def Point.hasPassed : Point υ → Bool
  | .running .sendLogin (.accepted _) | .running .sendLogin .storing
  | .running .sendLogin .counting => true
  | _ => false

/-- The points of a login at which the account has been stored. -/
def Point.hasStored : Point υ → Bool
  | .running .sendLogin .storing | .running .sendLogin .counting => true
  | _ => false

/-- A thread that has stored the account of a login has found the password right. -/
theorem Point.hasPassed_of_hasStored {point : Point υ} (stored : point.hasStored = true)
    : point.hasPassed = true := by
  cases point with
  | running handler point => cases handler <;> cases point <;> first | rfl | cases stored
  | _ => cases stored

/-- An action with which a session's own thread finds a password right, for an account. -/
def passing (user : υ) (account : Account) : Action υ :=
  .thread user (.handle (.account false (some account) (account.string .password)))

namespace State

-----------------------------------------------------------------------------------------
-- What a step does to the identity of a session
-----------------------------------------------------------------------------------------

/-- What a step does to the identity of a session: nothing, a step of a login, or a new reading of its
account.
-/
inductive Identified (user : υ) (action : Action υ) (before after : Session υ) : Prop where
  | keeps (login : after.login = before.login) (account : after.account = before.account)
      (state : after.state = before.state ∨ after.state ≠ .loggedIn)
      (logged : after.hasLoggedIn = before.hasLoggedIn)
      (point : after.point.hasPassed = true → after.point = before.point)
  | asks (name : String) (is : action = .thread user (.handle (.login name)))
      (here : before.point = .running .sendLogin .start)
      (there : after =
        { before with login := some name, point := .running .sendLogin .checking })
  | passes (account : Account) (is : action = passing user account)
      (here : before.point = .running .sendLogin .checking)
      (there : after = { before with point := .running .sendLogin (.accepted account) })
  | stores (account : Account) (is : action = .thread user (.handle .next))
      (here : before.point = .running .sendLogin (.accepted account))
      (there : after =
        { before with account := some account, point := .running .sendLogin .storing })
  | logsIn (here : before.point = .running .sendLogin .storing)
      (there : after =
        { before with state := .loggedIn, point := .running .sendLogin .counting })
  | counts (here : before.point = .running .sendLogin .counting)
      (there : after = { before with hasLoggedIn := true, point := .waiting })
  | reloads (account : Account) (is : action = .reload user account)
      (carries : before.account.isSome = true)
      (there : after = { before with account := some account, login := some account.name })

section Steps

variable {state next : State υ} {user : υ}

/-- A session that a step leaves as it was. -/
theorem Identified.refl {action : Action υ} (session : Session υ)
    : Identified user action session session :=
  .keeps rfl rfl (.inl rfl) rfl fun _ => rfl

/-- A thread that moves on from a point keeps the identity of its session. -/
theorem Identified.goTo {action : Action υ} {point : Point υ} (early : point.hasPassed = false)
    : Identified user action (state.session user) ((state.goTo user point).session user) := by
  rw [goTo_session_self]
  exact .keeps rfl rfl (.inl rfl) rfl fun passed => absurd passed (by simp [early])

/-- A thread that stores a part of its session which says nothing of its identity, and moves on. -/
theorem Identified.setSession {action : Action υ} {session : Session υ} {point : Point υ}
    (login : session.login = (state.session user).login)
    (account : session.account = (state.session user).account)
    (value : session.state = (state.session user).state ∨ session.state ≠ .loggedIn)
    (logged : session.hasLoggedIn = (state.session user).hasLoggedIn)
    (early : point.hasPassed = false)
    : Identified user action (state.session user)
        (((state.setSession user session).goTo user point).session user) := by
  rw [goTo_session_self, setSession_session_self]
  exact .keeps login account value logged fun passed => absurd passed (by simp [early])

/-- The step of a handler, in the session whose thread runs it. -/
theorem identified_handler {handler : Handler} {point : HandlerPoint υ} {input : HandlerInput υ}
    (here : (state.session user).point = .running handler point)
    (stepped : state.stepHandler user handler point input = some next)
    : Identified user (.thread user (.handle input)) (state.session user) (next.session user) := by
  unfold stepHandler at stepped
  simp only at stepped
  split at stepped
  case h_3 =>
      -- the login is stored before anything is checked
      cases stepped
      exact .asks _ rfl here (by simp)
  case h_4 =>
      split at stepped
      · cases stepped
        exact .goTo rfl
      split at stepped
      · cases stepped
        exact .goTo rfl
      split at stepped
      · rename_i banned _ password allowed _ account right
        cases stepped
        refine .passes account ?_ here (goTo_session_self ..)
        rw [passing, right, Bool.eq_false_of_not_eq_true allowed]
      · cases stepped
        exact .goTo rfl
  case h_5 =>
      cases stepped
      exact .stores _ rfl here (by simp)
  case h_6 =>
      cases stepped
      exact .logsIn here (by simp)
  case h_7 =>
      cases stepped
      exact .counts here (by simp [goTo, State.setSession])
  case h_2 =>
      cases stepped
      exact .setSession rfl rfl (.inr (by simp)) rfl rfl
  case h_13 | h_14 | h_15 =>
      -- a session may disconnect itself
      rename_i peer peers
      cases stepped
      rw [goTo_session_self]
      by_cases self : user = peer
      · rw [self, setUserState_session_self]
        exact .keeps rfl rfl (.inr (by simp)) rfl fun passed => by cases passed
      · rw [setUserState_session_of_ne _ _ self]
        exact .keeps rfl rfl (.inl rfl) rfl fun passed => by cases passed
  case h_8 | h_9 | h_10 | h_11 | h_12 =>
      obtain ⟨account, -, stepped⟩ := Option.bind_eq_some_iff.mp stepped
      split at stepped <;> cases stepped <;> exact .goTo rfl
  case h_19 | h_20 =>
      obtain ⟨account, -, stepped⟩ := Option.bind_eq_some_iff.mp stepped
      split at stepped
      · cases stepped
        exact .setSession rfl rfl (.inl rfl) rfl rfl
      · cases stepped
        exact .goTo rfl
  case h_21 | h_22 =>
      cases stepped
      exact .goTo rfl
  case h_23 | h_24 =>
      cases stepped
      exact .setSession rfl rfl (.inr (by simp)) rfl rfl
  case h_25 | h_26 =>
      cases stepped
      exact .setSession rfl rfl (.inl rfl) rfl rfl
  case h_32 => cases stepped
  all_goals
      cases stepped
      exact .goTo rfl

/-- The step of a thread, in its own session. -/
theorem identified_thread {action : ThreadAction υ}
    (stepped : state.stepThread user action = some next)
    : Identified user (.thread user action) (state.session user) (next.session user) := by
  unfold stepThread at stepped
  simp only at stepped
  split at stepped
  · cases stepped
    exact .goTo rfl
  · split at stepped
    · cases stepped
      exact @Identified.goTo υ _ { state with users := state.users ++ [user] } user _ .waiting rfl
    · cases stepped
      exact .goTo rfl
  · cases stepped
    refine .goTo ?_
    unfold afterWait
    split_ifs <;> rfl
  · rename_i received _
    cases stepped
    refine .goTo ?_
    cases received with
    | nothing | invalid => rfl
    | message name =>
        rw [afterRead]
        cases handlerForName name <;> rfl
  · cases stepped
    refine .goTo ?_
    split_ifs
    · rename_i handler _ _
      cases handler <;> rfl
    · rfl
  · rename_i here
    exact identified_handler here stepped
  · cases stepped
    refine .goTo ?_
    split_ifs <;> rfl
  · cases stepped
    exact .goTo rfl
  · cases stepped
    exact .setSession rfl rfl (.inr (by simp)) rfl rfl
  · cases stepped
    exact @Identified.goTo υ _ { state with users := state.users.erase user } user _ .gone rfl
  · cases stepped

/-- A session that another thread disconnects keeps its identity. -/
theorem identified_setUserState {action : Action υ} (peer : υ)
    : Identified user action (state.session user)
        ((state.setUserState peer .disconnected).session user) := by
  by_cases self : user = peer
  · rw [self, setUserState_session_self]
    exact .keeps rfl rfl (.inr (by simp)) rfl fun _ => rfl
  · rw [setUserState_session_of_ne _ _ self]
    exact .refl _

/-- The step of any thread, in any session. -/
theorem identified_of_step {action : Action υ} (stepped : step action state = some next) (user : υ)
    : Identified user action (state.session user) (next.session user) := by
  cases action with
  | thread mover action =>
      by_cases own : user = mover
      · subst own
        exact identified_thread stepped
      rcases stepThread_cases stepped with ⟨handler, peer, peers, here, rfl⟩ | owns
      · rw [goTo_session_of_ne _ _ own]
        exact identified_setUserState peer
      · rw [owns.others user own]
        exact .refl _
  | writeFails peer =>
      rw [step] at stepped
      split at stepped <;> cases stepped
      exact identified_setUserState peer
  | reload peer account =>
      rw [step] at stepped
      split at stepped
      · rename_i listed
        cases stepped
        by_cases own : user = peer
        · subst own
          exact .reloads account rfl listed.2 (setSession_session_self ..)
        · rw [setSession_session_of_ne _ _ own]
          exact .refl _
      · cases stepped

end Steps

-----------------------------------------------------------------------------------------
-- Who has an account
-----------------------------------------------------------------------------------------

section Admission

/-- What is known of a session after the actions of a run: with the account of a login in progress its
own thread has passed, and so it has before it carries any account, which it does once it is logged
in.
-/
structure Admitted (user : υ) (seen : List (Action υ)) (session : Session υ) : Prop where
  pending : ∀ account, session.point = .running .sendLogin (.accepted account) →
    passing user account ∈ seen
  account : ∀ account, session.account = some account →
    (passing user account ∈ seen ∨ .reload user account ∈ seen)
      ∧ ∃ first, passing user first ∈ seen
  stored : session.point.hasStored = true → session.account.isSome = true
  loggedIn : session.state = .loggedIn → session.account.isSome = true
  counted : session.hasLoggedIn = true → session.account.isSome = true

variable {user : υ} {seen : List (Action υ)} {action : Action υ} {before after : Session υ}

/-- An action more does not take back what is known of the accounts. -/
theorem Admitted.account_append (admitted : Admitted user seen before) {account : Account}
    (carries : before.account = some account)
    : (passing user account ∈ seen ++ [action] ∨ .reload user account ∈ seen ++ [action])
      ∧ ∃ first, passing user first ∈ seen ++ [action] := by
  obtain ⟨from', first, passed⟩ := admitted.account account carries
  exact ⟨from'.imp (List.mem_append_left _) (List.mem_append_left _), first,
    List.mem_append_left _ passed⟩

/-- What is known of a session is known after each step. -/
theorem Admitted.step (admitted : Admitted user seen before)
    (identified : Identified user action before after)
    : Admitted user (seen ++ [action]) after := by
  cases identified with
  | keeps login account state logged point =>
      refine ⟨fun pending here => ?_, fun pending carries => ?_, fun stored => ?_,
        fun loggedIn => ?_, fun counted => ?_⟩
      · have same := point (by rw [here]; rfl)
        exact List.mem_append_left _ (admitted.pending pending (same.symm.trans here))
      · exact admitted.account_append (account.symm.trans carries)
      · rw [account]
        exact admitted.stored (point (Point.hasPassed_of_hasStored stored) ▸ stored)
      · rw [account]
        rcases state with same | other
        · exact admitted.loggedIn (same.symm.trans loggedIn)
        · exact absurd loggedIn other
      · rw [account]
        exact admitted.counted (logged.symm.trans counted)
  | asks name is here there =>
      subst there
      exact ⟨nofun, fun _ => admitted.account_append, nofun, admitted.loggedIn, admitted.counted⟩
  | passes passed is here there =>
      subst there
      refine ⟨fun pending same => ?_, fun _ => admitted.account_append, nofun, admitted.loggedIn,
        admitted.counted⟩
      cases same
      exact List.mem_append_right _ (is ▸ List.mem_singleton_self _)
  | stores stored is here there =>
      subst there
      refine ⟨nofun, fun pending same => ?_, fun _ => rfl, fun _ => rfl, fun _ => rfl⟩
      cases same
      have passed := List.mem_append_left [action] (admitted.pending stored here)
      exact ⟨.inl passed, stored, passed⟩
  | logsIn here there =>
      subst there
      have carries := admitted.stored (by rw [here]; rfl)
      exact ⟨nofun, fun _ => admitted.account_append, fun _ => carries, fun _ => carries,
        admitted.counted⟩
  | counts here there =>
      subst there
      have carries := admitted.stored (by rw [here]; rfl)
      exact ⟨nofun, fun _ => admitted.account_append, nofun, admitted.loggedIn, fun _ => carries⟩
  | reloads given is carries there =>
      subst there
      refine ⟨fun pending here => List.mem_append_left _ (admitted.pending pending here),
        fun pending same => ?_, fun _ => rfl, fun _ => rfl, fun _ => rfl⟩
      cases same
      obtain ⟨old, was⟩ := Option.isSome_iff_exists.mp carries
      obtain ⟨-, first, passed⟩ := admitted.account old was
      exact ⟨.inr (List.mem_append_right _ (is ▸ List.mem_singleton_self _)), first,
        List.mem_append_left _ passed⟩

/-- A session that is logged in, or whose login was counted, carries an account for which its own thread
found the password right, or which it was given again after its thread had found one right. Nothing
that other sessions do lets a session in.
-/
theorem loggedIn_passed {actions : List (Action υ)} {state : State υ}
    (ran : Machine.run State.step actions initial = some state) {user : υ}
    (loggedIn : (state.session user).state = .loggedIn
      ∨ (state.session user).hasLoggedIn = true)
    : ∃ account, (state.session user).account = some account
      ∧ (passing user account ∈ actions ∨ .reload user account ∈ actions)
      ∧ ∃ first, passing user first ∈ actions := by
  have kept : ∀ seen (action : Action υ) (before after : State υ),
      Admitted user seen (before.session user) → State.step action before = some after →
      Admitted user (seen ++ [action]) (after.session user) :=
    fun seen action before after admitted stepped =>
      admitted.step (identified_of_step stepped user)
  have first : Admitted user [] ((initial : State υ).session user) :=
    ⟨nofun, nofun, nofun, nofun, nofun⟩
  have admitted := Machine.holds_of_history kept ran first
  rw [List.nil_append] at admitted
  have carries : (state.session user).account.isSome = true :=
    loggedIn.elim admitted.loggedIn admitted.counted
  obtain ⟨account, carries⟩ := Option.isSome_iff_exists.mp carries
  exact ⟨account, carries, admitted.account account carries⟩

/-- The administrator of a run with two sessions carries the account that was found for it. -/
theorem loggedIn_passed_administrator
    : ∃ state : State ℕ, Machine.run State.step
          (identifying 0 ++ loggingIn 0 "admin" administrator ++ handling 0 [.next]
            ++ identifying 1 ++ loggingIn 1 "bob" somebody) initial = some state
        ∧ ∃ account, (state.session 0).account = some account := by
  have reached : ((Machine.run State.step
      (identifying 0 ++ loggingIn 0 "admin" administrator ++ handling 0 [.next]
        ++ identifying 1 ++ loggingIn 1 "bob" somebody) (initial : State ℕ)).map
        fun state => (state.session 0).state) = some .loggedIn := by
    decide
  obtain ⟨state, ran, loggedIn⟩ := Option.map_eq_some_iff.mp reached
  obtain ⟨account, carries, -⟩ := loggedIn_passed ran (.inl loggedIn)
  exact ⟨state, ran, account, carries⟩

end Admission

-----------------------------------------------------------------------------------------
-- Whose name a session has
-----------------------------------------------------------------------------------------

section Names

/-- The login of every session that carries an account is the name of the account. -/
def NamesAccounts (state : State υ) : Prop :=
  ∀ user account, (state.session user).account = some account →
    (state.session user).login = some account.name

/-- A session that carries an account asks for no other, and an account that is stored has the login that
the session then has: no edit has renamed it since it was looked up.
-/
def keepsNames (action : Action υ) (state : State υ) : Bool :=
  match action with
  | .thread user (.handle (.login name)) =>
      (state.session user).account.all fun account => account.name = name
  | .thread user (.handle .next) =>
      match (state.session user).point with
      | .running .sendLogin (.accepted account) => (state.session user).login = some account.name
      | _ => true
  | _ => true

variable {state next : State υ} {user : υ}

/-- A login that is asked for is stored, whether or not the password will be right. -/
theorem session_of_login {name : String}
    (stepped : step (.thread user (.handle (.login name))) state = some next)
    : (next.session user).login = some name
      ∧ (next.session user).account = (state.session user).account := by
  simp only [step, stepThread] at stepped
  split at stepped
  all_goals first | contradiction | skip
  rename_i handler point input here same
  cases same
  unfold stepHandler at stepped
  simp only at stepped
  split at stepped
  all_goals first | contradiction | skip
  rename_i asked
  cases asked
  cases stepped
  simp

/-- An account that was found right is stored. -/
theorem session_of_accepted {account : Account}
    (here : (state.session user).point = .running .sendLogin (.accepted account))
    (stepped : step (.thread user (.handle .next)) state = some next)
    : (next.session user).login = (state.session user).login
      ∧ (next.session user).account = some account := by
  simp only [step, stepThread, here, stepHandler, Option.some.injEq] at stepped
  subst stepped
  simp

/-- The names are kept by a step exactly when it gives no session a name or an account that does not go
with the other.
-/
theorem namesAccounts_step_iff {action : Action υ} (names : state.NamesAccounts)
    (stepped : step action state = some next)
    : next.NamesAccounts ↔ keepsNames action state = true := by
  constructor
  · intro after
    unfold keepsNames
    split
    · rename_i user name
      obtain ⟨login, same⟩ := session_of_login stepped
      rw [Option.all_eq_true]
      intro account carries
      have named := after _ account (same.trans carries)
      rw [login] at named
      exact decide_eq_true (Option.some.inj named).symm
    · split
      · rename_i account here
        obtain ⟨login, stored⟩ := session_of_accepted here stepped
        exact decide_eq_true (login.symm.trans (after _ account stored))
      · rfl
    · rfl
  · intro keeps user account carries
    cases identified_of_step stepped user with
    | keeps login same state logged point =>
        rw [login]
        exact names user account (same.symm.trans carries)
    | asks name is here there =>
        subst is
        rw [there] at carries ⊢
        exact congrArg some (of_decide_eq_true ((Option.all_eq_true _ _).mp keeps account carries)).symm
    | stores stored is here there =>
        subst is
        rw [there] at carries ⊢
        cases carries
        rw [keepsNames, here] at keeps
        exact of_decide_eq_true keeps
    | passes stored is here there =>
        rw [there] at carries ⊢
        exact names user account carries
    | logsIn here there | counts here there =>
        rw [there] at carries ⊢
        exact names user account carries
    | reloads given is had there =>
        rw [there] at carries ⊢
        cases carries
        rfl

/-- All along a run, the login of every session that carries an account is the account's name, exactly
when no session that carries one ever asks for another, be it refused or not, and no account is
renamed between its look-up and its storing.
-/
theorem namesAccounts_throughout_iff {actions : List (Action υ)} {last : State υ}
    (ran : Machine.run State.step actions initial = some last)
    : (∀ seen middle, seen <+: actions → Machine.run State.step seen initial = some middle →
        middle.NamesAccounts)
      ↔ Machine.Meets State.step (keepsNames · ·) actions initial := by
  have given : ∀ (action : Action υ) (state next : State υ), state.NamesAccounts →
      State.step action state = some next → (next.NamesAccounts ↔ keepsNames action state = true) :=
    fun action state next => namesAccounts_step_iff
  have first : (initial : State υ).NamesAccounts := nofun
  exact Machine.throughout_iff_meets given ran first

/-- An administrator asks for the account `bob` and has its name, although the password was wrong. -/
def askingRun : List (Action ℕ) :=
  identifying 0 ++ loggingIn 0 "" administrator ++ handling 0 [.next, .next]
    ++ sending 0 "wired.send_login" ++ handling 0 [.login "bob", .account false (some somebody) "guess"]

/-- Up to the second login the names are right, and with it they no longer are. -/
theorem namesAccounts_throughout_iff_asking
    : ∃ before last : State ℕ, Machine.run State.step (askingRun.take 18) initial = some before
        ∧ Machine.run State.step askingRun initial = some last
        ∧ (∀ seen middle, seen <+: askingRun.take 18 →
            Machine.run State.step seen initial = some middle → middle.NamesAccounts)
        ∧ ¬∀ seen middle, seen <+: askingRun → Machine.run State.step seen initial = some middle →
            middle.NamesAccounts := by
  have reached : (Machine.run State.step (askingRun.take 18) (initial : State ℕ)).isSome = true := by
    decide
  have goesOn : (Machine.run State.step askingRun (initial : State ℕ)).isSome = true := by
    decide
  obtain ⟨before, ran⟩ := Option.isSome_iff_exists.mp reached
  obtain ⟨last, ranOn⟩ := Option.isSome_iff_exists.mp goesOn
  refine ⟨before, last, ran, ranOn, (namesAccounts_throughout_iff ran).mpr (by decide), fun all => ?_⟩
  exact absurd ((namesAccounts_throughout_iff ranOn).mp all) (by decide)

end Names

end State

end WiredServer.Server
