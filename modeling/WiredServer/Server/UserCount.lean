import WiredServer.Lib.Counting
import WiredServer.Server.SessionGate

/-! `wd_current_users` counts the sessions that are logged in, in every interleaving of the threads in
which each session logs in once, keeps that state, and is not disconnected before it.
-/

set_option linter.unusedSectionVars false

namespace WiredServer.Server

variable {υ : Type} [DecidableEq υ]

/-- The thread of a session has not yet given its count back. -/
def Point.isOpen : Point υ → Bool
  | .closing | .removing | .gone => false
  | .absent | .accepting | .waiting | .reading | .handling _ | .running _ _ | .leaving
  | .uncounting => true

/-- A session has logged in and has not ended. -/
def Session.isLoggedIn (session : Session υ) : Bool :=
  session.hasLoggedIn && session.point.isOpen

namespace State

/-- `wd_current_users` is the number of sessions that are logged in. -/
def CountsUsers (state : State υ) : Prop :=
  state.currentUsers = state.users.countP fun user => (state.session user).isLoggedIn

/-- A login is counted for a session that has not logged in. A session that ends has logged in if it
was disconnected, and has not if its state is still that after client_info.
-/
def balances (session : Session υ) : Bool :=
  match session.point with
  | .running .sendLogin .counting => !session.hasLoggedIn
  | .leaving =>
      if session.hasLoggedIn then session.state ≠ .gaveClientInfo
      else session.state ≠ .disconnected
  | _ => true

/-- What is known of a session at each point of its thread. -/
structure Enrolled (session : Session υ) : Prop where
  fresh : session.point = .absent ∨ session.point = .accepting → session.hasLoggedIn = false
  early : session.hasLoggedIn = false → session.state = .connected ∨ session.state = .gaveClientInfo
    ∨ session.state = .disconnected ∨ session.point = .running .sendLogin .counting
  late : session.hasLoggedIn = true → session.state = .gaveClientInfo ∨ session.state = .loggedIn
    ∨ session.state = .disconnected
  counting : session.point = .running .sendLogin .counting → session.state = .loggedIn
    ∨ session.state = .disconnected
  uncounted : session.point = .uncounting → session.hasLoggedIn = true

/-- A disturbance keeps what is known of a session. -/
theorem Enrolled.disturbed {state next : State υ} (disturbs : state.Disturbs next) {user : υ}
    (enrolled : Enrolled (state.session user))
    : Enrolled (next.session user) where
  fresh here := by
    rw [disturbs.logged]
    rw [disturbs.point] at here
    exact enrolled.fresh here
  early unlogged := by
    rw [disturbs.logged] at unlogged
    rw [disturbs.point]
    rcases disturbs.value user with same | disconnected
    · rw [same]
      exact enrolled.early unlogged
    · exact .inr (.inr (.inl disconnected))
  late logged := by
    rw [disturbs.logged] at logged
    rcases disturbs.value user with same | disconnected
    · rw [same]
      exact enrolled.late logged
    · exact .inr (.inr disconnected)
  counting here := by
    rw [disturbs.point] at here
    rcases disturbs.value user with same | disconnected
    · rw [same]
      exact enrolled.counting here
    · exact .inr disconnected
  uncounted here := by
    rw [disturbs.logged]
    exact enrolled.uncounted ((disturbs.point user).symm.trans here)

/-- A step that keeps the state of a session, and does not count a login or a session's end. -/
theorem Enrolled.of_same {before after : Session υ} (enrolled : Enrolled before)
    (state : after.state = before.state) (logged : after.hasLoggedIn = before.hasLoggedIn)
    (uncounted : before.point ≠ .running .sendLogin .counting)
    (counting : after.point ≠ .running .sendLogin .counting)
    (fresh : after.point = .absent ∨ after.point = .accepting → before.hasLoggedIn = false)
    (ended : after.point = .uncounting → before.hasLoggedIn = true)
    : Enrolled after where
  fresh here := logged.trans (fresh here)
  early unlogged := by
    rw [state]
    rcases enrolled.early (logged.symm.trans unlogged) with early | early | early | early
    · exact .inl early
    · exact .inr (.inl early)
    · exact .inr (.inr (.inl early))
    · exact absurd early uncounted
  late isLogged := by
    rw [state]
    exact enrolled.late (logged.symm.trans isLogged)
  counting here := absurd here counting
  uncounted here := logged.trans (ended here)

/-- A session that ends with one of the last two states has logged in, and the others have not. -/
theorem Enrolled.hasLoggedIn_of_leaving {session : Session υ} (enrolled : Enrolled session)
    (here : session.point = .leaving) (balanced : balances session = true)
    : session.hasLoggedIn = true ↔ UserState.loggedIn.value ≤ session.state.value := by
  rw [balances, here] at balanced
  cases logged : session.hasLoggedIn with
  | true =>
      rw [logged] at balanced
      rcases enrolled.late logged with state | state | state
      · simp [state] at balanced
      · simp [state]
      · simp [state, UserState.value]
  | false =>
      rw [logged] at balanced
      rcases enrolled.early logged with state | state | state | counting
      · simp [state, UserState.value]
      · simp [state, UserState.value]
      · simp [state] at balanced
      · rw [here] at counting
        cases counting

/-- A step of the own thread keeps what is known of a session. -/
theorem Enrolled.own {before after : Session υ} {change : ℤ} (own : OwnStep before after change)
    (balanced : balances before = true) (enrolled : Enrolled before)
    : Enrolled after := by
  cases own with
  | accept here there state logged =>
      refine enrolled.of_same state logged (by simp [here]) (by simp [there]) ?_ (by simp [there])
      exact fun _ => enrolled.fresh (.inl here)
  | connect here there state logged =>
      refine enrolled.of_same state logged (by simp [here]) ?_ ?_ ?_
      · rcases there with there | there <;> simp [there]
      · exact fun _ => enrolled.fresh (.inr here)
      · rcases there with there | there <;> simp [there]
  | serve here there state logged =>
      have uncounted : before.point ≠ .running .sendLogin .counting := by
        intro counting
        rw [counting] at here
        cases here
      have listed : after.point.isListed = true ∧ after.point ≠ .uncounting := by
        rcases there with there | there | there | ⟨_, there⟩ | ⟨_, _, _, _, there, _⟩ <;>
          exact there ▸ ⟨rfl, nofun⟩
      have later : after.point ≠ .running .sendLogin .counting := by
        intro counting
        rcases there with there | there | there | ⟨_, there⟩ | ⟨_, _, _, _, there, stays⟩
        all_goals
          rw [there] at counting
          cases counting
        rw [there] at stays
        cases stays
      refine enrolled.of_same state logged uncounted later ?_ fun ended => absurd ended listed.2
      rintro (absent | accepting)
      · rw [absent] at listed
        cases listed.1
      · rw [accepting] at listed
        cases listed.1
  | enter here inSequence there state logged =>
      exact enrolled.of_same state logged (by simp [here]) (by simp [there]) (by simp [there]) (by simp [there])
  | storeClientInfo here there state logged =>
      exact ⟨by simp [there], fun _ => .inr (.inl state), fun _ => .inl state, by simp [there],
        by simp [there]⟩
  | storeLoggedIn here there state logged =>
      exact ⟨by simp [there], fun _ => .inr (.inr (.inr there)), fun _ => .inr (.inl state),
        fun _ => .inl state, by simp [there]⟩
  | count here there state logged =>
      refine ⟨by simp [there], fun unlogged => by simp [logged] at unlogged, fun _ => ?_,
        by simp [there], by simp [there]⟩
      rw [state]
      exact .inr (enrolled.counting here)
  | fail here there state logged =>
      exact ⟨by simp [there], fun _ => .inr (.inr (.inl state)), fun _ => .inr (.inr state),
        by simp [there], by simp [there]⟩
  | leave here there state logged =>
      have ended := enrolled.hasLoggedIn_of_leaving here balanced
      refine enrolled.of_same state logged (by simp [here]) ?_ ?_ ?_
      · rw [there]
        split <;> simp
      · rw [there]
        split <;> simp
      · rw [there]
        split
        · rename_i late
          exact fun _ => ended.mpr late
        · simp
  | close here there state logged =>
      exact ⟨by simp [there], fun _ => .inr (.inr (.inl state)), fun _ => .inr (.inr state),
        by simp [there], by simp [there]⟩
  | uncount here there state logged | remove here there state logged =>
      exact enrolled.of_same state logged (by simp [here]) (by simp [there]) (by simp [there]) (by simp [there])

/-- What the own thread adds to `wd_current_users` is by how much more its session is logged in. -/
theorem Enrolled.change_eq {before after : Session υ} {change : ℤ}
    (own : OwnStep before after change) (balanced : balances before = true)
    (enrolled : Enrolled before)
    : change = after.isLoggedIn.toInt - before.isLoggedIn.toInt := by
  cases own with
  | accept here there state logged =>
      simp [Session.isLoggedIn, here, there, logged, Point.isOpen]
  | connect here there state logged =>
      have fresh := enrolled.fresh (.inr here)
      simp [Session.isLoggedIn, logged, fresh]
  | serve here there state logged =>
      have opened : before.point.isOpen = true := by
        cases point : before.point <;> first | rfl | simp [point, Point.isServing] at here
      have opens : after.point.isOpen = true := by
        rcases there with there | there | there | ⟨_, there⟩ | ⟨_, _, _, _, there, _⟩ <;>
          exact there ▸ rfl
      simp [Session.isLoggedIn, logged, opened, opens]
  | enter here inSequence there state logged | storeClientInfo here there state logged
  | storeLoggedIn here there state logged | fail here there state logged
  | close here there state logged | remove here there state logged =>
      simp [Session.isLoggedIn, here, there, logged, Point.isOpen]
  | count here there state logged =>
      rw [balances, here] at balanced
      have unlogged : before.hasLoggedIn = false := by simpa using balanced
      simp [Session.isLoggedIn, there, logged, unlogged, Point.isOpen]
  | leave here there state logged =>
      have ended := enrolled.hasLoggedIn_of_leaving here balanced
      by_cases late : UserState.loggedIn.value ≤ before.state.value
      · rw [if_pos late] at there
        simp [Session.isLoggedIn, here, there, logged, Point.isOpen]
      · rw [if_neg late] at there
        have unlogged : before.hasLoggedIn = false := by
          simpa using fun has => late (ended.mp has)
        simp [Session.isLoggedIn, logged, unlogged]
  | uncount here there state logged =>
      have has := enrolled.uncounted here
      simp [Session.isLoggedIn, here, there, has, Point.isOpen]

/-- A session that is not in `wd_users` is not logged in. -/
theorem Enrolled.isLoggedIn_of_not_listed {session : Session υ} (enrolled : Enrolled session)
    (unlisted : session.point.isListed = false)
    : session.isLoggedIn = false := by
  rw [Session.isLoggedIn]
  cases here : session.point
  case absent => simp [enrolled.fresh (.inl here)]
  case accepting => simp [enrolled.fresh (.inr here)]
  case gone => simp [Point.isOpen]
  all_goals
    rw [here] at unlisted
    cases unlisted

/-- What is known of `wd_users` and of the sessions. -/
structure Balanced (state : State υ) : Prop where
  nodup : state.users.Nodup
  listed : ∀ user, user ∈ state.users ↔ (state.session user).point.isListed = true
  enrolled : ∀ user, Enrolled (state.session user)
  counts : state.CountsUsers

/-- A disturbance keeps the count. -/
theorem Balanced.disturbed {state next : State υ} (balanced : Balanced state)
    (disturbs : state.Disturbs next)
    : Balanced next where
  nodup := disturbs.users ▸ balanced.nodup
  listed user := by
    rw [disturbs.users, disturbs.point]
    exact balanced.listed user
  enrolled user := (balanced.enrolled user).disturbed disturbs
  counts := by
    have same : ∀ user ∈ state.users,
        (next.session user).isLoggedIn = (state.session user).isLoggedIn := fun user _ => by
      rw [Session.isLoggedIn, Session.isLoggedIn, disturbs.point, disturbs.logged]
    rw [CountsUsers, disturbs.counted, disturbs.users, Counting.countP_eq same]
    exact balanced.counts

/-- The step of a thread keeps the count. -/
theorem Balanced.owned {state next : State υ} {mover : υ} (balanced : Balanced state)
    (owns : state.Owns next mover) (allowed : balances (state.session mover) = true)
    : Balanced next := by
  have mine := balanced.enrolled mover
  have change := mine.change_eq owns.own allowed
  have enrolled : ∀ user, Enrolled (next.session user) := fun user => by
    by_cases same : user = mover
    · subst same
      exact mine.own owns.own allowed
    · rw [owns.others user same]
      exact balanced.enrolled user
  have others : ∀ user ∈ state.users, user ≠ mover →
      (next.session user).isLoggedIn = (state.session user).isLoggedIn := fun user _ ne => by
    rw [owns.others user ne]
  have counts := balanced.counts
  rw [CountsUsers] at counts
  rcases owns.users with ⟨users, listed⟩ | ⟨here, users, there⟩ | ⟨here, users, there⟩
  · refine ⟨users ▸ balanced.nodup, fun user => ?_, enrolled, ?_⟩
    · rw [users, balanced.listed]
      by_cases same : user = mover
      · rw [same, listed]
      · rw [owns.others user same]
    · rw [CountsUsers, users]
      by_cases member : mover ∈ state.users
      · have counted := Counting.countP_change balanced.nodup member others
        omega
      · -- the session is connected only now, or its handshake has failed
        have unlisted : (state.session mover).point.isListed = false := by
          simpa [balanced.listed] using member
        have before := mine.isLoggedIn_of_not_listed unlisted
        have after := (enrolled mover).isLoggedIn_of_not_listed (listed.trans unlisted)
        rw [before, after, sub_self] at change
        have same : ∀ user ∈ state.users,
            (next.session user).isLoggedIn = (state.session user).isLoggedIn :=
          fun user has => others user has fun equal => member (equal ▸ has)
        rw [Counting.countP_eq same]
        omega
  · -- the handshake has succeeded
    have unlisted : (state.session mover).point.isListed = false := here ▸ rfl
    have absent : mover ∉ state.users := by
      simp [balanced.listed, unlisted]
    have before := mine.isLoggedIn_of_not_listed unlisted
    have same : ∀ user ∈ state.users,
        (next.session user).isLoggedIn = (state.session user).isLoggedIn :=
      fun user has => others user has fun equal => absent (equal ▸ has)
    refine ⟨?_, fun user => ?_, enrolled, ?_⟩
    · rw [users]
      exact balanced.nodup.append (List.nodup_singleton mover)
        (List.disjoint_singleton.mpr absent)
    · rw [users, List.mem_append, List.mem_singleton]
      by_cases equal : user = mover
      · simp [equal, there, Point.isListed]
      · rw [owns.others user equal, balanced.listed]
        simp [equal]
    · rw [CountsUsers, users, List.countP_append, List.countP_singleton,
        Counting.countP_eq same]
      rw [before] at change
      cases after : (next.session mover).isLoggedIn <;> simp [after] at change ⊢ <;> omega
  · -- the thread takes its session from `wd_users` and ends
    have before : (state.session mover).isLoggedIn = false := by
      simp [Session.isLoggedIn, here, Point.isOpen]
    have after : (next.session mover).isLoggedIn = false := by
      simp [Session.isLoggedIn, there, Point.isOpen]
    rw [before, after, sub_self] at change
    have same : ∀ user ∈ state.users.erase mover,
        (next.session user).isLoggedIn = (state.session user).isLoggedIn :=
      fun user has => others user (List.mem_of_mem_erase has) fun equal =>
        balanced.nodup.not_mem_erase (equal ▸ has)
    refine ⟨users ▸ balanced.nodup.erase mover, fun user => ?_, enrolled, ?_⟩
    · rw [users, balanced.nodup.mem_erase_iff]
      by_cases equal : user = mover
      · simp [equal, there, Point.isListed]
      · rw [owns.others user equal, balanced.listed]
        simp [equal]
    · rw [CountsUsers, users, Counting.countP_eq same, List.countP_erase]
      simp only [before, Bool.false_eq_true, and_false, if_false]
      omega

/-- In every run in which each login is counted for a session that has not logged in, and each session
that ends has logged in if it was disconnected and has not if it was left after client_info,
`wd_current_users` is the number of sessions that are logged in.
-/
theorem countsUsers_of_run {actions : List (Action υ)} {state : State υ}
    (ran : Machine.run step actions initial = some state)
    (balanced : Machine.Meets step (allows balances · ·) actions initial)
    : state.CountsUsers := by
  have calm : ∀ (session : Session υ) handler peers,
      session.point = .running handler (.disconnecting peers) → balances session = true := by
    intro session handler peers here
    rw [balances, here]
    cases handler <;> rfl
  have first : Balanced (initial : State υ) :=
    ⟨List.nodup_nil, fun _ => by simp [initial, Point.isListed], fun _ =>
      ⟨fun _ => rfl, fun _ => .inl rfl, nofun, nofun, nofun⟩, rfl⟩
  have last := Machine.holds_of_run (holds_of_step calm
    (fun _ _ disturbs holds => holds.disturbed disturbs)
    fun _ _ _ owns allowed holds => holds.owned owns allowed) ran balanced first
  exact last.counts

/-- A client connects, logs in, and disconnects. -/
def loginRun : List (Action ℕ) :=
  identifying 0 ++ loggingIn 0 "bob" somebody ++ handling 0 [.next, .next]
    ++ [.thread 0 (.wait .ready false false), .thread 0 (.read .nothing)]
    ++ List.replicate 4 (.thread 0 .leave)

/-- After a client has logged in and disconnected, no session is counted. -/
theorem countsUsers_of_run_login
    : ∃ state, Machine.run step loginRun initial = some state ∧ state.CountsUsers := by
  have reached : (Machine.run step loginRun (initial : State ℕ)).isSome = true := by
    decide
  obtain ⟨state, ran⟩ := Option.isSome_iff_exists.mp reached
  exact ⟨state, ran, countsUsers_of_run ran (by decide)⟩

/-- A client that logs in twice is counted twice. -/
theorem not_countsUsers_relogin
    : ¬∀ (actions : List (Action ℕ)) (state : State ℕ),
        Machine.run step actions initial = some state → state.CountsUsers := by
  intro always
  have reached : (Machine.run step
      (identifying 0 ++ loggingIn 0 "bob" somebody ++ handling 0 [.next, .next]
        ++ loggingIn 0 "bob" somebody ++ handling 0 [.next, .next])
      (initial : State ℕ)).map (fun state =>
        (state.currentUsers, state.users.countP fun user => (state.session user).isLoggedIn))
        = some (2, 1) := by
    decide
  obtain ⟨state, ran, counts⟩ := Option.map_eq_some_iff.mp reached
  simp only [Prod.mk.injEq] at counts
  have equal := always _ state ran
  rw [CountsUsers, counts.1, counts.2] at equal
  cases equal

end State

end WiredServer.Server
