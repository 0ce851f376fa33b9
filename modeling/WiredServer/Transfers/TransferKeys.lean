import WiredServer.Transfers.ThreadSteps

set_option linter.unusedSectionVars false

/-! The keys of transfers. The key of a session, which its transfers get, is the login followed by the
address of the client. By it a session that ends finds the transfers to remove and to wait for, and
the slots of a user are counted.
-/

namespace WiredServer.Transfers

-----------------------------------------------------------------------------------------
-- Keys
-----------------------------------------------------------------------------------------

/-- The login of a session and the address of its client. -/
structure Identity where
  login : List Char
  ip : List Char
  deriving DecidableEq, Repr

/-- `wd_transfers_transfer_key_for_user`, for the login and the address of the user. -/
def transferKeyForUser : Option (List Char) → Option (List Char) → Option (List Char)
  | some login, some ip => some (login ++ ip)
  | _, _ => none

/-- The key of an identity. -/
def Identity.key (identity : Identity) : List Char :=
  identity.login ++ identity.ip

/-- The end of one login is the beginning of the address that belongs to the other one. -/
def Collides (first second : Identity) : Prop :=
  ∃ digits, digits ≠ []
    ∧ (second.login = first.login ++ digits ∧ first.ip = digits ++ second.ip
      ∨ first.login = second.login ++ digits ∧ second.ip = digits ++ first.ip)

/-- Different identities have the same key just when they collide. -/
theorem key_eq_iff_collides {first second : Identity} (differ : first ≠ second)
    : first.key = second.key ↔ Collides first second := by
  obtain ⟨login, ip⟩ := first
  obtain ⟨login', ip'⟩ := second
  rw [Identity.key, Identity.key, List.append_eq_append_iff]
  constructor
  · rintro (⟨digits, isLogin, isIp⟩ | ⟨digits, isLogin, isIp⟩)
    · refine ⟨digits, ?_, .inl ⟨isLogin, isIp⟩⟩
      rintro rfl
      exact differ (by simp_all)
    · refine ⟨digits, ?_, .inr ⟨isLogin, isIp⟩⟩
      rintro rfl
      exact differ (by simp_all)
  · rintro ⟨digits, -, split | split⟩
    · exact .inl ⟨digits, split⟩
    · exact .inr ⟨digits, split⟩

-----------------------------------------------------------------------------------------
-- Sessions with logins
-----------------------------------------------------------------------------------------

/-- The threads around the transfer queue, with the login of each session and the identity that the session
of each transfer had when it started the transfer.
-/
structure NamedState (ι υ : Type) where
  threads : State ι υ (List Char)
  login : υ → Option (List Char)
  owner : ι → Option Identity

/-- What the threads do: a session gets a login, or something else happens. -/
inductive NamedAction (ι υ : Type) where
  | setLogin (user : υ) (login : List Char)
  | act (action : Action ι υ (List Char))
  deriving DecidableEq, Repr

namespace NamedState

section Steps

variable {ι υ : Type} [DecidableEq ι] [DecidableEq υ] (ip : υ → List Char)

/-- The state before any session. -/
def initial (transfer : ι → Transfer υ (List Char)) : NamedState ι υ where
  threads := .initial transfer
  login _ := none
  owner _ := none

/-- The identity of a session, once it has a login. -/
def identity (state : NamedState ι υ) (user : υ) : Option Identity :=
  (state.login user).map fun login => { login, ip := ip user }

/-- The identities of the owners of transfers after an action. -/
def ownerAfter (state : NamedState ι υ) : Action ι υ (List Char) → ι → Option Identity
  | .session user (.start id _ _) => Function.update state.owner id (state.identity ip user)
  | _ => state.owner

/-- An action sets the key of a session. -/
def setsKey : Action ι υ (List Char) → Bool
  | .session _ (.setKey _) => true
  | _ => false

/-- The next step. The key of a session changes only with its login. -/
def step (action : NamedAction ι υ) (state : NamedState ι υ) : Option (NamedState ι υ) :=
  match action with
  | .setLogin user login => do
      let key ← transferKeyForUser (some login) (some (ip user))
      let threads ← State.step (.session user (.setKey key)) state.threads
      return { state with threads, login := Function.update state.login user (some login) }
  | .act action =>
      if setsKey action then none
      else
        (State.step action state.threads).map fun threads =>
          { state with threads, owner := state.ownerAfter ip action }

end Steps

end NamedState

-----------------------------------------------------------------------------------------
-- Isolation
-----------------------------------------------------------------------------------------

namespace State

variable {ι υ κ : Type} [DecidableEq ι] [DecidableEq υ] [DecidableEq κ]

/-- The transfer that a session that ends is looking at. -/
def inspected (state : State ι υ κ) (user : υ) : Option ι :=
  match (state.session user).point with
  | .removing (.scanning _ index _) => state.transfers[index]?
  | _ => none

/-- The transfer for which an action changes the number of slots of its user. -/
def counted (state : State ι υ κ) : Action ι υ κ → Option ι
  | .queue .add =>
      match state.queueThread with
      | .addingUser id _ _ => some id
      | _ => none
  | .thread id _ => if state.thread id = .removingUser then some id else none
  | _ => none

end State

/-- Sessions of one identity spare the transfers of another one: a session that ends does not remove one and
goes on at once when it comes to one, and the slots of one are not counted for the session.
-/
structure Spares {ι υ : Type} [DecidableEq ι] [DecidableEq υ] (ip : υ → List Char)
    (state : NamedState ι υ) (first second : Identity)
    : Prop where
  removes : ∀ user id timeout, state.identity ip user = some first → state.owner id = some second
    → state.threads.removed (.remove user timeout) ≠ some id
  waits : ∀ user id, state.identity ip user = some first → state.owner id = some second
    → state.threads.inspected user = some id
    → (State.step (.remove user false) state.threads).isSome = true
  counts : ∀ action next id, State.step action state.threads = some next
    → state.threads.counted action = some id → state.owner id = some second
    → ∀ type, next.counters.user type first.key = state.threads.counters.user type first.key

/-- Sessions of one identity spare the transfers of another one in every state of every run, whatever
addresses the sessions have.
-/
def Isolated (first second : Identity) : Prop :=
  ∀ (ip : ℕ → List Char) (transfer : ℕ → Transfer ℕ (List Char)) (actions : List (NamedAction ℕ ℕ))
    (state : NamedState ℕ ℕ), Machine.run (NamedState.step ip) actions (.initial transfer) = some state
    → Spares ip state first second

-----------------------------------------------------------------------------------------
-- Keys of sessions
-----------------------------------------------------------------------------------------

/-- The key that a call of `wd_transfers_remove_user` works with. -/
def RemovalPoint.key {υ κ : Type} : RemovalPoint υ κ → Option κ
  | .asking key _ | .locking key | .scanning key _ _ => some key
  | .signalling => none

/-- A session that ends works with its own key. -/
def Session.UsesOwnKey {ι υ κ : Type} (session : Session ι υ κ) : Prop :=
  ∀ point key, session.point = .removing point → point.key = some key → session.key = some key

namespace State

variable {ι υ κ : Type} [DecidableEq ι] [DecidableEq υ] [DecidableEq κ]
variable {state next : State ι υ κ}

/-- A call of `wd_transfers_remove_user` leaves the sessions and keeps its key. -/
theorem stepRemoval_session {timeout : Bool} {point : RemovalPoint υ κ}
    {after : Option (RemovalPoint υ κ)}
    (stepped : state.stepRemoval timeout point = some (next, after))
    : next.session = state.session
      ∧ ∀ point' ∈ after, ∀ key, point'.key = some key → point.key = some key := by
  cases point with
  | asking key rest =>
      cases rest with
      | nil =>
          cases stepped
          exact ⟨rfl, fun _ mem _ same => by cases mem; exact same⟩
      | cons user rest =>
          rw [stepRemoval] at stepped
          split at stepped <;> cases stepped
          · exact ⟨rfl, fun _ mem => by cases mem⟩
          · exact ⟨rfl, fun _ mem _ same => by cases mem; exact same⟩
  | locking key =>
      rw [stepRemoval] at stepped
      split at stepped <;> cases stepped
      exact ⟨rfl, fun _ mem _ same => by cases mem; exact same⟩
  | scanning key index update =>
      rw [stepRemoval] at stepped
      cases found : state.transfers[index]? with
      | none =>
          rw [found] at stepped
          simp only at stepped
          split at stepped <;> cases stepped
          · exact ⟨rfl, fun _ mem _ same => by cases mem; cases same⟩
          · exact ⟨rfl, fun _ mem => by cases mem⟩
      | some id =>
          rw [found] at stepped
          simp only at stepped
          split_ifs at stepped <;> cases stepped
            <;> exact ⟨rfl, fun _ mem _ same => by cases mem; exact same⟩
  | signalling =>
      rw [stepRemoval] at stepped
      split at stepped <;> cases stepped
      exact ⟨rfl, fun _ mem => by cases mem⟩

/-- What an action may do with a session: it keeps its key, and works with it when it ends. -/
structure KeepsKey (session session' : Session ι υ κ) : Prop where
  key : session'.key = session.key
  own : session.UsesOwnKey → session'.UsesOwnKey

/-- A session that stays as it is. -/
theorem KeepsKey.refl (session : Session ι υ κ) : KeepsKey session session :=
  ⟨rfl, id⟩

/-- One session changes and keeps its key. -/
theorem keepsKey_of_update {user : υ} {session : Session ι υ κ}
    (changes : next.session = Function.update state.session user session)
    (keeps : KeepsKey (state.session user) session) (other : υ)
    : KeepsKey (state.session other) (next.session other) := by
  rw [changes]
  by_cases same : other = user
  · subst same
    rw [Function.update_self]
    exact keeps
  · rw [Function.update_of_ne same]
    exact .refl _

/-- A transfer's thread keeps the keys of all sessions. -/
theorem keepsKey_stepThread {id : ι} {writes : Bool}
    (stepped : state.stepThread id writes = some next) (user : υ)
    : KeepsKey (state.session user) (next.session user) := by
  rw [stepThread] at stepped
  cases here : state.thread id with
  | absent | ended =>
      rw [here] at stepped
      cases stepped
  | adding | waiting | removing =>
      rw [here] at stepped
      simp only at stepped
      split at stepped <;> cases stepped
      exact .refl _
  | scheduling =>
      rw [here] at stepped
      simp only at stepped
      split at stepped <;> cases stepped
      exact .refl _
  | writing | checking | starting | running | finishing | deciding | removingTotal
    | removingUser =>
      rw [here] at stepped
      cases stepped
      exact .refl _
  | rescheduling =>
      rw [here] at stepped
      simp only at stepped
      split at stepped <;> cases stepped
      refine keepsKey_of_update rfl ?_ user
      exact ⟨rfl, fun _ _ _ here => by cases here⟩

/-- A session that ends keeps the keys of all sessions. -/
theorem keepsKey_stepLeaving {leaving : υ} {timeout : Bool}
    (stepped : state.stepLeaving leaving timeout = some next) (user : υ)
    : KeepsKey (state.session user) (next.session user) := by
  rw [stepLeaving] at stepped
  cases point : (state.session leaving).point with
  | absent | serving | transferring | gone =>
      rw [point] at stepped
      cases stepped
  | leaving =>
      rw [point] at stepped
      simp only at stepped
      split at stepped
      · cases stepped
        refine keepsKey_of_update rfl ?_ user
        exact ⟨rfl, fun _ _ _ here => by cases here⟩
      · rename_i key isKey
        split at stepped <;> cases stepped
        refine keepsKey_of_update rfl ?_ user
        refine ⟨rfl, fun _ call key' here same => ?_⟩
        cases here
        exact isKey.trans same
  | removing call =>
      rw [point] at stepped
      obtain ⟨⟨middle, after⟩, removes, same⟩ := Option.map_eq_some_iff.mp stepped
      subst same
      obtain ⟨sessions, keys⟩ := stepRemoval_session removes
      rw [← sessions] at point ⊢
      cases after with
      | none =>
          refine keepsKey_of_update rfl ?_ user
          exact ⟨rfl, fun _ _ _ here => by cases here⟩
      | some point' =>
          refine keepsKey_of_update rfl ?_ user
          refine ⟨rfl, fun own call' key here same => ?_⟩
          cases here
          exact own call key point (keys point' rfl key same)
  | closing =>
      rw [point] at stepped
      simp only at stepped
      split at stepped <;> cases stepped
      refine keepsKey_of_update rfl ?_ user
      exact ⟨rfl, fun _ _ _ here => by cases here⟩

/-- The queue thread leaves the sessions. -/
theorem session_stepQueue {action : QueueAction κ} (stepped : state.stepQueue action = some next)
    : next.session = state.session := by
  unfold stepQueue at stepped
  split at stepped
  case h_1 | h_2 | h_4 =>
    split at stepped <;> cases stepped
    rfl
  case h_5 =>
    simp only at stepped
    split_ifs at stepped <;> cases stepped <;> rfl
  case h_3 | h_6 | h_7 | h_8 | h_9 =>
    cases stepped
    rfl
  case h_10 => cases stepped

/-- The shutdown leaves the sessions. -/
theorem session_stepSweep {timeout : Bool} (stepped : state.stepSweep timeout = some next)
    : next.session = state.session := by
  rw [stepSweep] at stepped
  split at stepped
  · cases stepped
  · cases stepped
    rfl
  · cases stepped
    rfl
  · obtain ⟨⟨middle, after⟩, removes, same⟩ := Option.map_eq_some_iff.mp stepped
    subst same
    exact (stepRemoval_session removes).1

/-- Every action that sets no key keeps the keys of all sessions. -/
theorem keepsKey_step {action : Action ι υ κ} (stepped : step action state = some next)
    (other : ∀ user key, action ≠ .session user (.setKey key)) (user : υ)
    : KeepsKey (state.session user) (next.session user) := by
  cases action with
  | thread id writes => exact keepsKey_stepThread stepped user
  | queue action => rw [session_stepQueue stepped]; exact .refl _
  | remove leaving timeout => exact keepsKey_stepLeaving stepped user
  | sweep timeout => rw [session_stepSweep stepped]; exact .refl _
  | disconnect leaving =>
      cases stepped
      refine keepsKey_of_update rfl ?_ user
      exact ⟨rfl, id⟩
  | applySettings | removeAllUsers =>
      rw [step] at stepped
      split at stepped <;> cases stepped
      exact .refl _
  | session serving action =>
      rw [step] at stepped
      cases action with
      | setKey key => exact absurd rfl (other serving key)
      | connect | leave =>
          rw [stepSession] at stepped
          split at stepped <;> cases stepped
          refine keepsKey_of_update rfl ?_ user
          exact ⟨rfl, fun _ _ _ here => by cases here⟩
      | logIn =>
          rw [stepSession] at stepped
          split at stepped <;> cases stepped
          refine keepsKey_of_update rfl ?_ user
          exact ⟨rfl, id⟩
      | start id type queueTime =>
          rw [stepSession] at stepped
          split at stepped <;> cases stepped
          refine keepsKey_of_update rfl ?_ user
          exact ⟨rfl, fun _ _ _ here => by cases here⟩

/-- An action that starts no transfer keeps the keys of all transfers. -/
theorem key_step {action : Action ι υ κ} (stepped : step action state = some next)
    (other : ∀ user id type queueTime, action ≠ .session user (.start id type queueTime)) (id : ι)
    : (next.transfer id).key = (state.transfer id).key := by
  cases environment : isEnvironment action with
  | true => rw [(leavesTransfers_step environment stepped).transfer]
  | false =>
      cases action with
      | thread id writes =>
          obtain ⟨point, moves, -⟩ := stepThread_cases stepped
          exact moves.key _
      | queue action =>
          obtain ⟨point, -, queueStep⟩ := stepQueue_cases stepped
          generalize state.queueThread = before at queueStep
          cases queueStep
          case publish transfer =>
            rw [transfer, Function.update_apply]
            split
            · rename_i same
              rw [same]
            · rfl
          all_goals
            rename_i transfer
            rw [transfer]
      | session user action =>
          cases action with
          | start id type queueTime => exact absurd rfl (other user id type queueTime)
          | connect | setKey | logIn | leave => cases environment
      | disconnect | applySettings | remove | removeAllUsers | sweep => cases environment

end State

-----------------------------------------------------------------------------------------
-- Keys along runs
-----------------------------------------------------------------------------------------

section Runs

variable {ι υ : Type} [DecidableEq ι] [DecidableEq υ] {ip : υ → List Char}

/-- Each session has the key of its login and its address and works with it when it ends, and each transfer
has the key of its owner.
-/
structure NamedState.Keyed (ip : υ → List Char) (state : NamedState ι υ) : Prop where
  session : ∀ user, (state.threads.session user).key
    = transferKeyForUser (state.login user) (some (ip user))
  own : ∀ user, (state.threads.session user).UsesOwnKey
  transfer : ∀ id owner, state.owner id = some owner → (state.threads.transfer id).key = owner.key

/-- Before any session there are no keys. -/
theorem keyed_initial (ip : υ → List Char) (transfer : ι → Transfer υ (List Char))
    : (NamedState.initial transfer : NamedState ι υ).Keyed ip where
  session _ := rfl
  own _ _ _ here := nomatch here
  transfer _ _ here := nomatch here

/-- The key of a session with an identity. -/
theorem NamedState.Keyed.key_of_identity {state : NamedState ι υ} (keyed : state.Keyed ip) {user : υ}
    {identity : Identity} (isIdentity : state.identity ip user = some identity)
    : (state.threads.session user).key = some identity.key := by
  obtain ⟨login, isLogin, rfl⟩ := Option.map_eq_some_iff.mp isIdentity
  rw [keyed.session, isLogin]
  rfl

/-- Every step keeps the keys. -/
theorem NamedState.Keyed.step {action : NamedAction ι υ} {state next : NamedState ι υ}
    (keyed : state.Keyed ip) (stepped : NamedState.step ip action state = some next)
    : next.Keyed ip := by
  cases action with
  | setLogin user login =>
      simp only [NamedState.step, transferKeyForUser, Option.bind_eq_bind, Option.bind_some,
        Option.pure_def, Option.bind_eq_some_iff, Option.some.injEq] at stepped
      obtain ⟨threads, stepped, rfl⟩ := stepped
      rw [State.step, State.stepSession] at stepped
      split at stepped <;> cases stepped
      rename_i serves
      refine ⟨fun other => ?_, fun other => ?_, keyed.transfer⟩
      · show (Function.update state.threads.session user _ other).key
          = transferKeyForUser (Function.update state.login user _ other) _
        by_cases same : other = user
        · subst same
          rw [Function.update_self, Function.update_self]
          rfl
        · rw [Function.update_of_ne same, Function.update_of_ne same]
          exact keyed.session other
      · show (Function.update state.threads.session user _ other).UsesOwnKey
        by_cases same : other = user
        · subst same
          rw [Function.update_self]
          intro call key here
          cases serves.symm.trans here
        · rw [Function.update_of_ne same]
          exact keyed.own other
  | act action =>
      rw [NamedState.step] at stepped
      split at stepped
      · cases stepped
      · rename_i setsNone
        obtain ⟨threads, taken, rfl⟩ := Option.map_eq_some_iff.mp stepped
        have noKey : ∀ user key, action ≠ .session user (.setKey key) := by
          rintro user key rfl
          exact setsNone rfl
        have keeps := State.keepsKey_step taken noKey
        refine ⟨fun user => ((keeps user).key).trans (keyed.session user),
          fun user => (keeps user).own (keyed.own user), ?_⟩
        by_cases starts : ∃ user id type queueTime, action = .session user (.start id type queueTime)
        · obtain ⟨user, id, type, queueTime, rfl⟩ := starts
          have isKey {owner : Identity} (isOwner : state.identity ip user = some owner) :=
            keyed.key_of_identity isOwner
          rw [State.step, State.stepSession] at taken
          split at taken <;> cases taken
          rename_i key _ hasKey _
          intro other owner isOwner
          show (Function.update state.threads.transfer id _ other).key = _
          have isOwner : Function.update state.owner id (state.identity ip user) other = some owner :=
            isOwner
          by_cases same : other = id
          · subst same
            rw [Function.update_self] at isOwner ⊢
            exact Option.some.inj (hasKey.symm.trans (isKey isOwner))
          · rw [Function.update_of_ne same] at isOwner ⊢
            exact keyed.transfer other owner isOwner
        · have noStart : ∀ user id type queueTime,
              action ≠ .session user (.start id type queueTime) := fun user id type queueTime same =>
            starts ⟨user, id, type, queueTime, same⟩
          have sameOwner : state.ownerAfter ip action = state.owner := by
            rw [NamedState.ownerAfter]
            exact noStart
          intro id owner isOwner
          have isOwner : state.ownerAfter ip action id = some owner := isOwner
          rw [sameOwner] at isOwner
          exact (State.key_step taken noStart id).trans (keyed.transfer id owner isOwner)

/-- Sessions spare the transfers of an identity with another key. -/
theorem NamedState.Keyed.spares {state : NamedState ι υ} (keyed : state.Keyed ip)
    {first second : Identity} (differ : first.key ≠ second.key)
    : Spares ip state first second where
  removes user id timeout isUser isOwner := by
    intro removed
    obtain ⟨call, isCall, victim⟩ := Option.bind_eq_some_iff.mp removed
    rw [State.removal] at isCall
    split at isCall <;> cases isCall
    rename_i point
    cases call with
    | asking | locking | signalling => cases victim
    | scanning key index update =>
        rw [State.victim, Option.filter_eq_some_iff] at victim
        have own := keyed.own user _ key point rfl
        rw [keyed.key_of_identity isUser] at own
        have same : key = (state.threads.transfer id).key := by
          have both := victim.2
          simp only [Bool.and_eq_true, decide_eq_true_eq] at both
          exact both.1
        rw [keyed.transfer id second isOwner] at same
        exact differ ((Option.some.inj own).trans same)
  waits user id isUser isOwner inspected := by
    rw [State.inspected] at inspected
    split at inspected
    · rename_i key index update point
      have own := keyed.own user _ key point rfl
      rw [keyed.key_of_identity isUser] at own
      have other : key ≠ (state.threads.transfer id).key := by
        rw [keyed.transfer id second isOwner, ← Option.some.inj own]
        exact differ
      simp only [State.step, State.stepLeaving, point, State.stepRemoval, inspected, if_neg other,
        Option.map_some, Option.isSome_some]
    · cases inspected
  counts action next id stepped counted isOwner type := by
    have isKey := keyed.transfer id second isOwner
    have other : ∀ type', ¬(type' = type ∧ second.key = first.key) := fun _ same =>
      differ same.2.symm
    unfold State.counted at counted
    split at counted
    · split at counted
      · rename_i point
        cases counted
        simp only [State.step, State.stepQueue, point, Option.some.injEq] at stepped
        subst stepped
        rw [Counters.user_countUser, isKey, if_neg (other _)]
      · cases counted
    · split at counted
      · rename_i point
        cases counted
        simp only [State.step, State.stepThread, point, Option.some.injEq] at stepped
        subst stepped
        show (Counters.countUser _ _ _ _).user type first.key = _
        rw [Counters.user_countUser, isKey, if_neg (other _)]
      · cases counted
    · cases counted

end Runs

-----------------------------------------------------------------------------------------
-- Identities
-----------------------------------------------------------------------------------------

/-- A session of the first identity ends, and after it asked for other sessions with its key one of the
second identity starts a download. Then the first one goes on and comes to the download.
-/
def overtakenRun (first second : Identity) : List (NamedAction ℕ ℕ) :=
  [.act (.session 0 .connect), .setLogin 0 first.login, .act (.session 0 .logIn),
    .act (.session 0 .leave), .act (.remove 0 false), .act (.remove 0 false),
    .act (.session 1 .connect), .setLogin 1 second.login, .act (.session 1 .logIn),
    .act (.session 1 (.start 0 .download 0)), .act (.thread 0 true),
    .act (.remove 0 false), .act (.remove 0 false)]

/-- The addresses of the two sessions. -/
def twoAddresses (first second : Identity) (user : ℕ) : List Char :=
  if user = 0 then first.ip else second.ip

/-- Memory that no transfer has used. -/
def noTransfer (_ : ℕ) : Transfer ℕ (List Char) where
  user := 0
  key := []
  type := .download
  state := .queued
  queue := 0
  queueTime := 0
  ready := false

/-- A session comes to a download of another identity. -/
theorem exists_overtaken (first second : Identity)
    : ∃ state, Machine.run (NamedState.step (twoAddresses first second)) (overtakenRun first second)
          (.initial noTransfer) = some state
        ∧ state.identity (twoAddresses first second) 0 = some first ∧ state.owner 0 = some second
        ∧ (state.threads.session 0).point = .removing (.scanning first.key 0 false)
        ∧ state.threads.transfers = [0]
        ∧ state.threads.transfer 0 = State.newTransfer 1 second.key .download 0 :=
  ⟨_, rfl, rfl, rfl, rfl, rfl, rfl⟩

/-- Identities with one key are not isolated. -/
theorem not_isolated_of_key_eq {first second : Identity} (same : first.key = second.key)
    : ¬Isolated first second := by
  intro isolated
  obtain ⟨state, ran, isUser, isOwner, point, transfers, transfer⟩ := exists_overtaken first second
  apply (isolated _ noTransfer _ state ran).removes 0 0 false isUser isOwner
  simp [State.removed, State.removal, State.victim, point, transfers, transfer, State.newTransfer, same]

end WiredServer.Transfers
