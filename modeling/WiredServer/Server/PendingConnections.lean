import WiredServer.Lib.Machine

/-! The count of pending connections: the listen thread counts a connection before it creates its
thread, and the thread gives the count back when it ends, which is after the whole session. An action
is what one thread does between two accesses to the count.
-/

namespace WiredServer.Server

/-- `WD_MAX_PENDING_CONNECTIONS` -/
def maxPendingConnections : ℤ :=
  50

/-- Where the listen thread is. -/
inductive ListenPoint (κ : Type) where
  | accepting
  | checking (connection : κ)
  | counting (connection : κ)
  | creating (connection : κ)
  deriving DecidableEq

/-- `_wd_pending_connections`, the listen thread and the threads of the connections. The handshake of
a connection has been started once the connection is counted.
-/
structure Listening (κ : Type) where
  pendingConnections : ℤ
  listener : ListenPoint κ
  handshakes : List κ
  sessions : List κ

/-- What the threads do. A handshake ends with success or not, and a connection may be encrypted or
not, and may have to be.
-/
inductive ListenAction (κ : Type) where
  | accept (socket : Option κ)
  | check
  | count
  | create (succeeds : Bool)
  | handshake (connection : κ) (succeeds encrypted forceEncryption : Bool)
  | endSession (connection : κ)

/-- A handshake that succeeds is followed by a session, unless the connection is refused. -/
def beginsSession (succeeds encrypted forceEncryption : Bool) : Bool :=
  succeeds && (encrypted || !forceEncryption)

namespace Listening

variable {κ : Type} [DecidableEq κ]

/-- The state before any connection. -/
def initial : Listening κ where
  pendingConnections := 0
  listener := .accepting
  handshakes := []
  sessions := []

/-- The listen thread goes on to a point. -/
def goTo (state : Listening κ) (point : ListenPoint κ) : Listening κ :=
  { state with listener := point }

/-- `atomic_fetch_add` for a connection, whose handshake starts -/
def addPending (state : Listening κ) (connection : κ) : Listening κ :=
  { state with
    pendingConnections := state.pendingConnections + 1
    handshakes := connection :: state.handshakes }

/-- `atomic_fetch_sub` for a connection whose handshake has ended without a session -/
def subHandshake (state : Listening κ) (connection : κ) : Listening κ :=
  { state with
    pendingConnections := state.pendingConnections - 1
    handshakes := state.handshakes.erase connection }

/-- `atomic_fetch_sub` for a connection whose session has ended -/
def subSession (state : Listening κ) (connection : κ) : Listening κ :=
  { state with
    pendingConnections := state.pendingConnections - 1
    sessions := state.sessions.erase connection }

/-- A connection whose handshake has ended goes on with its session. -/
def beginSession (state : Listening κ) (connection : κ) : Listening κ :=
  { state with
    handshakes := state.handshakes.erase connection
    sessions := connection :: state.sessions }

/-- The next step of the listen thread (`wd_server_listen_thread`) or of the thread of a connection
(`wd_server_accept_thread`).
-/
def step (action : ListenAction κ) (state : Listening κ) : Option (Listening κ) :=
  match state.listener, action with
  | .accepting, .accept none => some state
  | .accepting, .accept (some connection) =>
      if connection ∈ state.handshakes ∨ connection ∈ state.sessions then none
      else some (state.goTo (.checking connection))
  | .checking connection, .check =>
      some (state.goTo
        (if state.pendingConnections ≥ maxPendingConnections then .accepting
        else .counting connection))
  | .counting connection, .count =>
      some ((state.addPending connection).goTo (.creating connection))
  | .creating connection, .create succeeds =>
      some ((if succeeds then state else state.subHandshake connection).goTo .accepting)
  | listener, .handshake connection succeeds encrypted forceEncryption =>
      if connection ∈ state.handshakes ∧ listener ≠ .creating connection then
        some (if beginsSession succeeds encrypted forceEncryption then state.beginSession connection
          else state.subHandshake connection)
      else none
  | _, .endSession connection =>
      if connection ∈ state.sessions then some (state.subSession connection) else none
  | _, _ => none

/-- The listen thread is about to reject a connection. -/
def isRejecting (state : Listening κ) : Bool :=
  match state.listener with
  | .checking _ => decide (state.pendingConnections ≥ maxPendingConnections)
  | _ => false

/-- The count is the number of the handshakes in progress, and a connection is rejected only when
these are as many as may be pending.
-/
structure CountsHandshakes (state : Listening κ) : Prop where
  counts : state.pendingConnections = state.handshakes.length
  rejects : state.isRejecting = true → maxPendingConnections ≤ state.handshakes.length

/-- What holds in every interleaving: the count is the number of the handshakes and the sessions. -/
structure CountsConnections (state : Listening κ) : Prop where
  counts : state.pendingConnections = state.handshakes.length + state.sessions.length
  below : state.pendingConnections ≤ maxPendingConnections
  room : ∀ connection, state.listener = .counting connection →
    state.pendingConnections < maxPendingConnections
  creating : ∀ connection, state.listener = .creating connection → connection ∈ state.handshakes

end Listening

/-- The end of a handshake that is no start of a session, and every other action. -/
def ListenAction.KeepsPending {κ : Type} : ListenAction κ → Listening κ → Prop
  | .handshake _ succeeds encrypted forceEncryption, _ =>
      beginsSession succeeds encrypted forceEncryption = false
  | _, _ => True

namespace Listening

variable {κ : Type} [DecidableEq κ] {state next : Listening κ} {action : ListenAction κ}

/-- Giving back the count of a handshake. -/
theorem CountsConnections.subHandshake (counted : state.CountsConnections) {connection : κ}
    (started : connection ∈ state.handshakes)
    (created : state.listener ≠ .creating connection)
    : (state.subHandshake connection).CountsConnections where
  counts := by
    have length := List.length_erase_add_one started
    have counts := counted.counts
    show state.pendingConnections - 1
      = (state.handshakes.erase connection).length + state.sessions.length
    omega
  below := by
    have below := counted.below
    show state.pendingConnections - 1 ≤ maxPendingConnections
    omega
  room other here := by
    have room := counted.room other here
    show state.pendingConnections - 1 < maxPendingConnections
    omega
  creating other here := by
    have differ : other ≠ connection := fun same => created (same ▸ here)
    exact (List.mem_erase_of_ne differ).mpr (counted.creating other here)

/-- Giving back the count of a session. -/
theorem CountsConnections.subSession (counted : state.CountsConnections) {connection : κ}
    (running : connection ∈ state.sessions)
    : (state.subSession connection).CountsConnections where
  counts := by
    have length := List.length_erase_add_one running
    have counts := counted.counts
    show state.pendingConnections - 1
      = state.handshakes.length + (state.sessions.erase connection).length
    omega
  below := by
    have below := counted.below
    show state.pendingConnections - 1 ≤ maxPendingConnections
    omega
  room other here := by
    have room := counted.room other here
    show state.pendingConnections - 1 < maxPendingConnections
    omega
  creating := counted.creating

/-- A session that begins keeps its count. -/
theorem CountsConnections.beginSession (counted : state.CountsConnections) {connection : κ}
    (started : connection ∈ state.handshakes)
    (created : state.listener ≠ .creating connection)
    : (state.beginSession connection).CountsConnections where
  counts := by
    have length := List.length_erase_add_one started
    have counts := counted.counts
    show state.pendingConnections
      = (state.handshakes.erase connection).length + (connection :: state.sessions).length
    rw [List.length_cons]
    omega
  below := counted.below
  room := counted.room
  creating other here := by
    have differ : other ≠ connection := fun same => created (same ▸ here)
    exact (List.mem_erase_of_ne differ).mpr (counted.creating other here)

/-- What a step does to the count and to the connections. -/
inductive Moves (state : Listening κ) : ListenAction κ → Listening κ → Prop where
  | listen {action : ListenAction κ} {point : ListenPoint κ}
      (room : ∀ connection, point = .counting connection →
        state.pendingConnections < maxPendingConnections)
      (waits : ∀ connection, point ≠ .creating connection) (keeps : action.KeepsPending state)
      : Moves state action (state.goTo point)
  | count {connection : κ} (here : state.listener = .counting connection)
      : Moves state .count ((state.addPending connection).goTo (.creating connection))
  | create {connection : κ} (here : state.listener = .creating connection)
      : Moves state (.create false) ((state.subHandshake connection).goTo .accepting)
  | refuse {connection : κ} {succeeds encrypted forceEncryption : Bool}
      (started : connection ∈ state.handshakes) (created : state.listener ≠ .creating connection)
      (refused : beginsSession succeeds encrypted forceEncryption = false)
      : Moves state (.handshake connection succeeds encrypted forceEncryption)
          (state.subHandshake connection)
  | begin {connection : κ} {succeeds encrypted forceEncryption : Bool}
      (started : connection ∈ state.handshakes) (created : state.listener ≠ .creating connection)
      (begun : beginsSession succeeds encrypted forceEncryption = true)
      : Moves state (.handshake connection succeeds encrypted forceEncryption)
          (state.beginSession connection)
  | leave {connection : κ} (running : connection ∈ state.sessions)
      : Moves state (.endSession connection) (state.subSession connection)

/-- Every step is one of these. -/
theorem moves_of_step (stepped : step action state = some next) : state.Moves action next := by
  unfold step at stepped
  split at stepped
  · obtain rfl := Option.some.inj stepped
    rename_i here
    have same : state.goTo .accepting = state := by rw [goTo, ← here]
    exact same ▸ .listen nofun nofun trivial
  · split_ifs at stepped
    obtain rfl := Option.some.inj stepped
    exact .listen nofun nofun trivial
  · obtain rfl := Option.some.inj stepped
    split_ifs with full
    · exact .listen nofun nofun trivial
    · exact .listen (fun _ _ => not_le.mp full) nofun trivial
  · obtain rfl := Option.some.inj stepped
    exact .count ‹_›
  · rename_i connection succeeds here
    obtain rfl := Option.some.inj stepped
    cases succeeds with
    | false => exact .create here
    | true => exact .listen nofun nofun trivial
  · split_ifs at stepped with started begun
    · obtain rfl := Option.some.inj stepped
      exact .begin started.1 started.2 begun
    · obtain rfl := Option.some.inj stepped
      exact .refuse started.1 started.2 (Bool.eq_false_iff.mpr begun)
  · split_ifs at stepped with running
    obtain rfl := Option.some.inj stepped
    exact .leave running
  · cases stepped

/-- Every step keeps the count of the connections. -/
theorem CountsConnections.step (counted : state.CountsConnections)
    (stepped : Listening.step action state = some next)
    : next.CountsConnections := by
  cases moves_of_step stepped with
  | listen room waits =>
      exact ⟨counted.counts, counted.below, room, fun connection here => absurd here (waits connection)⟩
  | @count connection here =>
      have counts := counted.counts
      have room := counted.room connection here
      refine ⟨?_, ?_, nofun, ?_⟩
      · show state.pendingConnections + 1 = (connection :: state.handshakes).length
          + state.sessions.length
        rw [List.length_cons]
        omega
      · show state.pendingConnections + 1 ≤ maxPendingConnections
        omega
      · intro other same
        cases same
        exact List.mem_cons_self
  | @create connection here =>
      have started := counted.creating connection here
      have length := List.length_erase_add_one started
      have counts := counted.counts
      have below := counted.below
      refine ⟨?_, ?_, nofun, nofun⟩
      · show state.pendingConnections - 1
          = (state.handshakes.erase connection).length + state.sessions.length
        omega
      · show state.pendingConnections - 1 ≤ maxPendingConnections
        omega
  | refuse started created => exact counted.subHandshake started created
  | begin started created => exact counted.beginSession started created
  | leave running => exact counted.subSession running

omit [DecidableEq κ] in
/-- Nothing is counted before any connection. -/
theorem countsConnections_initial : (initial : Listening κ).CountsConnections :=
  ⟨rfl, show (0 : ℤ) ≤ 50 by decide, nofun, nofun⟩

/-- In every interleaving the count is the number of the handshakes in progress and of the sessions. -/
theorem countsConnections_of_run {actions : List (ListenAction κ)} {last : Listening κ}
    (ran : Machine.run step actions initial = some last)
    : last.CountsConnections :=
  Machine.holds_of_run_always (fun _ _ _ counted stepped => counted.step stepped) ran
    countsConnections_initial

omit [DecidableEq κ] in
/-- The count is the number of the handshakes just when there is no session. -/
theorem CountsConnections.countsHandshakes_iff (counted : state.CountsConnections)
    : state.CountsHandshakes ↔ state.sessions = [] := by
  have counts := counted.counts
  constructor
  · intro handshakes
    have alone := handshakes.counts
    exact List.eq_nil_of_length_eq_zero (by omega)
  · intro none
    rw [none, List.length_nil] at counts
    refine ⟨by omega, fun rejecting => ?_⟩
    unfold isRejecting at rejecting
    split at rejecting
    · have full := of_decide_eq_true rejecting
      omega
    · cases rejecting

/-- Without sessions, there are none after an action exactly if it meets the condition. -/
theorem sessions_step_iff (stepped : step action state = some next) (none : state.sessions = [])
    : next.sessions = [] ↔ action.KeepsPending state := by
  cases moves_of_step stepped with
  | listen _ _ keeps => exact iff_of_true none keeps
  | count | create => exact iff_of_true none trivial
  | refuse _ _ refused => exact iff_of_true none refused
  | begin _ _ begun => exact iff_of_false nofun fun refused => Bool.noConfusion (begun.symm.trans refused)
  | leave running =>
      rw [none] at running
      cases running

/-- The count is the number of the handshakes in progress in every state of an interleaving exactly if
no handshake of it is followed by a session.
-/
theorem countsHandshakes_iff_keepsPending {actions : List (ListenAction κ)} {last : Listening κ}
    (ran : Machine.run step actions initial = some last)
    : Machine.Meets step (fun action state => ∀ next, step action state = some next →
          next.CountsHandshakes) actions initial
      ↔ Machine.Meets step ListenAction.KeepsPending actions initial := by
  have same : ∀ action (state next : Listening κ),
      state.CountsConnections ∧ state.sessions = [] → step action state = some next →
      ((∀ next, step action state = some next → next.CountsHandshakes)
        ↔ action.KeepsPending state) := by
    intro action state next before stepped
    have after := (before.1.step stepped).countsHandshakes_iff
    rw [← sessions_step_iff stepped before.2, ← after, stepped]
    exact ⟨fun always => always next rfl, fun counts _ equal => Option.some.inj equal ▸ counts⟩
  have kept : ∀ action (state next : Listening κ), action.KeepsPending state →
      state.CountsConnections ∧ state.sessions = [] → step action state = some next →
      next.CountsConnections ∧ next.sessions = [] := fun action state next keeps before stepped =>
    ⟨before.1.step stepped, (sessions_step_iff stepped before.2).mpr keeps⟩
  exact Machine.meets_iff_meets_of_run same kept ran ⟨countsConnections_initial, rfl⟩

/-- A handshake that fails. -/
def failedHandshake : List (ListenAction ℕ) :=
  [.accept (some 0), .check, .count, .create true, .handshake 0 false false false]

/-- A handshake that fails is counted while it is in progress. -/
theorem countsHandshakes_failedHandshake
    : Machine.Meets step (fun action state => ∀ next, step action state = some next →
        next.CountsHandshakes) failedHandshake initial := by
  have reached : (Machine.run step failedHandshake initial).isSome = true := by decide
  obtain ⟨last, ran⟩ := Option.isSome_iff_exists.mp reached
  refine (countsHandshakes_iff_keepsPending ran).mpr ?_
  refine Machine.meets_of_forall fun action mem state => ?_
  simp only [failedHandshake, List.mem_cons, List.not_mem_nil, or_false] at mem
  rcases mem with rfl | rfl | rfl | rfl | rfl
  all_goals trivial

/-- As many sessions as connections may be pending. -/
def fiftySessions : List (ListenAction ℕ) :=
  (List.range 50).flatMap fun connection =>
    [.accept (some connection), .check, .count, .create true, .handshake connection true true true]

/-- With fifty sessions and no handshake in progress, the next connection is rejected. -/
theorem not_countsHandshakes_fiftySessions
    : ∃ last : Listening ℕ,
        Machine.run step (fiftySessions ++ [.accept (some 50)]) initial = some last
        ∧ last.handshakes = [] ∧ last.pendingConnections = 50 ∧ last.isRejecting = true
        ∧ ¬last.CountsHandshakes := by
  have reached : (Machine.run step (fiftySessions ++ [.accept (some 50)]) initial).map
      (fun last => (last.handshakes, last.pendingConnections, last.isRejecting))
        = some ([], 50, true) := by
    decide +kernel
  obtain ⟨last, ran, found⟩ := Option.map_eq_some_iff.mp reached
  simp only [Prod.mk.injEq] at found
  refine ⟨last, ran, found.1, found.2.1, found.2.2, fun counts => ?_⟩
  have alone := counts.counts
  rw [found.1, found.2.1] at alone
  cases alone

end Listening

end WiredServer.Server
