import WiredServer.Data.Formats
import WiredServer.Lib.Machine

/-! Messages to users who are not there: they are stored, and the next login of the recipient delivers them. The
threads of the server share one connection to the database, so that a login's transaction is open for all of them.
-/

namespace WiredServer.Server

open Bytes Data

-----------------------------------------------------------------------------------------
-- Messages
-----------------------------------------------------------------------------------------

/-- What is stored of a message. -/
structure OfflineDraft where
  senderLogin : String
  senderNick : String
  senderToken : String
  recipientLogin : String
  message : String
  ciphertext : Option Block
  deriving DecidableEq

/-- A row of `pending_messages`. -/
structure PendingMessage extends OfflineDraft where
  id : ℕ
  sentAt : ℤ
  deriving DecidableEq

/-- `wired.message.send_offline_message` -/
structure OfflineRequest where
  recipientToken : Option String
  recipient : Option String
  message : String
  ciphertext : Option Block

/-- The errors of the reply. -/
inductive OfflineError where
  | permissionDenied | accountNotFound | invalidMessage | internalError
  deriving DecidableEq, Repr

/-- The user that sends a message, and what the database says about tokens and accounts. -/
structure OfflineSender where
  login : String
  nick : String
  maySend : Bool
  token : String
  loginOfToken : String → Option String
  hasAccount : String → Bool

/-- Whom a message is for: the login of a token, or a login. -/
def OfflineSender.recipient (sender : OfflineSender) (request : OfflineRequest) : Except OfflineError String :=
  let token := request.recipientToken.getD ""
  if token ≠ "" then
    match sender.loginOfToken token with
    | none => .error .accountNotFound
    | some login => .ok login
  else
    let login := request.recipient.getD ""
    if login = "" then .error .invalidMessage
    else if !sender.hasAccount login then .error .accountNotFound
    else .ok login

/-- The number of messages that a recipient may have. -/
def maxPendingMessages : ℕ := 50

/-- `wd_message_message_send_offline_message`, up to the `INSERT` -/
def OfflineSender.draft (sender : OfflineSender) (pending : String → ℕ) (request : OfflineRequest)
    : Except OfflineError OfflineDraft := do
  if !sender.maySend then throw .permissionDenied
  let recipient ← sender.recipient request
  if pending recipient ≥ maxPendingMessages then throw .internalError
  let ciphertext := request.ciphertext.filter (· ≠ [])
  if ciphertext.any (·.length > 65536) then throw .invalidMessage
  return {
    senderLogin := sender.login
    senderNick := sender.nick
    senderToken := sender.token
    recipientLogin := recipient
    message := request.message
    ciphertext }

-----------------------------------------------------------------------------------------
-- Threads
-----------------------------------------------------------------------------------------

/-- What a thread is doing: nothing of this; storing a message that has passed the checks; or delivering the messages
of a login, which are selected, sent and deleted.
-/
inductive PostThread where
  | idle
  | storing (draft : OfflineDraft)
  | opening (login : String)
  | delivering (login : String) (left : List PendingMessage) (delivered : List ℕ)
  | deleting (login : String) (ids : List ℕ)
  deriving DecidableEq

namespace PostThread

/-- The login whose messages a thread delivers. -/
def login : PostThread → Option String
  | .idle => none
  | .storing _ => none
  | .opening login => some login
  | .delivering login _ _ => some login
  | .deleting login _ => some login

/-- The recipient of the message that a thread stores. -/
def recipient : PostThread → Option String
  | .storing draft => some draft.recipientLogin
  | _ => none

/-- The `delivered_ids` that are still in the table. -/
def delivered : PostThread → List ℕ
  | .idle => []
  | .storing _ => []
  | .opening _ => []
  | .delivering _ _ delivered => delivered
  | .deleting _ ids => ids

end PostThread

/-- A message that a session of a login was sent, or that could not be written to it. -/
structure SentMessage where
  login : String
  row : PendingMessage
  written : Bool

/-- The table, its next key, what they were when the transaction was opened that is open, and the threads. `accepted`
and `sent` are no variables of the source: they say which messages were stored and sent.
-/
structure Post (Thread : Type) where
  rows : List PendingMessage
  next : ℕ
  saved : Option (List PendingMessage × ℕ)
  thread : Thread → PostThread
  accepted : List PendingMessage
  sent : List SentMessage

/-- What happens next. `transaction` is any other transaction of the server, such as that of `wd_events_add_event`.
`restart` is the end of the process and its next start.
-/
inductive PostAction (Thread : Type) where
  | request (thread : Thread) (sender : OfflineSender) (request : OfflineRequest)
  | store (thread : Thread) (now : ℤ) (stored : Bool)
  | logIn (thread : Thread) (login : String)
  | select (thread : Thread) (rows : List PendingMessage)
  | send (thread : Thread) (written : Bool)
  | endOfRows (thread : Thread)
  | delete (thread : Thread) (deleted : Bool)
  | commit (thread : Thread)
  | transaction
  | restart

namespace Post

variable {Thread : Type} [DecidableEq Thread]

/-- The messages for a login. -/
def pending (state : Post Thread) (login : String) : List PendingMessage :=
  state.rows.filter (·.recipientLogin = login)

/-- The messages that were sent to the sessions of a login, in order. -/
def sentTo (state : Post Thread) (login : String) : List PendingMessage :=
  (state.sent.filter (·.login = login)).map (·.row)

/-- The state with what a thread does next. -/
def setThread (state : Post Thread) (thread : Thread) (doing : PostThread) : Post Thread :=
  { state with thread := Function.update state.thread thread doing }

/-- What the threads do next. -/
theorem thread_setThread (state : Post Thread) (thread : Thread) (doing : PostThread) (other : Thread)
    : (state.setThread thread doing).thread other = if other = thread then doing else state.thread other :=
  Function.update_apply _ _ _ _

/-- The state in which the process starts, with an empty table. -/
def start : Post Thread where
  rows := []
  next := 1
  saved := none
  thread _ := .idle
  accepted := []
  sent := []

/-- An open transaction is undone. -/
def restarted (state : Post Thread) : Post Thread :=
  { state with
    rows := (state.saved.getD (state.rows, state.next)).1
    next := (state.saved.getD (state.rows, state.next)).2
    saved := none
    thread := fun _ => .idle }

/-- The state after an action. A transaction that is opened within another one fails: that of a login goes on without,
and any other one ends the process.
-/
def step (action : PostAction Thread) (state : Post Thread) : Option (Post Thread) :=
  match action with
  | .request thread sender request =>
      match state.thread thread with
      | .idle =>
          match sender.draft (fun login => (state.pending login).length) request with
          | .error _ => some state
          | .ok draft => some (state.setThread thread (.storing draft))
      | _ => none
  | .store thread now stored =>
      match state.thread thread with
      | .storing draft =>
          if stored then
            let row : PendingMessage := { draft with id := state.next, sentAt := now }
            some
              { state.setThread thread .idle with
                rows := state.rows ++ [row]
                next := state.next + 1
                accepted := state.accepted ++ [row] }
          else some (state.setThread thread .idle)
      | _ => none
  | .logIn thread login =>
      match state.thread thread with
      | .idle =>
          some
            { state.setThread thread (.opening login) with
              saved := some (state.saved.getD (state.rows, state.next)) }
      | _ => none
  | .select thread rows =>
      match state.thread thread with
      | .opening login =>
          if rows.Perm (state.pending login) ∧ rows.Pairwise (·.sentAt ≤ ·.sentAt) then
            some (state.setThread thread (.delivering login rows []))
          else none
      | _ => none
  | .send thread written =>
      match state.thread thread with
      | .delivering login (row :: left) delivered =>
          some
            { state.setThread thread (.delivering login left (delivered ++ [row.id])) with
              sent := state.sent ++ [⟨login, row, written⟩] }
      | _ => none
  | .endOfRows thread =>
      match state.thread thread with
      | .opening login => some (state.setThread thread (.deleting login []))
      | .delivering login _ delivered => some (state.setThread thread (.deleting login delivered))
      | _ => none
  | .delete thread deleted =>
      match state.thread thread with
      | .deleting login (id :: ids) =>
          some
            { state.setThread thread (.deleting login ids) with
              rows := if deleted then state.rows.filter (·.id ≠ id) else state.rows }
      | _ => none
  | .commit thread =>
      match state.thread thread with
      | .deleting _ [] => some { state.setThread thread .idle with saved := none }
      | _ => none
  | .transaction => if state.saved.isSome then some state.restarted else some state
  | .restart => some state.restarted

-----------------------------------------------------------------------------------------
-- One step
-----------------------------------------------------------------------------------------

/-- The row of a draft. -/
def row (state : Post Thread) (draft : OfflineDraft) (now : ℤ) : PendingMessage :=
  { draft with id := state.next, sentAt := now }

/-- What a step does. -/
inductive Stepped (state : Post Thread) : PostAction Thread → Post Thread → Prop where
  | refuse {thread : Thread} {sender : OfflineSender} {request : OfflineRequest}
      : Stepped state (.request thread sender request) state
  | check {thread : Thread} {sender : OfflineSender} {request : OfflineRequest} {draft : OfflineDraft}
      (here : state.thread thread = .idle)
      (room : (state.pending draft.recipientLogin).length < maxPendingMessages)
      : Stepped state (.request thread sender request) (state.setThread thread (.storing draft))
  | store {thread : Thread} {now : ℤ} {draft : OfflineDraft} (here : state.thread thread = .storing draft)
      : Stepped state (.store thread now true)
          { state.setThread thread .idle with
            rows := state.rows ++ [state.row draft now]
            next := state.next + 1
            accepted := state.accepted ++ [state.row draft now] }
  | storeFails {thread : Thread} {now : ℤ} {draft : OfflineDraft} (here : state.thread thread = .storing draft)
      : Stepped state (.store thread now false) (state.setThread thread .idle)
  | logIn {thread : Thread} {login : String} (here : state.thread thread = .idle)
      : Stepped state (.logIn thread login)
          { state.setThread thread (.opening login) with
            saved := some (state.saved.getD (state.rows, state.next)) }
  | select {thread : Thread} {login : String} {rows : List PendingMessage}
      (here : state.thread thread = .opening login) (same : rows.Perm (state.pending login))
      (sorted : rows.Pairwise (·.sentAt ≤ ·.sentAt))
      : Stepped state (.select thread rows) (state.setThread thread (.delivering login rows []))
  | send {thread : Thread} {written : Bool} {login : String} {row : PendingMessage} {left : List PendingMessage}
      {delivered : List ℕ} (here : state.thread thread = .delivering login (row :: left) delivered)
      : Stepped state (.send thread written)
          { state.setThread thread (.delivering login left (delivered ++ [row.id])) with
            sent := state.sent ++ [⟨login, row, written⟩] }
  | endOfRows {thread : Thread} {login : String} (here : (state.thread thread).login = some login)
      : Stepped state (.endOfRows thread)
          (state.setThread thread (.deleting login (state.thread thread).delivered))
  | delete {thread : Thread} {login : String} {id : ℕ} {ids : List ℕ}
      (here : state.thread thread = .deleting login (id :: ids))
      : Stepped state (.delete thread true)
          { state.setThread thread (.deleting login ids) with rows := state.rows.filter (·.id ≠ id) }
  | deleteFails {thread : Thread} {login : String} {id : ℕ} {ids : List ℕ}
      (here : state.thread thread = .deleting login (id :: ids))
      : Stepped state (.delete thread false) (state.setThread thread (.deleting login ids))
  | commit {thread : Thread} {login : String} (here : state.thread thread = .deleting login [])
      : Stepped state (.commit thread) { state.setThread thread .idle with saved := none }
  | pass (closed : state.saved = none) : Stepped state .transaction state
  | abort (opened : state.saved.isSome) : Stepped state .transaction state.restarted
  | restart : Stepped state .restart state.restarted

omit [DecidableEq Thread] in
/-- A message that passes the checks is for a recipient who has room for it. -/
theorem draft_room {sender : OfflineSender} {pending : String → ℕ} {request : OfflineRequest} {draft : OfflineDraft}
    (passed : sender.draft pending request = .ok draft)
    : pending draft.recipientLogin < maxPendingMessages := by
  rw [OfflineSender.draft] at passed
  by_cases may : sender.maySend = true
  · cases found : sender.recipient request with
    | error error =>
        rw [may, found] at passed
        cases passed
    | ok recipient =>
        rw [may, found] at passed
        simp only [Bool.not_true, Bool.false_eq_true, if_false, bind, Except.bind, pure, Except.pure] at passed
        by_cases full : pending recipient ≥ maxPendingMessages
        · rw [if_pos full] at passed
          cases passed
        · rw [if_neg full] at passed
          split_ifs at passed
          cases passed
          exact Nat.lt_of_not_le full
  · rw [Bool.not_eq_true] at may
    rw [may] at passed
    cases passed

/-- A step is one of these. -/
theorem stepped_of_step {action : PostAction Thread} {state next : Post Thread}
    (stepped : step action state = some next)
    : state.Stepped action next := by
  cases action with
  | request thread sender request =>
      rw [step] at stepped
      split at stepped
      · rename_i here
        split at stepped
        · cases stepped
          exact .refuse
        · rename_i draft passed
          cases stepped
          exact .check here (draft_room passed)
      · cases stepped
  | store thread now stored =>
      rw [step] at stepped
      split at stepped
      · rename_i draft here
        cases stored with
        | true =>
            cases stepped
            exact .store here
        | false =>
            cases stepped
            exact .storeFails here
      · cases stepped
  | logIn thread login =>
      rw [step] at stepped
      split at stepped
      · rename_i here
        cases stepped
        exact .logIn here
      · cases stepped
  | select thread rows =>
      rw [step] at stepped
      split at stepped
      · rename_i login here
        split_ifs at stepped with fits
        cases stepped
        exact .select here fits.1 fits.2
      · cases stepped
  | send thread written =>
      rw [step] at stepped
      split at stepped
      · rename_i login row left delivered here
        cases stepped
        exact .send here
      · cases stepped
  | endOfRows thread =>
      rw [step] at stepped
      split at stepped
      · rename_i login here
        cases stepped
        have ends : state.Stepped (.endOfRows thread) _ := .endOfRows (congrArg PostThread.login here)
        rwa [here] at ends
      · rename_i login left delivered here
        cases stepped
        have ends : state.Stepped (.endOfRows thread) _ := .endOfRows (congrArg PostThread.login here)
        rwa [here] at ends
      · cases stepped
  | delete thread deleted =>
      rw [step] at stepped
      split at stepped
      · rename_i login id ids here
        cases deleted with
        | true =>
            cases stepped
            exact .delete here
        | false =>
            cases stepped
            exact .deleteFails here
      · cases stepped
  | commit thread =>
      rw [step] at stepped
      split at stepped
      · rename_i login here
        cases stepped
        exact .commit here
      · cases stepped
  | transaction =>
      rw [step] at stepped
      split_ifs at stepped with opened
      · cases stepped
        exact .abort opened
      · cases stepped
        exact .pass (Option.not_isSome_iff_eq_none.mp opened)
  | restart =>
      cases stepped
      exact .restart

-----------------------------------------------------------------------------------------
-- No recipient has many more messages than the limit
-----------------------------------------------------------------------------------------

section Limit

variable [Fintype Thread] {state next : Post Thread}

/-- The threads that store a message for a recipient. -/
def storing (state : Post Thread) (login : String) : Finset Thread :=
  Finset.univ.filter fun thread => (state.thread thread).recipient = some login

/-- The messages of a recipient and those that are on their way go beyond the limit by no more than there are threads,
and so did the messages when the transaction was opened.
-/
structure IsLimited (state : Post Thread) (login : String) : Prop where
  now : (state.pending login).length + (state.storing login).card < maxPendingMessages + Fintype.card Thread
  before : ∀ rows next, state.saved = some (rows, next) →
    (rows.filter (·.recipientLogin = login)).length < maxPendingMessages + Fintype.card Thread

omit [DecidableEq Thread] [Fintype Thread] in
/-- The messages of a recipient when one more is stored. -/
theorem pending_append {login : String} (draft : OfflineDraft) (now : ℤ) (same : next.rows = state.rows ++ [state.row draft now])
    : next.pending login
      = state.pending login ++ if draft.recipientLogin = login then [state.row draft now] else [] := by
  rw [pending, same, List.filter_append]
  refine congrArg _ ?_
  by_cases mine : draft.recipientLogin = login
  · rw [if_pos mine]
    exact List.filter_cons_of_pos (decide_eq_true mine)
  · rw [if_neg mine]
    exact List.filter_cons_of_neg fun same => mine (of_decide_eq_true same)

/-- A thread that stops storing, or never did, is not among those that store. -/
theorem storing_setThread (state : Post Thread) {thread : Thread} {doing : PostThread}
    (other : doing.recipient = none) (login : String)
    : (state.setThread thread doing).storing login ⊆ (state.storing login).erase thread := by
  intro candidate mem
  rw [storing, Finset.mem_filter, thread_setThread] at mem
  by_cases same : candidate = thread
  · rw [if_pos same, other] at mem
    cases mem.2
  · rw [if_neg same] at mem
    exact Finset.mem_erase.mpr ⟨same, Finset.mem_filter.mpr mem⟩

omit [DecidableEq Thread] in
/-- With the same messages or fewer, and no new thread that stores, the limit holds. -/
theorem IsLimited.less {login : String} (limited : state.IsLimited login)
    (rows : (next.pending login).length ≤ (state.pending login).length)
    (threads : next.storing login ⊆ state.storing login) (saved : next.saved = state.saved ∨ next.saved = none)
    : next.IsLimited login := by
  refine ⟨?_, fun before number isSaved => ?_⟩
  · exact lt_of_le_of_lt (Nat.add_le_add rows (Finset.card_le_card threads)) limited.now
  · rcases saved with same | closed
    · exact limited.before before number (same ▸ isSaved)
    · cases closed.symm.trans isSaved

/-- A thread that stops storing, or never did, leaves the limit as it is. -/
theorem IsLimited.notStoring {login : String} (limited : state.IsLimited login) {thread : Thread} {doing : PostThread}
    (other : doing.recipient = none)
    : (state.setThread thread doing).IsLimited login :=
  limited.less le_rfl ((storing_setThread state other login).trans (Finset.erase_subset _ _)) (.inl rfl)

omit [DecidableEq Thread] in
/-- The start of the process keeps the limit. -/
theorem IsLimited.restarted {login : String} (limited : state.IsLimited login)
    : state.restarted.IsLimited login := by
  have nobody : state.restarted.storing login = ∅ :=
    Finset.filter_eq_empty_iff.mpr fun thread _ same => nomatch same
  refine ⟨?_, nofun⟩
  rw [nobody, Finset.card_empty, Nat.add_zero]
  cases isSaved : state.saved with
  | none =>
      have same : state.restarted.pending login = state.pending login := by
        rw [pending, Post.restarted, isSaved]
        rfl
      rw [same]
      exact lt_of_le_of_lt (Nat.le_add_right _ _) limited.now
  | some saved =>
      have same : state.restarted.pending login = saved.1.filter (·.recipientLogin = login) := by
        rw [pending, Post.restarted, isSaved]
        rfl
      rw [same]
      exact limited.before saved.1 saved.2 isSaved

/-- A step keeps the limit. -/
theorem IsLimited.step {login : String} (limited : state.IsLimited login) {action : PostAction Thread}
    (stepped : Post.step action state = some next)
    : next.IsLimited login := by
  cases stepped_of_step stepped with
  | refuse => exact limited
  | @check thread sender request draft here room =>
      by_cases mine : draft.recipientLogin = login
      · refine ⟨?_, limited.before⟩
        have some : ((state.setThread thread (.storing draft)).storing login).card ≤ Fintype.card Thread :=
          Finset.card_le_univ _
        rw [mine] at room
        exact Nat.add_lt_add_of_lt_of_le room some
      · refine limited.less le_rfl ?_ (.inl rfl)
        intro candidate mem
        rw [storing, Finset.mem_filter, thread_setThread] at mem
        by_cases same : candidate = thread
        · rw [if_pos same] at mem
          exact absurd (Option.some.inj mem.2) mine
        · rw [if_neg same] at mem
          exact Finset.mem_filter.mpr mem
  | @store thread now draft here =>
      have others : (state.setThread thread .idle).storing login ⊆ (state.storing login).erase thread :=
        storing_setThread state rfl login
      by_cases mine : draft.recipientLogin = login
      · have one : (state.pending login ++ [state.row draft now]).length = (state.pending login).length + 1 :=
          List.length_append
        have here' : thread ∈ state.storing login := by
          rw [storing, Finset.mem_filter, here]
          exact ⟨Finset.mem_univ _, congrArg some mine⟩
        have fewer := Finset.card_le_card others
        have some := Finset.card_pos.mpr ⟨thread, here'⟩
        rw [Finset.card_erase_of_mem here'] at fewer
        refine ⟨?_, limited.before⟩
        rw [pending_append draft now rfl, if_pos mine, one]
        have now := limited.now
        change _ + ((state.setThread thread .idle).storing login).card < _
        omega
      · refine limited.less ?_ (others.trans (Finset.erase_subset _ _)) (.inl rfl)
        rw [pending_append draft now rfl, if_neg mine, List.append_nil]
  | storeFails here => exact limited.notStoring rfl
  | @logIn thread opened here =>
      have opening : (state.setThread thread (.opening opened)).IsLimited login := limited.notStoring rfl
      refine ⟨opening.now, fun rows number isSaved => ?_⟩
      cases opened : state.saved with
      | none =>
          rw [opened] at isSaved
          cases isSaved
          exact lt_of_le_of_lt (Nat.le_add_right _ _) limited.now
      | some saved =>
          rw [opened] at isSaved
          cases isSaved
          exact limited.before _ _ opened
  | select here same sorted => exact limited.notStoring rfl
  | send here => exact (limited.notStoring rfl).less le_rfl subset_rfl (.inl rfl)
  | endOfRows here => exact limited.notStoring rfl
  | delete here =>
      refine (limited.notStoring rfl).less ?_ subset_rfl (.inl rfl)
      exact (List.Sublist.filter _ List.filter_sublist).length_le
  | deleteFails here => exact limited.notStoring rfl
  | commit here => exact (limited.notStoring rfl).less le_rfl subset_rfl (.inr rfl)
  | pass closed => exact limited
  | abort opened => exact limited.restarted
  | restart => exact limited.restarted

end Limit

-----------------------------------------------------------------------------------------
-- No message is lost
-----------------------------------------------------------------------------------------

section Kept

variable {state next : Post Thread}

/-- The messages that were sent. -/
def sentRows (state : Post Thread) : List PendingMessage :=
  state.sent.map (·.row)

/-- A thread has messages of its login before it, and deletes what was sent. -/
structure IsHonest (state : Post Thread) (doing : PostThread) : Prop where
  delivered : ∀ id ∈ doing.delivered, ∃ row ∈ state.sentRows, row.id = id
  left : ∀ login rows delivered, doing = .delivering login rows delivered →
    ∀ row ∈ rows, row ∈ state.accepted ∧ row.recipientLogin = login

/-- Every message that was accepted is in the table or was sent, and only those are, to their recipients. -/
structure IsKept (state : Post Thread) : Prop where
  keys : (state.accepted.map (·.id)).Nodup
  fresh : ∀ row ∈ state.accepted, row.id < state.next
  stored : state.rows.Sublist state.accepted
  kept : ∀ row ∈ state.accepted, row ∈ state.rows ∨ row ∈ state.sentRows
  sent : ∀ message ∈ state.sent, message.row ∈ state.accepted ∧ message.row.recipientLogin = message.login
  honest : ∀ thread, state.IsHonest (state.thread thread)

omit [DecidableEq Thread] in
/-- A thread that does something else than delivering is honest with what is in `delivered`. -/
theorem IsHonest.of_delivered {doing doing' : PostThread} (honest : state.IsHonest doing)
    (same : ∀ id ∈ doing'.delivered, id ∈ doing.delivered)
    (left : ∀ login rows delivered, doing' ≠ .delivering login rows delivered)
    : state.IsHonest doing' where
  delivered id mem := honest.delivered id (same id mem)
  left login rows delivered here := absurd here (left login rows delivered)

omit [DecidableEq Thread] in
/-- A thread stays honest when more is accepted and sent. -/
theorem IsHonest.mono {doing : PostThread} (honest : state.IsHonest doing)
    (accepted : state.accepted ⊆ next.accepted) (sent : state.sentRows ⊆ next.sentRows)
    : next.IsHonest doing where
  delivered id mem :=
    let ⟨row, isSent, same⟩ := honest.delivered id mem
    ⟨row, sent isSent, same⟩
  left login rows delivered here row mem :=
    let ⟨isAccepted, mine⟩ := honest.left login rows delivered here row mem
    ⟨accepted isAccepted, mine⟩

/-- The threads are honest when one does something else that is. -/
theorem IsKept.honest_setThread (kept : state.IsKept) {thread : Thread} {doing : PostThread}
    (honest : next.IsHonest doing) (accepted : state.accepted ⊆ next.accepted)
    (sent : state.sentRows ⊆ next.sentRows) (other : Thread)
    : next.IsHonest ((state.setThread thread doing).thread other) := by
  rw [thread_setThread]
  split_ifs
  · exact honest
  · exact (kept.honest other).mono accepted sent

/-- What one thread does next keeps the messages, if that is honest. -/
theorem IsKept.setThread (kept : state.IsKept) {thread : Thread} {doing : PostThread} (honest : state.IsHonest doing)
    : (state.setThread thread doing).IsKept where
  keys := kept.keys
  fresh := kept.fresh
  stored := kept.stored
  kept := kept.kept
  sent := kept.sent
  honest := kept.honest_setThread ⟨honest.delivered, honest.left⟩ (List.Subset.refl _) (List.Subset.refl _)

omit [DecidableEq Thread] in
/-- A transaction changes nothing about the messages when it is opened or closed. -/
theorem IsKept.withSaved (kept : state.IsKept) (saved : Option (List PendingMessage × ℕ))
    : IsKept { state with saved := saved } :=
  ⟨kept.keys, kept.fresh, kept.stored, kept.kept, kept.sent, fun thread =>
    ⟨(kept.honest thread).delivered, (kept.honest thread).left⟩⟩

omit [DecidableEq Thread] in
/-- A thread without rows is honest. -/
theorem isHonest_of_nil {doing : PostThread} (nothing : doing.delivered = [])
    (left : ∀ login rows delivered, doing ≠ .delivering login rows delivered)
    : state.IsHonest doing where
  delivered _ mem := nomatch nothing ▸ mem
  left login rows delivered here := absurd here (left login rows delivered)

omit [DecidableEq Thread] in
/-- Accepted messages with the same key are the same. -/
theorem IsKept.eq_of_id (kept : state.IsKept) {row other : PendingMessage} (mem : row ∈ state.accepted)
    (mem' : other ∈ state.accepted) (same : row.id = other.id)
    : row = other :=
  List.inj_on_of_nodup_map kept.keys mem mem' same

omit [DecidableEq Thread] in
/-- What was sent was accepted. -/
theorem IsKept.accepted_of_sent (kept : state.IsKept) {row : PendingMessage} (mem : row ∈ state.sentRows)
    : row ∈ state.accepted := by
  obtain ⟨message, isSent, rfl⟩ := List.mem_map.mp mem
  exact (kept.sent message isSent).1

omit [DecidableEq Thread] in
/-- The start of the process keeps the messages, if no transaction is open. -/
theorem IsKept.restarted (kept : state.IsKept) (closed : state.saved = none) : state.restarted.IsKept where
  keys := kept.keys
  fresh := by
    rw [Post.restarted, closed]
    exact kept.fresh
  stored := by
    rw [Post.restarted, closed]
    exact kept.stored
  kept := by
    rw [Post.restarted, closed]
    exact kept.kept
  sent := kept.sent
  honest _ := isHonest_of_nil rfl nofun

/-- Unless the process ends while a transaction is open, a step keeps the messages. -/
theorem IsKept.step (kept : state.IsKept) {action : PostAction Thread}
    (closed : action = .transaction ∨ action = .restart → state.saved = none)
    (stepped : Post.step action state = some next)
    : next.IsKept := by
  cases stepped_of_step stepped with
  | refuse => exact kept
  | check here room => exact kept.setThread (isHonest_of_nil rfl nofun)
  | @store thread now draft here =>
      have new : ∀ row ∈ state.accepted, row ≠ state.row draft now := by
        rintro row mem rfl
        exact absurd (kept.fresh _ mem) (lt_irrefl _)
      refine ⟨?_, ?_, ?_, ?_, ?_, ?_⟩
      · rw [List.map_append, List.nodup_append]
        refine ⟨kept.keys, List.nodup_singleton _, ?_⟩
        rintro id mem other isNew rfl
        obtain ⟨row, isAccepted, rfl⟩ := List.mem_map.mp mem
        have same : row.id = state.next := List.mem_singleton.mp isNew
        exact absurd (kept.fresh row isAccepted) (same ▸ lt_irrefl _)
      · intro row mem
        rcases List.mem_append.mp mem with old | isNew
        · exact (kept.fresh row old).trans (Nat.lt_succ_self _)
        · rw [List.mem_singleton.mp isNew]
          exact Nat.lt_succ_self _
      · exact kept.stored.append (List.Sublist.refl _)
      · intro row mem
        rcases List.mem_append.mp mem with old | isNew
        · exact (kept.kept row old).imp_left (List.mem_append_left _)
        · exact .inl (List.mem_append_right _ isNew)
      · intro message mem
        exact (kept.sent message mem).imp_left (List.mem_append_left _)
      · exact kept.honest_setThread (isHonest_of_nil rfl nofun) (List.subset_append_left _ _) (List.Subset.refl _)
  | storeFails here => exact kept.setThread (isHonest_of_nil rfl nofun)
  | @logIn thread login here =>
      have opening : (state.setThread thread (.opening login)).IsKept := kept.setThread (isHonest_of_nil rfl nofun)
      exact opening.withSaved _
  | @select thread login rows here same sorted =>
      refine kept.setThread ⟨fun _ mem => (nomatch mem), ?_⟩
      rintro _ _ _ ⟨⟩ row mem
      obtain ⟨stored, mine⟩ := List.mem_filter.mp (same.mem_iff.mp mem)
      exact ⟨kept.stored.subset stored, of_decide_eq_true mine⟩
  | @send thread written login row left delivered here =>
      have honest := kept.honest thread
      rw [here] at honest
      have before := honest.left login (row :: left) delivered rfl
      have sentRows : sentRows { state.setThread thread (.delivering login left (delivered ++ [row.id])) with
          sent := state.sent ++ [⟨login, row, written⟩] } = state.sentRows ++ [row] := List.map_append
      refine ⟨kept.keys, kept.fresh, kept.stored, ?_, ?_, ?_⟩
      · intro other mem
        rw [sentRows]
        exact (kept.kept other mem).imp_right (List.mem_append_left _)
      · intro message mem
        rcases List.mem_append.mp mem with old | isNew
        · exact kept.sent message old
        · rw [List.mem_singleton.mp isNew]
          exact before row List.mem_cons_self
      · refine kept.honest_setThread ⟨?_, ?_⟩ (List.Subset.refl _) ?_
        · intro id mem
          rw [sentRows]
          rcases List.mem_append.mp mem with old | isNew
          · obtain ⟨other, isSent, same⟩ := honest.delivered id old
            exact ⟨other, List.mem_append_left _ isSent, same⟩
          · exact ⟨row, List.mem_append_right _ List.mem_cons_self, (List.mem_singleton.mp isNew).symm⟩
        · rintro _ _ _ ⟨⟩ other mem
          exact before other (List.mem_cons_of_mem _ mem)
        · rw [sentRows]
          exact List.subset_append_left _ _
  | endOfRows here => exact kept.setThread ((kept.honest _).of_delivered (fun _ mem => mem) nofun)
  | @delete thread login id ids here =>
      have honest := kept.honest thread
      rw [here] at honest
      have rest : (state.setThread thread (.deleting login ids)).IsKept :=
        kept.setThread (honest.of_delivered (fun _ mem => List.mem_cons_of_mem _ mem) nofun)
      refine ⟨rest.keys, rest.fresh, List.filter_sublist.trans kept.stored, ?_, rest.sent, fun other =>
        ⟨(rest.honest other).delivered, (rest.honest other).left⟩⟩
      intro row mem
      rcases kept.kept row mem with stored | isSent
      · by_cases deleted : row.id = id
        · obtain ⟨other, isSent, same⟩ := honest.delivered id List.mem_cons_self
          obtain rfl := kept.eq_of_id mem (kept.accepted_of_sent isSent) (deleted.trans same.symm)
          exact .inr isSent
        · exact .inl (List.mem_filter.mpr ⟨stored, decide_eq_true deleted⟩)
      · exact .inr isSent
  | @deleteFails thread login id ids here =>
      have honest := kept.honest thread
      rw [here] at honest
      exact kept.setThread (honest.of_delivered (fun _ mem => List.mem_cons_of_mem _ mem) nofun)
  | @commit thread login here =>
      have idle : (state.setThread thread .idle).IsKept := kept.setThread (isHonest_of_nil rfl nofun)
      exact idle.withSaved none
  | pass closed => exact kept
  | abort opened => exact kept.restarted (closed (.inl rfl))
  | restart => exact kept.restarted (closed (.inr rfl))

end Kept

-----------------------------------------------------------------------------------------
-- Messages are sent once and in order
-----------------------------------------------------------------------------------------

section Ordered

variable {state next : Post Thread}

/-- A step as it should be: the clock goes forward, a login is not delivered messages twice at a time, what was sent can
be deleted, and the process ends only when nobody is delivered messages.
-/
def IsOrderly (action : PostAction Thread) (state : Post Thread) : Prop :=
  match action with
  | .store _ now _ => ∀ row ∈ state.accepted, row.sentAt ≤ now
  | .logIn _ login => ∀ thread, (state.thread thread).login ≠ some login
  | .delete _ deleted => deleted = true
  | .transaction => state.saved = none
  | .restart => state.saved = none ∧ ∀ thread, (state.thread thread).login = none
  | _ => True

/-- Whether a step is orderly can be decided. -/
instance decidableIsOrderly [Fintype Thread] (action : PostAction Thread) (state : Post Thread)
    : Decidable (IsOrderly action state) :=
  match action with
  | .store _ now _ => inferInstanceAs (Decidable (∀ row ∈ state.accepted, row.sentAt ≤ now))
  | .logIn _ login => inferInstanceAs (Decidable (∀ thread, (state.thread thread).login ≠ some login))
  | .delete _ deleted => inferInstanceAs (Decidable (deleted = true))
  | .transaction => inferInstanceAs (Decidable (state.saved = none))
  | .restart => inferInstanceAs (Decidable (state.saved = none ∧ ∀ thread, (state.thread thread).login = none))
  | .request _ _ _ | .select _ _ | .send _ _ | .endOfRows _ | .commit _ => inferInstanceAs (Decidable True)

/-- What a thread has still to send comes before everything else that waits for its login. -/
structure IsAhead (state : Post Thread) (login : String) (left : List PendingMessage) : Prop where
  once : left.Nodup
  sorted : left.Pairwise (·.sentAt ≤ ·.sentAt)
  waiting : ∀ row ∈ left, row ∈ state.rows ∧ row ∉ state.sentRows
  first : ∀ other ∈ state.rows, other.recipientLogin = login → other ∉ state.sentRows → other ∉ left →
    ∀ row ∈ left, row.sentAt ≤ other.sentAt

/-- Messages are sent once and in order, and those in the table that were sent are known to the only thread that
delivers to their recipient.
-/
structure IsOrdered (state : Post Thread) : Prop where
  alone : ∀ thread other login, (state.thread thread).login = some login →
    (state.thread other).login = some login → thread = other
  once : state.sentRows.Nodup
  sorted : ∀ login, (state.sentTo login).Pairwise (·.sentAt ≤ ·.sentAt)
  later : ∀ row ∈ state.sentRows, ∀ other ∈ state.rows, other.recipientLogin = row.recipientLogin →
    other ∉ state.sentRows → row.sentAt ≤ other.sentAt
  ahead : ∀ thread login left delivered, state.thread thread = .delivering login left delivered →
    state.IsAhead login left
  marked : ∀ thread login, (state.thread thread).login = some login → ∀ row ∈ state.rows,
    row.recipientLogin = login → row ∈ state.sentRows → row.id ∈ (state.thread thread).delivered
  clean : ∀ login, (∀ thread, (state.thread thread).login ≠ some login) → ∀ row ∈ state.rows,
    row.recipientLogin = login → row ∉ state.sentRows

/-- A thread that goes on with its login delivers to the same login as before. -/
theorem login_setThread {thread : Thread} {doing : PostThread} (same : doing.login = (state.thread thread).login)
    (other : Thread)
    : ((state.setThread thread doing).thread other).login = (state.thread other).login := by
  rw [thread_setThread]
  split_ifs with here
  · rw [here, same]
  · rfl

/-- What a thread does next for its login keeps the order, if it has what it must have. -/
theorem IsOrdered.setThread (ordered : state.IsOrdered) {thread : Thread} {doing : PostThread}
    (same : doing.login = (state.thread thread).login)
    (ahead : ∀ login left delivered, doing = .delivering login left delivered → state.IsAhead login left)
    (marked : ∀ login, doing.login = some login → ∀ row ∈ state.rows, row.recipientLogin = login →
      row ∈ state.sentRows → row.id ∈ doing.delivered)
    : (state.setThread thread doing).IsOrdered where
  alone first second login mine others := by
    rw [login_setThread same] at mine others
    exact ordered.alone first second login mine others
  once := ordered.once
  sorted := ordered.sorted
  later := ordered.later
  ahead other login left delivered here := by
    have before : state.IsAhead login left := by
      rw [thread_setThread] at here
      split_ifs at here
      · exact ahead login left delivered here
      · exact ordered.ahead other login left delivered here
    exact ⟨before.once, before.sorted, before.waiting, before.first⟩
  marked other login mine row mem recipient isSent := by
    rw [login_setThread same] at mine
    rw [thread_setThread]
    split_ifs with here
    · subst here
      exact marked login (same.trans mine) row mem recipient isSent
    · exact ordered.marked other login mine row mem recipient isSent
  clean login nobody := by
    refine ordered.clean login fun other mine => nobody other ?_
    rwa [login_setThread same]

omit [DecidableEq Thread] in
/-- A transaction changes nothing about the order when it is opened or closed. -/
theorem IsOrdered.withSaved (ordered : state.IsOrdered) (saved : Option (List PendingMessage × ℕ))
    : IsOrdered { state with saved := saved } where
  alone := ordered.alone
  once := ordered.once
  sorted := ordered.sorted
  later := ordered.later
  ahead thread login left delivered here :=
    let before := ordered.ahead thread login left delivered here
    ⟨before.once, before.sorted, before.waiting, before.first⟩
  marked := ordered.marked
  clean := ordered.clean

/-- A thread of no login does something else for no login. -/
theorem IsOrdered.setThread_of_none (ordered : state.IsOrdered) {thread : Thread} {doing : PostThread}
    (before : (state.thread thread).login = none) (after : doing.login = none)
    : (state.setThread thread doing).IsOrdered := by
  refine ordered.setThread (after.trans before.symm) ?_ ?_
  · rintro login left delivered rfl
    cases after
  · intro login mine
    exact nomatch after.symm.trans mine

/-- A message that is stored keeps the order, if the clock goes forward. -/
theorem IsOrdered.store (ordered : state.IsOrdered) (kept : state.IsKept) {thread : Thread} {now : ℤ}
    {draft : OfflineDraft} (here : state.thread thread = .storing draft)
    (clock : ∀ row ∈ state.accepted, row.sentAt ≤ now)
    : IsOrdered
        { state.setThread thread .idle with
          rows := state.rows ++ [state.row draft now]
          next := state.next + 1
          accepted := state.accepted ++ [state.row draft now] } := by
  have idle : (state.setThread thread .idle).IsOrdered := ordered.setThread_of_none (by rw [here]; rfl) rfl
  have unsent : state.row draft now ∉ state.sentRows :=
    fun isSent => absurd (kept.fresh _ (kept.accepted_of_sent isSent)) (lt_irrefl _)
  refine ⟨idle.alone, idle.once, idle.sorted, ?_, ?_, ?_, ?_⟩
  · intro row isSent other mem
    rcases List.mem_append.mp mem with old | isNew
    · exact ordered.later row isSent other old
    · intro _ _
      rw [List.mem_singleton.mp isNew]
      exact clock row (kept.accepted_of_sent isSent)
  · intro other login left delivered doing
    have before := idle.ahead other login left delivered doing
    refine ⟨before.once, before.sorted, ?_, ?_⟩
    · intro row mem
      exact (before.waiting row mem).imp_left (List.mem_append_left _)
    · intro another mem
      rcases List.mem_append.mp mem with old | isNew
      · exact before.first another old
      · intro _ _ _ row isLeft
        rw [List.mem_singleton.mp isNew]
        exact clock row (kept.stored.subset (before.waiting row isLeft).1)
  · intro other login mine row mem recipient isSent
    rcases List.mem_append.mp mem with old | isNew
    · exact idle.marked other login mine row old recipient isSent
    · rw [List.mem_singleton.mp isNew] at isSent
      exact absurd isSent unsent
  · intro login nobody row mem recipient
    rcases List.mem_append.mp mem with old | isNew
    · exact idle.clean login nobody row old recipient
    · rw [List.mem_singleton.mp isNew]
      exact unsent

/-- A login that is alone keeps the order. -/
theorem IsOrdered.logIn (ordered : state.IsOrdered) {thread : Thread} {login : String}
    (here : state.thread thread = .idle) (nobody : ∀ other, (state.thread other).login ≠ some login)
    : (state.setThread thread (.opening login)).IsOrdered := by
  have before {other : Thread} {another : String} (differs : another ≠ login)
      (mine : ((state.setThread thread (.opening login)).thread other).login = some another)
      : other ≠ thread ∧ (state.thread other).login = some another := by
    rw [thread_setThread] at mine
    split_ifs at mine with same
    · exact absurd (Option.some.inj mine).symm differs
    · exact ⟨same, mine⟩
  have isThread {other : Thread}
      (mine : ((state.setThread thread (.opening login)).thread other).login = some login) : other = thread := by
    rw [thread_setThread] at mine
    split_ifs at mine with same
    · exact same
    · exact absurd mine (nobody other)
  refine ⟨?_, ordered.once, ordered.sorted, ordered.later, ?_, ?_, ?_⟩
  · intro first second another mine others
    by_cases same : another = login
    · subst same
      exact (isThread mine).trans (isThread others).symm
    · exact ordered.alone first second another (before same mine).2 (before same others).2
  · intro other another left delivered doing
    rw [thread_setThread] at doing
    split_ifs at doing
    have was := ordered.ahead other another left delivered doing
    exact ⟨was.once, was.sorted, was.waiting, was.first⟩
  · intro other another mine row mem recipient isSent
    by_cases same : another = login
    · subst same
      exact absurd isSent (ordered.clean another nobody row mem recipient)
    · obtain ⟨isOther, was⟩ := before same mine
      rw [thread_setThread, if_neg isOther]
      exact ordered.marked other another was row mem recipient isSent
  · intro another nobodyElse
    refine ordered.clean another fun other mine => nobodyElse other ?_
    rw [thread_setThread]
    split_ifs with same
    · rw [same, here] at mine
      cases mine
    · exact mine

/-- What is selected is ahead of everything else, because nothing of it was sent. -/
theorem IsOrdered.select (ordered : state.IsOrdered) (kept : state.IsKept) {thread : Thread} {login : String}
    {rows : List PendingMessage} (here : state.thread thread = .opening login)
    (same : rows.Perm (state.pending login)) (sorted : rows.Pairwise (·.sentAt ≤ ·.sentAt))
    : (state.setThread thread (.delivering login rows [])).IsOrdered := by
  have mine : (state.thread thread).login = some login := by
    rw [here]
    rfl
  have unsent : ∀ row ∈ state.rows, row.recipientLogin = login → row ∉ state.sentRows := by
    intro row mem recipient isSent
    have isMarked := ordered.marked thread login mine row mem recipient isSent
    rw [here] at isMarked
    exact List.not_mem_nil isMarked
  refine ordered.setThread mine.symm ?_ ?_
  · rintro _ _ _ ⟨⟩
    refine ⟨?_, sorted, ?_, ?_⟩
    · have distinct : state.rows.Nodup := kept.stored.nodup (List.Nodup.of_map _ kept.keys)
      exact same.nodup_iff.mpr (distinct.filter _)
    · intro row mem
      obtain ⟨stored, recipient⟩ := List.mem_filter.mp (same.mem_iff.mp mem)
      exact ⟨stored, unsent row stored (of_decide_eq_true recipient)⟩
    · intro other mem recipient _ notLeft
      exact absurd (same.mem_iff.mpr (List.mem_filter.mpr ⟨mem, decide_eq_true recipient⟩)) notLeft
  · rintro _ ⟨⟩ row mem recipient isSent
    exact absurd isSent (unsent row mem recipient)

omit [DecidableEq Thread] in
/-- What was sent to a login when one more is. -/
theorem sentTo_append (message : SentMessage) (login : String) (same : next.sent = state.sent ++ [message])
    : next.sentTo login = state.sentTo login ++ if message.login = login then [message.row] else [] := by
  rw [sentTo, same, List.filter_append, List.map_append]
  refine congrArg _ ?_
  split_ifs with mine
  · simp only [List.filter_cons, mine, decide_true, if_true, List.filter_nil, List.map_cons, List.map_nil]
  · simp only [List.filter_cons, mine, decide_false, Bool.false_eq_true, if_false, List.filter_nil, List.map_nil]

/-- The first message of a thread is sent next, and was not before. -/
theorem IsOrdered.send (ordered : state.IsOrdered) (kept : state.IsKept) {thread : Thread} {written : Bool}
    {login : String} {row : PendingMessage} {left : List PendingMessage} {delivered : List ℕ}
    (here : state.thread thread = .delivering login (row :: left) delivered)
    : IsOrdered
        { state.setThread thread (.delivering login left (delivered ++ [row.id])) with
          sent := state.sent ++ [⟨login, row, written⟩] } := by
  have mine : (state.thread thread).login = some login := by
    rw [here]
    rfl
  have same : (PostThread.delivering login left (delivered ++ [row.id])).login = (state.thread thread).login :=
    mine.symm
  have honest := kept.honest thread
  rw [here] at honest
  have recipient : row.recipientLogin = login := (honest.left _ _ _ rfl row List.mem_cons_self).2
  have was := ordered.ahead thread login (row :: left) delivered here
  obtain ⟨stored, unsent⟩ := was.waiting row List.mem_cons_self
  have others {other : Thread} {another : String} (isOther : other ≠ thread)
      (isLogin : (state.thread other).login = some another) : another ≠ login := by
    rintro rfl
    exact isOther (ordered.alone other thread another isLogin mine)
  have sentRows : sentRows { state.setThread thread (.delivering login left (delivered ++ [row.id])) with
      sent := state.sent ++ [⟨login, row, written⟩] } = state.sentRows ++ [row] := List.map_append
  have notSent {other : PendingMessage} (notIn : other ∉ state.sentRows ++ [row])
      : other ∉ state.sentRows ∧ other ≠ row := by
    rw [List.mem_append, List.mem_singleton, not_or] at notIn
    exact notIn
  refine ⟨?_, ?_, ?_, ?_, ?_, ?_, ?_⟩
  · intro first second another mine' others'
    exact ordered.alone first second another ((login_setThread same first).symm.trans mine')
      ((login_setThread same second).symm.trans others')
  · rw [sentRows]
    exact List.concat_eq_append ▸ ordered.once.concat unsent
  · intro another
    rw [sentTo_append _ _ rfl]
    split_ifs with isLogin
    · refine List.pairwise_append.mpr ⟨ordered.sorted another, List.pairwise_singleton _ _, ?_⟩
      intro earlier mem other isRow
      obtain ⟨message, isSent, rfl⟩ := List.mem_map.mp mem
      obtain ⟨inSent, forLogin⟩ := List.mem_filter.mp isSent
      have toLogin : message.row.recipientLogin = login :=
        (kept.sent message inSent).2.trans ((of_decide_eq_true forLogin).trans isLogin.symm)
      rw [List.mem_singleton.mp isRow]
      exact ordered.later message.row (List.mem_map_of_mem inSent) row stored (recipient.trans toLogin.symm) unsent
    · rw [List.append_nil]
      exact ordered.sorted another
  · intro earlier isSent other mem toSame notIn
    rw [sentRows] at isSent notIn
    obtain ⟨otherUnsent, differs⟩ := notSent notIn
    rcases List.mem_append.mp isSent with old | isNew
    · exact ordered.later earlier old other mem toSame otherUnsent
    · rw [List.mem_singleton.mp isNew] at toSame ⊢
      by_cases isLeft : other ∈ left
      · exact (List.pairwise_cons.mp was.sorted).1 other isLeft
      · refine was.first other mem (toSame.trans recipient) otherUnsent ?_ row List.mem_cons_self
        rw [List.mem_cons, not_or]
        exact ⟨differs, isLeft⟩
  · intro other another left' delivered' doing
    change (state.setThread thread _).thread other = _ at doing
    rw [thread_setThread] at doing
    split_ifs at doing with isThread
    · cases doing
      refine ⟨(List.nodup_cons.mp was.once).2, (List.pairwise_cons.mp was.sorted).2, ?_, ?_⟩
      · intro next isLeft
        obtain ⟨inRows, nextUnsent⟩ := was.waiting next (List.mem_cons_of_mem _ isLeft)
        refine ⟨inRows, ?_⟩
        rw [sentRows, List.mem_append, List.mem_singleton, not_or]
        refine ⟨nextUnsent, ?_⟩
        rintro rfl
        exact (List.nodup_cons.mp was.once).1 isLeft
      · intro next inRows toLogin notIn notLeft earlier isLeft
        rw [sentRows] at notIn
        obtain ⟨nextUnsent, differs⟩ := notSent notIn
        refine was.first next inRows toLogin nextUnsent ?_ earlier (List.mem_cons_of_mem _ isLeft)
        rw [List.mem_cons, not_or]
        exact ⟨differs, notLeft⟩
    · have before := ordered.ahead other another left' delivered' doing
      have isLogin : (state.thread other).login = some another := by
        rw [doing]
        rfl
      refine ⟨before.once, before.sorted, ?_, ?_⟩
      · intro next isLeft
        obtain ⟨inRows, nextUnsent⟩ := before.waiting next isLeft
        refine ⟨inRows, ?_⟩
        rw [sentRows, List.mem_append, List.mem_singleton, not_or]
        refine ⟨nextUnsent, ?_⟩
        rintro rfl
        have honest' := kept.honest other
        rw [doing] at honest'
        have toAnother := (honest'.left _ _ _ rfl next isLeft).2
        exact others isThread isLogin (toAnother.symm.trans recipient)
      · intro next inRows toLogin notIn
        rw [sentRows] at notIn
        exact before.first next inRows toLogin (notSent notIn).1
  · intro other another isLogin next inRows toLogin isSent
    rw [sentRows] at isSent
    have isLogin' := (login_setThread same other).symm.trans isLogin
    change next.id ∈ ((state.setThread thread _).thread other).delivered
    rw [thread_setThread]
    rcases List.mem_append.mp isSent with old | isNew
    · have isMarked := ordered.marked other another isLogin' next inRows toLogin old
      split_ifs with isThread
      · rw [isThread, here] at isMarked
        exact List.mem_append_left _ isMarked
      · exact isMarked
    · obtain rfl := List.mem_singleton.mp isNew
      split_ifs with isThread
      · exact List.mem_append_right _ List.mem_cons_self
      · exact absurd (toLogin.symm.trans recipient) (others isThread isLogin')
  · intro another nobody next inRows toLogin
    have nobody' (other : Thread) : (state.thread other).login ≠ some another :=
      fun isLogin => nobody other ((login_setThread same other).trans isLogin)
    rw [sentRows, List.mem_append, List.mem_singleton, not_or]
    refine ⟨ordered.clean another nobody' next inRows toLogin, ?_⟩
    rintro rfl
    exact nobody' thread (mine.trans (congrArg some (recipient.symm.trans toLogin)))

/-- Deleting what was sent keeps the order. -/
theorem IsOrdered.delete (ordered : state.IsOrdered) (kept : state.IsKept) {thread : Thread} {login : String} {id : ℕ}
    {ids : List ℕ} (here : state.thread thread = .deleting login (id :: ids))
    : IsOrdered
        { state.setThread thread (.deleting login ids) with rows := state.rows.filter (·.id ≠ id) } := by
  have same : (PostThread.deleting login ids).login = (state.thread thread).login := by
    rw [here]
    rfl
  have honest := kept.honest thread
  rw [here] at honest
  obtain ⟨sent, isSent, isId⟩ := honest.delivered id List.mem_cons_self
  have stays {other : PendingMessage} (mem : other ∈ state.rows) (unsent : other ∉ state.sentRows)
      : other ∈ state.rows.filter (·.id ≠ id) := by
    refine List.mem_filter.mpr ⟨mem, decide_eq_true fun isToo => ?_⟩
    have equal := kept.eq_of_id (kept.stored.subset mem) (kept.accepted_of_sent isSent) (isToo.trans isId.symm)
    exact unsent (equal ▸ isSent)
  refine ⟨?_, ordered.once, ordered.sorted, ?_, ?_, ?_, ?_⟩
  · intro first second another mine others
    exact ordered.alone first second another ((login_setThread same first).symm.trans mine)
      ((login_setThread same second).symm.trans others)
  · intro row isSent' other mem
    exact ordered.later row isSent' other (List.mem_of_mem_filter mem)
  · intro other another left delivered doing
    have before : state.IsAhead another left := by
      change (state.setThread thread (.deleting login ids)).thread other = _ at doing
      rw [thread_setThread] at doing
      split_ifs at doing
      exact ordered.ahead other another left delivered doing
    refine ⟨before.once, before.sorted, ?_, ?_⟩
    · intro row mem
      obtain ⟨stored, unsent⟩ := before.waiting row mem
      exact ⟨stays stored unsent, unsent⟩
    · intro another' mem
      exact before.first another' (List.mem_of_mem_filter mem)
  · intro other another mine row mem recipient isSent'
    have was := ordered.marked other another ((login_setThread same other).symm.trans mine) row
      (List.mem_of_mem_filter mem) recipient isSent'
    change row.id ∈ ((state.setThread thread (.deleting login ids)).thread other).delivered
    rw [thread_setThread]
    split_ifs with isThread
    · rw [isThread, here] at was
      exact (List.mem_cons.mp was).resolve_left (of_decide_eq_true (List.mem_filter.mp mem).2)
    · exact was
  · intro another nobody row mem
    refine ordered.clean another (fun other mine => nobody other ?_) row (List.mem_of_mem_filter mem)
    exact (login_setThread same other).trans mine

/-- When everything that was sent is deleted, the order is kept without the thread. -/
theorem IsOrdered.commit (ordered : state.IsOrdered) {thread : Thread} {login : String}
    (here : state.thread thread = .deleting login [])
    : (state.setThread thread .idle).IsOrdered := by
  have mine : (state.thread thread).login = some login := by
    rw [here]
    rfl
  have before {other : Thread} {another : String}
      (mine' : ((state.setThread thread .idle).thread other).login = some another)
      : other ≠ thread ∧ (state.thread other).login = some another := by
    rw [thread_setThread] at mine'
    split_ifs at mine' with same
    · cases mine'
    · exact ⟨same, mine'⟩
  refine ⟨?_, ordered.once, ordered.sorted, ordered.later, ?_, ?_, ?_⟩
  · intro first second another mine' others
    exact ordered.alone first second another (before mine').2 (before others).2
  · intro other another left delivered doing
    rw [thread_setThread] at doing
    split_ifs at doing
    have was := ordered.ahead other another left delivered doing
    exact ⟨was.once, was.sorted, was.waiting, was.first⟩
  · intro other another mine' row mem recipient isSent
    obtain ⟨isOther, was⟩ := before mine'
    rw [thread_setThread, if_neg isOther]
    exact ordered.marked other another was row mem recipient isSent
  · intro another nobody row mem recipient
    by_cases same : another = login
    · subst same
      intro isSent
      have isMarked := ordered.marked thread another mine row mem recipient isSent
      rw [here] at isMarked
      exact List.not_mem_nil isMarked
    · refine ordered.clean another (fun other mine' => nobody other ?_) row mem recipient
      rw [thread_setThread]
      split_ifs with isThread
      · rw [isThread, mine] at mine'
        exact absurd (Option.some.inj mine').symm same
      · exact mine'

omit [DecidableEq Thread] in
/-- The start of the process keeps the order, if nobody was delivered messages. -/
theorem IsOrdered.restarted (ordered : state.IsOrdered) (closed : state.saved = none)
    (nobody : ∀ thread, (state.thread thread).login = none)
    : state.restarted.IsOrdered := by
  have rows : state.restarted.rows = state.rows := by
    rw [Post.restarted, closed]
    rfl
  refine ⟨nofun, ordered.once, ordered.sorted, ?_, nofun, nofun, ?_⟩
  · rw [rows]
    exact ordered.later
  · rw [rows]
    intro login _
    refine ordered.clean login fun thread mine => ?_
    rw [nobody thread] at mine
    cases mine

/-- An orderly step keeps the messages and their order. -/
theorem IsOrdered.step (ordered : state.IsOrdered) (kept : state.IsKept) {action : PostAction Thread}
    (orderly : IsOrderly action state) (stepped : Post.step action state = some next)
    : next.IsOrdered := by
  cases stepped_of_step stepped with
  | refuse => exact ordered
  | check here room => exact ordered.setThread_of_none (by rw [here]; rfl) rfl
  | store here => exact ordered.store kept here orderly
  | storeFails here => exact ordered.setThread_of_none (by rw [here]; rfl) rfl
  | logIn here => exact (ordered.logIn here orderly).withSaved _
  | select here same sorted => exact ordered.select kept here same sorted
  | send here => exact ordered.send kept here
  | @endOfRows thread login mine =>
      refine ordered.setThread mine.symm nofun ?_
      rintro _ ⟨⟩ row mem recipient isSent
      exact ordered.marked thread login mine row mem recipient isSent
  | delete here => exact ordered.delete kept here
  | deleteFails here => cases orderly
  | commit here => exact (ordered.commit here).withSaved none
  | pass closed => exact ordered
  | abort opened =>
      have closed : state.saved = none := orderly
      rw [closed] at opened
      cases opened
  | restart => exact ordered.restarted orderly.1 orderly.2

omit [DecidableEq Thread] in
/-- An orderly step ends the process only when no transaction is open. -/
theorem closed_of_orderly {action : PostAction Thread} (orderly : IsOrderly action state)
    : action = .transaction ∨ action = .restart → state.saved = none := by
  rintro (rfl | rfl)
  · exact orderly
  · exact orderly.1

end Ordered

section Runs

variable {actions : List (PostAction Thread)} {state : Post Thread}

omit [DecidableEq Thread] in
/-- Nothing has happened yet. -/
theorem isKept_start : (start : Post Thread).IsKept where
  keys := List.nodup_nil
  fresh _ mem := nomatch mem
  stored := List.Sublist.refl _
  kept _ mem := nomatch mem
  sent _ mem := nomatch mem
  honest _ := isHonest_of_nil rfl nofun

omit [DecidableEq Thread] in
/-- Nothing has been sent yet. -/
theorem isOrdered_start : (start : Post Thread).IsOrdered where
  alone := nofun
  once := List.nodup_nil
  sorted _ := List.Pairwise.nil
  later _ mem := nomatch mem
  ahead := nofun
  marked := nofun
  clean _ _ _ mem := nomatch mem

/-- A user who may send messages to every account. -/
def alice : OfflineSender where
  login := "alice"
  nick := "Alice"
  maySend := true
  token := "token"
  loginOfToken _ := none
  hasAccount _ := true

/-- A message for an account. -/
def toBob : OfflineRequest where
  recipientToken := none
  recipient := some "bob"
  message := "Hello"
  ciphertext := none

/-- The row that is stored for the message. -/
def firstRow : PendingMessage :=
  ⟨⟨"alice", "Alice", "token", "bob", "Hello", none⟩, 1, 0⟩

/-- A message is stored by one thread and delivered by another. -/
def helloBob : List (PostAction Bool) :=
  [.request false alice toBob, .store false 0 true, .logIn true "bob", .select true [firstRow], .send true true,
    .endOfRows true, .delete true true, .commit true]

/-- The process ends while a login delivers messages, since an event is added meanwhile, and a message that has been
accepted in between is lost.
-/
example
    : (Machine.run step [.logIn true "bob", .request false alice toBob, .store false 0 true, .transaction]
        (start : Post Bool)).map (fun state => (state.rows, state.accepted, state.sentRows))
      = some ([], [firstRow], []) := by
  rfl

/-- When a run is orderly, no message is sent twice, and those to a login are sent in the order of their times, before
all that still wait for it.
-/
theorem sent_once_inOrder (ran : Machine.run step actions .start = some state)
    (orderly : Machine.Meets step IsOrderly actions .start)
    : (state.sent.map (·.row)).Nodup ∧ ∀ login, (state.sentTo login).Pairwise (·.sentAt ≤ ·.sentAt)
      ∧ ∀ row ∈ state.sentTo login, ∀ other ∈ state.pending login, other ∉ state.sentTo login →
        row.sentAt ≤ other.sentAt := by
  have steps : ∀ action (before after : Post Thread), IsOrderly action before → before.IsKept ∧ before.IsOrdered →
      step action before = some after → after.IsKept ∧ after.IsOrdered :=
    fun _ _ _ orderly before stepped =>
      ⟨before.1.step (closed_of_orderly orderly) stepped, before.2.step before.1 orderly stepped⟩
  obtain ⟨kept, ordered⟩ := Machine.holds_of_run steps ran orderly ⟨isKept_start, isOrdered_start⟩
  refine ⟨ordered.once, fun login => ⟨ordered.sorted login, ?_⟩⟩
  intro row mem other waits unsent
  obtain ⟨message, inSent, rfl⟩ := List.mem_map.mp mem
  obtain ⟨isSent, forLogin⟩ := List.mem_filter.mp inSent
  obtain ⟨stored, recipient⟩ := List.mem_filter.mp waits
  have toLogin := (kept.sent message isSent).2.trans (of_decide_eq_true forLogin)
  refine ordered.later message.row (List.mem_map_of_mem isSent) other stored
    ((of_decide_eq_true recipient).trans toLogin.symm) fun isSent' => unsent ?_
  obtain ⟨another, inSent', rfl⟩ := List.mem_map.mp isSent'
  refine List.mem_map_of_mem (List.mem_filter.mpr ⟨inSent', decide_eq_true ?_⟩)
  exact (kept.sent another inSent').2.symm.trans (of_decide_eq_true recipient)

/-- The run is orderly. -/
theorem sent_once_inOrder_helloBob
    : ∃ state, Machine.run step helloBob .start = some state ∧ state.sentTo "bob" = [firstRow]
        ∧ (state.sent.map (·.row)).Nodup := by
  have once {state : Post Bool} (ran : Machine.run step helloBob .start = some state)
      : (state.sent.map (·.row)).Nodup :=
    (sent_once_inOrder ran (by decide)).1
  exact ⟨_, rfl, rfl, once rfl⟩

/-- A user who logs in twice at a time is sent a message twice. -/
example
    : (Machine.run step [.request false alice toBob, .store false 0 true, .logIn true "bob", .select true [firstRow],
        .logIn false "bob", .select false [firstRow], .send true true, .send false true]
        (start : Post Bool)).map (·.sentRows) = some [firstRow, firstRow] := by
  rfl

end Runs

end Post

end WiredServer.Server
