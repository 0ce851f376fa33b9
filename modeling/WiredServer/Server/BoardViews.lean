import WiredServer.Lib.EntryList
import WiredServer.Lib.Machine
import WiredServer.Server.BoardMoves

/-! What a session that is subscribed to boards is told of them: the list that it gets first and the
broadcasts that follow, and when they tell it of the boards that its account may read or write.
-/

namespace WiredServer.Server

/-- Whether an account may read and write a board. -/
@[ext]
structure BoardAccess where
  readable : Bool
  writable : Bool
  deriving DecidableEq, Repr

/-- An account that may read or write a board is told of it. -/
def BoardAccess.isVisible (access : BoardAccess) : Bool :=
  access.readable || access.writable

namespace BoardPrivileges

variable (privileges : BoardPrivileges) (account : Account)

/-- What privileges that are stored give an account. -/
def access : BoardAccess where
  readable := privileges.isReadableByAccount account
  writable := privileges.isWritableByAccount account

/-- Whether the permissions of privileges from a message admit an account. Its texts are compared as C
strings, but not their lengths.
-/
def admitsAsSent (everyone group owner : ℕ) : Bool :=
  privileges.mode &&& everyone ≠ 0
    || (privileges.mode &&& group ≠ 0 && privileges.group ≠ ""
      && (cString privileges.group = account.group
        || account.groups.contains (cString privileges.group)))
    || (privileges.mode &&& owner ≠ 0 && privileges.owner ≠ ""
      && cString privileges.owner = account.name)

open BoardPermission in
/-- What privileges from a message give an account, before they are stored. -/
def accessAsSent : BoardAccess where
  readable := privileges.admitsAsSent account everyoneRead groupRead ownerRead
  writable := privileges.admitsAsSent account everyoneWrite groupWrite ownerWrite

end BoardPrivileges

/-- The broadcasts about boards. -/
inductive BoardBroadcast where
  | boardAdded (board : String) (access : BoardAccess)
  | boardDeleted (board : String)
  | boardRenamed (oldboard newboard : String)
  | boardMoved (oldboard newboard : String)
  | boardInfoChanged (board : String) (access : BoardAccess)
  deriving DecidableEq, Repr

section Broadcasts

variable (board oldboard newboard : String) (old new : BoardAccess)

/-- What `wd_boards_add_board` sends to a session. -/
def addBoardBroadcast : Option BoardBroadcast :=
  if new.isVisible then some (.boardAdded board new) else none

/-- What `wd_boards_delete_board` sends to a session. -/
def deleteBoardBroadcast : Option BoardBroadcast :=
  if old.isVisible then some (.boardDeleted board) else none

/-- What `wd_boards_rename_board` and `wd_boards_move_board` send to a session. -/
def NameRequest.broadcast : NameRequest → Option BoardBroadcast
  | .renameBoard => if new.isVisible then some (.boardRenamed oldboard newboard) else none
  | .moveBoard => if new.isVisible then some (.boardMoved oldboard newboard) else none

/-- What `wd_boards_set_board_info` sends to a session. -/
def setBoardInfoBroadcast : Option BoardBroadcast :=
  if old.isVisible && !new.isVisible then some (.boardDeleted board)
  else if !old.isVisible && new.isVisible then some (.boardAdded board new)
  else if old.isVisible && new.isVisible then some (.boardInfoChanged board new)
  else none

/-- What `wd_boards_reload_account` sends to a session about a board. -/
def reloadAccountBroadcast : Option BoardBroadcast :=
  if !old.isVisible && new.isVisible then some (.boardAdded board new)
  else if old.isVisible && !new.isVisible then some (.boardDeleted board)
  else none

end Broadcasts

namespace BoardDatabase

variable (database : BoardDatabase)

/-- `wd_message_board_add_board` and `wd_boards_add_board` -/
def handleAddBoard (user : BoardUser) (board : String) (privileges : BoardPrivileges)
    : BoardReply × BoardDatabase :=
  if !user.account.boolean .boardAddBoards then (.permissionDenied, database)
  else if database.hasBoardWithName board then (.boardExists, database)
  else
    match database.insertBoard board privileges with
    | none => (.internalError, database)
    | some next => (.okay, next)

/-- `wd_message_board_delete_board` and `wd_boards_delete_board` -/
def handleDeleteBoard (user : BoardUser) (board : String) : BoardReply × BoardDatabase :=
  if !user.account.boolean .boardDeleteBoards then (.permissionDenied, database)
  else if !database.hasBoardWithName board then (.boardNotFound, database)
  else (.okay, database.deleteBoardRow board)

/-- `wd_message_board_set_board_info` and `wd_boards_set_board_info` -/
def handleSetBoardInfo (user : BoardUser) (board : String) (privileges : BoardPrivileges)
    : BoardReply × BoardDatabase :=
  if !user.account.boolean .boardSetBoardInfo then (.permissionDenied, database)
  else if !database.hasBoardWithName board then (.boardNotFound, database)
  else (.okay, database.updatePrivileges board privileges)

/-- What an account is given of a board. -/
def accessOf (account : Account) (board : String) : BoardAccess :=
  match database.privilegesForBoard board with
  | none => ⟨false, false⟩
  | some privileges => privileges.access account

/-- The order in which the boards are listed is transitive. -/
instance isTrans_boardNames : IsTrans String (· ≤ ·) :=
  ⟨fun _ _ _ => le_trans⟩

/-- The order in which the boards are listed has no two names in one place. -/
instance antisymm_boardNames : @Std.Antisymm String (· ≤ ·) :=
  ⟨fun _ _ => le_antisymm⟩

/-- `wd_boards_reply_boards`: the boards that an account may read or write, and whether it may. -/
def replyBoards (account : Account) : List (String × BoardAccess) :=
  ((database.boards.keys.sort (· ≤ ·)).filter fun board =>
    (database.accessOf account board).isVisible).map fun board =>
      (cString board, database.accessOf account board)

end BoardDatabase

/-- How a client reads that a board was renamed or moved: as a change of one name in its list, or also
of the names of the boards below it.
-/
inductive Reading where
  | oneBoard
  | withBoardsBelow
  deriving DecidableEq

/-- The name that a board in the list of a client has after a rename. -/
def Reading.label (oldboard newboard : String) : Reading → String → String
  | .oneBoard => fun board => if board = oldboard then newboard else board
  | .withBoardsBelow => renamedBoard oldboard newboard

/-- A client changes its list of boards by a broadcast. -/
def BoardBroadcast.receive (reading : Reading)
    : BoardBroadcast → List (String × BoardAccess) → List (String × BoardAccess)
  | .boardAdded board access => EntryList.put board access
  | .boardDeleted board => EntryList.remove board
  | .boardRenamed oldboard newboard => EntryList.relabel (reading.label oldboard newboard)
  | .boardMoved oldboard newboard => EntryList.relabel (reading.label oldboard newboard)
  | .boardInfoChanged board access => EntryList.assign board access

/-- The boards, the account of a session and whether it is subscribed to boards, and the list of boards
that its client has.
-/
structure BoardSubscriber where
  database : BoardDatabase
  account : Account
  subscribed : Bool
  view : List (String × BoardAccess)

/-- The requests of any session that change boards, and the reload of the account of the session, with
what is read for it.
-/
inductive BoardAction where
  | addBoard (user : BoardUser) (board : String) (privileges : BoardPrivileges)
  | deleteBoard (user : BoardUser) (board : String)
  | nameBoard (request : NameRequest) (user : BoardUser) (home : Option (List Char))
    (oldboard newboard : String) (again : String → Bool) (fuel : ℕ)
  | setBoardInfo (user : BoardUser) (board : String) (privileges : BoardPrivileges)
  | reloadAccount (account : Option Account)

namespace BoardSubscriber

variable (reading : Reading)

/-- A session that has got the list of boards, and is subscribed to boards. -/
def start (database : BoardDatabase) (account : Account) : BoardSubscriber where
  database := database
  account := account
  subscribed := true
  view := database.replyBoards account

/-- The session after a request of some session, and the broadcast for it if the request succeeds. The
server is not there any more if the request ends it.
-/
def afterRequest (subscriber : BoardSubscriber) (outcome : BoardReply × BoardDatabase)
    (broadcast : Option BoardBroadcast)
    : Option BoardSubscriber :=
  match outcome with
  | (.okay, next) =>
      some
        { subscriber with
          database := next
          view :=
            if subscriber.subscribed then broadcast.elim id (·.receive reading) subscriber.view
            else subscriber.view }
  | (.serverEnds, _) => none
  | (_, next) => some { subscriber with database := next }

/-- `wd_boards_reload_account`, which sends to a session whether it is subscribed or not -/
def reloadView (subscriber : BoardSubscriber) (account : Account) : List (String × BoardAccess) :=
  (subscriber.database.boards.keys.sort (· ≤ ·)).foldl
    (fun view board =>
      (reloadAccountBroadcast (cString board) (subscriber.database.accessOf subscriber.account board)
        (subscriber.database.accessOf account board)).elim id (·.receive reading) view)
    subscriber.view

/-- One step. -/
def step : BoardAction → BoardSubscriber → Option BoardSubscriber
  | .addBoard user board privileges, subscriber =>
      subscriber.afterRequest reading (subscriber.database.handleAddBoard user board privileges)
        (addBoardBroadcast board (privileges.accessAsSent subscriber.account))
  | .deleteBoard user board, subscriber =>
      subscriber.afterRequest reading (subscriber.database.handleDeleteBoard user board)
        (deleteBoardBroadcast board (subscriber.database.accessOf subscriber.account board))
  | .nameBoard request user home oldboard newboard again fuel, subscriber => do
      let outcome ← request.handle subscriber.database user home oldboard newboard again fuel
      subscriber.afterRequest reading outcome
        (request.broadcast oldboard newboard (outcome.2.accessOf subscriber.account newboard))
  | .setBoardInfo user board privileges, subscriber =>
      subscriber.afterRequest reading
        (subscriber.database.handleSetBoardInfo user board privileges)
        (setBoardInfoBroadcast board (subscriber.database.accessOf subscriber.account board)
          (privileges.accessAsSent subscriber.account))
  | .reloadAccount none, subscriber => some subscriber
  | .reloadAccount (some account), subscriber =>
      some
        { subscriber with
          account := account
          subscribed := subscriber.subscribed && account.boolean .boardReadBoards
          view := subscriber.reloadView reading account }

/-- The list of the client has the boards that the account may read or write, and whether it may. -/
def ShowsBoards (subscriber : BoardSubscriber) : Prop :=
  EntryList.Lists subscriber.view fun board access =>
    access.isVisible = true ∧ subscriber.database.accessOf subscriber.account board = access

/-- When a step keeps the list of the client of a subscribed session right. -/
def IsShown : BoardAction → BoardSubscriber → Prop
  | .addBoard user board privileges, subscriber =>
      user.account.boolean .boardAddBoards = true →
        subscriber.database.hasBoardWithName board = false → cString board = board
          ∧ privileges.accessAsSent subscriber.account
            = privileges.withResults.access subscriber.account
  | .deleteBoard _ _, _ => True
  | .nameBoard request user home oldboard newboard _ _, subscriber =>
      request.IsAccepted subscriber.database user home oldboard newboard →
        cString newboard = newboard ∧ request.IsPlain subscriber.database oldboard newboard
          ∧ request.KeepsOthers subscriber.database oldboard newboard
          ∧ ∀ board, IsBelow oldboard board →
            (subscriber.database.accessOf subscriber.account board).isVisible = true →
              reading = .withBoardsBelow
                ∧ (subscriber.database.accessOf subscriber.account oldboard).isVisible = true
  | .setBoardInfo user board privileges, subscriber =>
      user.account.boolean .boardSetBoardInfo = true →
        subscriber.database.hasBoardWithName board = true →
          privileges.accessAsSent subscriber.account
            = privileges.withResults.access subscriber.account
  | .reloadAccount none, _ => True
  | .reloadAccount (some account), subscriber =>
      account.boolean .boardReadBoards = true → ∀ board,
        (subscriber.database.accessOf subscriber.account board).isVisible = true →
          (subscriber.database.accessOf account board).isVisible = true →
            subscriber.database.accessOf account board
              = subscriber.database.accessOf subscriber.account board

/-- When a step keeps the list of the client right, as long as the session is subscribed. -/
def KeepsView (action : BoardAction) (subscriber : BoardSubscriber) : Prop :=
  subscriber.subscribed = true → IsShown reading action subscriber

/-- The names of the boards contain no NUL, and the list of the client is right. -/
structure IsCurrent (subscriber : BoardSubscriber) : Prop where
  plain : ∀ board, subscriber.database.hasBoardWithName board = true → cString board = board
  shows : subscriber.ShowsBoards

/-- The list of the client is right as long as the session is subscribed. -/
def IsRight (subscriber : BoardSubscriber) : Prop :=
  subscriber.subscribed = true → subscriber.IsCurrent

end BoardSubscriber

section Entries

variable {view : List (String × BoardAccess)} {access : String → BoardAccess} {board : String}
  {new : BoardAccess}

/-- A list has the boards that are visible. -/
def Sees (view : List (String × BoardAccess)) (access : String → BoardAccess) : Prop :=
  EntryList.Lists view fun board entry => entry.isVisible = true ∧ access board = entry

/-- A board that becomes visible, or stays visible, is put in its place. -/
theorem sees_put (sees : Sees view access) (visible : new.isVisible = true)
    : Sees (EntryList.put board new view) (Function.update access board new) := by
  refine (EntryList.lists_put sees).congr fun other entry => ?_
  rw [Function.update_apply]
  split_ifs
  · constructor
    · rintro rfl
      exact ⟨visible, rfl⟩
    · exact fun both => both.2.symm
  · exact Iff.rfl

/-- A board that is not visible is removed. -/
theorem sees_remove (sees : Sees view access) (invisible : new.isVisible = false)
    : Sees (EntryList.remove board view) (Function.update access board new) := by
  refine (EntryList.lists_remove sees).congr fun other entry => ?_
  rw [Function.update_apply]
  split_ifs with same
  · refine iff_of_false (fun both => both.1 same) ?_
    rintro ⟨visible, rfl⟩
    rw [invisible] at visible
    cases visible
  · exact and_iff_right same

/-- A board that stays visible gets its new entry. -/
theorem sees_assign (sees : Sees view access) (before : (access board).isVisible = true)
    (visible : new.isVisible = true)
    : Sees (EntryList.assign board new view) (Function.update access board new) := by
  refine (EntryList.lists_assign sees ⟨_, before, rfl⟩).congr fun other entry => ?_
  rw [Function.update_apply]
  split_ifs
  · constructor
    · rintro rfl
      exact ⟨visible, rfl⟩
    · exact fun both => both.2.symm
  · exact Iff.rfl

/-- A board that stays as it was, or is not visible before and after, needs no message. -/
theorem sees_unchanged (sees : Sees view access)
    (same : access board = new ∨ (access board).isVisible = false ∧ new.isVisible = false)
    : Sees view (Function.update access board new) := by
  refine sees.congr fun other entry => ?_
  rw [Function.update_apply]
  split_ifs with own
  · subst own
    rcases same with same | ⟨before, after⟩
    · rw [same]
    · constructor
      · rintro ⟨visible, rfl⟩
        rw [before] at visible
        cases visible
      · rintro ⟨visible, rfl⟩
        rw [after] at visible
        cases visible
  · exact Iff.rfl

variable {reading : Reading}

/-- The broadcast for a board that is added shows it if it is visible. -/
theorem sees_addBoardBroadcast (sees : Sees view access)
    (absent : (access board).isVisible = false)
    : Sees ((addBoardBroadcast board new).elim id (·.receive reading) view)
        (Function.update access board new) := by
  rw [addBoardBroadcast]
  split_ifs with visible
  · exact sees_put sees visible
  · exact sees_unchanged sees (.inr ⟨absent, Bool.not_eq_true _ ▸ visible⟩)

/-- The broadcast for a board that is deleted removes it if it was visible. -/
theorem sees_deleteBoardBroadcast (sees : Sees view access) (gone : new.isVisible = false)
    : Sees ((deleteBoardBroadcast board (access board)).elim id (·.receive reading) view)
        (Function.update access board new) := by
  rw [deleteBoardBroadcast]
  split_ifs with visible
  · exact sees_remove sees gone
  · exact sees_unchanged sees (.inr ⟨Bool.not_eq_true _ ▸ visible, gone⟩)

/-- The broadcast for a board with new privileges shows it as it is. -/
theorem sees_setBoardInfoBroadcast (sees : Sees view access)
    : Sees ((setBoardInfoBroadcast board (access board) new).elim id (·.receive reading) view)
        (Function.update access board new) := by
  rw [setBoardInfoBroadcast]
  cases before : (access board).isVisible <;> cases after : new.isVisible
  · exact sees_unchanged sees (.inr ⟨before, after⟩)
  · exact sees_put sees after
  · exact sees_remove sees after
  · exact sees_assign sees before after

/-- The broadcast for a board after the account was read again shows it as it is, unless it was visible
otherwise than it is.
-/
theorem sees_reloadAccountBroadcast (sees : Sees view access)
    (same : (access board).isVisible = true → new.isVisible = true → new = access board)
    : Sees ((reloadAccountBroadcast board (access board) new).elim id (·.receive reading) view)
        (Function.update access board new) := by
  rw [reloadAccountBroadcast]
  cases before : (access board).isVisible <;> cases after : new.isVisible
  · exact sees_unchanged sees (.inr ⟨before, after⟩)
  · exact sees_put sees after
  · exact sees_remove sees after
  · exact sees_unchanged sees (.inl (same before after).symm)

variable (reading) in
/-- The broadcasts for boards one after another show each of them as it is. -/
theorem sees_foldl {old new : String → BoardAccess} {boards : List String}
    (different : boards.Nodup) (plain : ∀ board ∈ boards, cString board = board)
    (same : ∀ board ∈ boards, (old board).isVisible = true → (new board).isVisible = true →
      new board = old board)
    (sees : Sees view access) (start : ∀ board ∈ boards, access board = old board)
    : Sees (boards.foldl (fun view board =>
          (reloadAccountBroadcast (cString board) (old board) (new board)).elim id
            (·.receive reading) view) view)
        fun board => if board ∈ boards then new board else access board := by
  induction boards generalizing view access with
  | nil => exact sees.congr fun board entry => by simp
  | cons board boards ih =>
      rw [List.nodup_cons] at different
      have own := start board List.mem_cons_self
      have first : Sees ((reloadAccountBroadcast board (access board) (new board)).elim id
          (·.receive reading) view) (Function.update access board (new board)) :=
        sees_reloadAccountBroadcast sees (own ▸ same board List.mem_cons_self)
      rw [own] at first
      rw [List.foldl_cons, plain board List.mem_cons_self]
      have rest := ih different.2 (fun board mem => plain board (List.mem_cons_of_mem _ mem))
        (fun board mem => same board (List.mem_cons_of_mem _ mem)) first (fun other mem => by
          have apart : other ≠ board := by
            rintro rfl
            exact different.1 mem
          rw [Function.update_of_ne apart]
          exact start other (List.mem_cons_of_mem _ mem))
      refine rest.congr fun other entry => ?_
      by_cases apart : other = board
      · subst apart
        simp [different.1]
      · simp only [List.mem_cons, apart, false_or, Function.update_of_ne apart]

end Entries

namespace BoardDatabase

variable {database next : BoardDatabase} {account : Account} {board : String}
  {privileges : BoardPrivileges}

/-- What an account is given of a board that is there. -/
theorem accessOf_eq_some {row : BoardPrivileges} (here : database.boards.row board = some row)
    : database.accessOf account board = row.withResults.access account := by
  rw [accessOf, privilegesForBoard, here]
  rfl

/-- An account is given nothing of a board that is not there. -/
theorem accessOf_eq_none (absent : database.boards.row board = none)
    : database.accessOf account board = ⟨false, false⟩ := by
  rw [accessOf, privilegesForBoard, absent]
  rfl

/-- A visible board is there. -/
theorem hasBoardWithName_of_isVisible
    (visible : (database.accessOf account board).isVisible = true)
    : database.hasBoardWithName board = true := by
  by_contra absent
  rw [accessOf_eq_none (Option.not_isSome_iff_eq_none.mp absent)] at visible
  cases visible

/-- Equal rows give an account the same. -/
theorem accessOf_congr {other : String}
    (same : next.boards.row board = database.boards.row other)
    : next.accessOf account board = database.accessOf account other := by
  rw [accessOf, accessOf, privilegesForBoard, privilegesForBoard, same]

/-- What an account is given after the row of a board has changed. -/
theorem accessOf_update {row : Option BoardPrivileges} {new : BoardAccess}
    (changed : ∀ other, next.boards.row other = if other = board then row else database.boards.row other)
    (own : next.accessOf account board = new)
    : next.accessOf account = Function.update (database.accessOf account) board new := by
  funext other
  rw [Function.update_apply]
  split_ifs with same
  · rw [same, own]
  · exact accessOf_congr (by rw [changed, if_neg same])

/-- What an account is given after a board is added. -/
theorem accessOf_insertBoard (inserted : database.insertBoard board privileges = some next)
    : next.accessOf account
      = Function.update (database.accessOf account) board (privileges.withResults.access account) := by
  obtain ⟨boards, put, rfl⟩ := Option.map_eq_some_iff.mp inserted
  obtain ⟨-, rfl⟩ := (KeyedTable.insertRow_eq_some_iff _).mp put
  have rows := fun other => database.boards.row_put board other privileges
  exact accessOf_update rows (accessOf_eq_some (by rw [rows, if_pos rfl]))

/-- What an account is given after a board is deleted. -/
theorem accessOf_deleteBoardRow (here : database.hasBoardWithName board = true)
    : (database.deleteBoardRow board).accessOf account
      = Function.update (database.accessOf account) board ⟨false, false⟩ := by
  rw [deleteBoardRow, if_pos here]
  have rows := database.boards.row_delete board
  exact accessOf_update rows (accessOf_eq_none (by rw [rows, if_pos rfl]))

/-- What an account is given after the privileges of a board are changed. -/
theorem accessOf_updatePrivileges (here : database.hasBoardWithName board = true)
    : (database.updatePrivileges board privileges).accessOf account
      = Function.update (database.accessOf account) board (privileges.withResults.access account) := by
  obtain ⟨row, found⟩ := Option.isSome_iff_exists.mp here
  have rows : ∀ other, (database.updatePrivileges board privileges).boards.row other
      = if other = board then some privileges else database.boards.row other := by
    intro other
    rw [updatePrivileges, KeyedTable.row_mapRows]
    split_ifs with same
    · rw [same, found]
      rfl
    · exact Option.map_id'
  exact accessOf_update rows (accessOf_eq_some (by rw [rows, if_pos rfl]))

end BoardDatabase

section Steps

variable {reading : Reading} {subscriber next : BoardSubscriber}

namespace BoardSubscriber

/-- A request does not change whether the session is subscribed. -/
theorem subscribed_afterRequest {outcome : BoardReply × BoardDatabase}
    {broadcast : Option BoardBroadcast}
    (done : subscriber.afterRequest reading outcome broadcast = some next)
    : next.subscribed = subscriber.subscribed := by
  obtain ⟨reply, database⟩ := outcome
  cases reply <;> cases done <;> rfl

/-- What a request keeps for a session: a request that fails changes nothing, and one that succeeds
leaves names without NUL and the broadcast that shows the boards.
-/
theorem isCurrent_afterRequest {outcome : BoardReply × BoardDatabase}
    {broadcast : Option BoardBroadcast}
    (current : subscriber.IsRight)
    (failed : subscriber.subscribed = true → outcome.1 ≠ .okay → outcome.2 = subscriber.database)
    (succeeded : subscriber.subscribed = true → outcome.1 = .okay → subscriber.IsCurrent →
      (∀ board, outcome.2.hasBoardWithName board = true → cString board = board)
        ∧ Sees (broadcast.elim id (·.receive reading) subscriber.view)
          (outcome.2.accessOf subscriber.account))
    (done : subscriber.afterRequest reading outcome broadcast = some next)
    : next.IsRight := by
  intro still
  have subscribed := (subscribed_afterRequest done).symm.trans still
  obtain ⟨reply, database⟩ := outcome
  by_cases okay : reply = .okay
  · subst okay
    obtain rfl := Option.some.inj done
    obtain ⟨plain, sees⟩ := succeeded subscribed rfl (current subscribed)
    refine ⟨plain, ?_⟩
    rw [ShowsBoards]
    simp only [if_pos subscribed]
    exact sees
  · obtain rfl := failed subscribed okay
    have same : next = subscriber := by
      cases reply <;> first | exact absurd rfl okay | exact (Option.some.inj done).symm | cases done
    rw [same]
    exact current subscribed

/-- A board that is added keeps the list right. -/
theorem isCurrent_addBoard {user : BoardUser} {board : String} {privileges : BoardPrivileges}
    (current : subscriber.IsRight)
    (keeps : KeepsView reading (.addBoard user board privileges) subscriber)
    (done : step reading (.addBoard user board privileges) subscriber = some next)
    : next.IsRight := by
  refine isCurrent_afterRequest current (fun _ failed => ?_) (fun subscribed okay now => ?_) done
  · unfold BoardDatabase.handleAddBoard at failed ⊢
    grind
  · unfold BoardDatabase.handleAddBoard at okay ⊢
    split_ifs at okay ⊢ with refused taken
    rw [Bool.not_eq_true] at taken
    obtain ⟨plain, sent⟩ := keeps subscribed (by simpa using refused) taken
    cases inserted : subscriber.database.insertBoard board privileges with
    | none =>
        rw [inserted] at okay
        cases okay
    | some added =>
        have absent : (subscriber.database.accessOf subscriber.account board).isVisible = false := by
          by_contra visible
          have here := BoardDatabase.hasBoardWithName_of_isVisible (Bool.not_eq_false _ ▸ visible)
          rw [taken] at here
          cases here
        dsimp only
        rw [BoardDatabase.accessOf_insertBoard inserted, sent]
        refine ⟨fun other there => ?_, sees_addBoardBroadcast now.shows absent⟩
        obtain ⟨boards, put, rfl⟩ := Option.map_eq_some_iff.mp inserted
        obtain ⟨-, rfl⟩ := (KeyedTable.insertRow_eq_some_iff _).mp put
        rw [BoardDatabase.hasBoardWithName, KeyedTable.row_put] at there
        split_ifs at there with same
        · rw [same, plain]
        · exact now.plain other there

/-- A board that is deleted keeps the list right. -/
theorem isCurrent_deleteBoard {user : BoardUser} {board : String}
    (current : subscriber.IsRight)
    (done : step reading (.deleteBoard user board) subscriber = some next)
    : next.IsRight := by
  refine isCurrent_afterRequest current (fun _ failed => ?_) (fun _ okay now => ?_) done
  · unfold BoardDatabase.handleDeleteBoard at failed ⊢
    grind
  · unfold BoardDatabase.handleDeleteBoard at okay ⊢
    split_ifs at okay ⊢ with refused absent
    have here : subscriber.database.hasBoardWithName board = true := by simpa using absent
    rw [BoardDatabase.accessOf_deleteBoardRow here]
    refine ⟨fun other there => now.plain other ?_, sees_deleteBoardBroadcast now.shows rfl⟩
    rw [BoardDatabase.deleteBoardRow, if_pos here, BoardDatabase.hasBoardWithName,
      KeyedTable.row_delete] at there
    split_ifs at there
    · cases there
    · exact there

/-- A board whose privileges are changed keeps the list right. -/
theorem isCurrent_setBoardInfo {user : BoardUser} {board : String} {privileges : BoardPrivileges}
    (current : subscriber.IsRight)
    (keeps : KeepsView reading (.setBoardInfo user board privileges) subscriber)
    (done : step reading (.setBoardInfo user board privileges) subscriber = some next)
    : next.IsRight := by
  refine isCurrent_afterRequest current (fun _ failed => ?_) (fun subscribed okay now => ?_) done
  · unfold BoardDatabase.handleSetBoardInfo at failed ⊢
    grind
  · unfold BoardDatabase.handleSetBoardInfo at okay ⊢
    split_ifs at okay ⊢ with refused absent
    have here : subscriber.database.hasBoardWithName board = true := by simpa using absent
    have sent := keeps subscribed (by simpa using refused) here
    rw [BoardDatabase.accessOf_updatePrivileges here, sent]
    refine ⟨fun other there => now.plain other ?_, sees_setBoardInfoBroadcast now.shows⟩
    rwa [BoardDatabase.updatePrivileges, BoardDatabase.hasBoardWithName, KeyedTable.row_mapRows,
      Option.isSome_map] at there

/-- What a list shows after a rename, if the visible boards get the names that they have. -/
theorem sees_of_isRenamed {view : List (String × BoardAccess)} {before after : BoardDatabase}
    {account : Account} {oldboard newboard : String} {label : String → String}
    (renamed : IsRenamed oldboard newboard before after) (sees : Sees view (before.accessOf account))
    (same : ∀ board, (before.accessOf account board).isVisible = true →
      label board = renamedBoard oldboard newboard board)
    : Sees (EntryList.relabel label view) (after.accessOf account) := by
  have moved : ∀ board, before.hasBoardWithName board = true →
      after.accessOf account (renamedBoard oldboard newboard board) = before.accessOf account board :=
    fun board here => BoardDatabase.accessOf_congr (renamed.boards.row_label here)
  refine (EntryList.lists_relabel label sees).congr fun board access => ?_
  constructor
  · rintro ⟨old, ⟨visible, rfl⟩, rfl⟩
    rw [same old visible, moved old (BoardDatabase.hasBoardWithName_of_isVisible visible)]
    exact ⟨visible, rfl⟩
  · rintro ⟨visible, rfl⟩
    obtain ⟨row, found⟩ :=
      Option.isSome_iff_exists.mp (BoardDatabase.hasBoardWithName_of_isVisible visible)
    obtain ⟨old, here, rfl⟩ := (renamed.boards.row_iff board row).mp found
    rw [moved old (Option.isSome_of_eq_some here)] at visible ⊢
    exact ⟨old, ⟨visible, rfl⟩, same old visible⟩

/-- The broadcast for a board that is renamed or moved shows the boards, if the account can see no board
below it or the client renames these with it.
-/
theorem sees_broadcast {view : List (String × BoardAccess)} {before after : BoardDatabase}
    {account : Account} {request : NameRequest} {oldboard newboard : String}
    (renamed : IsRenamed oldboard newboard before after) (sees : Sees view (before.accessOf account))
    (above : ∀ board, IsBelow oldboard board → (before.accessOf account board).isVisible = true →
      reading = .withBoardsBelow ∧ (before.accessOf account oldboard).isVisible = true)
    : Sees ((request.broadcast oldboard newboard (before.accessOf account oldboard)).elim id
        (·.receive reading) view) (after.accessOf account) := by
  by_cases visible : (before.accessOf account oldboard).isVisible = true
  · have labels : Sees (EntryList.relabel (reading.label oldboard newboard) view)
        (after.accessOf account) := by
      refine sees_of_isRenamed renamed sees fun board seen => ?_
      cases reading with
      | withBoardsBelow => rfl
      | oneBoard =>
          by_cases own : board = oldboard
          · rw [own, renamedBoard_self]
            exact if_pos rfl
          · rw [renamedBoard_of_not own fun below => nomatch (above board below seen).1]
            exact if_neg own
    cases request <;> rw [NameRequest.broadcast, if_pos visible] <;> exact labels
  · -- the client is not told, and does not see any of the boards
    have labels : Sees (EntryList.relabel id view) (after.accessOf account) := by
      refine sees_of_isRenamed renamed sees fun board seen => ?_
      have own : board ≠ oldboard := by
        rintro rfl
        exact visible seen
      exact (renamedBoard_of_not own fun below => visible (above board below seen).2).symm
    rw [EntryList.relabel, Prod.map_id, List.map_id] at labels
    cases request <;> rw [NameRequest.broadcast, if_neg visible] <;> exact labels

/-- A name without NUL in place of another. -/
theorem cString_renamedBoard {oldboard newboard board : String}
    (plain : cString newboard = newboard) (plain' : cString board = board)
    : cString (renamedBoard oldboard newboard board) = renamedBoard oldboard newboard board := by
  by_cases own : board = oldboard
  · rw [own, renamedBoard_self, plain]
  · by_cases below : IsBelow oldboard board
    · rw [cString_eq_self_iff] at plain plain' ⊢
      rw [toList_renamedBoard below, List.mem_append, not_or]
      exact ⟨plain, fun mem => plain' (List.mem_of_mem_drop mem)⟩
    · rw [renamedBoard_of_not own below, plain']

/-- A board that is renamed or moved keeps the list right. -/
theorem isCurrent_nameBoard {request : NameRequest} {user : BoardUser}
    {home : Option (List Char)} {oldboard newboard : String} {again : String → Bool} {fuel : ℕ}
    (current : subscriber.IsRight)
    (keeps : KeepsView reading (.nameBoard request user home oldboard newboard again fuel) subscriber)
    (done : step reading (.nameBoard request user home oldboard newboard again fuel) subscriber
      = some next)
    : next.IsRight := by
  obtain ⟨outcome, handled, rest⟩ := Option.bind_eq_some_iff.mp done
  by_cases accepted : request.IsAccepted subscriber.database user home oldboard newboard
  · refine isCurrent_afterRequest current (fun subscribed => ?_) (fun subscribed okay now => ?_) rest
    · obtain ⟨-, names, others, -⟩ := keeps subscribed accepted
      exact (keepsBoards_of_keepsOthers accepted names others handled).unchanged
    · obtain ⟨plain, names, others, above⟩ := keeps subscribed accepted
      have renamed := (keepsBoards_of_keepsOthers accepted names others handled).renamed okay
      have oldHere : subscriber.database.hasBoardWithName oldboard = true := by
        cases request <;> exact accepted.2.1
      refine ⟨fun board there => ?_, ?_⟩
      · obtain ⟨row, found⟩ := Option.isSome_iff_exists.mp there
        obtain ⟨old, here, rfl⟩ := (renamed.boards.row_iff board row).mp found
        exact cString_renamedBoard plain (now.plain old (Option.isSome_of_eq_some here))
      · have found := renamed.boards.row_label oldHere
        rw [renamedBoard_self] at found
        rw [BoardDatabase.accessOf_congr found]
        exact sees_broadcast renamed now.shows above
  · obtain ⟨reply, failed, refused⟩ := handle_of_not_isAccepted accepted again fuel
    obtain rfl := Option.some.inj (refused.symm.trans handled)
    exact isCurrent_afterRequest current (fun _ _ => rfl) (fun _ okay => absurd okay failed) rest

/-- The broadcasts after the account was read again keep the list right. -/
theorem sees_reloadView {account : Account} (current : subscriber.IsCurrent)
    (same : ∀ board, (subscriber.database.accessOf subscriber.account board).isVisible = true →
      (subscriber.database.accessOf account board).isVisible = true →
        subscriber.database.accessOf account board
          = subscriber.database.accessOf subscriber.account board)
    : Sees (subscriber.reloadView reading account) (subscriber.database.accessOf account) := by
  have sees := sees_foldl reading
    (Finset.sort_nodup subscriber.database.boards.keys (· ≤ ·))
    (fun board mem => current.plain board
      ((subscriber.database.boards.mem_keys board).mp ((Finset.mem_sort _).mp mem)))
    (fun board _ => same board) current.shows fun _ _ => rfl
  refine sees.congr fun board access => ?_
  dsimp only
  split_ifs with mem
  · exact Iff.rfl
  · -- an account is given nothing of a board that is not there
    rw [Finset.mem_sort, subscriber.database.boards.mem_keys, Option.not_isSome_iff_eq_none] at mem
    rw [BoardDatabase.accessOf_eq_none mem, BoardDatabase.accessOf_eq_none mem]

/-- A reload of the account keeps the list right. -/
theorem isCurrent_reloadAccount {account : Option Account}
    (current : subscriber.IsRight)
    (keeps : KeepsView reading (.reloadAccount account) subscriber)
    (done : step reading (.reloadAccount account) subscriber = some next)
    : next.IsRight := by
  cases account with
  | none =>
      obtain rfl := Option.some.inj done
      exact current
  | some account =>
      obtain rfl := Option.some.inj done
      intro still
      obtain ⟨subscribed, reads⟩ := Bool.and_eq_true_iff.mp still
      have now := current subscribed
      exact ⟨now.plain, sees_reloadView now (keeps subscribed reads)⟩

/-- What one step keeps. -/
theorem isCurrent_step {action : BoardAction}
    (keeps : KeepsView reading action subscriber)
    (current : subscriber.IsRight)
    (done : step reading action subscriber = some next)
    : next.IsRight := by
  cases action with
  | addBoard user board privileges => exact isCurrent_addBoard current keeps done
  | deleteBoard user board => exact isCurrent_deleteBoard current done
  | nameBoard request user home oldboard newboard again fuel =>
      exact isCurrent_nameBoard current keeps done
  | setBoardInfo user board privileges => exact isCurrent_setBoardInfo current keeps done
  | reloadAccount account => exact isCurrent_reloadAccount current keeps done

/-- The list that a session gets first is right. -/
theorem isCurrent_start {database : BoardDatabase} {account : Account}
    (plain : ∀ board, database.hasBoardWithName board = true → cString board = board)
    : (start database account).IsCurrent := by
  refine ⟨plain, fun board access => ?_⟩
  simp only [start, BoardDatabase.replyBoards, List.mem_map, List.mem_filter, Finset.mem_sort,
    database.boards.mem_keys, Prod.mk.injEq]
  constructor
  · rintro ⟨other, ⟨here, visible⟩, named, rfl⟩
    obtain rfl := (plain other here).symm.trans named
    exact ⟨visible, rfl⟩
  · rintro ⟨visible, rfl⟩
    have here := BoardDatabase.hasBoardWithName_of_isVisible visible
    exact ⟨board, ⟨here, visible⟩, plain board here, rfl⟩

end BoardSubscriber

end Steps

section Promotion

/-- A board that everyone may read and the group `staff` may write. -/
def staffDatabase : BoardDatabase where
  boards := KeyedTable.empty.put "General" { owner := "", group := "staff", mode := 20 }
  threads := .empty
  posts := .empty

/-- An account that may read boards and is in no group. -/
def guestAccount : Account :=
  (Account.empty.set .name "guest").set .boardReadBoards true

/-- The account after it was put into the group `staff`. -/
def promotedAccount : Account :=
  guestAccount.set .group "staff"

/-- A user who may change the privileges of boards. -/
def boardAdmin : BoardUser where
  login := "admin"
  nick := "admin"
  ip := ""
  icon := []
  account := Account.empty.set .boardSetBoardInfo true

/-- The names of the boards contain no NUL. -/
theorem cString_of_staffDatabase {board : String}
    (here : staffDatabase.hasBoardWithName board = true)
    : cString board = board := by
  rw [BoardDatabase.hasBoardWithName, staffDatabase, KeyedTable.row_put] at here
  split_ifs at here with same
  · rw [same]
    decide
  · cases here

/-- A reload that puts the account into a group leaves the list of the client as it is. -/
theorem BoardSubscriber.not_showsBoards_promoted (reading : Reading)
    : ∃ last, Machine.run (step reading) [.reloadAccount (some promotedAccount)]
        (start staffDatabase guestAccount) = some last
      ∧ last.subscribed = true ∧ ¬last.ShowsBoards := by
  refine ⟨_, rfl, rfl, fun shows => ?_⟩
  have now : staffDatabase.accessOf promotedAccount "General" = ⟨true, true⟩ := by decide
  have before : staffDatabase.accessOf guestAccount "General" = ⟨true, false⟩ := by decide
  have listed : staffDatabase.boards.keys.sort (· ≤ ·) = ["General"] := Finset.sort_singleton _ _
  have mem := (shows "General" ⟨true, true⟩).mpr ⟨rfl, now⟩
  simp only [reloadView, start, listed, BoardDatabase.replyBoards, List.foldl_cons,
    List.foldl_nil, List.filter_cons, List.filter_nil, before, now] at mem
  revert mem
  cases reading <;> decide

end Promotion

end WiredServer.Server
