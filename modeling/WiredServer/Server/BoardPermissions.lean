import WiredServer.Server.Boards

/-! The requests that add, edit, move and delete threads and posts, and when those that succeed come
from an account that may write the boards and is the author or may change the posts of others.
-/

namespace WiredServer.Server

/-- What the handlers for boards read of a `wd_user_t`. -/
structure BoardUser where
  login : String
  nick : String
  ip : String
  icon : List UInt8
  account : Account

/-- The replies of the handlers for boards, and the end of the server when it reads through a null
pointer.
-/
inductive BoardReply where
  | okay
  | permissionDenied
  | boardNotFound
  | boardExists
  | threadNotFound
  | postNotFound
  | internalError
  | serverEnds
  deriving DecidableEq, Repr

/-- The requests that write threads and posts. -/
inductive ThreadRequest where
  | addThread (board subject text : String)
  | editThread (thread : Uuid) (subject text : String)
  | moveThread (thread : Uuid) (newboard : String)
  | deleteThread (thread : Uuid)
  | addPost (thread : Uuid) (text : String)
  | editPost (post : Uuid) (text : String)
  | deletePost (post : Uuid)

namespace BoardUser

variable (user : BoardUser)

/-- What a user enters into a thread or a post. -/
def entry (text : String) (now : ℤ) : BoardEntry where
  text := text
  postDate := now
  editDate := none
  nick := user.nick
  login := user.login
  ip := user.ip
  icon := user.icon

/-- Whether a user with a privilege for the posts of others, or the user that `login` names, may go
on.
-/
def mayChange (all : AccountField) (login : String) : Bool :=
  user.account.boolean all || user.login = cString login

end BoardUser

namespace BoardDatabase

variable (database : BoardDatabase) (user : BoardUser) (memory : ℕ) (uuid : Uuid) (now : ℤ)

/-- `wd_message_board_add_thread` and `wd_boards_add_thread` -/
def addThread (board subject text : String) : BoardReply × BoardDatabase :=
  if !user.account.boolean .boardAddThreads then (.permissionDenied, database)
  else if !database.hasBoardWithName board then (.boardNotFound, database)
  else
    match database.privilegesForBoard board with
    | none => (.serverEnds, database)
    | some privileges =>
        if !privileges.isWritableByAccount user.account then (.permissionDenied, database)
        else
          match database.insertThread uuid
              { toBoardEntry := user.entry text now, board, subject } with
          | none => (.internalError, database)
          | some next => (.okay, next)

/-- `wd_message_board_edit_thread` and `wd_boards_edit_thread` -/
def editThread (thread : Uuid) (subject text : String) : BoardReply × BoardDatabase :=
  if !user.account.boolean .boardEditOwnThreadsAndPosts
      && !user.account.boolean .boardEditAllThreadsAndPosts then (.permissionDenied, database)
  else
    match database.privilegesForThread memory thread, database.threads.row thread with
    | none, _ | _, none => (.serverEnds, database)
    | some privileges, some row =>
        if !privileges.isWritableByAccount user.account then (.permissionDenied, database)
        else if !user.mayChange .boardEditAllThreadsAndPosts row.login then
          (.permissionDenied, database)
        else (.okay, database.updateThread thread subject text now)

/-- `wd_message_board_move_thread` and `wd_boards_move_thread`. It refuses the move if neither of the
boards is writable.
-/
def moveThread (thread : Uuid) (newboard : String) : BoardReply × BoardDatabase :=
  if !user.account.boolean .boardMoveThreads then (.permissionDenied, database)
  else if !database.hasBoardWithName newboard then (.boardNotFound, database)
  else
    match database.boardForThread thread with
    | none => (.threadNotFound, database)
    | some oldboard =>
        match database.privilegesForBoard oldboard, database.privilegesForBoard newboard with
        | none, _ | _, none => (.serverEnds, database)
        | some oldprivileges, some newprivileges =>
            if !oldprivileges.isWritableByAccount user.account
                && !newprivileges.isWritableByAccount user.account then
              (.permissionDenied, database)
            else (.okay, database.updateBoardOfThread thread newboard)

/-- `wd_message_board_delete_thread` and `wd_boards_delete_thread` -/
def deleteThread (thread : Uuid) : BoardReply × BoardDatabase :=
  if !user.account.boolean .boardDeleteOwnThreadsAndPosts
      && !user.account.boolean .boardDeleteAllThreadsAndPosts then (.permissionDenied, database)
  else
    match database.privilegesForThread memory thread, database.threads.row thread with
    | none, _ | _, none => (.threadNotFound, database)
    | some privileges, some row =>
        if !privileges.isWritableByAccount user.account then (.permissionDenied, database)
        else if !user.mayChange .boardDeleteAllThreadsAndPosts row.login then
          (.permissionDenied, database)
        else (.okay, database.deleteThreadRow thread)

/-- `wd_message_board_add_post` and `wd_boards_add_post` -/
def addPost (thread : Uuid) (text : String) : BoardReply × BoardDatabase :=
  if !user.account.boolean .boardAddPosts then (.permissionDenied, database)
  else
    match database.boardForThread thread with
    | none => (.threadNotFound, database)
    | some board =>
        match database.privilegesForBoard board with
        | none => (.serverEnds, database)
        | some privileges =>
            if !privileges.isWritableByAccount user.account then (.permissionDenied, database)
            else
              match database.insertPost uuid { toBoardEntry := user.entry text now, thread } with
              | none => (.internalError, database)
              | some next => (.okay, next)

/-- The checks of `wd_boards_edit_post` and `wd_boards_delete_post`, before they change the post. -/
def changePost (all own : AccountField) (post : Uuid) (changed : BoardDatabase)
    : BoardReply × BoardDatabase :=
  if !user.account.boolean own && !user.account.boolean all then (.permissionDenied, database)
  else
    match database.privilegesForPost memory post, database.posts.row post with
    | none, _ | _, none => (.serverEnds, database)
    | some privileges, some row =>
        if !privileges.isWritableByAccount user.account then (.permissionDenied, database)
        else if !user.mayChange all row.login then (.permissionDenied, database)
        else (.okay, changed)

/-- `wd_message_board_edit_post` and `wd_boards_edit_post` -/
def editPost (post : Uuid) (text : String) : BoardReply × BoardDatabase :=
  database.changePost user memory .boardEditAllThreadsAndPosts .boardEditOwnThreadsAndPosts post
    (database.updatePost post text now)

/-- `wd_message_board_delete_post` and `wd_boards_delete_post` -/
def deletePost (post : Uuid) : BoardReply × BoardDatabase :=
  database.changePost user memory .boardDeleteAllThreadsAndPosts .boardDeleteOwnThreadsAndPosts post
    (database.deletePostRow post)

/-- The handler of a request. -/
def handleThreadRequest : ThreadRequest → BoardReply × BoardDatabase
  | .addThread board subject text => database.addThread user uuid now board subject text
  | .editThread thread subject text => database.editThread user memory now thread subject text
  | .moveThread thread newboard => database.moveThread user thread newboard
  | .deleteThread thread => database.deleteThread user memory thread
  | .addPost thread text => database.addPost user uuid now thread text
  | .editPost post text => database.editPost user memory now post text
  | .deletePost post => database.deletePost user memory post

end BoardDatabase

section Purpose

variable (database : BoardDatabase) (user : BoardUser)

/-- The account of a user may write a board. -/
def MayWrite (board : String) : Prop :=
  ∃ privileges ∈ database.privilegesForBoard board,
    privileges.isWritableByAccount user.account = true

/-- A user is the author, or may change the threads and posts of all. -/
def MayChange (all : AccountField) (login : String) : Prop :=
  user.account.boolean all = true ∨ login = user.login

/-- The user of a request may write every board of it, and is the author of what it changes or may
change the threads and posts of all.
-/
def IsPermitted : ThreadRequest → Prop
  | .addThread board _ _ => MayWrite database user board
  | .editThread thread _ _ => ∃ row ∈ database.threads.row thread,
      MayWrite database user row.board ∧ MayChange user .boardEditAllThreadsAndPosts row.login
  | .moveThread thread newboard => ∃ row ∈ database.threads.row thread,
      MayWrite database user row.board ∧ MayWrite database user newboard
  | .deleteThread thread => ∃ row ∈ database.threads.row thread,
      MayWrite database user row.board ∧ MayChange user .boardDeleteAllThreadsAndPosts row.login
  | .addPost thread _ => ∃ row ∈ database.threads.row thread, MayWrite database user row.board
  | .editPost post _ => ∃ row ∈ database.posts.row post,
      (∃ thread ∈ database.threads.row row.thread, MayWrite database user thread.board)
        ∧ MayChange user .boardEditAllThreadsAndPosts row.login
  | .deletePost post => ∃ row ∈ database.posts.row post,
      (∃ thread ∈ database.threads.row row.thread, MayWrite database user thread.board)
        ∧ MayChange user .boardDeleteAllThreadsAndPosts row.login

/-- A request succeeds only if it is permitted, and changes nothing if it is not. -/
structure KeepsPermission (request : ThreadRequest) (reply : BoardReply) (next : BoardDatabase)
    : Prop where
  succeeds : reply = .okay → IsPermitted database user request
  unchanged : ¬IsPermitted database user request → next = database

end Purpose

section Condition

variable (database : BoardDatabase) (user : BoardUser) (memory : ℕ) (uuid : Uuid)

/-- Where the check of a thread or a post admits a user, there is a board, and the login that is
stored is not longer than the text that is read of it.
-/
def IsSoundCheck (all : AccountField) (privileges : BoardPrivileges) (found : Prop)
    (login : String)
    : Prop :=
  privileges.isWritableByAccount user.account = true → user.mayChange all login = true →
    found ∧ (user.account.boolean all = true ∨ cString login = login)

/-- Where the check of a post admits a user, there are a thread and a board. -/
def IsSoundPostCheck (all own : AccountField) (post : Uuid) : Prop :=
  user.account.boolean own = true ∨ user.account.boolean all = true →
    ∀ row ∈ database.posts.row post, ∀ privileges ∈ database.privilegesForPost memory post,
      IsSoundCheck user all privileges (∃ thread ∈ database.threads.row row.thread,
        database.hasBoardWithName thread.board = true) row.login

/-- When the check of a request suffices: both or none of the boards of a move are writable, the
boards are there, and their names and the logins are not longer than the texts that are read of them.
-/
def ThreadRequest.isCovered : ThreadRequest → Prop
  | .addThread _ _ _ => True
  | .editThread thread _ _ =>
      user.account.boolean .boardEditOwnThreadsAndPosts = true
          ∨ user.account.boolean .boardEditAllThreadsAndPosts = true →
        ∀ row ∈ database.threads.row thread, IsSoundCheck user .boardEditAllThreadsAndPosts
          (database.joinBoard memory row.board) (database.hasBoardWithName row.board = true) row.login
  | .moveThread thread newboard =>
      user.account.boolean .boardMoveThreads = true →
        ∀ row ∈ database.threads.row thread,
        ∀ oldprivileges ∈ database.privilegesForBoard (cString row.board),
        ∀ newprivileges ∈ database.privilegesForBoard newboard,
          if cString row.board = row.board then
            oldprivileges.isWritableByAccount user.account
              = newprivileges.isWritableByAccount user.account
          else oldprivileges.isWritableByAccount user.account = true
              ∨ newprivileges.isWritableByAccount user.account = true →
            MayWrite database user row.board
              ∧ newprivileges.isWritableByAccount user.account = true
  | .deleteThread thread =>
      user.account.boolean .boardDeleteOwnThreadsAndPosts = true
          ∨ user.account.boolean .boardDeleteAllThreadsAndPosts = true →
        ∀ row ∈ database.threads.row thread, IsSoundCheck user .boardDeleteAllThreadsAndPosts
          (database.joinBoard memory row.board) (database.hasBoardWithName row.board = true) row.login
  | .addPost thread _ =>
      user.account.boolean .boardAddPosts = true → database.posts.row uuid = none →
        ∀ row ∈ database.threads.row thread, cString row.board ≠ row.board →
          MayWrite database user (cString row.board) → MayWrite database user row.board
  | .editPost post _ => IsSoundPostCheck database user memory .boardEditAllThreadsAndPosts
      .boardEditOwnThreadsAndPosts post
  | .deletePost post => IsSoundPostCheck database user memory .boardDeleteAllThreadsAndPosts
      .boardDeleteOwnThreadsAndPosts post

end Condition

namespace BoardDatabase

variable {database : BoardDatabase} {user : BoardUser} {memory : ℕ} {uuid : Uuid} {now : ℤ}

/-- There is a board just when it has privileges. -/
theorem privilegesForBoard_eq_none_iff {board : String}
    : database.privilegesForBoard board = none ↔ database.hasBoardWithName board = false := by
  rw [privilegesForBoard, hasBoardWithName, Option.map_eq_none_iff, Option.isSome_eq_false_iff,
    Option.isNone_iff_eq_none]

variable (database user memory) in
/-- A join admits a user to a board that is there if the user may write it. -/
theorem mayWrite_iff_joinBoard (board : String)
    : MayWrite database user board ↔ database.hasBoardWithName board = true
      ∧ (database.joinBoard memory board).isWritableByAccount user.account = true := by
  rw [MayWrite, joinBoard]
  cases found : database.privilegesForBoard board with
  | none =>
      rw [privilegesForBoard_eq_none_iff] at found
      simp [found]
  | some privileges =>
      have here : database.hasBoardWithName board = true := by
        rw [← Bool.not_eq_false, ← privilegesForBoard_eq_none_iff, found]
        exact Option.some_ne_none _
      simp [here]

/-- A thread that is added needs a board that the user may write. -/
theorem mayWrite_of_addThread {board subject text : String}
    (okay : (database.addThread user uuid now board subject text).1 = .okay)
    : MayWrite database user board := by
  unfold addThread at okay
  split_ifs at okay
  split at okay
  · cases okay
  · rename_i privileges found
    split_ifs at okay with writable
    exact ⟨privileges, found, by simpa using writable⟩

/-- What a request that fails leaves. -/
theorem handleThreadRequest_unchanged (request : ThreadRequest)
    (failed : (database.handleThreadRequest user memory uuid now request).1 ≠ .okay)
    : (database.handleThreadRequest user memory uuid now request).2 = database := by
  cases request <;>
    simp only [handleThreadRequest, addThread, editThread, moveThread, deleteThread, addPost,
      editPost, deletePost, changePost] at failed ⊢ <;>
    grind

/-- When a thread is edited. -/
theorem editThread_okay_iff {thread : Uuid} {subject text : String}
    : (database.editThread user memory now thread subject text).1 = .okay
      ↔ (user.account.boolean .boardEditOwnThreadsAndPosts = true
          ∨ user.account.boolean .boardEditAllThreadsAndPosts = true)
        ∧ ∃ row ∈ database.threads.row thread,
          (database.joinBoard memory row.board).isWritableByAccount user.account = true
            ∧ user.mayChange .boardEditAllThreadsAndPosts row.login = true := by
  unfold editThread privilegesForThread
  cases database.threads.row thread <;> grind

/-- When a thread is deleted. -/
theorem deleteThread_okay_iff {thread : Uuid}
    : (database.deleteThread user memory thread).1 = .okay
      ↔ (user.account.boolean .boardDeleteOwnThreadsAndPosts = true
          ∨ user.account.boolean .boardDeleteAllThreadsAndPosts = true)
        ∧ ∃ row ∈ database.threads.row thread,
          (database.joinBoard memory row.board).isWritableByAccount user.account = true
            ∧ user.mayChange .boardDeleteAllThreadsAndPosts row.login = true := by
  unfold deleteThread privilegesForThread
  cases database.threads.row thread <;> grind

/-- When a thread is moved. -/
theorem moveThread_okay_iff {thread : Uuid} {newboard : String}
    : (database.moveThread user thread newboard).1 = .okay
      ↔ user.account.boolean .boardMoveThreads = true
        ∧ ∃ row ∈ database.threads.row thread,
          ∃ oldprivileges ∈ database.privilegesForBoard (cString row.board),
          ∃ newprivileges ∈ database.privilegesForBoard newboard,
            oldprivileges.isWritableByAccount user.account = true
              ∨ newprivileges.isWritableByAccount user.account = true := by
  unfold moveThread boardForThread
  have known : database.privilegesForBoard newboard = none
      ↔ database.hasBoardWithName newboard = false :=
    privilegesForBoard_eq_none_iff
  cases database.threads.row thread with
  | none => grind
  | some row =>
      simp only [Option.map_some, Option.mem_some_iff, exists_eq_left']
      cases database.privilegesForBoard (cString row.board) with
      | none => grind
      | some oldprivileges =>
          cases new : database.privilegesForBoard newboard with
          | none => grind
          | some newprivileges =>
              simp only [Option.mem_some_iff, exists_eq_left']
              grind

/-- When a post is added. -/
theorem addPost_okay_iff {thread : Uuid} {text : String}
    : (database.addPost user uuid now thread text).1 = .okay
      ↔ user.account.boolean .boardAddPosts = true ∧ database.posts.row uuid = none
        ∧ ∃ row ∈ database.threads.row thread, MayWrite database user (cString row.board) := by
  unfold addPost boardForThread insertPost KeyedTable.insertRow MayWrite
  cases database.threads.row thread <;> cases database.posts.row uuid <;> grind

/-- When a post is edited or deleted. -/
theorem changePost_okay_iff {all own : AccountField} {post : Uuid} {changed : BoardDatabase}
    : (database.changePost user memory all own post changed).1 = .okay
      ↔ (user.account.boolean own = true ∨ user.account.boolean all = true)
        ∧ ∃ row ∈ database.posts.row post,
          ∃ privileges ∈ database.privilegesForPost memory post,
            privileges.isWritableByAccount user.account = true
              ∧ user.mayChange all row.login = true := by
  unfold changePost privilegesForPost
  cases database.posts.row post <;> grind

end BoardDatabase

section Result

variable {database : BoardDatabase} {user : BoardUser} {memory : ℕ} {uuid : Uuid} {now : ℤ}

/-- Whether a check of a thread or a post lets a user through who may change it. -/
theorem isSoundCheck_iff {all : AccountField} {privileges : BoardPrivileges} {found : Prop}
    {login : String}
    : IsSoundCheck user all privileges found login
      ↔ (privileges.isWritableByAccount user.account = true → user.mayChange all login = true →
        found ∧ MayChange user all login) := by
  refine forall₂_congr fun _ passed => and_congr_right fun _ => ?_
  rw [BoardUser.mayChange, Bool.or_eq_true, decide_eq_true_eq] at passed
  refine or_congr_right' fun lacks => ?_
  rw [passed.resolve_left lacks]
  exact eq_comm

/-- A thread is edited or deleted by those who may, just when its check is sound. -/
theorem threadChange_iff {all own : AccountField} {thread : Uuid}
    : ((user.account.boolean own = true ∨ user.account.boolean all = true)
          ∧ (∃ row ∈ database.threads.row thread,
            (database.joinBoard memory row.board).isWritableByAccount user.account = true
              ∧ user.mayChange all row.login = true) →
        ∃ row ∈ database.threads.row thread,
          MayWrite database user row.board ∧ MayChange user all row.login)
      ↔ (user.account.boolean own = true ∨ user.account.boolean all = true →
        ∀ row ∈ database.threads.row thread, IsSoundCheck user all
          (database.joinBoard memory row.board) (database.hasBoardWithName row.board = true)
          row.login) := by
  cases database.threads.row thread with
  | none => simp
  | some row =>
      have mayWrite := database.mayWrite_iff_joinBoard user memory row.board
      simp only [Option.mem_some_iff, exists_eq_left', forall_eq', isSoundCheck_iff, mayWrite]
      grind

/-- A post is edited or deleted by those who may, just when its check is sound. -/
theorem postChange_iff {all own : AccountField} {post : Uuid}
    : ((user.account.boolean own = true ∨ user.account.boolean all = true)
          ∧ (∃ row ∈ database.posts.row post,
            ∃ privileges ∈ database.privilegesForPost memory post,
              privileges.isWritableByAccount user.account = true
                ∧ user.mayChange all row.login = true) →
        ∃ row ∈ database.posts.row post,
          (∃ thread ∈ database.threads.row row.thread, MayWrite database user thread.board)
            ∧ MayChange user all row.login)
      ↔ IsSoundPostCheck database user memory all own post := by
  rw [IsSoundPostCheck, BoardDatabase.privilegesForPost]
  cases database.posts.row post with
  | none => simp
  | some row =>
      simp only [Option.map_some, Option.mem_some_iff, exists_eq_left', forall_eq',
        isSoundCheck_iff, BoardDatabase.privilegesForThread]
      cases database.threads.row row.thread with
      | none => simp
      | some thread =>
          have mayWrite := database.mayWrite_iff_joinBoard user memory thread.board
          simp only [Option.map_some, Option.getD_some, Option.mem_some_iff, exists_eq_left',
            mayWrite]
          grind

/-- A move between two boards that one user may write, just when the check of both is sound. -/
theorem moveBoards_iff {board newboard : String}
    : (user.account.boolean .boardMoveThreads = true
          ∧ (∃ oldprivileges ∈ database.privilegesForBoard (cString board),
            ∃ newprivileges ∈ database.privilegesForBoard newboard,
              oldprivileges.isWritableByAccount user.account = true
                ∨ newprivileges.isWritableByAccount user.account = true) →
        MayWrite database user board ∧ MayWrite database user newboard)
      ↔ (user.account.boolean .boardMoveThreads = true →
        ∀ oldprivileges ∈ database.privilegesForBoard (cString board),
        ∀ newprivileges ∈ database.privilegesForBoard newboard,
          if cString board = board then
            oldprivileges.isWritableByAccount user.account
              = newprivileges.isWritableByAccount user.account
          else oldprivileges.isWritableByAccount user.account = true
              ∨ newprivileges.isWritableByAccount user.account = true →
            MayWrite database user board
              ∧ newprivileges.isWritableByAccount user.account = true) := by
  simp only [MayWrite]
  cases database.privilegesForBoard newboard with
  | none => simp
  | some newprivileges =>
      by_cases plain : cString board = board
      · -- the board that is read is that of the thread
        rw [plain]
        cases database.privilegesForBoard board with
        | none => simp
        | some oldprivileges =>
            simp only [Option.mem_some_iff, exists_eq_left', forall_eq', if_true]
            cases oldprivileges.isWritableByAccount user.account <;>
              cases newprivileges.isWritableByAccount user.account <;> simp
      · cases database.privilegesForBoard (cString board) with
        | none => simp
        | some oldprivileges =>
            simp only [Option.mem_some_iff, exists_eq_left', forall_eq', if_neg plain]
            exact and_imp

/-- A request that needs no permission to leave the tables keeps its permission if its success does.
-/
theorem keepsPermission_iff {request : ThreadRequest}
    : KeepsPermission database user request
        (database.handleThreadRequest user memory uuid now request).1
        (database.handleThreadRequest user memory uuid now request).2
      ↔ ((database.handleThreadRequest user memory uuid now request).1 = .okay →
        IsPermitted database user request) := by
  constructor
  · exact fun keeps => keeps.succeeds
  · intro succeeds
    exact ⟨succeeds, fun refused =>
      BoardDatabase.handleThreadRequest_unchanged request fun okay => refused (succeeds okay)⟩

end Result

section StaffBoard

/-- A board that only its owner may read and write, with a thread, and a board for everyone. -/
def staffBoards : BoardDatabase where
  boards := (KeyedTable.empty.put "General" { owner := "admin", group := "", mode := 438 }).put
    "Staff" { owner := "admin", group := "", mode := 384 }
  threads := KeyedTable.empty.put 1
    { text := "", postDate := 0, editDate := none, nick := "admin", login := "admin", ip := "",
      icon := [], board := "Staff", subject := "Wages" }
  posts := .empty

/-- A user who may move threads. -/
def movingUser : BoardUser where
  login := "guest"
  nick := "guest"
  ip := ""
  icon := []
  account := (Account.empty.set .name "guest").set .boardMoveThreads true

end StaffBoard

end WiredServer.Server
