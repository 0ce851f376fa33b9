import WiredServer.Lib.KeyedTable
import WiredServer.Server.Accounts

/-! Boards, their threads and posts: the three tables, which account may read and write a board, and
the statements with which the server looks boards up and changes the tables.
-/

namespace WiredServer.Server

namespace BoardPermission

/-- `WD_BOARD_OWNER_WRITE` -/
abbrev ownerWrite : ℕ := 2 <<< 6
/-- `WD_BOARD_OWNER_READ` -/
abbrev ownerRead : ℕ := 4 <<< 6
/-- `WD_BOARD_GROUP_WRITE` -/
abbrev groupWrite : ℕ := 2 <<< 3
/-- `WD_BOARD_GROUP_READ` -/
abbrev groupRead : ℕ := 4 <<< 3
/-- `WD_BOARD_EVERYONE_WRITE` -/
abbrev everyoneWrite : ℕ := 2 <<< 0
/-- `WD_BOARD_EVERYONE_READ` -/
abbrev everyoneRead : ℕ := 4 <<< 0

end BoardPermission

/-- `wd_board_privileges_t`, and the columns of a row of `boards` other than its name -/
@[ext]
structure BoardPrivileges where
  owner : String
  group : String
  mode : ℕ
  deriving DecidableEq, Repr

namespace BoardPrivileges

open BoardPermission

variable (privileges : BoardPrivileges) (account : Account)

/-- Whether the permissions for everyone, for the group or for the owner admit an account. -/
def admits (everyone group owner : ℕ) : Bool :=
  privileges.mode &&& everyone ≠ 0
    || (privileges.mode &&& group ≠ 0 && privileges.group ≠ ""
      && (privileges.group = account.group || account.groups.contains privileges.group))
    || (privileges.mode &&& owner ≠ 0 && privileges.owner ≠ "" && privileges.owner = account.name)

/-- `wd_board_privileges_is_readable_by_account` -/
def isReadableByAccount : Bool :=
  privileges.admits account everyoneRead groupRead ownerRead

/-- `wd_board_privileges_is_writable_by_account` -/
def isWritableByAccount : Bool :=
  privileges.admits account everyoneWrite groupWrite ownerWrite

/-- `wd_board_privileges_with_sqlite3_results`, where texts are read as C strings -/
def withResults : BoardPrivileges where
  owner := cString privileges.owner
  group := cString privileges.group
  mode := privileges.mode

/-- What a join gives that finds no board: an owner and a group that are equal to no name, and
whatever memory contains for the mode.
-/
def ofNull (memory : ℕ) : BoardPrivileges where
  owner := ""
  group := ""
  mode := memory

end BoardPrivileges

/-- `wi_uuid_t` -/
abbrev Uuid : Type := BitVec 128

/-- The columns that threads and posts share. -/
structure BoardEntry where
  text : String
  postDate : ℤ
  editDate : Option ℤ
  nick : String
  login : String
  ip : String
  icon : List UInt8
  deriving DecidableEq

/-- A row of `threads`. -/
structure ThreadRow extends BoardEntry where
  board : String
  subject : String
  deriving DecidableEq

/-- A row of `posts`. -/
structure PostRow extends BoardEntry where
  thread : Uuid
  deriving DecidableEq

/-- The tables `boards`, `threads` and `posts`. -/
@[ext]
structure BoardDatabase where
  boards : KeyedTable String BoardPrivileges
  threads : KeyedTable Uuid ThreadRow
  posts : KeyedTable Uuid PostRow

namespace BoardDatabase

/-- The database without boards. -/
def empty : BoardDatabase where
  boards := .empty
  threads := .empty
  posts := .empty

variable (database : BoardDatabase)

section Lookups

/-- `wd_boards_has_board_with_name` -/
def hasBoardWithName (board : String) : Bool :=
  (database.boards.row board).isSome

/-- `wd_boards_privileges_for_board`. Without a row the server takes the number of a null pointer for
the mode, which ends it.
-/
def privilegesForBoard (board : String) : Option BoardPrivileges :=
  (database.boards.row board).map BoardPrivileges.withResults

/-- What a join with `boards` gives. -/
def joinBoard (memory : ℕ) (board : String) : BoardPrivileges :=
  (database.privilegesForBoard board).getD (.ofNull memory)

/-- `wd_boards_privileges_for_thread`, which ends the server if there is no such thread -/
def privilegesForThread (memory : ℕ) (thread : Uuid) : Option BoardPrivileges :=
  (database.threads.row thread).map fun row => database.joinBoard memory row.board

/-- `wd_boards_privileges_for_post`, which ends the server if there is no such post -/
def privilegesForPost (memory : ℕ) (post : Uuid) : Option BoardPrivileges :=
  (database.posts.row post).map fun row =>
    (database.privilegesForThread memory row.thread).getD (.ofNull memory)

/-- `wd_boards_board_for_thread` -/
def boardForThread (thread : Uuid) : Option String :=
  (database.threads.row thread).map fun row => cString row.board

end Lookups

section Statements

/-- `INSERT INTO boards` -/
def insertBoard (board : String) (privileges : BoardPrivileges) : Option BoardDatabase :=
  (database.boards.insertRow board privileges).map fun boards => { database with boards }

/-- `UPDATE boards SET board = ? WHERE board = ?` -/
def renameBoardRow (newboard oldboard : String) : Option BoardDatabase :=
  (database.boards.rekey oldboard newboard).map fun boards => { database with boards }

/-- `UPDATE threads SET board = ? WHERE board = ?` -/
def renameBoardOfThreads (newboard oldboard : String) : BoardDatabase where
  boards := database.boards
  threads := database.threads.mapRows fun _ row =>
    if row.board = oldboard then { row with board := newboard } else row
  posts := database.posts

/-- `UPDATE boards SET owner = ?, group = ?, mode = ? WHERE board = ?` -/
def updatePrivileges (board : String) (privileges : BoardPrivileges) : BoardDatabase where
  boards := database.boards.mapRows fun name row => if name = board then privileges else row
  threads := database.threads
  posts := database.posts

/-- `DELETE FROM boards WHERE board = ?`, with `boards_delete_trigger` and `threads_delete_trigger` -/
def deleteBoardRow (board : String) : BoardDatabase :=
  if database.hasBoardWithName board then
    { boards := database.boards.delete board
      threads := database.threads.deleteWhere fun _ row => row.board = board
      posts := database.posts.deleteWhere fun _ row =>
        (database.threads.row row.thread).any fun thread => thread.board = board }
  else database

/-- `INSERT INTO threads` -/
def insertThread (thread : Uuid) (row : ThreadRow) : Option BoardDatabase :=
  (database.threads.insertRow thread row).map fun threads => { database with threads }

/-- `UPDATE threads SET subject = ?, text = ?, edit_date = ? WHERE thread = ?` -/
def updateThread (thread : Uuid) (subject text : String) (now : ℤ) : BoardDatabase where
  boards := database.boards
  threads := database.threads.mapRows fun key row =>
    if key = thread then { row with subject, text, editDate := some now } else row
  posts := database.posts

/-- `UPDATE threads SET board = ? WHERE thread = ?` -/
def updateBoardOfThread (thread : Uuid) (newboard : String) : BoardDatabase where
  boards := database.boards
  threads := database.threads.mapRows fun key row =>
    if key = thread then { row with board := newboard } else row
  posts := database.posts

/-- `DELETE FROM threads WHERE thread = ?`, with `threads_delete_trigger` -/
def deleteThreadRow (thread : Uuid) : BoardDatabase :=
  if (database.threads.row thread).isSome then
    { boards := database.boards
      threads := database.threads.delete thread
      posts := database.posts.deleteWhere fun _ row => row.thread = thread }
  else database

/-- `INSERT INTO posts` -/
def insertPost (post : Uuid) (row : PostRow) : Option BoardDatabase :=
  (database.posts.insertRow post row).map fun posts => { database with posts }

/-- `UPDATE posts SET text = ?, edit_date = ? WHERE post = ?` -/
def updatePost (post : Uuid) (text : String) (now : ℤ) : BoardDatabase where
  boards := database.boards
  threads := database.threads
  posts := database.posts.mapRows fun key row =>
    if key = post then { row with text, editDate := some now } else row

/-- `DELETE FROM posts WHERE post = ?` -/
def deletePostRow (post : Uuid) : BoardDatabase where
  boards := database.boards
  threads := database.threads
  posts := database.posts.delete post

end Statements

end BoardDatabase

end WiredServer.Server
