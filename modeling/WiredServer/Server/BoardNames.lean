import WiredServer.Base.PathStrings
import WiredServer.Server.BoardPermissions

/-! The requests that rename and move boards. They look for the boards below a board with `LIKE`, and
change the names of what they find one after another.
-/

namespace WiredServer.Server

section Strings

/-- `LIKE` of SQLite, where `%` matches every text, `_` every character, and the case of ASCII letters
does not matter.
-/
def likeMatches : List Char → List Char → Bool
  | [], text => text.isEmpty
  | '%' :: pattern, text => text.tails.any (likeMatches pattern)
  | _ :: _, [] => false
  | char :: pattern, other :: text =>
      (char = '_' || char.toLower = other.toLower) && likeMatches pattern text

/-- `board LIKE ?` with the name of a board and `%` -/
def isLikeBoard (oldboard board : String) : Bool :=
  likeMatches ((cString oldboard).toList ++ ['%']) (cString board).toList

/-- The location that `wi_string_range_of_string` finds. -/
def locationOfString (string other : String) : Option ℕ :=
  if string = "" then none
  else string.toList.tails.findIdx? ((cString other).toList.isPrefixOf ·)

/-- `wi_string_by_replacing_characters_in_range_with_string`, where an assertion about the range ends
the server
-/
def byReplacingCharactersInRange (string : String) (location length : ℕ) (replacement : String)
    : Option String :=
  if location + length ≤ string.toList.length then
    some (String.ofList (string.toList.take location ++ (cString replacement).toList
      ++ string.toList.drop (location + length)))
  else none

end Strings

namespace BoardDatabase

variable (database : BoardDatabase) (oldboard newboard : String)

section Subboards

/-- `SELECT board FROM boards WHERE board LIKE ? ORDER BY board` -/
def selectSubboards : List String :=
  (database.boards.keys.filter fun board => isLikeBoard oldboard board).sort (· ≤ ·)

/-- The old and new names that `wd_boards_rename_board` stores before it changes any of them. -/
def subboardChanges : List String → Option (List (String × String))
  | [] => some []
  | board :: boards =>
      let oldsubboard := cString board
      if oldsubboard = cString newboard then subboardChanges boards
      else
        match locationOfString oldsubboard oldboard with
        | none => subboardChanges boards
        | some location => do
            let newsubboard ← byReplacingCharactersInRange oldsubboard location
              oldboard.toList.length newboard
            let changes ← subboardChanges boards
            some ((oldsubboard, newsubboard) :: changes)

/-- The loop of `wd_boards_rename_board` that changes the names of boards and of their threads. -/
def renameSubboards : List (String × String) → BoardDatabase → BoardReply × BoardDatabase
  | [], current => (.okay, current)
  | (oldsubboard, newsubboard) :: changes, current =>
      if oldsubboard = newsubboard then renameSubboards changes current
      else
        match current.renameBoardRow newsubboard oldsubboard with
        | none => (.internalError, current)
        | some next =>
            renameSubboards changes (next.renameBoardOfThreads newsubboard oldsubboard)

/-- The loop of `wd_boards_move_board`, which changes names while it steps the `SELECT` that lists
them. SQLite leaves open whether it still lists a board that got a name after that of the row it is at
(`again`).
-/
def moveSubboards (again : String → Bool)
    : ℕ → List String → BoardDatabase → Option (BoardReply × BoardDatabase)
  | _, [], current => some (.okay, current)
  | 0, _ :: _, _ => none
  | fuel + 1, board :: boards, current =>
      let oldsubboard := cString board
      match locationOfString oldsubboard oldboard with
      | none => moveSubboards again fuel boards current
      | some location =>
          match byReplacingCharactersInRange oldsubboard location oldboard.toList.length
              newboard with
          | none => some (.serverEnds, current)
          | some newsubboard =>
              match current.renameBoardRow newsubboard oldsubboard with
              | none => some (.internalError, current)
              | some next =>
                  let listed := again newsubboard && current.hasBoardWithName oldsubboard
                    && board < newsubboard && isLikeBoard oldboard newsubboard
                  moveSubboards again fuel
                    (if listed then boards.orderedInsert (· ≤ ·) newsubboard else boards)
                    (next.renameBoardOfThreads newsubboard oldsubboard)

/-- What `wd_boards_rename_board` and `wd_boards_move_board` do when they have changed the boards below
the board: they change the threads of the board, and read its privileges for the broadcast.
-/
def renameThreads : BoardReply × BoardDatabase → BoardReply × BoardDatabase
  | (.okay, current) =>
      let next := current.renameBoardOfThreads newboard oldboard
      (if (next.privilegesForBoard newboard).isSome then .okay else .serverEnds, next)
  | (reply, current) => (reply, current)

end Subboards

section Requests

/-- `wd_boards_rename_board` -/
def renameBoard : BoardReply × BoardDatabase :=
  match database.renameBoardRow newboard oldboard with
  | none => (.internalError, database)
  | some renamed =>
      match subboardChanges oldboard newboard (renamed.selectSubboards oldboard) with
      | none => (.serverEnds, renamed)
      | some changes => renameThreads oldboard newboard (renameSubboards changes renamed)

/-- `wd_boards_move_board` -/
def moveBoard (again : String → Bool) (fuel : ℕ) : Option (BoardReply × BoardDatabase) :=
  match database.renameBoardRow newboard oldboard with
  | none => some (.internalError, database)
  | some renamed =>
      (moveSubboards oldboard newboard again fuel (renamed.selectSubboards oldboard) renamed).map
        (renameThreads oldboard newboard)

variable (user : BoardUser)

/-- `wd_message_board_rename_board`, given the directory of the user who runs the server -/
def handleRenameBoard (home : Option (List Char)) : BoardReply × BoardDatabase :=
  if !user.account.boolean .boardRenameBoards then (.permissionDenied, database)
  else if !database.hasBoardWithName oldboard then (.boardNotFound, database)
  else if database.hasBoardWithName newboard then (.boardExists, database)
  else
    match PathStrings.deletingLastPathComponent home (cString oldboard).toList,
      PathStrings.deletingLastPathComponent home (cString newboard).toList with
    | none, _ | _, none => (.serverEnds, database)
    | some oldparent, some newparent =>
        if oldparent ≠ newparent then (.boardNotFound, database)
        else database.renameBoard oldboard newboard

/-- `wd_message_board_move_board` -/
def handleMoveBoard (again : String → Bool) (fuel : ℕ) : Option (BoardReply × BoardDatabase) :=
  if !user.account.boolean .boardMoveBoards then some (.permissionDenied, database)
  else if !database.hasBoardWithName oldboard then some (.boardNotFound, database)
  else if database.hasBoardWithName newboard then some (.boardExists, database)
  else database.moveBoard oldboard newboard again fuel

end Requests

end BoardDatabase

end WiredServer.Server
