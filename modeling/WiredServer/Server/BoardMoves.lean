import WiredServer.Server.BoardRenames

/-! The boards that the requests to rename and to move a board take for boards below it, and when they
keep all others.
-/

namespace WiredServer.Server

/-- The requests that change the name of a board. -/
inductive NameRequest where
  | renameBoard
  | moveBoard

section Requests

variable (database : BoardDatabase) (user : BoardUser) (home : Option (List Char))
  (oldboard newboard : String)

/-- The handler of a request. -/
def NameRequest.handle (again : String → Bool) (fuel : ℕ)
    : NameRequest → Option (BoardReply × BoardDatabase)
  | .renameBoard => some (database.handleRenameBoard oldboard newboard user home)
  | .moveBoard => database.handleMoveBoard oldboard newboard user again fuel

/-- The handler goes on to change the name of the board. -/
def NameRequest.IsAccepted : NameRequest → Prop
  | .renameBoard => user.account.boolean .boardRenameBoards = true
      ∧ database.hasBoardWithName oldboard = true ∧ database.hasBoardWithName newboard = false
      ∧ ∃ parent, PathStrings.deletingLastPathComponent home (cString oldboard).toList = some parent
        ∧ PathStrings.deletingLastPathComponent home (cString newboard).toList = some parent
  | .moveBoard => user.account.boolean .boardMoveBoards = true
      ∧ database.hasBoardWithName oldboard = true ∧ database.hasBoardWithName newboard = false

/-- The name of the board is found in a name. -/
def isLocated (board : String) : Bool :=
  (locationOfString (cString board) oldboard).isSome

/-- A name matches the pattern for the boards below the board, and the name of the board is found in
it.
-/
def isSubboard (board : String) : Bool :=
  isLikeBoard oldboard board && isLocated oldboard board

/-- The server takes a board for one below the board. The move of a board finds the board itself under
its new name.
-/
def NameRequest.IsFound (request : NameRequest) (board : String) : Prop :=
  isSubboard oldboard board = true
    ∧ (database.hasBoardWithName board = true ∧ board ≠ oldboard
      ∨ request = .moveBoard ∧ board = newboard)

/-- The names in question contain no NUL. -/
structure NameRequest.IsPlain (request : NameRequest) : Prop where
  old : cString oldboard = oldboard
  found : ∀ board, request.IsFound database oldboard newboard board →
    cString board = board ∧ cString newboard = newboard

/-- When a request keeps all boards but the board and those below it. -/
structure NameRequest.KeepsOthers (request : NameRequest) : Prop where
  covered : IsCovered oldboard newboard database (request.IsFound database oldboard newboard)
  once : request = .moveBoard → ∀ board, request.IsFound database oldboard newboard board →
    board < renamedBoard oldboard newboard board →
      isSubboard oldboard (renamedBoard oldboard newboard board) = false

end Requests

section Lists

variable {oldboard newboard : String} {current : BoardDatabase}

/-- The changes that a rename stores are those for the names in which the old name is found. -/
theorem subboardChanges_eq (plain : cString oldboard = oldboard) {boards : List String}
    (plain' : ∀ board ∈ boards, cString board ≠ cString newboard →
      isLocated oldboard board = true → cString board = board)
    : BoardDatabase.subboardChanges oldboard newboard boards
      = some (changesOf oldboard newboard (boards.filter fun board =>
          cString board ≠ cString newboard && isLocated oldboard board)) := by
  induction boards with
  | nil => rfl
  | cons board boards ih =>
      have rest := ih fun board mem => plain' board (List.mem_cons_of_mem _ mem)
      rw [BoardDatabase.subboardChanges]
      by_cases own : cString board = cString newboard
      · simp [own, rest]
      · rw [if_neg own]
        cases found : locationOfString (cString board) oldboard with
        | none => simp [isLocated, found, rest]
        | some location =>
            have located : isLocated oldboard board = true := by
              rw [isLocated, found]
              rfl
            have same := plain' board List.mem_cons_self own located
            rw [same] at own found
            simp [located, same, own, changesOf, rest,
              byReplacingCharactersInRange_of_locationOfString _ plain found]

variable {again : String → Bool} {fuel : ℕ}

/-- More fuel does not change what a move does. -/
theorem moveSubboards_add {boards : List String} {outcome : BoardReply × BoardDatabase} (more : ℕ)
    (done : BoardDatabase.moveSubboards oldboard newboard again fuel boards current = some outcome)
    : BoardDatabase.moveSubboards oldboard newboard again (fuel + more) boards current
      = some outcome := by
  induction fuel generalizing boards current with
  | zero =>
      cases boards with
      | nil => cases more <;> exact done
      | cons board boards => cases done
  | succ fuel ih =>
      cases boards with
      | nil => rw [Nat.add_right_comm]; exact done
      | cons board boards =>
          rw [Nat.add_right_comm]
          cases found : locationOfString (cString board) oldboard with
          | none =>
              simp only [BoardDatabase.moveSubboards, found] at done ⊢
              exact ih done
          | some location =>
              cases inside : byReplacingCharactersInRange (cString board) location
                  oldboard.toList.length newboard with
              | none =>
                  simp only [BoardDatabase.moveSubboards, found, inside] at done ⊢
                  exact done
              | some newsubboard =>
                  cases changed : current.renameBoardRow newsubboard (cString board) with
                  | none =>
                      simp only [BoardDatabase.moveSubboards, found, inside, changed] at done ⊢
                      exact done
                  | some next =>
                      simp only [BoardDatabase.moveSubboards, found, inside, changed] at done ⊢
                      exact ih done

/-- What a move does does not depend on the fuel. -/
theorem moveSubboards_unique {boards : List String} {more : ℕ}
    {outcome other : BoardReply × BoardDatabase}
    (done : BoardDatabase.moveSubboards oldboard newboard again fuel boards current = some outcome)
    (done' : BoardDatabase.moveSubboards oldboard newboard again more boards current = some other)
    : outcome = other := by
  have first := moveSubboards_add more done
  have second := moveSubboards_add fuel done'
  rw [Nat.add_comm] at second
  exact Option.some.inj (first.symm.trans second)

/-- A move step at a name in which the old name is not found. -/
theorem moveSubboards_skip {board : String} {boards : List String}
    (missing : isLocated oldboard board = false)
    : BoardDatabase.moveSubboards oldboard newboard again (fuel + 1) (board :: boards) current
      = BoardDatabase.moveSubboards oldboard newboard again fuel boards current := by
  rw [isLocated, Option.isSome_eq_false_iff, Option.isNone_iff_eq_none] at missing
  simp only [BoardDatabase.moveSubboards, missing]

/-- A move step at a name in which the old name is found. -/
theorem moveSubboards_step (plain : cString oldboard = oldboard) {board : String}
    {boards : List String} (plain' : cString board = board)
    (located : isLocated oldboard board = true)
    : BoardDatabase.moveSubboards oldboard newboard again (fuel + 1) (board :: boards) current
      = match current.renameBoardRow (newSubboard oldboard newboard board) board with
        | none => some (.internalError, current)
        | some next =>
            BoardDatabase.moveSubboards oldboard newboard again fuel
              (if again (newSubboard oldboard newboard board) && current.hasBoardWithName board
                  && board < newSubboard oldboard newboard board
                  && isLikeBoard oldboard (newSubboard oldboard newboard board) then
                boards.orderedInsert (· ≤ ·) (newSubboard oldboard newboard board)
              else boards)
              (next.renameBoardOfThreads (newSubboard oldboard newboard board) board) := by
  obtain ⟨location, found⟩ := Option.isSome_iff_exists.mp located
  rw [plain'] at found
  have replaced := byReplacingCharactersInRange_of_locationOfString newboard plain found
  cases row : current.renameBoardRow (newSubboard oldboard newboard board) board with
  | none => simp only [BoardDatabase.moveSubboards, plain', found, replaced, row]
  | some next => simp only [BoardDatabase.moveSubboards, plain', found, replaced, row]

/-- A move does the changes for the names that it lists, as long as it lists no name again. -/
theorem moveSubboards_append (plain : cString oldboard = oldboard) {listed rest : List String}
    (plain' : ∀ board ∈ listed, isLocated oldboard board = true → cString board = board)
    (once : ∀ board ∈ listed, isLocated oldboard board = true →
      again (newSubboard oldboard newboard board) = false)
    : BoardDatabase.moveSubboards oldboard newboard again (fuel + listed.length) (listed ++ rest)
        current
      = match BoardDatabase.renameSubboards
            (changesOf oldboard newboard (listed.filter (isLocated oldboard))) current with
        | (.okay, next) => BoardDatabase.moveSubboards oldboard newboard again fuel rest next
        | outcome => some outcome := by
  induction listed generalizing current with
  | nil => rfl
  | cons board listed ih =>
      have plainRest := fun board mem => plain' board (List.mem_cons_of_mem _ mem)
      have onceRest := fun board mem => once board (List.mem_cons_of_mem _ mem)
      rw [List.length_cons, ← Nat.add_assoc, List.cons_append]
      by_cases located : isLocated oldboard board = true
      · rw [moveSubboards_step plain (plain' _ List.mem_cons_self located) located,
          List.filter_cons_of_pos located, changesOf_cons,
          BoardDatabase.renameSubboards_cons, once _ List.mem_cons_self located]
        cases current.renameBoardRow (newSubboard oldboard newboard board) board with
        | none => rfl
        | some next =>
            simp only [Bool.false_and, Bool.false_eq_true, if_false]
            exact ih plainRest onceRest
      · rw [Bool.not_eq_true] at located
        rw [moveSubboards_skip located, List.filter_cons_of_neg (by simp [located])]
        exact ih plainRest onceRest

/-- A move does the changes for all names that the `SELECT` lists at first, if it lists none again. -/
theorem moveSubboards_all (plain : cString oldboard = oldboard) {listed : List String}
    (plain' : ∀ board ∈ listed, isLocated oldboard board = true → cString board = board)
    (once : ∀ board ∈ listed, isLocated oldboard board = true →
      again (newSubboard oldboard newboard board) = false)
    : BoardDatabase.moveSubboards oldboard newboard again (0 + listed.length) listed current
      = some (BoardDatabase.renameSubboards
          (changesOf oldboard newboard (listed.filter (isLocated oldboard))) current) := by
  have whole := congrArg (fun names => BoardDatabase.moveSubboards oldboard newboard again
    (0 + listed.length) names current) (List.append_nil listed)
  refine whole.symm.trans ?_
  rw [moveSubboards_append plain plain' once]
  split
  · rename_i next done
    rw [done]
    rfl
  · rfl

/-- The names that a move has to look at, where a name that it changes may be followed by one that it
passes over.
-/
def movesLeft (oldboard : String) : List String → ℕ
  | [] => 0
  | board :: boards => movesLeft oldboard boards + if isLocated oldboard board then 2 else 1

/-- A name more that is passed over. -/
theorem movesLeft_orderedInsert {board : String} (missing : isLocated oldboard board = false)
    (boards : List String)
    : movesLeft oldboard (boards.orderedInsert (· ≤ ·) board) = movesLeft oldboard boards + 1
      ∧ (boards.orderedInsert (· ≤ ·) board).filter (isLocated oldboard)
        = boards.filter (isLocated oldboard) := by
  induction boards with
  | nil => simp [movesLeft, missing]
  | cons first boards ih =>
      rw [List.orderedInsert_cons]
      split_ifs
      · simp [movesLeft, missing]
      · rw [movesLeft, ih.1, List.filter_cons, ih.2, ← List.filter_cons, movesLeft]
        exact ⟨by omega, rfl⟩

/-- A move does the changes for the names that it lists, if it passes over the names that it lists
again.
-/
theorem moveSubboards_eq (plain : cString oldboard = oldboard) {boards : List String}
    (plain' : ∀ board ∈ boards, isLocated oldboard board = true → cString board = board)
    (once : ∀ board ∈ boards, isLocated oldboard board = true →
      board < newSubboard oldboard newboard board →
        isSubboard oldboard (newSubboard oldboard newboard board) = false)
    (enough : movesLeft oldboard boards ≤ fuel)
    : BoardDatabase.moveSubboards oldboard newboard again fuel boards current
      = some (BoardDatabase.renameSubboards
          (changesOf oldboard newboard (boards.filter (isLocated oldboard))) current) := by
  induction fuel generalizing boards current with
  | zero =>
      cases boards with
      | nil => rfl
      | cons board boards =>
          exfalso
          rw [movesLeft] at enough
          split_ifs at enough <;> omega
  | succ fuel ih =>
      cases boards with
      | nil => rfl
      | cons board boards =>
          have plainRest := fun other mem => plain' other (List.mem_cons_of_mem board mem)
          have onceRest := fun other mem => once other (List.mem_cons_of_mem board mem)
          rw [movesLeft] at enough
          by_cases located : isLocated oldboard board = true
          · rw [if_pos located] at enough
            rw [moveSubboards_step plain (plain' _ List.mem_cons_self located) located,
              List.filter_cons_of_pos located, changesOf_cons,
              BoardDatabase.renameSubboards_cons]
            cases current.renameBoardRow (newSubboard oldboard newboard board) board with
            | none => rfl
            | some next =>
                dsimp only
                split_ifs with listed
                · -- a name that is listed again does not have the old name in it
                  simp only [Bool.and_eq_true, decide_eq_true_eq] at listed
                  have passed := once _ List.mem_cons_self located listed.1.2
                  rw [isSubboard, listed.2, Bool.true_and] at passed
                  obtain ⟨left, same⟩ := movesLeft_orderedInsert passed boards
                  rw [ih ?_ ?_ (by omega), same]
                  · intro other mem here
                    rcases (List.mem_orderedInsert _).mp mem with rfl | mem
                    · rw [passed] at here
                      cases here
                    · exact plainRest other mem here
                  · intro other mem here
                    rcases (List.mem_orderedInsert _).mp mem with rfl | mem
                    · rw [passed] at here
                      cases here
                    · exact onceRest other mem here
                · exact ih plainRest onceRest (by omega)
          · rw [Bool.not_eq_true] at located
            rw [moveSubboards_skip located, List.filter_cons_of_neg (by simp [located])]
            refine ih plainRest onceRest ?_
            split_ifs at enough <;> omega

/-- Changes in two parts. -/
theorem renameSubboards_append {earlier later : List (String × String)}
    : BoardDatabase.renameSubboards (earlier ++ later) current
      = match BoardDatabase.renameSubboards earlier current with
        | (.okay, next) => BoardDatabase.renameSubboards later next
        | outcome => outcome := by
  induction earlier generalizing current with
  | nil => rfl
  | cons change earlier ih =>
      obtain ⟨oldsubboard, newsubboard⟩ := change
      rw [List.cons_append, BoardDatabase.renameSubboards_cons, BoardDatabase.renameSubboards_cons]
      cases current.renameBoardRow newsubboard oldsubboard with
      | none => rfl
      | some next => exact ih

/-- A move that lists the new name of one board again changes it again. -/
theorem moveSubboards_again (plain : cString oldboard = oldboard) {board : String}
    {listed rest : List String}
    (plain' : ∀ other ∈ listed ++ board :: newSubboard oldboard newboard board :: rest,
      isLocated oldboard other = true → cString other = other)
    (located : isLocated oldboard board = true) (here : current.hasBoardWithName board = true)
    (less : board < newSubboard oldboard newboard board)
    (subboard : isSubboard oldboard (newSubboard oldboard newboard board) = true)
    (once : ∀ other ∈ listed ++ newSubboard oldboard newboard board :: rest,
      isLocated oldboard other = true →
        newSubboard oldboard newboard other ≠ newSubboard oldboard newboard board)
    (first : board ∉ listed)
    : ∃ fuel, BoardDatabase.moveSubboards oldboard newboard
        (fun name => name = newSubboard oldboard newboard board) fuel (listed ++ board :: rest) current
      = some (BoardDatabase.renameSubboards (changesOf oldboard newboard
          ((listed ++ board :: rest.orderedInsert (· ≤ ·)
            (newSubboard oldboard newboard board)).filter (isLocated oldboard))) current) := by
  let others := rest.orderedInsert (· ≤ ·) (newSubboard oldboard newboard board)
  have mem_others : ∀ other ∈ others, other ∈ newSubboard oldboard newboard board :: rest :=
    fun other mem => List.mem_cons.mpr ((List.mem_orderedInsert _).mp mem)
  refine ⟨0 + others.length + 1 + listed.length, ?_⟩
  rw [moveSubboards_append plain, List.filter_append, changesOf_append,
    renameSubboards_append]
  · obtain ⟨next, done, -, -, -⟩ | ⟨failed, -⟩ := BoardDatabase.renameSubboards_spec
      (changesOf oldboard newboard (listed.filter (isLocated oldboard))) current
    · have still : next.hasBoardWithName board = true := by
        have kept : (BoardDatabase.renameSubboards (changesOf oldboard newboard
            (listed.filter (isLocated oldboard))) current).2.hasBoardWithName board = true :=
          BoardDatabase.hasBoardWithName_renameSubboards here fun change mem same =>
            first (List.mem_of_mem_filter (same ▸ (mem_changesOf mem).1))
        rwa [done] at kept
      rw [done]
      dsimp only
      rw [moveSubboards_step plain (plain' _ (by simp) located) located,
        List.filter_cons_of_pos located, changesOf_cons, BoardDatabase.renameSubboards_cons]
      cases next.renameBoardRow (newSubboard oldboard newboard board) board with
      | none => rfl
      | some last =>
          have like := (Bool.and_eq_true_iff.mp subboard).1
          dsimp only
          rw [if_pos (by simp [still, less, like]), moveSubboards_all plain]
          · exact fun other mem => plain' other (by simp [List.mem_cons.mp (mem_others other mem)])
          · exact fun other mem here => decide_eq_false
              (once other (List.mem_append_right _ (mem_others other mem)) here)
    · split
      · rename_i same
        rw [same] at failed
        cases failed
      · rfl
  · exact fun other mem => plain' other (List.mem_append_left _ mem)
  · exact fun other mem here => decide_eq_false (once other (List.mem_append_left _ mem) here)

end Lists

section Found

variable {database : BoardDatabase} {oldboard newboard : String} {request : NameRequest}

/-- A board below the board is found. -/
theorem isSubboard_of_below (plain : cString oldboard = oldboard) {board : String}
    (below : IsBelow oldboard board)
    : isSubboard oldboard board = true := by
  obtain ⟨rest, whole⟩ := isBelow_iff.mp below
  have text : (cString board).toList
      = oldboard.toList ++ ('/' :: rest).takeWhile (· ≠ Char.ofNat 0) := by
    have own := (toList_cString oldboard).symm.trans (congrArg String.toList plain)
    rw [toList_cString, whole, List.takeWhile_append, own, if_pos rfl]
  have nonempty : cString board ≠ "" := by
    rintro empty
    rw [empty] at text
    simp at text
  rw [isSubboard, isLikeBoard, plain, text, likeMatches_append, Bool.true_and, isLocated,
    locationOfString_of_prefix plain nonempty ⟨_, text.symm⟩]
  rfl

/-- The boards when the board has its new name. -/
theorem hasBoardWithName_of_renameBoardRow {renamed : BoardDatabase}
    (first : database.renameBoardRow newboard oldboard = some renamed)
    (here : database.hasBoardWithName oldboard = true)
    (free : database.hasBoardWithName newboard = false) (board : String)
    : renamed.hasBoardWithName board = true
      ↔ board = newboard ∨ database.hasBoardWithName board = true ∧ board ≠ oldboard := by
  obtain ⟨row, found⟩ := Option.isSome_iff_exists.mp here
  rw [BoardDatabase.hasBoardWithName, Option.isSome_eq_false_iff, Option.isNone_iff_eq_none] at free
  rw [BoardDatabase.renameBoardRow, database.boards.rekey_of_free found free, Option.map_some,
    Option.some_inj] at first
  rw [← first, BoardDatabase.hasBoardWithName, KeyedTable.row_put, KeyedTable.row_delete]
  split_ifs with new old
  · simp [new]
  · simp [← old, new]
  · simp [old, new, BoardDatabase.hasBoardWithName]

/-- The names that the `SELECT` lists. -/
theorem mem_selectSubboards {board : String}
    : board ∈ database.selectSubboards oldboard
      ↔ database.hasBoardWithName board = true ∧ isLikeBoard oldboard board = true := by
  rw [BoardDatabase.selectSubboards, Finset.mem_sort, Finset.mem_filter, database.boards.mem_keys]
  rfl

/-- The names that the `SELECT` lists are in their order. -/
theorem pairwise_selectSubboards
    : (database.selectSubboards oldboard).Pairwise (· < ·) :=
  (Finset.sortedLT_sort _).pairwise

/-- A list of the boards that are found, in their order. -/
theorem isListing_of_found {boards : List String}
    (plain : request.IsPlain database oldboard newboard)
    (here : database.hasBoardWithName oldboard = true)
    (free : database.hasBoardWithName newboard = false) (sorted : boards.Pairwise (· < ·))
    (mem_iff : ∀ board, board ∈ boards ↔ request.IsFound database oldboard newboard board)
    : IsListing oldboard newboard database boards where
  oldPlain := plain.old
  newPlain board mem := (plain.found board ((mem_iff board).mp mem)).2
  oldHere := here
  newFree := free
  sorted := sorted
  located board mem := by
    have found := (mem_iff board).mp mem
    have located := (Bool.and_eq_true_iff.mp found.1).2
    rwa [isLocated, (plain.found board found).1] at located
  source board mem := ((mem_iff board).mp mem).2.symm.imp_left And.right
  complete board there below :=
    (mem_iff board).mpr ⟨isSubboard_of_below plain.old below, .inl ⟨there, below.ne⟩⟩

/-- The board can be renamed to a name that is free. -/
theorem exists_renameBoardRow (here : database.hasBoardWithName oldboard = true)
    (free : database.hasBoardWithName newboard = false)
    : ∃ renamed, database.renameBoardRow newboard oldboard = some renamed := by
  obtain ⟨row, found⟩ := Option.isSome_iff_exists.mp here
  rw [BoardDatabase.hasBoardWithName, Option.isSome_eq_false_iff, Option.isNone_iff_eq_none] at free
  rw [BoardDatabase.renameBoardRow, database.boards.rekey_of_free found free]
  exact ⟨_, rfl⟩

/-- A rename keeps the boards just when only boards below the board are found, and each of them finds
its new name free.
-/
theorem keepsBoards_renameBoard_iff (plain : NameRequest.renameBoard.IsPlain database oldboard newboard)
    (here : database.hasBoardWithName oldboard = true)
    (free : database.hasBoardWithName newboard = false)
    : KeepsBoards oldboard newboard database (database.renameBoard oldboard newboard)
      ↔ IsCovered oldboard newboard database
        (NameRequest.renameBoard.IsFound database oldboard newboard) := by
  obtain ⟨renamed, first⟩ := exists_renameBoardRow here free
  have boards := hasBoardWithName_of_renameBoardRow first here free
  let listed := (renamed.selectSubboards oldboard).filter fun board =>
    cString board ≠ cString newboard && isLocated oldboard board
  have mem_iff : ∀ board, board ∈ listed
      ↔ NameRequest.renameBoard.IsFound database oldboard newboard board := by
    intro board
    rw [List.mem_filter, mem_selectSubboards, boards, NameRequest.IsFound, isSubboard,
      Bool.and_eq_true, Bool.and_eq_true, decide_eq_true_eq]
    constructor
    · rintro ⟨⟨rfl | there, like⟩, other, located⟩
      · exact absurd rfl other
      · exact ⟨⟨like, located⟩, .inl there⟩
    · rintro ⟨⟨like, located⟩, there | ⟨⟨⟩, -⟩⟩
      have texts := plain.found board ⟨Bool.and_eq_true_iff.mpr ⟨like, located⟩, .inl there⟩
      refine ⟨⟨.inr there, like⟩, ?_, located⟩
      rw [texts.1, texts.2]
      rintro rfl
      have both := there.1.symm.trans free
      cases both
  have listing := isListing_of_found plain here free (pairwise_selectSubboards.filter _) mem_iff
  have changes : BoardDatabase.subboardChanges oldboard newboard (renamed.selectSubboards oldboard)
      = some (changesOf oldboard newboard listed) := by
    refine subboardChanges_eq plain.old fun board mem other located => ?_
    refine (plain.found board ((mem_iff board).mp (List.mem_filter.mpr ⟨mem, ?_⟩))).1
    simp [other, located]
  rw [BoardDatabase.renameBoard, first]
  simp only [changes]
  rw [listing.keepsBoards_iff first, funext fun board => propext (mem_iff board)]

/-- A board that is changed again under its new name is missed under that name. -/
theorem not_keepsBoards_of_twice {renamed : BoardDatabase}
    (first : database.renameBoardRow newboard oldboard = some renamed)
    (here : database.hasBoardWithName oldboard = true)
    (free : database.hasBoardWithName newboard = false) {earlier later : List String}
    {board : String} (boardHere : database.hasBoardWithName board = true)
    (fresh : newboard ∉ earlier ++ renamedBoard oldboard newboard board :: later)
    (again : newSubboard oldboard newboard (renamedBoard oldboard newboard board)
      ≠ renamedBoard oldboard newboard board)
    (once : ∀ other ∈ later,
      newSubboard oldboard newboard other ≠ renamedBoard oldboard newboard board)
    : ¬KeepsBoards oldboard newboard database (BoardDatabase.renameThreads oldboard newboard
        (BoardDatabase.renameSubboards (changesOf oldboard newboard
          (earlier ++ renamedBoard oldboard newboard board :: later)) renamed)) := by
  intro kept
  have boards := hasBoardWithName_of_renameBoardRow first here free
  have newHere : (BoardDatabase.renameSubboards (changesOf oldboard newboard
      (earlier ++ renamedBoard oldboard newboard board :: later)) renamed).2.hasBoardWithName newboard
        = true :=
    BoardDatabase.hasBoardWithName_renameSubboards ((boards newboard).mpr (.inl rfl))
      fun change mem same => fresh (same ▸ (mem_changesOf mem).1)
  obtain ⟨next, done, changed, -, -⟩ | ⟨failed, -⟩ := BoardDatabase.renameSubboards_spec
    (changesOf oldboard newboard (earlier ++ renamedBoard oldboard newboard board :: later)) renamed
  · rw [done] at kept newHere
    by_cases okay : (BoardDatabase.renameThreads oldboard newboard (.okay, next)).1 = .okay
    · rw [changesOf_append, changesOf_cons] at changed
      have missing := KeyedTable.row_rekeyAll_changed changed again.symm (by
        intro change mem
        obtain ⟨other, listed, rfl⟩ := List.mem_map.mp mem
        exact once other listed)
      have expected := (kept.renamed okay).boards.row_label boardHere
      have both := expected.symm.trans missing
      rw [BoardDatabase.hasBoardWithName, both] at boardHere
      cases boardHere
    · have same := congrArg (·.hasBoardWithName newboard) (kept.unchanged okay)
      have both := newHere.symm.trans (same.trans free)
      cases both
  · cases outcome : BoardDatabase.renameSubboards (changesOf oldboard newboard
        (earlier ++ renamedBoard oldboard newboard board :: later)) renamed with
    | mk reply last =>
        rw [outcome] at kept newHere failed
        obtain rfl : reply = .internalError := failed
        have same := congrArg (·.hasBoardWithName newboard) (kept.unchanged fun okay => by cases okay)
        have both := newHere.symm.trans (same.trans free)
        cases both

/-- A move that lists a board again under its new name does not keep the boards. -/
theorem once_of_keepsBoards (plain : NameRequest.moveBoard.IsPlain database oldboard newboard)
    {renamed : BoardDatabase} (first : database.renameBoardRow newboard oldboard = some renamed)
    (here : database.hasBoardWithName oldboard = true)
    (free : database.hasBoardWithName newboard = false) {listed rest : List String} {board : String}
    (names : renamed.selectSubboards oldboard = listed ++ board :: rest)
    (covered : IsCovered oldboard newboard database
      (NameRequest.moveBoard.IsFound database oldboard newboard))
    (found : NameRequest.moveBoard.IsFound database oldboard newboard board)
    (less : board < renamedBoard oldboard newboard board)
    (keeps : ∀ again, ∃ fuel outcome,
      database.moveBoard oldboard newboard again fuel = some outcome
        ∧ KeepsBoards oldboard newboard database outcome)
    : isSubboard oldboard (renamedBoard oldboard newboard board) = false := by
  have texts := plain.found board found
  have located := (Bool.and_eq_true_iff.mp found.1).2
  have target : newSubboard oldboard newboard board = renamedBoard oldboard newboard board :=
    newSubboard_of_below plain.old texts.2 (covered.below board found).2
  by_contra again
  rw [Bool.not_eq_false, ← target] at again
  have located' := (Bool.and_eq_true_iff.mp again).2
  have boards := hasBoardWithName_of_renameBoardRow first here free
  have sorted : (listed ++ board :: rest).Pairwise (· < ·) := names ▸ pairwise_selectSubboards
  have foundOf : ∀ other ∈ listed ++ board :: rest, isLocated oldboard other = true →
      NameRequest.moveBoard.IsFound database oldboard newboard other := by
    intro other mem located
    rw [← names, mem_selectSubboards, boards] at mem
    exact ⟨Bool.and_eq_true_iff.mpr ⟨mem.2, located⟩, mem.1.symm.imp_right fun same => ⟨rfl, same⟩⟩
  have apart : ∀ other ∈ listed ++ rest, other ≠ board := by
    have halves := List.pairwise_append.mp sorted
    rintro other mem rfl
    rcases List.mem_append.mp mem with mem | mem
    · exact lt_irrefl _ (halves.2.2 _ mem _ List.mem_cons_self)
    · exact lt_irrefl _ ((List.pairwise_cons.mp halves.2.1).1 _ mem)
  have foundRest : ∀ other ∈ listed ++ rest, isLocated oldboard other = true →
      NameRequest.moveBoard.IsFound database oldboard newboard other := fun other mem =>
    foundOf other (by
      rcases List.mem_append.mp mem with mem | mem <;> simp [mem])
  have differ : oldboard ≠ newboard := by
    rintro rfl
    have both := here.symm.trans free
    cases both
  have texts' := cString_newSubboard newboard plain.old texts.1 (by
    rwa [isLocated, texts.1] at located)
  -- no other name is changed to the new name of the board
  have once : ∀ other ∈ listed ++ newSubboard oldboard newboard board :: rest,
      isLocated oldboard other = true →
        newSubboard oldboard newboard other ≠ newSubboard oldboard newboard board := by
    intro other mem located
    by_cases same : other = newSubboard oldboard newboard board
    · rw [same]
      refine newSubboard_ne plain.old texts.2 differ ?_
      rwa [isLocated, texts'] at located'
    · have mem : other ∈ listed ++ rest := by
        rw [List.mem_append, List.mem_cons] at mem
        exact List.mem_append.mpr (mem.imp_right fun mem => mem.resolve_left same)
      have found' := foundRest other mem located
      have below := (covered.below other found').2
      rw [newSubboard_of_below plain.old texts.2 below, target]
      exact fun equal => apart other mem
        (renamedBoard_injective below (covered.below board found).2 equal)
  have plain' : ∀ other ∈ listed ++ board :: newSubboard oldboard newboard board :: rest,
      isLocated oldboard other = true → cString other = other := by
    intro other mem located
    by_cases same : other = newSubboard oldboard newboard board
    · rw [same]
      exact texts'
    · refine (plain.found other (foundOf other ?_ located)).1
      simp only [List.mem_append, List.mem_cons] at mem ⊢
      exact mem.imp_right fun mem => mem.imp_right fun mem => mem.resolve_left same
  have boardHere := found.2.resolve_right fun new => (covered.below board found).1 new.2
  obtain ⟨more, whole⟩ := moveSubboards_again plain.old plain' located
    ((boards board).mpr (.inr boardHere)) (target ▸ less) again once fun mem =>
      apart board (List.mem_append_left _ mem) rfl
  obtain ⟨fuel, outcome, done, kept⟩ := keeps fun name =>
    name = newSubboard oldboard newboard board
  simp only [BoardDatabase.moveBoard, first, names] at done
  obtain ⟨changed, moved, rfl⟩ := Option.map_eq_some_iff.mp done
  obtain rfl := moveSubboards_unique moved whole
  have mem_again : ∀ other ∈ rest.orderedInsert (· ≤ ·) (newSubboard oldboard newboard board),
      other ∈ newSubboard oldboard newboard board :: rest :=
    fun other mem => List.mem_cons.mpr ((List.mem_orderedInsert _).mp mem)
  obtain ⟨start, last, split⟩ := List.append_of_mem
    ((List.mem_orderedInsert (· ≤ ·)).mpr (Or.inl (Eq.refl (newSubboard oldboard newboard board)))
      : newSubboard oldboard newboard board
        ∈ rest.orderedInsert (· ≤ ·) (newSubboard oldboard newboard board))
  rw [split] at mem_again kept
  have later : ∀ other ∈ last, other ∈ listed ++ newSubboard oldboard newboard board :: rest :=
    fun other mem => List.mem_append_right _ (mem_again other (by simp [mem]))
  rw [← List.cons_append, ← List.append_assoc, List.filter_append,
    List.filter_cons_of_pos located', target] at kept
  rw [target] at once later
  refine not_keepsBoards_of_twice first here free boardHere.1 ?_
    (once _ (List.mem_append_right _ List.mem_cons_self) (target ▸ located')) ?_ kept
  · rw [← List.filter_cons_of_pos (target ▸ located'), ← List.filter_append]
    intro mem
    obtain ⟨mem, located⟩ := List.mem_filter.mp mem
    rw [List.append_assoc, List.cons_append, List.mem_append, List.mem_cons] at mem
    have fresh : newboard ≠ newSubboard oldboard newboard board := by
      rw [target]
      exact (renamedBoard_ne_new (covered.below board found).2).symm
    refine (covered.below newboard (foundOf newboard ?_ located)).1 rfl
    rw [List.mem_append, List.mem_cons]
    refine mem.imp_right fun mem => mem.imp_right fun mem => ?_
    exact (List.mem_cons.mp (mem_again newboard (target ▸ mem))).resolve_left fresh
  · intro other mem
    obtain ⟨mem, located⟩ := List.mem_filter.mp mem
    exact once other (later other mem) located

/-- A move keeps the boards just when only boards below the board are found, each of them finds its new
name free, and none is found again under its new name.
-/
theorem keepsBoards_moveBoard_iff (plain : NameRequest.moveBoard.IsPlain database oldboard newboard)
    (here : database.hasBoardWithName oldboard = true)
    (free : database.hasBoardWithName newboard = false)
    : (∀ again, ∃ fuel outcome, database.moveBoard oldboard newboard again fuel = some outcome
        ∧ KeepsBoards oldboard newboard database outcome)
      ↔ NameRequest.moveBoard.KeepsOthers database oldboard newboard := by
  obtain ⟨renamed, first⟩ := exists_renameBoardRow here free
  have boards := hasBoardWithName_of_renameBoardRow first here free
  let listed := (renamed.selectSubboards oldboard).filter (isLocated oldboard)
  have mem_iff : ∀ board, board ∈ listed
      ↔ NameRequest.moveBoard.IsFound database oldboard newboard board := by
    intro board
    rw [List.mem_filter, mem_selectSubboards, boards, NameRequest.IsFound, isSubboard,
      Bool.and_eq_true]
    constructor
    · rintro ⟨⟨there, like⟩, located⟩
      exact ⟨⟨like, located⟩, there.symm.imp_right fun same => ⟨rfl, same⟩⟩
    · rintro ⟨⟨like, located⟩, there⟩
      exact ⟨⟨there.symm.imp_left And.right, like⟩, located⟩
  have listing := isListing_of_found plain here free (pairwise_selectSubboards.filter _) mem_iff
  have plainNames : ∀ board ∈ renamed.selectSubboards oldboard,
      isLocated oldboard board = true → cString board = board := fun board mem located =>
    (plain.found board ((mem_iff board).mp (List.mem_filter.mpr ⟨mem, located⟩))).1
  have keeps := listing.keepsBoards_iff first
  rw [funext fun board => propext (mem_iff board)] at keeps
  constructor
  · intro always
    have covered : IsCovered oldboard newboard database
        (NameRequest.moveBoard.IsFound database oldboard newboard) := by
      -- when no name is listed again, the changes are those of the list
      obtain ⟨fuel, outcome, done, kept⟩ := always fun _ => false
      simp only [BoardDatabase.moveBoard, first] at done
      obtain ⟨changed, moved, rfl⟩ := Option.map_eq_some_iff.mp done
      have whole : BoardDatabase.moveSubboards oldboard newboard (fun _ => false) _ _ renamed = _ :=
        moveSubboards_all plain.old plainNames fun _ _ _ => rfl
      obtain rfl := moveSubboards_unique moved whole
      exact keeps.mp kept
    refine ⟨covered, fun _ board found less => ?_⟩
    have mem := (List.mem_filter.mp ((mem_iff board).mpr found)).1
    obtain ⟨before, after, names⟩ := List.append_of_mem mem
    exact once_of_keepsBoards plain first here free names covered found less always
  · intro others again
    refine ⟨movesLeft oldboard (renamed.selectSubboards oldboard), _, ?_,
      keeps.mpr others.covered⟩
    rw [BoardDatabase.moveBoard, first]
    dsimp only
    rw [moveSubboards_eq plain.old plainNames ?_ le_rfl]
    · rfl
    · intro board mem located less
      have found := (mem_iff board).mp (List.mem_filter.mpr ⟨mem, located⟩)
      have same := newSubboard_of_below plain.old (plain.found board found).2
        (others.covered.below board found).2
      rw [same] at less ⊢
      exact others.once rfl board found less

end Found

section Result

variable {database : BoardDatabase} {user : BoardUser} {home : Option (List Char)}
  {oldboard newboard : String} {request : NameRequest}

/-- A request that is accepted changes the boards. -/
theorem handle_of_isAccepted
    (accepted : request.IsAccepted database user home oldboard newboard) (again : String → Bool)
    (fuel : ℕ)
    : request.handle database user home oldboard newboard again fuel
      = match request with
        | .renameBoard => some (database.renameBoard oldboard newboard)
        | .moveBoard => database.moveBoard oldboard newboard again fuel := by
  cases request with
  | renameBoard =>
      obtain ⟨permitted, here, free, parent, oldparent, newparent⟩ := accepted
      simp [NameRequest.handle, BoardDatabase.handleRenameBoard, permitted, here, free, oldparent,
        newparent]
  | moveBoard =>
      obtain ⟨permitted, here, free⟩ := accepted
      simp [NameRequest.handle, BoardDatabase.handleMoveBoard, permitted, here, free]

/-- A request that is not accepted changes nothing. -/
theorem handle_of_not_isAccepted
    (refused : ¬request.IsAccepted database user home oldboard newboard) (again : String → Bool)
    (fuel : ℕ)
    : ∃ reply, reply ≠ .okay
      ∧ request.handle database user home oldboard newboard again fuel = some (reply, database) := by
  cases request with
  | renameBoard =>
      simp only [NameRequest.IsAccepted] at refused
      simp only [NameRequest.handle, BoardDatabase.handleRenameBoard, Option.some_inj]
      split_ifs with permitted here free
      · exact ⟨_, by decide, rfl⟩
      · exact ⟨_, by decide, rfl⟩
      · exact ⟨_, by decide, rfl⟩
      · split
        · exact ⟨_, by decide, rfl⟩
        · exact ⟨_, by decide, rfl⟩
        · rename_i oldparent newparent oldsame newsame
          split_ifs with differ
          · exact ⟨_, by decide, rfl⟩
          · refine absurd ⟨?_, ?_, ?_, oldparent, oldsame, ?_⟩ refused
            · simpa using permitted
            · simpa using here
            · simpa using free
            · rw [newsame, not_not.mp differ]
  | moveBoard =>
      simp only [NameRequest.IsAccepted] at refused
      simp only [NameRequest.handle, BoardDatabase.handleMoveBoard]
      split_ifs with permitted here free
      · exact ⟨_, by decide, rfl⟩
      · exact ⟨_, by decide, rfl⟩
      · exact ⟨_, by decide, rfl⟩
      · refine absurd ⟨?_, ?_, ?_⟩ refused
        · simpa using permitted
        · simpa using here
        · simpa using free

/-- What a request does that finds only what it should. -/
theorem keepsBoards_of_keepsOthers
    (accepted : request.IsAccepted database user home oldboard newboard)
    (plain : request.IsPlain database oldboard newboard)
    (others : request.KeepsOthers database oldboard newboard) {again : String → Bool} {fuel : ℕ}
    {outcome : BoardReply × BoardDatabase}
    (done : request.handle database user home oldboard newboard again fuel = some outcome)
    : KeepsBoards oldboard newboard database outcome := by
  cases request with
  | renameBoard =>
      obtain rfl := Option.some.inj ((handle_of_isAccepted accepted again fuel).symm.trans done)
      obtain ⟨-, here, free, -⟩ := accepted
      exact (keepsBoards_renameBoard_iff plain here free).mpr others.covered
  | moveBoard =>
      obtain ⟨renamed, first⟩ := exists_renameBoardRow accepted.2.1 accepted.2.2
      obtain ⟨more, other, done', kept⟩ :=
        (keepsBoards_moveBoard_iff plain accepted.2.1 accepted.2.2).mpr others again
      have handled := (handle_of_isAccepted accepted again fuel).symm.trans done
      simp only [BoardDatabase.moveBoard, first] at handled done'
      obtain ⟨changed, moved, rfl⟩ := Option.map_eq_some_iff.mp handled
      obtain ⟨changed', moved', rfl⟩ := Option.map_eq_some_iff.mp done'
      rwa [moveSubboards_unique moved moved']

end Result

section Siblings

/-- The board `a` and a board that is not below it. -/
def siblingBoards : BoardDatabase where
  boards := (KeyedTable.empty.put "a" { owner := "admin", group := "", mode := 384 }).put
    "ab" { owner := "admin", group := "", mode := 384 }
  threads := .empty
  posts := .empty

/-- A user who may rename boards. -/
def renamingUser : BoardUser where
  login := "admin"
  nick := "admin"
  ip := ""
  icon := []
  account := (Account.empty.set .name "admin").set .boardRenameBoards true

/-- The boards of `siblingBoards`. -/
theorem hasBoardWithName_siblingBoards {board : String}
    (here : siblingBoards.hasBoardWithName board = true)
    : board = "ab" ∨ board = "a" := by
  simp only [BoardDatabase.hasBoardWithName, siblingBoards, KeyedTable.row_put] at here
  split_ifs at here with first second
  · exact .inl first
  · exact .inr second
  · cases here

end Siblings

end WiredServer.Server
