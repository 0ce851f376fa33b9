import WiredServer.Lib.Relabelling
import WiredServer.Server.BoardNames

/-! When a request that renames or moves a board changes just the names of the board and of the boards
below it, and leaves everything as it was if it fails.
-/

namespace WiredServer.Server

section Purpose

variable (oldboard newboard : String)

/-- A board is below another. -/
def IsBelow (board : String) : Prop :=
  oldboard.toList ++ ['/'] <+: board.toList

instance (board : String) : Decidable (IsBelow oldboard board) :=
  inferInstanceAs (Decidable (_ <+: _))

/-- The name of a board after its rename, or that of a board above it. -/
def renamedBoard (board : String) : String :=
  if board = oldboard then newboard
  else if IsBelow oldboard board then
    String.ofList (newboard.toList ++ board.toList.drop oldboard.toList.length)
  else board

/-- The board and the boards below it have their new names, and the threads are still in their boards.
-/
structure IsRenamed (before after : BoardDatabase) : Prop where
  boards : before.boards.IsRelabelled (renamedBoard oldboard newboard) after.boards
  threads : after.threads = before.threads.mapRows fun _ row =>
    if before.hasBoardWithName row.board then
      { row with board := renamedBoard oldboard newboard row.board }
    else row
  posts : after.posts = before.posts

/-- A request that succeeds renames the boards, and one that fails changes nothing. -/
structure KeepsBoards (before : BoardDatabase) (outcome : BoardReply × BoardDatabase) : Prop where
  renamed : outcome.1 = .okay → IsRenamed oldboard newboard before outcome.2
  unchanged : outcome.1 ≠ .okay → outcome.2 = before

end Purpose

section Names

variable {oldboard newboard board other : String}

/-- A board below another has the name of the other, a slash and more for its name. -/
theorem isBelow_iff
    : IsBelow oldboard board ↔ ∃ rest, board.toList = oldboard.toList ++ '/' :: rest := by
  constructor
  · rintro ⟨rest, same⟩
    exact ⟨rest, by rw [← same, List.append_assoc, List.singleton_append]⟩
  · rintro ⟨rest, same⟩
    exact ⟨rest, by rw [same, List.append_assoc, List.singleton_append]⟩

/-- No board is below itself. -/
theorem IsBelow.ne (below : IsBelow oldboard board)
    : board ≠ oldboard := by
  rintro rfl
  have longer := below.length_le
  simp at longer

/-- The board itself gets the new name. -/
theorem renamedBoard_self
    : renamedBoard oldboard newboard oldboard = newboard :=
  if_pos rfl

/-- A board below gets the new name in place of the old one. -/
theorem toList_renamedBoard (below : IsBelow oldboard board)
    : (renamedBoard oldboard newboard board).toList
      = newboard.toList ++ board.toList.drop oldboard.toList.length := by
  rw [renamedBoard, if_neg below.ne, if_pos below, String.toList_ofList]

/-- Other boards keep their names. -/
theorem renamedBoard_of_not (other : board ≠ oldboard) (apart : ¬IsBelow oldboard board)
    : renamedBoard oldboard newboard board = board := by
  rw [renamedBoard, if_neg other, if_neg apart]

/-- Two boards below do not get the same name. -/
theorem renamedBoard_injective (below : IsBelow oldboard board)
    (below' : IsBelow oldboard other)
    (same : renamedBoard oldboard newboard board = renamedBoard oldboard newboard other)
    : board = other := by
  obtain ⟨rest, first⟩ := isBelow_iff.mp below
  obtain ⟨rest', second⟩ := isBelow_iff.mp below'
  have lists := congrArg String.toList same
  rw [toList_renamedBoard below, toList_renamedBoard below', List.append_cancel_left_eq, first,
    second, List.drop_left, List.drop_left] at lists
  rw [← String.toList_inj, first, second, lists]

/-- A board below does not get the name of the board itself. -/
theorem renamedBoard_ne_new (below : IsBelow oldboard board)
    : renamedBoard oldboard newboard board ≠ newboard := by
  intro same
  obtain ⟨rest, first⟩ := isBelow_iff.mp below
  have lists := congrArg String.toList same
  rw [toList_renamedBoard below, first, List.drop_left, List.append_right_eq_self] at lists
  cases lists

end Names

section Matching

variable {oldboard newboard board : String}

/-- Every text that goes on after another matches it and `%`. -/
theorem likeMatches_append (text rest : List Char)
    : likeMatches (text ++ ['%']) (text ++ rest) = true := by
  induction text with
  | nil =>
      refine List.any_eq_true.mpr ⟨[], ?_, rfl⟩
      exact (List.mem_tails _ _).mpr List.nil_suffix
  | cons char text ih =>
      by_cases wild : char = '%'
      · subst wild
        exact List.any_eq_true.mpr ⟨text ++ rest, (List.mem_tails _ _).mpr (List.suffix_cons _ _), ih⟩
      · rw [List.cons_append, List.cons_append, likeMatches, ih]
        · simp
        · exact wild

/-- Where a text starts with another, this is where the other is found. -/
theorem locationOfString_of_prefix (plain : cString oldboard = oldboard) (nonempty : board ≠ "")
    (starts : oldboard.toList <+: board.toList)
    : locationOfString board oldboard = some 0 := by
  rw [locationOfString, if_neg nonempty, plain]
  cases parts : board.toList with
  | nil => exact absurd (String.toList_eq_nil_iff.mp parts) nonempty
  | cons char text =>
      rw [parts] at starts
      rw [List.tails, List.findIdx?_cons, List.isPrefixOf_iff_prefix.mpr starts]
      rfl

/-- What is found is in the text. -/
theorem split_of_locationOfString (plain : cString oldboard = oldboard) {location : ℕ}
    (found : locationOfString board oldboard = some location)
    : board.toList = board.toList.take location ++ oldboard.toList
        ++ board.toList.drop (location + oldboard.toList.length)
      ∧ location + oldboard.toList.length ≤ board.toList.length := by
  rw [locationOfString, plain] at found
  split_ifs at found
  obtain ⟨inside, starts, -⟩ := List.findIdx?_eq_some_iff_getElem.mp found
  rw [List.getElem_tails, List.isPrefixOf_iff_prefix] at starts
  obtain ⟨rest, same⟩ := starts
  have whole := List.take_append_drop location board.toList
  have fits : location ≤ board.toList.length := by
    rw [List.length_tails] at inside
    omega
  have tail : board.toList.drop (location + oldboard.toList.length) = rest := by
    rw [← List.drop_drop, ← same, List.drop_left]
  constructor
  · rw [tail, List.append_assoc, same, whole]
  · have length := congrArg List.length same
    rw [List.length_append, List.length_drop] at length
    omega

end Matching

section NewNames

variable (oldboard newboard : String)

/-- The name that a board gets for which the old name is found in its name. -/
def newSubboard (board : String) : String :=
  match locationOfString board oldboard with
  | none => board
  | some location =>
      String.ofList (board.toList.take location ++ (cString newboard).toList
        ++ board.toList.drop (location + oldboard.toList.length))

variable {oldboard newboard} {board : String}

variable (newboard) in
/-- The range that is replaced is in the name. -/
theorem byReplacingCharactersInRange_of_locationOfString (plain : cString oldboard = oldboard)
    {location : ℕ} (found : locationOfString board oldboard = some location)
    : byReplacingCharactersInRange board location oldboard.toList.length newboard
      = some (newSubboard oldboard newboard board) := by
  rw [byReplacingCharactersInRange, if_pos (split_of_locationOfString plain found).2, newSubboard,
    found]

variable (newboard) in
/-- The characters around the name that is replaced. -/
theorem exists_toList_newSubboard (plain : cString oldboard = oldboard)
    (found : (locationOfString board oldboard).isSome = true)
    : ∃ before after, board.toList = before ++ oldboard.toList ++ after
      ∧ (newSubboard oldboard newboard board).toList
        = before ++ (cString newboard).toList ++ after := by
  obtain ⟨location, here⟩ := Option.isSome_iff_exists.mp found
  refine ⟨_, _, (split_of_locationOfString plain here).1, ?_⟩
  rw [newSubboard, here, String.toList_ofList]

/-- A board gets another name than it has. -/
theorem newSubboard_ne (plain : cString oldboard = oldboard) (plain' : cString newboard = newboard)
    (differ : oldboard ≠ newboard) (found : (locationOfString board oldboard).isSome = true)
    : newSubboard oldboard newboard board ≠ board := by
  intro same
  obtain ⟨before, after, whole, changed⟩ :=
    exists_toList_newSubboard newboard plain found
  rw [same, whole, plain', List.append_cancel_right_eq, List.append_cancel_left_eq,
    String.toList_inj] at changed
  exact differ changed

variable (newboard) in
/-- A name without NUL gets no NUL. -/
theorem cString_newSubboard (plain : cString oldboard = oldboard) (plain' : cString board = board)
    (found : (locationOfString board oldboard).isSome = true)
    : cString (newSubboard oldboard newboard board) = newSubboard oldboard newboard board := by
  obtain ⟨before, after, whole, changed⟩ :=
    exists_toList_newSubboard newboard plain found
  rw [cString_eq_self_iff] at plain' ⊢
  rw [whole] at plain'
  rw [changed, List.mem_append, List.mem_append, not_or, not_or]
  have inside : Char.ofNat 0 ∉ (cString newboard).toList :=
    (cString_eq_self_iff _).mp (cString_cString newboard)
  simp only [List.mem_append, not_or] at plain'
  exact ⟨⟨plain'.1.1, inside⟩, plain'.2⟩

/-- A board below gets the name that it should have. -/
theorem newSubboard_of_below (plain : cString oldboard = oldboard)
    (plain' : cString newboard = newboard) (below : IsBelow oldboard board)
    : newSubboard oldboard newboard board = renamedBoard oldboard newboard board := by
  obtain ⟨rest, whole⟩ := isBelow_iff.mp below
  have nonempty : board ≠ "" := by
    rintro rfl
    simp at whole
  have found := locationOfString_of_prefix plain nonempty ⟨_, whole.symm⟩
  rw [← String.toList_inj, toList_renamedBoard below, newSubboard, found, plain']
  simp

end NewNames

section Changes

variable {changes : List (String × String)} {current : BoardDatabase} {board : String}

namespace BoardDatabase

/-- The loop over changes does one change after another. A change that would change nothing is left
out.
-/
theorem renameSubboards_cons (oldsubboard newsubboard : String)
    : renameSubboards ((oldsubboard, newsubboard) :: changes) current
      = match current.renameBoardRow newsubboard oldsubboard with
        | none => (.internalError, current)
        | some next =>
            renameSubboards changes (next.renameBoardOfThreads newsubboard oldsubboard) := by
  rw [renameSubboards]
  split_ifs with same
  · subst same
    have threads : current.renameBoardOfThreads oldsubboard oldsubboard = current := by
      refine BoardDatabase.ext rfl ?_ rfl
      refine (KeyedTable.mapRows_eq_self_iff _ _).mpr fun _ row _ => ?_
      split_ifs with same
      · rw [← same]
      · rfl
    have boards : current.renameBoardRow oldsubboard oldsubboard = some current := by
      rw [renameBoardRow, KeyedTable.rekey_self, Option.map_some]
    rw [boards]
    simp only [threads]
  · rfl

/-- What a change of a name that succeeds leaves. -/
theorem renameBoardRow_eq_some_iff {newsubboard oldsubboard : String} {next : BoardDatabase}
    : current.renameBoardRow newsubboard oldsubboard = some next
      ↔ current.boards.rekey oldsubboard newsubboard = some next.boards
        ∧ next.threads = current.threads ∧ next.posts = current.posts := by
  rw [renameBoardRow, Option.map_eq_some_iff]
  constructor
  · rintro ⟨boards, changed, rfl⟩
    exact ⟨changed, rfl, rfl⟩
  · rintro ⟨changed, threads, posts⟩
    exact ⟨next.boards, changed, BoardDatabase.ext rfl threads.symm posts.symm⟩

/-- The changes of names succeed just when the keys of the boards can be changed, and then take the
threads along.
-/
theorem renameSubboards_spec (changes : List (String × String)) (current : BoardDatabase)
    : (∃ next, renameSubboards changes current = (.okay, next)
        ∧ KeyedTable.rekeyAll changes current.boards = some next.boards
        ∧ next.threads = current.threads.mapRows
          (fun _ row => { row with board := followChanges changes row.board })
        ∧ next.posts = current.posts)
      ∨ (renameSubboards changes current).1 = .internalError
        ∧ KeyedTable.rekeyAll changes current.boards = none := by
  induction changes generalizing current with
  | nil =>
      refine .inl ⟨current, rfl, rfl, ?_, rfl⟩
      exact ((KeyedTable.mapRows_eq_self_iff _ _).mpr fun _ _ _ => rfl).symm
  | cons change changes ih =>
      obtain ⟨oldsubboard, newsubboard⟩ := change
      rw [renameSubboards_cons, KeyedTable.rekeyAll]
      cases changed : current.renameBoardRow newsubboard oldsubboard with
      | none =>
          rw [renameBoardRow, Option.map_eq_none_iff] at changed
          exact .inr ⟨rfl, by rw [changed, Option.bind_none]⟩
      | some renamed =>
          obtain ⟨boards, threads, posts⟩ := renameBoardRow_eq_some_iff.mp changed
          rw [boards, Option.bind_some]
          obtain ⟨next, done, rest, moved, same⟩ | failed :=
            ih (renamed.renameBoardOfThreads newsubboard oldsubboard)
          · refine .inl ⟨next, done, rest, ?_, same.trans posts⟩
            rw [moved, renameBoardOfThreads, threads]
            ext1 thread
            simp only [KeyedTable.row_mapRows, Option.map_map]
            refine congrArg (Option.map · _) (funext fun row => ?_)
            simp only [Function.comp_apply, followChanges]
            split_ifs with same <;> rfl
          · exact .inr failed

/-- The total length of the names of the boards. -/
def totalLength (current : BoardDatabase) : ℕ :=
  ∑ board ∈ current.boards.keys, board.toList.length

/-- The names do not get shorter in total if no change makes one shorter. -/
theorem totalLength_renameSubboards
    (longer : ∀ change ∈ changes, change.1.toList.length ≤ change.2.toList.length)
    : current.totalLength ≤ (renameSubboards changes current).2.totalLength := by
  induction changes generalizing current with
  | nil => exact le_rfl
  | cons change changes ih =>
      obtain ⟨oldsubboard, newsubboard⟩ := change
      rw [renameSubboards_cons]
      cases changed : current.renameBoardRow newsubboard oldsubboard with
      | none => exact le_rfl
      | some renamed =>
          obtain ⟨boards, -, -⟩ := renameBoardRow_eq_some_iff.mp changed
          have first := KeyedTable.sum_keys_rekey_le (fun board => board.toList.length) boards
            (longer _ List.mem_cons_self)
          have rest : (renamed.renameBoardOfThreads newsubboard oldsubboard).totalLength ≤ _ :=
            ih fun change mem => longer change (List.mem_cons_of_mem _ mem)
          exact first.trans rest

/-- A board whose name is never changed is there after the loop. -/
theorem hasBoardWithName_renameSubboards (here : current.hasBoardWithName board = true)
    (other : ∀ change ∈ changes, change.1 ≠ board)
    : (renameSubboards changes current).2.hasBoardWithName board = true := by
  induction changes generalizing current with
  | nil => exact here
  | cons change changes ih =>
      obtain ⟨oldsubboard, newsubboard⟩ := change
      rw [renameSubboards_cons]
      cases changed : current.renameBoardRow newsubboard oldsubboard with
      | none => exact here
      | some renamed =>
          refine ih ?_ fun change mem => other change (List.mem_cons_of_mem _ mem)
          obtain ⟨boards, -, -⟩ := renameBoardRow_eq_some_iff.mp changed
          have same := KeyedTable.row_rekey_of_ne boards here (other _ List.mem_cons_self).symm
          rw [hasBoardWithName, renameBoardOfThreads, same]
          exact here

end BoardDatabase

end Changes

section Listing

variable (oldboard newboard : String) (before : BoardDatabase) (boards : List String)

/-- The boards whose names are changed after that of the board itself, in their order: what the code
lists, which has all boards below the board.
-/
structure IsListing : Prop where
  oldPlain : cString oldboard = oldboard
  newPlain : ∀ board ∈ boards, cString newboard = newboard
  oldHere : before.hasBoardWithName oldboard = true
  newFree : before.hasBoardWithName newboard = false
  sorted : boards.Pairwise (· < ·)
  located : ∀ board ∈ boards, (locationOfString board oldboard).isSome = true
  source : ∀ board ∈ boards, board = newboard
    ∨ before.hasBoardWithName board = true ∧ board ≠ oldboard
  complete : ∀ board, before.hasBoardWithName board = true → IsBelow oldboard board →
    board ∈ boards

variable (found : String → Prop) in
/-- Only boards below the board are found. A board whose name one of them gets is found before it, or
is the board itself and the other has no threads.
-/
structure IsCovered : Prop where
  below : ∀ board, found board → board ≠ newboard ∧ IsBelow oldboard board
  free : ∀ board, found board →
    before.hasBoardWithName (renamedBoard oldboard newboard board) = true →
    renamedBoard oldboard newboard board = oldboard
      ∨ found (renamedBoard oldboard newboard board)
        ∧ renamedBoard oldboard newboard board < board
  threads : ∀ thread, ∀ row ∈ before.threads.row thread, found row.board →
    renamedBoard oldboard newboard row.board ≠ oldboard

/-- The changes for listed boards. -/
def changesOf : List (String × String) :=
  boards.map fun board => (board, newSubboard oldboard newboard board)

variable {oldboard newboard before boards}

/-- Changes for boards in two parts. -/
theorem changesOf_append (earlier later : List String)
    : changesOf oldboard newboard (earlier ++ later)
      = changesOf oldboard newboard earlier ++ changesOf oldboard newboard later :=
  List.map_append

/-- The change for the first board, and those that follow. -/
theorem changesOf_cons (board : String) (later : List String)
    : changesOf oldboard newboard (board :: later)
      = (board, newSubboard oldboard newboard board) :: changesOf oldboard newboard later :=
  rfl

/-- What a change for a listed board changes. -/
theorem mem_changesOf {change : String × String}
    (mem : change ∈ changesOf oldboard newboard boards)
    : change.1 ∈ boards ∧ change.2 = newSubboard oldboard newboard change.1 := by
  obtain ⟨board, listed, rfl⟩ := List.mem_map.mp mem
  exact ⟨listed, rfl⟩

/-- The old names of changes for listed boards. -/
theorem map_fst_changesOf
    : (changesOf oldboard newboard boards).map Prod.fst = boards := by
  rw [changesOf, List.map_map]
  exact List.map_id boards

namespace IsListing

variable (listing : IsListing oldboard newboard before boards)

include listing

/-- The board gets another name. -/
theorem differ
    : oldboard ≠ newboard := by
  rintro rfl
  have both := listing.oldHere.symm.trans listing.newFree
  cases both

/-- The board itself is not listed. -/
theorem old_notMem
    : oldboard ∉ boards := by
  intro mem
  rcases listing.source _ mem with same | ⟨-, other⟩
  · exact listing.differ same
  · exact other rfl

/-- A listed board below the board gets the name that it should have. -/
theorem newSubboard_eq {board : String} (mem : board ∈ boards) (below : IsBelow oldboard board)
    : newSubboard oldboard newboard board = renamedBoard oldboard newboard board :=
  newSubboard_of_below listing.oldPlain (listing.newPlain board mem) below

/-- The name of a board that is not listed stays, if all boards below the board are listed. -/
theorem renamedBoard_eq {board : String} (here : before.hasBoardWithName board = true)
    (other : board ≠ oldboard) (unlisted : board ∉ boards)
    : renamedBoard oldboard newboard board = board :=
  renamedBoard_of_not other fun below => unlisted (listing.complete board here below)

/-- All changes succeed if only boards below the board are listed. -/
theorem exists_rekeyAll (covered : IsCovered oldboard newboard before (· ∈ boards))
    : ∃ next, KeyedTable.rekeyAll ((oldboard, newboard) :: changesOf oldboard newboard boards)
        before.boards = some next := by
  have targets : (changesOf oldboard newboard boards).map Prod.snd
      = boards.map (renamedBoard oldboard newboard) := by
    rw [changesOf, List.map_map]
    exact List.map_congr_left fun board mem => listing.newSubboard_eq mem (covered.below _ mem).2
  have distinct : boards.Nodup := listing.sorted.imp fun less => less.ne
  refine KeyedTable.exists_rekeyAll ?_ ?_ ?_
  · rw [List.map_cons, map_fst_changesOf]
    exact List.nodup_cons.mpr ⟨listing.old_notMem, distinct⟩
  · rw [List.map_cons, targets, List.nodup_cons]
    constructor
    · intro mem
      obtain ⟨board, listed, same⟩ := List.mem_map.mp mem
      exact renamedBoard_ne_new (covered.below _ listed).2 same
    · refine (List.nodup_map_iff_inj_on distinct).mpr fun board mem other mem' same => ?_
      exact renamedBoard_injective (covered.below _ mem).2 (covered.below _ mem').2 same
  · intro earlier old new later split taken
    cases earlier with
    | nil =>
        -- the name that the board gets is free
        obtain ⟨⟨rfl, rfl⟩, -⟩ := by simpa using split
        have both := taken.symm.trans listing.newFree
        cases both
    | cons change earlier =>
        obtain ⟨rfl, tail⟩ := List.cons_eq_cons.mp split
        obtain ⟨first, rest, rfl, rfl, ends⟩ :=
          List.map_eq_append_iff.mp (show boards.map _ = earlier ++ _ from tail)
        obtain ⟨board, last, rfl, same, rfl⟩ := List.map_eq_cons_iff.mp ends
        obtain ⟨rfl, rfl⟩ := Prod.mk.inj same
        have mem : board ∈ first ++ board :: last := by simp
        rw [listing.newSubboard_eq mem (covered.below _ mem).2] at taken ⊢
        right
        rcases covered.free board mem taken with same | ⟨listed, less⟩
        · rw [same, List.map_cons]
          exact List.mem_cons_self
        · rw [List.map_cons, List.map_map]
          refine List.mem_cons_of_mem _ (List.mem_map.mpr ⟨_, ?_, rfl⟩)
          rcases List.mem_append.mp listed with here | here
          · exact here
          · have after : board ≤ renamedBoard oldboard newboard board := by
              rcases List.mem_cons.mp here with same | here
              · exact same.ge
              · have sorted := (List.pairwise_append.mp listing.sorted).2.1
                exact ((List.pairwise_cons.mp sorted).1 _ here).le
            exact absurd less after.not_gt

/-- The changes take every board where it should be, if only boards below the board are listed. -/
theorem followChanges_eq (covered : IsCovered oldboard newboard before (· ∈ boards)) {board : String}
    (other : board ≠ oldboard)
    : followChanges (changesOf oldboard newboard boards) board
      = if board ∈ boards then renamedBoard oldboard newboard board else board := by
  split_ifs with mem
  · obtain ⟨first, last, rfl⟩ := List.append_of_mem mem
    have sorted := List.pairwise_append.mp listing.sorted
    rw [changesOf_append, changesOf_cons,
      listing.newSubboard_eq mem (covered.below _ mem).2]
    refine followChanges_of_once ?_ ?_
    · rintro change earlier rfl
      obtain ⟨board, listed, rfl⟩ := List.mem_map.mp earlier
      exact lt_irrefl _ (sorted.2.2 _ listed _ List.mem_cons_self)
    · intro change later same
      obtain ⟨next, listed, rfl⟩ := List.mem_map.mp later
      -- a board with the new name would have been listed before
      have mem' : next ∈ first ++ board :: last := by simp [listed]
      have here : before.hasBoardWithName next = true :=
        ((listing.source next mem').resolve_left (covered.below _ mem').1).1
      have same : next = renamedBoard oldboard newboard board := same
      rcases covered.free board mem (same ▸ here) with first | ⟨-, less⟩
      · exact listing.old_notMem (first ▸ same ▸ mem')
      · exact lt_asymm (same ▸ less) ((List.pairwise_cons.mp sorted.2.1).1 _ listed)
  · refine followChanges_of_notMem fun change listed => ?_
    rintro rfl
    exact mem (mem_changesOf listed).1

/-- The board is renamed, and the boards below it with it, if only these are listed. -/
theorem isRenamed_of_covered (covered : IsCovered oldboard newboard before (· ∈ boards))
    {renamed : BoardDatabase} (first : before.renameBoardRow newboard oldboard = some renamed)
    : ∃ next, BoardDatabase.renameThreads oldboard newboard
        (BoardDatabase.renameSubboards (changesOf oldboard newboard boards) renamed) = (.okay, next)
      ∧ IsRenamed oldboard newboard before next := by
  obtain ⟨changed, threads, posts⟩ := BoardDatabase.renameBoardRow_eq_some_iff.mp first
  obtain ⟨last, all⟩ := listing.exists_rekeyAll covered
  have rest := all
  rw [KeyedTable.rekeyAll, changed, Option.bind_some] at rest
  obtain ⟨next, done, same, moved, kept⟩ | ⟨-, failed⟩ :=
    BoardDatabase.renameSubboards_spec (changesOf oldboard newboard boards) renamed
  · obtain rfl := Option.some.inj (same.symm.trans rest)
    have relabelled : before.boards.IsRelabelled (renamedBoard oldboard newboard) next.boards := by
      refine (KeyedTable.isRelabelled_of_rekeyAll all).congr fun board here => ?_
      rw [followChanges]
      split_ifs with same
      · rw [same, renamedBoard_self, followChanges_of_notMem]
        rintro change mem rfl
        exact (covered.below _ (mem_changesOf mem).1).1 rfl
      · rw [listing.followChanges_eq covered same]
        split_ifs with mem
        · rfl
        · exact (listing.renamedBoard_eq here same mem).symm
    have newHere : (next.boards.row newboard).isSome = true := by
      have found := relabelled.row_label listing.oldHere
      rw [renamedBoard_self] at found
      rw [found]
      exact listing.oldHere
    rw [done, BoardDatabase.renameThreads]
    refine ⟨next.renameBoardOfThreads newboard oldboard, ?_, relabelled, ?_, kept.trans posts⟩
    · rw [BoardDatabase.privilegesForBoard, Option.isSome_map]
      exact congrArg (·, _) (if_pos newHere)
    · rw [BoardDatabase.renameBoardOfThreads, moved, threads]
      ext1 thread
      simp only [KeyedTable.row_mapRows, Option.map_map]
      cases found : before.threads.row thread with
      | none => rfl
      | some row =>
          simp only [Option.map_some, Function.comp_apply, Option.some_inj]
          by_cases same : row.board = oldboard
          · rw [same, followChanges_of_notMem, if_pos rfl, if_pos listing.oldHere,
              renamedBoard_self]
            rintro change mem rfl
            exact listing.old_notMem (mem_changesOf mem).1
          · rw [listing.followChanges_eq covered same]
            by_cases mem : row.board ∈ boards
            · have here : before.hasBoardWithName row.board = true :=
                ((listing.source _ mem).resolve_left (covered.below _ mem).1).1
              rw [if_pos mem, if_pos here, if_neg (covered.threads _ row found mem)]
            · rw [if_neg mem, if_neg same]
              split_ifs with here
              · rw [listing.renamedBoard_eq here same mem]
              · rfl
  · rw [failed] at rest
    cases rest

/-- The new names of boards below the board are not those of other boards. -/
theorem newSubboard_ne_of_renamed {after : BoardDatabase}
    (renamed : IsRenamed oldboard newboard before after) {board other : String}
    (mem : board ∈ boards) (good : board ≠ newboard ∧ IsBelow oldboard board)
    (mem' : other ∈ boards) (bad : ¬(other ≠ newboard ∧ IsBelow oldboard other))
    : newSubboard oldboard newboard board ≠ other := by
  rw [listing.newSubboard_eq mem good.2]
  rintro rfl
  rcases listing.source _ mem' with same | ⟨here, differ⟩
  · exact renamedBoard_ne_new good.2 same
  · have here' := ((listing.source _ mem).resolve_left good.1).1
    have apart : ¬IsBelow oldboard (renamedBoard oldboard newboard board) := fun below =>
      bad ⟨renamedBoard_ne_new good.2, below⟩
    have same := renamed.boards.injective here' here (renamedBoard_of_not differ apart).symm
    exact apart (same ▸ good.2)

/-- A listed board that is not below the board is missed when all changes are done. -/
theorem below_of_renamed {renamed next after : BoardDatabase}
    (changed : KeyedTable.rekeyAll (changesOf oldboard newboard boards) renamed.boards
      = some next.boards)
    (same : after.boards = next.boards) (done : IsRenamed oldboard newboard before after)
    : ∀ board ∈ boards, board ≠ newboard ∧ IsBelow oldboard board := by
  -- the last such board stays away, since no change that follows gives its name to another
  have ends : ∀ last first, boards = first ++ last →
      ∀ board ∈ last, board ≠ newboard ∧ IsBelow oldboard board := by
    intro last
    induction last with
    | nil => exact fun _ _ _ mem => absurd mem List.not_mem_nil
    | cons board last ih =>
        intro first split
        have good := ih (first ++ [board]) (by rw [split, List.append_assoc]; rfl)
        have mem : board ∈ boards := by simp [split]
        refine List.forall_mem_cons.mpr ⟨?_, good⟩
        by_contra bad
        have missing : next.boards.row board = none := by
          rw [split, changesOf_append, changesOf_cons] at changed
          refine KeyedTable.row_rekeyAll_changed changed ?_ ?_
          · exact (newSubboard_ne listing.oldPlain (listing.newPlain _ mem) listing.differ
              (listing.located _ mem)).symm
          · intro change later
            obtain ⟨other, listed, rfl⟩ := List.mem_map.mp later
            have mem' : other ∈ boards := by simp [split, listed]
            exact listing.newSubboard_ne_of_renamed done mem' (good _ listed) mem bad
        have expected : (after.boards.row board).isSome = true := by
          rcases listing.source _ mem with rfl | ⟨here, differ⟩
          · have found := done.boards.row_label listing.oldHere
            rw [renamedBoard_self] at found
            rw [found]
            exact listing.oldHere
          · by_cases fresh : board = newboard
            · have both := (fresh ▸ here).symm.trans listing.newFree
              cases both
            · have found := done.boards.row_label here
              rw [renamedBoard_of_not differ fun below => bad ⟨fresh, below⟩] at found
              rw [found]
              exact here
        rw [same, missing] at expected
        cases expected
  exact ends boards [] rfl

/-- Only boards below the board are listed, and each of them finds its new name free, if all changes
do what they should.
-/
theorem covered_of_isRenamed {renamed next : BoardDatabase}
    (first : before.renameBoardRow newboard oldboard = some renamed)
    (changed : KeyedTable.rekeyAll (changesOf oldboard newboard boards) renamed.boards
      = some next.boards)
    (done : IsRenamed oldboard newboard before (next.renameBoardOfThreads newboard oldboard))
    : IsCovered oldboard newboard before (· ∈ boards) := by
  have same : (next.renameBoardOfThreads newboard oldboard).boards = next.boards := rfl
  have below := listing.below_of_renamed changed same done
  have boardOf : ∀ board ∈ boards, before.hasBoardWithName board = true ∧ board ≠ oldboard :=
    fun board mem => (listing.source board mem).resolve_left (below board mem).1
  obtain ⟨rekeyed, -, -⟩ := BoardDatabase.renameBoardRow_eq_some_iff.mp first
  have kept : ∀ board, before.hasBoardWithName board = true → board ≠ oldboard →
      (renamed.boards.row board).isSome = true := by
    intro board here other
    rw [KeyedTable.row_rekey_of_ne rekeyed here other]
    exact here
  refine ⟨below, fun board mem taken => ?_, fun thread row found mem same => ?_⟩
  · by_cases own : renamedBoard oldboard newboard board = oldboard
    · exact .inl own
    · right
      obtain ⟨earlier, later, rfl⟩ := List.append_of_mem mem
      have sorted := List.pairwise_append.mp listing.sorted
      rw [changesOf_append, changesOf_cons, listing.newSubboard_eq mem (below _ mem).2]
        at changed
      have differ : board ≠ renamedBoard oldboard newboard board := by
        rw [← listing.newSubboard_eq mem (below _ mem).2]
        exact (newSubboard_ne listing.oldPlain (listing.newPlain _ mem) listing.differ
          (listing.located _ mem)).symm
      have mem' := KeyedTable.row_rekeyAll_free changed differ
        (kept board (boardOf _ mem).1 (boardOf _ mem).2) (kept _ taken own) (by
          rintro change before rfl
          obtain ⟨board, listed, rfl⟩ := List.mem_map.mp before
          exact lt_irrefl _ (sorted.2.2 _ listed _ List.mem_cons_self))
      rw [map_fst_changesOf] at mem'
      exact ⟨List.mem_append_left _ mem', sorted.2.2 _ mem' _ List.mem_cons_self⟩
  · -- no thread is left in the board itself
    have threads := congrArg (·.row thread) done.threads
    simp only [BoardDatabase.renameBoardOfThreads, KeyedTable.row_mapRows] at threads
    rw [Option.mem_def.mp found, Option.map_some, if_pos (boardOf _ mem).1, same] at threads
    obtain ⟨last, -, moved⟩ := Option.map_eq_some_iff.mp threads
    have boards := congrArg ThreadRow.board moved
    split_ifs at boards with other
    · exact listing.differ boards.symm
    · exact other boards

/-- If the name that the board gets is listed, no name gets shorter, and that of the board longer. -/
theorem length_lt_of_mem (mem : newboard ∈ boards)
    : oldboard.toList.length < newboard.toList.length := by
  obtain ⟨start, rest, whole, -⟩ :=
    exists_toList_newSubboard newboard listing.oldPlain (listing.located _ mem)
  have lengths := congrArg List.length whole
  rw [List.length_append, List.length_append] at lengths
  by_contra shorter
  have empty : start = [] ∧ rest = [] := by
    constructor <;> exact List.length_eq_zero_iff.mp (by omega)
  rw [empty.1, empty.2, List.nil_append, List.append_nil, String.toList_inj] at whole
  exact listing.differ whole.symm

/-- The changes always leave other boards than before. -/
theorem boards_renameSubboards_ne {renamed : BoardDatabase}
    (first : before.renameBoardRow newboard oldboard = some renamed)
    : (BoardDatabase.renameSubboards (changesOf oldboard newboard boards) renamed).2.boards
      ≠ before.boards := by
  obtain ⟨rekeyed, -, -⟩ := BoardDatabase.renameBoardRow_eq_some_iff.mp first
  intro same
  by_cases listed : newboard ∈ boards
  · -- then the names get longer in total
    have shorter := listing.length_lt_of_mem listed
    have moved := KeyedTable.sum_keys_rekey (fun board => board.toList.length) rekeyed
      listing.oldHere
    have rest : renamed.totalLength
        ≤ (BoardDatabase.renameSubboards (changesOf oldboard newboard boards) renamed).2.totalLength := by
      refine BoardDatabase.totalLength_renameSubboards fun change mem => ?_
      obtain ⟨board, here, rfl⟩ := List.mem_map.mp mem
      obtain ⟨start, rest, whole, changed⟩ :=
        exists_toList_newSubboard newboard listing.oldPlain (listing.located _ here)
      rw [listing.newPlain _ here] at changed
      have lengths := congrArg List.length whole
      have lengths' := congrArg List.length changed
      rw [List.length_append, List.length_append] at lengths lengths'
      change board.toList.length ≤ (newSubboard oldboard newboard board).toList.length
      omega
    unfold BoardDatabase.totalLength at rest
    rw [same] at rest
    omega
  · -- otherwise the board is there under its new name
    have here : renamed.hasBoardWithName newboard = true := by
      have found := (KeyedTable.isRelabelled_of_rekey rekeyed).row_label listing.oldHere
      rw [if_pos rfl] at found
      rw [BoardDatabase.hasBoardWithName, found]
      exact listing.oldHere
    have still : (BoardDatabase.renameSubboards (changesOf oldboard newboard boards)
        renamed).2.hasBoardWithName newboard = true :=
      BoardDatabase.hasBoardWithName_renameSubboards here fun change mem same =>
        listed (same ▸ (mem_changesOf mem).1)
    rw [BoardDatabase.hasBoardWithName, same] at still
    have both := still.symm.trans listing.newFree
    cases both

/-- The changes of names keep the boards just when only boards below the board are listed, and each of
them finds its new name free.
-/
theorem keepsBoards_iff {renamed : BoardDatabase}
    (first : before.renameBoardRow newboard oldboard = some renamed)
    : KeepsBoards oldboard newboard before (BoardDatabase.renameThreads oldboard newboard
        (BoardDatabase.renameSubboards (changesOf oldboard newboard boards) renamed))
      ↔ IsCovered oldboard newboard before (· ∈ boards) := by
  constructor
  · intro keeps
    have changed := listing.boards_renameSubboards_ne first
    obtain ⟨next, done, rest, -, -⟩ | ⟨failed, -⟩ :=
      BoardDatabase.renameSubboards_spec (changesOf oldboard newboard boards) renamed
    · rw [done] at keeps changed
      have okay : (BoardDatabase.renameThreads oldboard newboard (.okay, next)).1 = .okay := by
        by_contra failed
        have same := congrArg BoardDatabase.boards (keeps.unchanged failed)
        exact changed same
      exact listing.covered_of_isRenamed first rest (keeps.renamed okay)
    · cases outcome : BoardDatabase.renameSubboards (changesOf oldboard newboard boards) renamed with
      | mk reply last =>
          rw [outcome] at keeps changed failed
          obtain rfl : reply = .internalError := failed
          exact absurd (congrArg BoardDatabase.boards (keeps.unchanged (by exact nofun))) changed
  · intro covered
    obtain ⟨next, done, renamed⟩ := listing.isRenamed_of_covered covered first
    rw [done]
    exact ⟨fun _ => renamed, fun failed => absurd rfl failed⟩

end IsListing

end Listing

end WiredServer.Server
