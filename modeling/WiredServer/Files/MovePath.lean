import WiredServer.Lib.Subtrees
import WiredServer.Files.DropBoxes

/-! Moving a file. Names that differ only in case go through a temporary name, other moves test the
destination first, and a move to another volume is a copy in a thread of its own and a deletion.
-/

namespace WiredServer.Files

open WiredServer.PathStrings Subtrees

-----------------------------------------------------------------------------------------
-- File trees
-----------------------------------------------------------------------------------------

/-- A file or a directory: which one it is, how its name is written, and its contents if it is a file. -/
structure TreeEntry where
  id : ℕ
  name : List Char
  contents : Option (List UInt8)
  deriving DecidableEq, Repr

/-- The files and directories of a file system, by the names on their way from the root or the current
directory, in the form in which the file system compares them.
-/
structure FileTree where
  entries : Entries (List Char) TreeEntry
  closed : Closed entries
  distinct : ∀ path path' entry entry', entries path = some entry → entries path' = some entry'
    → entry.id = entry'.id → path = path'

/-- The place of a path in a tree of a file system that compares names by `fold`. -/
def place (fold : List Char → List Char) (path : List Char) : List (List Char) :=
  (if (location path).absolute then [['/']] else []) ++ (location path).names.map fold

/-- What `lstat` finds. -/
def lstatPath (fold : List Char → List Char) (entries : Entries (List Char) TreeEntry)
    (path : List Char)
    : Option TreeEntry :=
  if path = [] then none else entries (place fold path)

-----------------------------------------------------------------------------------------
-- Paths of a move
-----------------------------------------------------------------------------------------

/-- `wi_string_last_path_component` -/
def lastPathComponent (path : List Char) : List Char :=
  if path = ['/'] then path
  else
    let body := if path.getLast? = some '/' then path.dropLast else path
    if '/' ∉ body then path else (body.reverse.takeWhile (· ≠ '/')).reverse

/-- The real path of an end of a move: the directory is resolved, the name is not. -/
def realEndPath (home : Option (List Char)) (files account path : List Char) : Option (List Char) :=
  let realpath := realPath files account path
  (deletingLastPathComponent home realpath).map fun directory =>
    appendPathComponent (resolvingAliasesInPath directory) (lastPathComponent realpath)

/-- The paths that `wd_files_move_path` works with. -/
structure MovePaths where
  realfrompath : List Char
  realtopath : List Char
  temporary : List Char
  deriving DecidableEq, Repr

/-- The paths for a move, with the characters that `mktemp` chooses. -/
def movePaths (home : Option (List Char)) (files account frompath topath suffix : List Char)
    : Option MovePaths := do
  let realfrompath ← realEndPath home files account frompath
  let realtopath ← realEndPath home files account topath
  let directory ← deletingLastPathComponent home realfrompath
  let realfromname := lastPathComponent (realPath files account frompath)
  return {
    realfrompath
    realtopath
    temporary := directory ++ "/.".toList ++ lastPathComponent realfromname ++ '.' :: suffix }

/-- A character as `strcasecmp` compares it. -/
def foldCase (char : Char) : Char :=
  char.toLower

/-- `wi_string_case_insensitive_compare` finds no difference. -/
def equalsIgnoringCase (path other : List Char) : Bool :=
  path.map foldCase = other.map foldCase

-----------------------------------------------------------------------------------------
-- System calls
-----------------------------------------------------------------------------------------

/-- Why a call fails, as far as it matters. -/
inductive MoveErrno where
  | exdev
  | other
  deriving DecidableEq, Repr

/-- How `wi_fs_copy_path` ends once it has begun, and what is at the destination then. -/
inductive CopyEnd where
  | copied (subtree : Entries (List Char) TreeEntry)
  | failed (subtree : Entries (List Char) TreeEntry)

/-- How the calls of a move end: the two calls of `rename`, the creation of a thread, the copy, and which
files below the source the deletion leaves.
-/
structure MoveCalls where
  rename : Option MoveErrno
  secondRename : Option MoveErrno
  threads : Bool
  copy : CopyEnd
  remains : List (List Char) → Bool

/-- What `wd_message_file_move` replies. -/
inductive MoveReply where
  | okay
  | fileErrno
  | fileExists
  | internalError
  deriving DecidableEq, Repr

/-- What comes of a move: the reply, the files, whether it was found to be one between volumes, and whether
a copy was made.
-/
structure Moved where
  reply : MoveReply
  entries : Entries (List Char) TreeEntry
  crosses : Bool
  copied : Bool

section Calls

variable (fold : List Char → List Char)

/-- `rename`, when it succeeds. -/
def renamePath (entries : Entries (List Char) TreeEntry) (path newpath : List Char)
    : Entries (List Char) TreeEntry :=
  moved entries (place fold path) (place fold newpath)
    fun entry => { entry with name := lastPathComponent newpath }

/-- How `rename` ends: nothing can be renamed to an empty path. -/
def renameEnds (newpath : List Char) (ends : Option MoveErrno) : Option MoveErrno :=
  if newpath = [] then some .other else ends

/-- `wi_fs_copy_path_with_callback` and its result. -/
def copyPath (entries : Entries (List Char) TreeEntry) (frompath topath : List Char) (copy : CopyEnd)
    : Entries (List Char) TreeEntry × Bool :=
  if lstatPath fold entries frompath = none then (entries, false)
  else if lstatPath fold entries topath ≠ none then (entries, false)
  else
    match copy with
    | .copied subtree => (replaced entries (place fold topath) subtree, true)
    | .failed subtree => (replaced entries (place fold topath) subtree, false)

/-- `wd_files_move_thread` -/
def moveThread (entries : Entries (List Char) TreeEntry) (paths : MovePaths) (calls : MoveCalls)
    : Entries (List Char) TreeEntry × Bool :=
  let (entries, copied) := copyPath fold entries paths.realfrompath paths.realtopath calls.copy
  if copied then (thinned entries (place fold paths.realfrompath) calls.remains, true)
  else (entries, false)

/-- The end of `wd_files_move_path`, after calls of `rename` that ended like this. -/
def endMove (entries : Entries (List Char) TreeEntry) (paths : MovePaths) (calls : MoveCalls)
    : Option MoveErrno → Moved
  | none => { reply := .okay, entries, crosses := false, copied := false }
  | some .exdev =>
      if calls.threads then
        let (entries, copied) := moveThread fold entries paths calls
        { reply := .okay, entries, crosses := true, copied }
      else { reply := .internalError, entries, crosses := true, copied := false }
  | some .other => { reply := .fileErrno, entries, crosses := false, copied := false }

/-- `wd_files_move_path` and the thread that it may start. -/
def movePath (tree : FileTree) (paths : MovePaths) (calls : MoveCalls) : Moved :=
  let entries := tree.entries
  if lstatPath fold entries paths.realfrompath = none then
    { reply := .fileErrno, entries, crosses := false, copied := false }
  else if equalsIgnoringCase paths.realfrompath paths.realtopath then
    match renameEnds paths.temporary calls.rename with
    | some errno => endMove fold entries paths calls (some errno)
    | none =>
        let entries := renamePath fold entries paths.realfrompath paths.temporary
        match renameEnds paths.realtopath calls.secondRename with
        | some errno => endMove fold entries paths calls (some errno)
        | none =>
            endMove fold (renamePath fold entries paths.temporary paths.realtopath) paths calls none
  else if lstatPath fold entries paths.realtopath ≠ none then
    { reply := .fileExists, entries, crosses := false, copied := false }
  else
    match renameEnds paths.realtopath calls.rename with
    | some errno => endMove fold entries paths calls (some errno)
    | none =>
        endMove fold (renamePath fold entries paths.realfrompath paths.realtopath) paths calls none

end Calls

-----------------------------------------------------------------------------------------
-- Atomicity
-----------------------------------------------------------------------------------------

/-- A move is atomic. An error leaves all files as they were. A move within a volume leaves the destination
with what the source had, and nothing at the source but what belongs to the destination. A move
between volumes takes nothing from the source unless the copy was made. A destination that was
there before and is not the source is left alone.
-/
structure MovesAtomically (fold : List Char → List Char) (tree : FileTree) (paths : MovePaths)
    (outcome : Moved)
    : Prop where
  error : outcome.reply ≠ .okay → outcome.entries = tree.entries
  destination : outcome.reply = .okay → outcome.crosses = false
    → ∀ rest, outcome.entries (place fold paths.realtopath ++ rest)
      = (tree.entries (place fold paths.realfrompath ++ rest)).map fun entry =>
          if rest = [] then { entry with name := lastPathComponent paths.realtopath } else entry
  source : outcome.reply = .okay → outcome.crosses = false
    → ∀ rest, ¬place fold paths.realtopath <+: place fold paths.realfrompath ++ rest
    → outcome.entries (place fold paths.realfrompath ++ rest) = none
  crossing : outcome.crosses = true → outcome.copied = false
    → ∀ rest entry, tree.entries (place fold paths.realfrompath ++ rest) = some entry
    → outcome.entries (place fold paths.realfrompath ++ rest) = some entry
  existing : lstatPath fold tree.entries paths.realtopath ≠ none
    → place fold paths.realtopath ≠ place fold paths.realfrompath
    → ∀ rest, outcome.entries (place fold paths.realtopath ++ rest)
      = tree.entries (place fold paths.realtopath ++ rest)

/-- A move through a temporary name goes wrong: the second rename fails, or it takes the place of another
file.
-/
structure GoesWrong (fold : List Char → List Char) (tree : FileTree) (paths : MovePaths)
    (calls : MoveCalls)
    : Prop where
  found : lstatPath fold tree.entries paths.realfrompath ≠ none
  case : equalsIgnoringCase paths.realfrompath paths.realtopath = true
  leaves : calls.rename = none
  wrong : calls.secondRename ≠ none
    ∨ lstatPath fold tree.entries paths.realtopath ≠ none
      ∧ place fold paths.realtopath ≠ place fold paths.realfrompath

section Proofs

variable {fold : List Char → List Char} {tree : FileTree} {paths : MovePaths} {calls : MoveCalls}

/-- Nothing happened. -/
theorem movesAtomically_of_unchanged {outcome : Moved} (same : outcome.entries = tree.entries)
    (unmoved : outcome.reply = .okay → outcome.crosses = true)
    : MovesAtomically fold tree paths outcome where
  error _ := same
  destination okay stays := absurd (unmoved okay) (by simp [stays])
  source okay stays := absurd (unmoved okay) (by simp [stays])
  crossing _ _ _ _ found := by rw [same]; exact found
  existing _ _ _ := by rw [same]

/-- What `lstat` finds, for a path that is not empty. -/
theorem exists_entry {entries : Entries (List Char) TreeEntry} {path : List Char}
    (found : lstatPath fold entries path ≠ none)
    : path ≠ [] ∧ entries (place fold path) ≠ none := by
  unfold lstatPath at found
  split at found
  · exact absurd rfl found
  · rename_i nonempty
    exact ⟨nonempty, found⟩

/-- A move within a volume is atomic if it takes the place of no other file. -/
theorem movesAtomically_of_moved {outcome : Moved} (okay : outcome.reply = .okay)
    (stays : outcome.crosses = false)
    (destination : ∀ rest, outcome.entries (place fold paths.realtopath ++ rest)
      = (tree.entries (place fold paths.realfrompath ++ rest)).map fun entry =>
          if rest = [] then { entry with name := lastPathComponent paths.realtopath } else entry)
    (source : ∀ rest, ¬place fold paths.realtopath <+: place fold paths.realfrompath ++ rest
      → outcome.entries (place fold paths.realfrompath ++ rest) = none)
    (free : lstatPath fold tree.entries paths.realtopath ≠ none
      → place fold paths.realtopath = place fold paths.realfrompath)
    : MovesAtomically fold tree paths outcome where
  error wrong := absurd okay wrong
  destination _ _ := destination
  source _ _ := source
  crossing crosses := absurd crosses (by simp [stays])
  existing there other := absurd (free there) other

/-- A copy in a thread takes nothing from the source unless it was made. -/
theorem movesAtomically_of_thread (found : lstatPath fold tree.entries paths.realfrompath ≠ none)
    (nonempty : paths.realtopath ≠ [])
    : MovesAtomically fold tree paths (endMove fold tree.entries paths calls (some .exdev)) := by
  rw [endMove]
  cases calls.threads with
  | false => exact movesAtomically_of_unchanged rfl fun _ => rfl
  | true =>
      simp only [if_true, moveThread, copyPath, if_neg found]
      by_cases there : lstatPath fold tree.entries paths.realtopath = none
      · rw [if_neg (not_not.mpr there)]
        have nothing : tree.entries (place fold paths.realtopath) = none := by
          rwa [lstatPath, if_neg nonempty] at there
        cases calls.copy with
        | copied subtree =>
            refine ⟨fun wrong => absurd rfl wrong, ?_, ?_, ?_, fun some => absurd there some⟩
            · exact fun _ stays => by cases stays
            · exact fun _ stays => by cases stays
            · exact fun _ unmade => by cases unmade
        | failed subtree =>
            refine ⟨fun wrong => absurd rfl wrong, ?_, ?_, ?_, fun some => absurd there some⟩
            · exact fun _ stays => by cases stays
            · exact fun _ stays => by cases stays
            · intro _ _ rest entry present
              have outside := tree.closed.not_prefix nothing (by rw [present]; simp)
              exact (replaced_other _ _ outside).trans present
      · rw [if_pos there]
        exact movesAtomically_of_unchanged rfl fun _ => rfl

/-- The temporary path is not above the source, since nothing is there. -/
theorem temporary_not_prefix (fresh : tree.entries (place fold paths.temporary) = none)
    (found : lstatPath fold tree.entries paths.realfrompath ≠ none)
    : ¬place fold paths.temporary <+: place fold paths.realfrompath :=
  tree.closed.not_prefix fresh (exists_entry found).2

/-- What is left of the source while the file has its temporary name. -/
theorem renamePath_temporary (fresh : tree.entries (place fold paths.temporary) = none)
    (found : lstatPath fold tree.entries paths.realfrompath ≠ none)
    : renamePath fold tree.entries paths.realfrompath paths.temporary
        (place fold paths.realfrompath) = none := by
  have outside := temporary_not_prefix fresh found
  have gone := moved_source tree.entries
    (fun entry => { entry with name := lastPathComponent paths.temporary })
    (by rwa [List.append_nil] : ¬place fold paths.temporary <+: place fold paths.realfrompath ++ [])
  rwa [List.append_nil] at gone

/-- A move through a temporary name has moved what was at the source. -/
theorem renamePath_renamePath_destination (rest : List (List Char))
    : renamePath fold (renamePath fold tree.entries paths.realfrompath paths.temporary)
        paths.temporary paths.realtopath (place fold paths.realtopath ++ rest)
      = (tree.entries (place fold paths.realfrompath ++ rest)).map fun entry =>
          if rest = [] then { entry with name := lastPathComponent paths.realtopath } else entry := by
  simp only [renamePath, moved_destination, Option.map_map]
  congr 1
  funext entry
  by_cases root : rest = [] <;> simp [root]

/-- A move through a temporary name leaves nothing at the source but what belongs to the destination. -/
theorem renamePath_renamePath_source {rest : List (List Char)}
    (outside : ¬place fold paths.realtopath <+: place fold paths.realfrompath ++ rest)
    : renamePath fold (renamePath fold tree.entries paths.realfrompath paths.temporary)
        paths.temporary paths.realtopath (place fold paths.realfrompath ++ rest) = none := by
  rw [renamePath, moved, if_neg outside]
  split
  · rfl
  · rename_i apart
    exact moved_source _ _ apart

/-- A move that tests the destination first is atomic. -/
theorem movesAtomically_of_test (found : lstatPath fold tree.entries paths.realfrompath ≠ none)
    (other : ¬equalsIgnoringCase paths.realfrompath paths.realtopath = true)
    : MovesAtomically fold tree paths (movePath fold tree paths calls) := by
  simp only [movePath, if_neg found, if_neg other]
  by_cases there : lstatPath fold tree.entries paths.realtopath = none
  · rw [if_neg (not_not.mpr there)]
    cases ends : renameEnds paths.realtopath calls.rename with
    | some errno =>
        cases errno with
        | other => exact movesAtomically_of_unchanged rfl fun okay => by cases okay
        | exdev =>
            refine movesAtomically_of_thread found fun empty => ?_
            rw [renameEnds, if_pos empty] at ends
            cases ends
    | none =>
        apply movesAtomically_of_moved rfl rfl
        · intro rest
          refine (moved_destination _ _ _ _ _).trans ?_
          by_cases root : rest = [] <;> simp [root]
        · exact fun rest outside => moved_source _ _ outside
        · exact fun some => absurd there some
  · rw [if_pos there]
    exact movesAtomically_of_unchanged rfl fun okay => by cases okay

/-- When the second rename fails, the move is not atomic. -/
theorem not_movesAtomically_of_secondRename
    (fresh : tree.entries (place fold paths.temporary) = none)
    (found : lstatPath fold tree.entries paths.realfrompath ≠ none) (errno : MoveErrno)
    : ¬MovesAtomically fold tree paths (endMove fold
        (renamePath fold tree.entries paths.realfrompath paths.temporary) paths calls
        (some errno)) := by
  intro atomic
  have gone := renamePath_temporary fresh found
  obtain ⟨-, some⟩ := exists_entry found
  have changed : renamePath fold tree.entries paths.realfrompath paths.temporary ≠ tree.entries :=
    fun same => some (by rw [← same]; exact gone)
  have unseen : lstatPath fold
      (renamePath fold tree.entries paths.realfrompath paths.temporary) paths.realfrompath = none := by
    rw [lstatPath, gone, ite_self]
  cases errno with
  | other => exact changed (atomic.error (by simp [endMove]))
  | exdev =>
      cases threads : calls.threads with
      | false =>
          simp only [endMove, threads, Bool.false_eq_true, if_false] at atomic
          exact changed (atomic.error (by simp))
      | true =>
          simp only [endMove, threads, if_true, moveThread, copyPath, if_pos unseen,
            Bool.false_eq_true, if_false] at atomic
          obtain ⟨entry, present⟩ := Option.ne_none_iff_exists'.mp some
          have kept := atomic.crossing rfl rfl [] entry (by rwa [List.append_nil])
          rw [List.append_nil] at kept
          cases gone.symm.trans kept

/-- A move through a temporary name that succeeds is atomic just when it takes the place of no other file. -/
theorem movesAtomically_of_renames_iff
    (found : lstatPath fold tree.entries paths.realfrompath ≠ none)
    : MovesAtomically fold tree paths (endMove fold
        (renamePath fold (renamePath fold tree.entries paths.realfrompath paths.temporary)
          paths.temporary paths.realtopath) paths calls none)
      ↔ ¬(lstatPath fold tree.entries paths.realtopath ≠ none
        ∧ place fold paths.realtopath ≠ place fold paths.realfrompath) := by
  constructor
  · intro atomic ⟨there, other⟩
    have kept := atomic.existing there other []
    obtain ⟨entry, present⟩ := Option.ne_none_iff_exists'.mp (exists_entry found).2
    obtain ⟨entry', present'⟩ := Option.ne_none_iff_exists'.mp (exists_entry there).2
    have placed := @renamePath_renamePath_destination fold tree paths []
    simp only [List.append_nil, present, Option.map_some, if_true] at placed
    simp only [endMove, List.append_nil, placed, present', Option.some.injEq] at kept
    exact other (tree.distinct _ _ entry' entry present' present (by rw [← kept]))
  · intro free
    apply movesAtomically_of_moved rfl rfl
    · exact renamePath_renamePath_destination
    · exact fun rest outside => renamePath_renamePath_source outside
    · intro there
      by_contra other
      exact free ⟨there, other⟩

/-- Paths that differ in case only are as long as each other. -/
theorem ne_nil_of_equalsIgnoringCase {path other : List Char}
    (same : equalsIgnoringCase path other = true) (nonempty : path ≠ [])
    : other ≠ [] := by
  rintro rfl
  rw [equalsIgnoringCase, decide_eq_true_eq] at same
  exact nonempty (List.map_eq_nil_iff.mp same)

/-- A move through a temporary name is atomic just when it does not go wrong. -/
theorem movesAtomically_of_case_iff (fresh : tree.entries (place fold paths.temporary) = none)
    (named : paths.temporary ≠ [])
    (found : lstatPath fold tree.entries paths.realfrompath ≠ none)
    (case : equalsIgnoringCase paths.realfrompath paths.realtopath = true)
    : MovesAtomically fold tree paths (movePath fold tree paths calls)
      ↔ ¬GoesWrong fold tree paths calls := by
  have nonempty := ne_nil_of_equalsIgnoringCase case (exists_entry found).1
  simp only [movePath, if_neg found, if_pos case, renameEnds, if_neg named, if_neg nonempty]
  cases first : calls.rename with
  | some errno =>
      refine iff_of_true ?_ fun wrong => by cases first.symm.trans wrong.leaves
      cases errno with
      | other => exact movesAtomically_of_unchanged rfl fun okay => by cases okay
      | exdev => exact movesAtomically_of_thread found nonempty
  | none =>
      cases second : calls.secondRename with
      | some errno =>
          refine iff_of_false (not_movesAtomically_of_secondRename fresh found errno) ?_
          exact not_not.mpr ⟨found, case, first, .inl (by simp [second])⟩
      | none =>
          rw [movesAtomically_of_renames_iff found, not_iff_not]
          constructor
          · exact fun wrong => ⟨found, case, first, .inr wrong⟩
          · exact fun wrong => wrong.wrong.resolve_left (by simp [second])

end Proofs

-----------------------------------------------------------------------------------------
-- Two files whose names differ in case
-----------------------------------------------------------------------------------------

/-- The tree of a list of files and directories with their places. -/
def FileTree.ofList (list : List (List (List Char) × TreeEntry))
    (closed : ∀ file ∈ list, ∀ path ∈ file.1.inits, path ∈ list.map (·.1))
    (distinct : (list.map fun file => file.2.id).Nodup)
    : FileTree where
  entries path := (list.find? (·.1 = path)).map (·.2)
  closed path rest nothing := by
    rw [Option.map_eq_none_iff, List.find?_eq_none] at nothing ⊢
    intro file mem isPath
    obtain ⟨file', mem', isStart⟩ := List.mem_map.mp
      (closed file mem path ((List.mem_inits _ _).mpr ⟨rest, (of_decide_eq_true isPath).symm⟩))
    exact nothing file' mem' (decide_eq_true isStart)
  distinct path path' entry entry' found found' same := by
    obtain ⟨file, isFile, rfl⟩ := Option.map_eq_some_iff.mp found
    obtain ⟨file', isFile', rfl⟩ := Option.map_eq_some_iff.mp found'
    have isPath : file.1 = path := by simpa using List.find?_some isFile
    have isPath' : file'.1 = path' := by simpa using List.find?_some isFile'
    rw [← isPath, ← isPath', List.inj_on_of_nodup_map distinct (List.mem_of_find?_eq_some isFile)
      (List.mem_of_find?_eq_some isFile') same]

/-- A directory with two files whose names differ in case. -/
def twoFiles : FileTree :=
  .ofList
    [([], ⟨0, [], none⟩), (["files".toList], ⟨1, "files".toList, none⟩),
      (["files".toList, "a".toList], ⟨2, "a".toList, some [1]⟩),
      (["files".toList, "A".toList], ⟨3, "A".toList, some [2]⟩)]
    (by decide) (by decide)

/-- Calls that succeed. -/
def successfulMove : MoveCalls where
  rename := none
  secondRename := none
  threads := true
  copy := .failed fun _ => none
  remains _ := false

end WiredServer.Files
