import WiredServer.Files.MovePath
import WiredServer.Files.Volumes

/-! The index of the files of the server. A pass goes through the folders and follows the aliases in them, and
keeps a row for each device and inode that it meets.
-/

namespace WiredServer.Files

open PathStrings Walks

-----------------------------------------------------------------------------------------
-- The index
-----------------------------------------------------------------------------------------

/-- A row of the table `index`. -/
structure IndexRow where
  name : List Char
  virtualPath : List Char
  realPath : List Char
  isAlias : Bool
  deriving DecidableEq

/-- The rows of the table `index`, with the inodes of each device in `wd_index_dictionary` and the counts. -/
structure Index where
  rows : List IndexRow
  dictionary : Finset (UInt32 × UInt64)
  filesCount : ℕ
  directoriesCount : ℕ
  filesSize : ℕ

/-- The index at the start of a pass. -/
def Index.empty : Index :=
  ⟨[], ∅, 0, 0, 0⟩

/-- A device and an inode. -/
def FileStat.key (sb : FileStat) : UInt32 × UInt64 :=
  (sb.dev, sb.ino)

/-- `pathlength` -/
def pathLength (path : List Char) : ℕ :=
  if path.length = 1 then path.length - 1 else path.length

/-- `virtualpath` in `wd_index_index_path` -/
def virtualPath (path : List Char) ( pathprefix : Option (List Char)) (filepath : List Char) : List Char :=
  let virtualpath := filepath.drop (pathLength path)
  match pathprefix with
  | none => virtualpath
  | some pathprefix => pathprefix ++ virtualpath

/-- `newpathprefix` in `wd_index_index_path` -/
def newPathPrefix (path : List Char) ( pathprefix : Option (List Char)) (filepath : List Char) : List Char :=
  match pathprefix with
  | none => filepath.drop (pathLength path)
  | some pathprefix => appendPathComponent pathprefix (filepath.drop (pathLength path + 1))

/-- `WD_INDEX_MAX_LEVEL` -/
def indexMaxLevel : ℕ := 20

namespace Volume

variable (volume : Volume)

/-- What `wd_index_index_path` reads and makes of a path that is not invisible. -/
structure Found where
  row : IndexRow
  lsb : FileStat
  sb : FileStat

/-- `resolvedpath` in `wd_index_index_path` -/
def resolvedPath (filepath : List Char) : List Char :=
  if volume.isAlias filepath then volume.resolving filepath else filepath

/-- `lsb` and `sb` of a path, if it can be read. -/
def stats (path : List Char) : Option (FileStat × FileStat) :=
  (volume.lstat path).map fun lsb => (lsb, (volume.stat path).getD lsb)

/-- What is found at an entry, if it is neither invisible nor impossible to read. -/
def found (path : List Char) ( pathprefix : Option (List Char)) (filepath : List Char) : Option Found :=
  if volume.isInvisible filepath then none
  else
    let resolvedpath := volume.resolvedPath filepath
    let virtualpath := virtualPath path pathprefix filepath
    (volume.stats resolvedpath).map fun stats =>
      ⟨⟨lastPathComponent virtualpath, virtualpath, resolvedpath, volume.isAlias filepath⟩, stats.1, stats.2⟩

/-- A row is inserted and counted. -/
def insertRow (found : Found) (index : Index) : Index :=
  let counted := { index with
    rows := index.rows ++ [found.row], dictionary := insert found.lsb.key index.dictionary }
  if found.sb.isDirectory then { counted with directoriesCount := index.directoriesCount + 1 }
  else { counted with
    filesCount := index.filesCount + 1
    filesSize := index.filesSize + (found.sb.size.toNat + volume.resourceForkSize found.row.realPath) }

/-- The body of the loop in `wd_index_index_path`, and whether the descendents of the entry are skipped. -/
def indexEntry (indexPath : List Char → Option (List Char) → Index → Index) (path : List Char)
    ( pathprefix : Option (List Char)) (filepath : List Char) (index : Index) : Index × Bool :=
  match volume.found path pathprefix filepath with
  | none => (index, false)
  | some found =>
      if found.lsb.key ∈ index.dictionary then (index, true)
      else
        let inserted := volume.insertRow found index
        if volume.typeWithStat found.row.realPath found.sb = .dropBox then (inserted, false)
        else if found.row.isAlias && found.sb.isDirectory then
          (indexPath found.row.realPath (some (newPathPrefix path pathprefix filepath)) inserted, true)
        else (inserted, true)

/-- `wd_index_index_path`, with as many levels as are left. -/
def indexPath : ℕ → List Char → Option (List Char) → Index → Index
  | 0, _, _, index => index
  | level + 1, path, pathprefix, index =>
      match volume.enumerate path with
      | none => index
      | some walk => walk.loop (fun _ => volume.indexEntry (indexPath level) path pathprefix) 0 index

/-- The index that a pass makes of the files of the server. -/
def indexFiles (files : List Char) : Index :=
  volume.indexPath indexMaxLevel (volume.resolving files) none .empty

end Volume

-----------------------------------------------------------------------------------------
-- Rows and counts
-----------------------------------------------------------------------------------------

/-- The size of a file with its resource fork. -/
def Volume.fileSize (volume : Volume) (row : IndexRow) : ℕ :=
  (volume.stats row.realPath).elim 0 (·.2.size.toNat) + volume.resourceForkSize row.realPath

/-- Whether a row is about a directory. -/
def Volume.isDirectoryRow (volume : Volume) (row : IndexRow) : Bool :=
  (volume.stats row.realPath).elim false (·.2.isDirectory)

/-- What the rows of an index say about a volume: all of them are there, each device and inode once, and the
counts are those of the rows.
-/
structure Index.Accounts (volume : Volume) (index : Index) : Prop where
  there : ∀ row ∈ index.rows, (volume.stats row.realPath).isSome = true
  once : (index.rows.map fun row => (volume.stats row.realPath).map (·.1.key)).Nodup
  directories : index.directoriesCount = index.rows.countP volume.isDirectoryRow
  files : index.filesCount = index.rows.countP (!volume.isDirectoryRow ·)
  size : index.filesSize = ((index.rows.filter (!volume.isDirectoryRow ·)).map volume.fileSize).sum

/-- The invariant of a pass: the dictionary has what the rows are about. -/
structure Index.Kept (volume : Volume) (index : Index) : Prop extends index.Accounts volume where
  dictionary : ∀ key, key ∈ index.dictionary
    ↔ ∃ row ∈ index.rows, (volume.stats row.realPath).map (·.1.key) = some key

variable {volume : Volume} {path filepath : List Char} { pathprefix : Option (List Char)} {index : Index}

/-- What is found has been read from its real path. -/
theorem Volume.stats_of_found {found : Found} (isFound : volume.found path pathprefix filepath = some found)
    : volume.stats found.row.realPath = some (found.lsb, found.sb) := by
  rw [Volume.found] at isFound
  split at isFound
  · cases isFound
  · obtain ⟨stats, isStats, rfl⟩ := Option.map_eq_some_iff.mp isFound
    exact isStats

/-- A row of a new device and inode keeps the invariant. -/
theorem Index.Kept.insertRow (kept : index.Kept volume) {found : Volume.Found}
    (isStats : volume.stats found.row.realPath = some (found.lsb, found.sb))
    (isNew : found.lsb.key ∉ index.dictionary)
    : (volume.insertRow found index).Kept volume := by
  have absent : some found.lsb.key ∉ index.rows.map fun row => (volume.stats row.realPath).map (·.1.key) := by
    intro mem
    obtain ⟨row, isRow, same⟩ := List.mem_map.mp mem
    exact isNew ((kept.dictionary _).mpr ⟨row, isRow, same⟩)
  have rows : (volume.insertRow found index).rows = index.rows ++ [found.row] := by
    rw [Volume.insertRow]
    split <;> rfl
  have dictionary : (volume.insertRow found index).dictionary = insert found.lsb.key index.dictionary := by
    rw [Volume.insertRow]
    split <;> rfl
  have isDirectory : volume.isDirectoryRow found.row = found.sb.isDirectory := by
    rw [Volume.isDirectoryRow, isStats]
    rfl
  have fileSize : volume.fileSize found.row
      = found.sb.size.toNat + volume.resourceForkSize found.row.realPath := by
    rw [Volume.fileSize, isStats]
    rfl
  refine ⟨⟨?_, ?_, ?_, ?_, ?_⟩, ?_⟩
  · intro row mem
    rw [rows, List.mem_append, List.mem_singleton] at mem
    rcases mem with mem | rfl
    · exact kept.there row mem
    · rw [isStats]
      rfl
  · rw [rows, List.map_append, List.nodup_append_comm, List.map_singleton, isStats, List.singleton_append,
      List.nodup_cons]
    exact ⟨absent, kept.once⟩
  · rw [rows, List.countP_append, List.countP_singleton, ← kept.directories, isDirectory, Volume.insertRow]
    split <;> simp_all
  · rw [rows, List.countP_append, List.countP_singleton, ← kept.files, isDirectory, Volume.insertRow]
    split <;> simp_all
  · rw [rows, List.filter_append, List.map_append, List.sum_append, ← kept.size, List.filter_singleton,
      isDirectory, Volume.insertRow]
    split <;> simp_all
  · intro key
    rw [dictionary, rows, Finset.mem_insert, kept.dictionary]
    constructor
    · rintro (rfl | ⟨row, mem, same⟩)
      · refine ⟨found.row, by simp, ?_⟩
        rw [isStats]
        rfl
      · exact ⟨row, List.mem_append_left _ mem, same⟩
    · rintro ⟨row, mem, same⟩
      rcases List.mem_append.mp mem with mem | mem
      · exact .inr ⟨row, mem, same⟩
      · rw [List.mem_singleton.mp mem, isStats] at same
        exact .inl (Option.some.inj same).symm

/-- What an insertion keeps, and the walks behind aliases keep, each entry keeps. -/
theorem Volume.indexEntry_rule (invariant : Index → Prop)
    {indexPath : List Char → Option (List Char) → Index → Index}
    (inserts : ∀ found index, volume.found path pathprefix filepath = some found →
      found.lsb.key ∉ index.dictionary → invariant index → invariant (volume.insertRow found index))
    (recurses : ∀ found index, volume.found path pathprefix filepath = some found →
      found.row.isAlias = true → invariant index →
      invariant (indexPath found.row.realPath (some (newPathPrefix path pathprefix filepath)) index))
    (holds : invariant index)
    : invariant (volume.indexEntry indexPath path pathprefix filepath index).1 := by
  rw [Volume.indexEntry]
  split
  · exact holds
  · rename_i found isFound
    split
    · exact holds
    · rename_i isNew
      have inserted := inserts found index isFound isNew holds
      dsimp only
      split
      · exact inserted
      · split
        · rename_i isAlias
          rw [Bool.and_eq_true] at isAlias
          exact recurses found _ isFound isAlias.1 inserted
        · exact inserted

/-- A pass keeps the invariant, by induction on the levels that are left. -/
theorem Index.Kept.indexPath (level : ℕ) (kept : index.Kept volume)
    : (volume.indexPath level path pathprefix index).Kept volume := by
  induction level generalizing path pathprefix index with
  | zero => exact kept
  | succ level ih =>
      rw [Volume.indexPath]
      split
      · exact kept
      · refine Walk.loop_rule (Index.Kept volume ·) (fun trail entry state has kept => ?_) kept
        exact Volume.indexEntry_rule (Index.Kept volume ·)
          (fun found index isFound isNew kept => kept.insertRow (Volume.stats_of_found isFound) isNew)
          (fun found index _ _ kept => ih kept) kept

/-- The counts of a pass are those of its rows. -/
theorem Index.Accounts.indexFiles (volume : Volume) (files : List Char)
    : (volume.indexFiles files).Accounts volume := by
  have start : Index.empty.Kept volume :=
    ⟨⟨fun _ mem => (nomatch mem), List.nodup_nil, rfl, rfl, rfl⟩, fun key => by simp [Index.empty]⟩
  exact (start.indexPath indexMaxLevel).toAccounts

-----------------------------------------------------------------------------------------
-- Runs
-----------------------------------------------------------------------------------------

/-- The tables `index` and `index_metadata`, and the counts that the server announces. -/
structure IndexState where
  rows : List IndexRow
  filesCount : ℕ
  directoriesCount : ℕ
  filesSize : ℕ
  metadata : Option (ℕ × ℕ × ℕ)

/-- The counts are set from the table `index_metadata`, if it has a row. -/
def IndexState.reload (state : IndexState) : IndexState :=
  match state.metadata with
  | none => state
  | some (files, directories, size) =>
      { state with filesCount := files, directoriesCount := directories, filesSize := size }

/-- The row of `wd_index_add_file`. -/
def addedRow (files path : List Char) : IndexRow :=
  let virtualpath := path.drop (pathLength files)
  ⟨lastPathComponent virtualpath, virtualpath, path, false⟩

/-- `wd_index_thread`: nothing is lost if the files cannot be opened or gone through. -/
def indexThread (files : List Char) (volume : Volume) (state : IndexState) : IndexState :=
  match volume.enumerate (volume.resolving files) with
  | none => state
  | some (.failed _ _) => state.reload
  | some _ =>
      let index := volume.indexFiles files
      ⟨index.rows, index.filesCount, index.directoriesCount, index.filesSize,
        some (index.filesCount, index.directoriesCount, index.filesSize)⟩

/-- What happens to the index: a pass over the files as they are then, the counts of a table that is new enough,
a file that has been uploaded, and one that has been deleted.
-/
inductive IndexAction where
  | indexThread (volume : Volume)
  | reload
  | addFile (path : List Char)
  | deleteFile (path : List Char)

/-- `wd_index_thread`, `wd_index_index_files`, `wd_index_add_file` and `wd_index_delete_file` -/
def stepIndex (files : List Char) (state : IndexState) : IndexAction → IndexState
  | .indexThread volume => Files.indexThread files volume state
  | .reload => state.reload
  | .addFile path => { state with rows := state.rows ++ [addedRow files path] }
  | .deleteFile path => { state with rows := state.rows.filter (·.realPath ≠ path) }

/-- A pass goes through the files. -/
def Volume.isIndexed (volume : Volume) (files : List Char) : Bool :=
  match volume.enumerate (volume.resolving files) with
  | none | some (.failed _ _) => false
  | some _ => true

/-- The files that the last pass went through, after one more action. -/
def nextIndexed (files : List Char) (last : Option Volume) : IndexAction → Option Volume
  | .indexThread volume => if volume.isIndexed files then some volume else last
  | .reload | .addFile _ | .deleteFile _ => last

/-- The files that the last pass of a run went through. -/
def lastIndexed (files : List Char) (actions : List IndexAction) : Option Volume :=
  actions.foldl (nextIndexed files) none

/-- What a run leaves: the counts of the files that its last pass went through, and rows of that pass or of files that
were added.
-/
def IndexState.IsLeftBy (files : List Char) (actions : List IndexAction) (state : IndexState) : Prop :=
  match lastIndexed files actions with
  | none => state.metadata = none ∧ state.filesCount = 0 ∧ state.directoriesCount = 0 ∧ state.filesSize = 0
  | some volume =>
      state.metadata = some (state.filesCount, state.directoriesCount, state.filesSize)
      ∧ (volume.indexFiles files).Accounts volume
      ∧ state.filesCount = (volume.indexFiles files).filesCount
      ∧ state.directoriesCount = (volume.indexFiles files).directoriesCount
      ∧ state.filesSize = (volume.indexFiles files).filesSize
      ∧ ∀ row ∈ state.rows, row ∈ (volume.indexFiles files).rows
        ∨ ∃ path, .addFile path ∈ actions ∧ row = addedRow files path

/-- The counts in the tables are those that are announced. -/
theorem IndexState.IsLeftBy.reload {files : List Char} {actions : List IndexAction} {state : IndexState}
    (left : state.IsLeftBy files actions)
    : state.reload = state := by
  rw [IsLeftBy] at left
  rw [IndexState.reload]
  split at left
  · rw [left.1]
  · simp only [left.1]
    rw [← left.1]

/-- An action that is no pass, and adds only a row for a file that it adds, leaves what was left before. -/
theorem IndexState.IsLeftBy.concat {files : List Char} {actions : List IndexAction} {state : IndexState}
    (left : state.IsLeftBy files actions) {action : IndexAction}
    (noPass : lastIndexed files (actions ++ [action]) = lastIndexed files actions) {rows : List IndexRow}
    (added : ∀ row ∈ rows, row ∈ state.rows ∨ ∃ path, .addFile path = action ∧ row = addedRow files path)
    : ({ state with rows := rows } : IndexState).IsLeftBy files (actions ++ [action]) := by
  rw [IsLeftBy] at left ⊢
  rw [noPass]
  split at left
  · exact left
  · obtain ⟨metadata, accounts, filesCount, directoriesCount, filesSize, inside⟩ := left
    refine ⟨metadata, accounts, filesCount, directoriesCount, filesSize, fun row mem => ?_⟩
    rcases added row mem with mem | ⟨path, rfl, same⟩
    · rcases inside row mem with mem | ⟨path, earlier, same⟩
      · exact .inl mem
      · exact .inr ⟨path, List.mem_append_left _ earlier, same⟩
    · exact .inr ⟨path, List.mem_append_right _ (List.mem_singleton_self _), same⟩

variable {absolute : Bool} {list : List (List Char)}

/-- The path that is cut off: a path of one character is the root. -/
theorem drop_pathLength (somewhere : absolute = true ∨ list ≠ [])
    (single : (render absolute list).length = 1 → render absolute list = ['/'])
    (areNames : ∀ name ∈ list, IsName name) {more : List (List Char)} (someMore : more ≠ [])
    : (render absolute (list ++ more)).drop (pathLength (render absolute list)) = '/' :: join more := by
  by_cases none : list = []
  · subst none
    obtain rfl := somewhere.resolve_right (fun some => some rfl)
    rfl
  · have joined : join (list ++ more) = join list ++ '/' :: join more := join_append none someMore
    have noRoot : render absolute list ≠ ['/'] := by
      intro same
      have isNames := names_render absolute areNames
      rw [same] at isNames
      exact none isNames.symm
    rw [pathLength, if_neg fun one => noRoot (single one)]
    cases absolute with
    | false => exact (congrArg (List.drop _) joined).trans List.drop_left
    | true =>
        have front : render true (list ++ more) = render true list ++ '/' :: join more :=
          congrArg ('/' :: ·) joined
        rw [front, List.drop_left]

/-- A row leads through the aliases to where it was found: its virtual path is made of names, which lead from the
files of the server to its real path.
-/
def Volume.IsPlaced (volume : Volume) (files : List Char) (row : IndexRow) : Prop :=
  ∃ list, list ≠ [] ∧ (∀ name ∈ list, IsName name) ∧ row.virtualPath = '/' :: join list
    ∧ row.realPath = list.foldl volume.follow (volume.resolving files)

/-- Names for the prefix of virtual paths, which lead to the path whose folder is gone through. -/
structure Volume.IsOpened (volume : Volume) (files path : List Char) ( pathprefix : Option (List Char))
    (front : List (List Char)) : Prop where
  areNames : ∀ name ∈ front, IsName name
  isPrefix : pathprefix = if front = [] then none else some ('/' :: join front)
  follows : front.foldl volume.follow (volume.resolving files) = path

/-- Behind a prefix, a virtual path and the next prefix are made of the names of both. -/
theorem Volume.IsOpened.behind {files : List Char} {front more : List (List Char)}
    (opened : volume.IsOpened files path pathprefix front) (someMore : more ≠ [])
    (areNames : ∀ name ∈ more, IsName name) (behind : filepath.drop (pathLength path) = '/' :: join more)
    : virtualPath path pathprefix filepath = '/' :: join (front ++ more)
      ∧ newPathPrefix path pathprefix filepath = '/' :: join (front ++ more) := by
  simp only [virtualPath, newPathPrefix, opened.isPrefix]
  by_cases none : front = []
  · subst none
    exact ⟨behind, behind⟩
  · have inside : filepath.drop (pathLength path + 1) = join more := by
      rw [← List.drop_drop, behind]
      rfl
    have isNames := names_join areNames
    have noSlash : join more ≠ ['/'] := by
      intro same
      rw [same] at isNames
      exact someMore isNames.symm
    have noEnd : ('/' :: join front).getLast? ≠ some '/' := by
      have some : join front ≠ [] := by
        intro empty
        have isFront := names_join opened.areNames
        rw [empty] at isFront
        exact none isFront.symm
      rw [← List.singleton_append, List.getLast?_append_of_ne_nil _ some]
      exact getLast?_join opened.areNames
    simp only [if_neg none, behind, inside, join_append none someMore]
    refine ⟨rfl, ?_⟩
    rw [appendPathComponent, if_neg (List.cons_ne_nil _ _), if_neg noEnd, if_pos noSlash]
    rfl

/-- What an entry of a folder that is gone through has to do with the names that lead to it: they make its virtual
path, and lead to its real path through the entries that it is below.
-/
structure Volume.Leads (volume : Volume) (files path : List Char) ( pathprefix : Option (List Char))
    (front : List (List Char)) (trail : List (List Char)) (filepath : List Char) (inner : List (List Char))
    (name : List Char) : Prop where
  areNames : ∀ other ∈ front ++ inner ++ [name], IsName other
  isVirtual : virtualPath path pathprefix filepath = '/' :: join (front ++ inner ++ [name])
  isPrefix : newPathPrefix path pathprefix filepath = '/' :: join (front ++ inner ++ [name])
  isReal : volume.resolvedPath filepath = (front ++ inner ++ [name]).foldl volume.follow (volume.resolving files)
  above : ∀ first rest, first ≠ [] → inner = first ++ rest →
    ∃ above ∈ trail, volume.resolvedPath above = (front ++ first).foldl volume.follow (volume.resolving files)
  target : volume.isAlias filepath = true →
    ∃ list, volume.resolvedPath filepath = render true list ∧ volume.Resolves true list

/-- Names lead to each entry of a folder that is gone through. -/
theorem Volume.IsOpened.leads {files : List Char} {front : List (List Char)} (lawful : volume.IsLawful)
    (opened : volume.IsOpened files (render absolute list) pathprefix front)
    (resolves : volume.Resolves absolute list)
    (single : (render absolute list).length = 1 → render absolute list = ['/'])
    {walk : Walk (List Char)} (enumerates : volume.enumerate (render absolute list) = some walk)
    {trail : List (List Char)} (has : walk.Has trail filepath)
    : ∃ inner name, volume.Leads files (render absolute list) pathprefix front trail filepath inner name := by
  obtain ⟨inner, name, isName, rfl, folder, follows, above⟩ := resolves.entry lawful enumerates has
  have areNames : ∀ other ∈ inner ++ [name], IsName other := by
    intro other mem
    rcases List.mem_append.mp mem with mem | mem
    · exact folder.areNames other (List.mem_append_right _ mem)
    · rwa [List.mem_singleton.mp mem]
  have someInner : inner ++ [name] ≠ [] := by simp
  have behind := drop_pathLength resolves.somewhere single resolves.areNames someInner
  rw [← List.append_assoc] at behind
  obtain ⟨isVirtual, isPrefix⟩ := opened.behind someInner areNames behind
  rw [← List.append_assoc] at isVirtual isPrefix
  have leads : (front ++ inner ++ [name]).foldl volume.follow (volume.resolving files)
      = volume.follow (render absolute (list ++ inner)) name := by
    rw [List.foldl_concat, List.foldl_append, opened.follows, follows]
  have appended := appendPathComponent_render absolute folder.areNames isName
  have real : volume.resolvedPath (render absolute (list ++ inner ++ [name]))
      = volume.follow (render absolute (list ++ inner)) name := by
    rw [resolvedPath]
    split
    · exact folder.resolving_concat isName
    · rename_i noAlias
      rw [Volume.follow, appended, lawful.plain _ (Bool.not_eq_true _ ▸ noAlias)]
  refine ⟨inner, name, ?_, isVirtual, isPrefix, real.trans leads.symm, fun first rest some split => ?_,
    fun isAlias => ?_⟩
  · intro other mem
    rw [List.append_assoc] at mem
    rcases List.mem_append.mp mem with mem | mem
    · exact opened.areNames other mem
    · exact areNames other mem
  · obtain ⟨mem, isAbove⟩ := above first rest some split
    refine ⟨_, mem, ?_⟩
    rw [List.foldl_append, opened.follows, isAbove, resolvedPath, lawful.files _ _ enumerates _ _ has _ mem]
    rfl
  · obtain ⟨absolute', list', leads', resolves', fromRoot, -⟩ := folder.follow lawful isName
    rw [appended] at fromRoot
    obtain rfl := fromRoot isAlias
    exact ⟨list', real.trans leads', resolves'⟩

/-- What is found at an entry that names lead to is placed. -/
theorem Volume.Leads.isPlaced {files : List Char} {front trail inner : List (List Char)} {name : List Char}
    (leads : volume.Leads files path pathprefix front trail filepath inner name) {found : Found}
    (isFound : volume.found path pathprefix filepath = some found)
    : found.row.virtualPath = '/' :: join (front ++ inner ++ [name])
      ∧ found.row.realPath = (front ++ inner ++ [name]).foldl volume.follow (volume.resolving files)
      ∧ found.row.isAlias = volume.isAlias filepath ∧ found.row.realPath = volume.resolvedPath filepath := by
  rw [Volume.found] at isFound
  split at isFound
  · cases isFound
  · obtain ⟨stats, -, rfl⟩ := Option.map_eq_some_iff.mp isFound
    exact ⟨leads.isVirtual, leads.isReal, rfl, rfl⟩

/-- Through an alias, names lead to a folder to go through. -/
theorem Volume.Leads.opened {files : List Char} {front trail inner : List (List Char)} {name : List Char}
    (leads : volume.Leads files path pathprefix front trail filepath inner name)
    (isAlias : volume.isAlias filepath = true)
    : ∃ list, volume.resolvedPath filepath = render true list ∧ volume.Resolves true list
      ∧ volume.IsOpened files (render true list) (some (newPathPrefix path pathprefix filepath))
          (front ++ inner ++ [name]) := by
  obtain ⟨list, isTarget, resolves⟩ := leads.target isAlias
  refine ⟨list, isTarget, resolves, leads.areNames, ?_, leads.isReal.symm.trans isTarget⟩
  rw [leads.isPrefix, if_neg (by simp)]

/-- A path from the root that has one character is the root. -/
theorem eq_root_of_length_one (one : (render true list).length = 1)
    : render true list = ['/'] := by
  rw [render, if_pos rfl, List.length_cons, Nat.add_eq_right, List.length_eq_zero_iff] at one
  rw [render, if_pos rfl, one]

/-- The rows of a pass are placed, by induction on the levels that are left. -/
theorem Volume.IsOpened.indexPath {files : List Char} {front : List (List Char)} (lawful : volume.IsLawful)
    (level : ℕ) (opened : volume.IsOpened files (render absolute list) pathprefix front)
    (resolves : volume.Resolves absolute list)
    (single : (render absolute list).length = 1 → render absolute list = ['/'])
    (placed : ∀ row ∈ index.rows, volume.IsPlaced files row)
    : ∀ row ∈ (volume.indexPath level (render absolute list) pathprefix index).rows,
        volume.IsPlaced files row := by
  induction level generalizing absolute list pathprefix front index with
  | zero => exact placed
  | succ level ih =>
      rw [Volume.indexPath]
      split
      · exact placed
      · rename_i walk enumerates
        refine Walk.loop_rule (fun index : Index => ∀ row ∈ index.rows, volume.IsPlaced files row)
          (fun trail entry state has placed => ?_) placed
        refine Volume.indexEntry_rule (fun index : Index => ∀ row ∈ index.rows, volume.IsPlaced files row)
          (fun found index isFound _ placed row mem => ?_) (fun found index isFound isAlias placed => ?_) placed
        · have rows : (volume.insertRow found index).rows = index.rows ++ [found.row] := by
            rw [Volume.insertRow]
            split <;> rfl
          rw [rows, List.mem_append, List.mem_singleton] at mem
          rcases mem with mem | rfl
          · exact placed row mem
          · obtain ⟨inner, name, leads⟩ := opened.leads lawful resolves single enumerates has
            obtain ⟨isVirtual, isReal, -⟩ := leads.isPlaced isFound
            exact ⟨_, by simp, leads.areNames, isVirtual, isReal⟩
        · obtain ⟨inner, name, leads⟩ := opened.leads lawful resolves single enumerates has
          obtain ⟨-, -, sameAlias, isReal⟩ := leads.isPlaced isFound
          obtain ⟨list', isTarget, resolves', opened'⟩ := leads.opened (sameAlias ▸ isAlias)
          rw [isReal, isTarget]
          exact ih opened' resolves' eq_root_of_length_one placed

/-- A folder `/f` with an alias to the folder `/g`, and a drop box. -/
def aliasVolume : Volume where
  enumerate path :=
    if path = "/f".toList then
      some (.visit "/f/a".toList .done (.visit "/f/d".toList (.visit "/f/d/s".toList .done .done) .done))
    else if path = "/g".toList then some (.visit "/g/x".toList .done .done)
    else none
  directory _ := none
  available _ := none
  lstat path := some ⟨1, UInt64.ofNat (path.foldl (fun sum char => 128 * sum + char.toNat) 0),
    if path = "/g/x".toList || path = "/f/d/s".toList then 0o100644 else 0o040755, 0, 0, 10⟩
  stat _ := none
  isInvisible _ := false
  isAlias path := path = "/f/a".toList
  resolveMacAlias path := if path = "/f/a".toList then "/g".toList else path
  resourceForkSize _ := 0
  label _ := 0
  typeOfDirectory path := if path = "/f/d".toList then .dropBox else .dir
  dropBoxPrivileges _ := ⟨[], [], 0⟩

/-- The alias is a file, and leads to a folder that no alias leads to. -/
theorem aliasVolume_isLawful
    : aliasVolume.IsLawful where
  spelled := by
    intro path walk enumerates trail entry has
    simp only [aliasVolume] at enumerates
    split at enumerates
    · subst path
      cases enumerates
      rcases has with _ | (_ | _) | (_ | (_ | (_ | _) | (_ | _)) | (_ | _))
      · exact ⟨"a".toList, by decide, by decide⟩
      · exact ⟨"d".toList, by decide, by decide⟩
      · exact ⟨"s".toList, by decide, by decide⟩
    · split at enumerates
      · subst path
        cases enumerates
        rcases has with _ | (_ | _) | (_ | _)
        exact ⟨"x".toList, by decide, by decide⟩
      · cases enumerates
  files := by
    intro path walk enumerates trail entry has above mem
    simp only [aliasVolume] at enumerates
    split at enumerates
    · cases enumerates
      rcases has with _ | (_ | _) | (_ | (_ | (_ | _) | (_ | _)) | (_ | _))
      · cases mem
      · cases mem
      · rw [List.mem_singleton.mp mem]
        decide
    · split at enumerates
      · cases enumerates
        rcases has with _ | (_ | _) | (_ | _)
        cases mem
      · cases enumerates
  plain := fun path noAlias => if_neg (of_decide_eq_false noAlias)
  target := by
    intro path isAlias
    obtain rfl := of_decide_eq_true isAlias
    exact ⟨["g".toList], by decide, rfl, rfl⟩

namespace Volume

/-- Whether a drop box is found. -/
def isDropBox (volume : Volume) (found : Found) : Bool :=
  volume.typeWithStat found.row.realPath found.sb = .dropBox

/-- The entries of a folder that are reached without going into a drop box. -/
def entries (volume : Volume) (path : List Char) ( pathprefix : Option (List Char)) (level : ℕ)
    (walk : Walk (List Char)) : List (List Char) :=
  walk.shown (fun _ filepath => (volume.found path pathprefix filepath).isSome)
    (fun _ filepath => (volume.found path pathprefix filepath).any (!volume.isDropBox ·)) level

/-- The place of an entry, and those that are reached through it if it is an alias. -/
def entryPlaces (volume : Volume) (places : List Char → Option (List Char) → List Found) (path : List Char)
    ( pathprefix : Option (List Char)) (filepath : List Char) : List Found :=
  (volume.found path pathprefix filepath).toList.flatMap fun found =>
    found :: if !volume.isDropBox found && found.row.isAlias && found.sb.isDirectory then
      places found.row.realPath (some (newPathPrefix path pathprefix filepath))
    else []

/-- The places that can be reached through folders and aliases without going into a drop box, in the order of a
pass, with as many levels as are left. A place may be reached more than once.
-/
def places (volume : Volume) : ℕ → List Char → Option (List Char) → List Found
  | 0, _, _ => []
  | level + 1, path, pathprefix =>
      (volume.enumerate path).elim [] fun walk =>
        (volume.entries path pathprefix 0 walk).flatMap (volume.entryPlaces (places volume level) path pathprefix)

/-- No place has the device and inode of a drop box that comes after it. -/
def DropBoxesComeOnce (volume : Volume) (places : List Found) : Prop :=
  places.Pairwise fun place next => volume.isDropBox next = true → place.lsb.key ≠ next.lsb.key

/-- Whether drop boxes come once can be decided. -/
instance decidableDropBoxesComeOnce (volume : Volume) (places : List Found)
    : Decidable (volume.DropBoxesComeOnce places) :=
  inferInstanceAs (Decidable (places.Pairwise fun place next =>
    volume.isDropBox next = true → place.lsb.key ≠ next.lsb.key))

end Volume

/-- What an index becomes when places are gone through, each of which may be left out. -/
structure Index.Extends (index : Index) (places : List Volume.Found) (next : Index) : Prop where
  rows : ∃ rows, next.rows = index.rows ++ rows ∧ rows.Sublist (places.map (·.row))
  dictionary : ∀ key ∈ next.dictionary, key ∈ index.dictionary ∨ ∃ place ∈ places, place.lsb.key = key

variable {next last : Index} {places more : List Volume.Found}

/-- All places may be left out. -/
theorem Index.Extends.refl (index : Index) (places : List Volume.Found)
    : index.Extends places index :=
  ⟨⟨[], (List.append_nil _).symm, List.nil_sublist _⟩, fun _ mem => .inl mem⟩

/-- Places may be gone through one part after the other. -/
theorem Index.Extends.trans (first : index.Extends places next) (second : next.Extends more last)
    : index.Extends (places ++ more) last := by
  obtain ⟨⟨rows, isNext, inside⟩, dictionary⟩ := first
  obtain ⟨⟨rows', isLast, inside'⟩, dictionary'⟩ := second
  refine ⟨⟨rows ++ rows', ?_, ?_⟩, fun key mem => ?_⟩
  · rw [isLast, isNext, List.append_assoc]
  · rw [List.map_append]
    exact inside.append inside'
  · rcases dictionary' key mem with mem | ⟨place, mem, same⟩
    · rcases dictionary key mem with mem | ⟨place, mem, same⟩
      · exact .inl mem
      · exact .inr ⟨place, List.mem_append_left _ mem, same⟩
    · exact .inr ⟨place, List.mem_append_right _ mem, same⟩

/-- No drop box among the places has been met. -/
def Index.IsNewTo (volume : Volume) (index : Index) (places : List Volume.Found) : Prop :=
  ∀ place ∈ places, volume.isDropBox place = true → place.lsb.key ∉ index.dictionary

/-- Drop boxes that come once have not been met after the places before them. -/
theorem Index.IsNewTo.after (isNew : index.IsNewTo volume (places ++ more)) (extends' : index.Extends places next)
    (once : volume.DropBoxesComeOnce (places ++ more))
    : next.IsNewTo volume more := by
  intro place mem isDropBox inside
  rcases extends'.dictionary _ inside with before | ⟨other, earlier, same⟩
  · exact isNew place (List.mem_append_right _ mem) isDropBox before
  · exact (List.pairwise_append.mp once).2.2 other earlier place mem isDropBox same

/-- A row extends an index by its place. -/
theorem Index.Extends.insertRow (volume : Volume) (index : Index) (found : Volume.Found)
    : index.Extends [found] (volume.insertRow found index) := by
  have inserted : (volume.insertRow found index).rows = index.rows ++ [found.row]
      ∧ (volume.insertRow found index).dictionary = insert found.lsb.key index.dictionary := by
    rw [Volume.insertRow]
    split <;> exact ⟨rfl, rfl⟩
  refine ⟨⟨[found.row], inserted.1, List.Sublist.refl _⟩, fun key mem => ?_⟩
  rw [inserted.2, Finset.mem_insert] at mem
  rcases mem with rfl | mem
  · exact .inr ⟨found, List.mem_singleton_self _, rfl⟩
  · exact .inl mem

/-- What goes through places that have not been met extends the index by them. -/
def Volume.GoesThrough (volume : Volume) (places : List Volume.Found) (go : Index → Index) : Prop :=
  ∀ index : Index, volume.DropBoxesComeOnce places → index.IsNewTo volume places →
    index.Extends places (go index)

variable {indexPath' : List Char → Option (List Char) → Index → Index}
  {places' : List Char → Option (List Char) → List Volume.Found}

/-- The body of the loop goes through the places of its entry, and goes on below it only if it is not a drop box.
-/
theorem Index.Extends.indexEntry
    (recurses : ∀ path pathprefix, volume.GoesThrough (places' path pathprefix) (indexPath' path pathprefix))
    (once : volume.DropBoxesComeOnce (volume.entryPlaces places' path pathprefix filepath))
    (isNew : index.IsNewTo volume (volume.entryPlaces places' path pathprefix filepath))
    : index.Extends (volume.entryPlaces places' path pathprefix filepath)
        (volume.indexEntry indexPath' path pathprefix filepath index).1
      ∧ ((volume.indexEntry indexPath' path pathprefix filepath index).2 = true →
        (volume.found path pathprefix filepath).any (!volume.isDropBox ·) = true) := by
  rw [Volume.entryPlaces] at once isNew ⊢
  rw [Volume.indexEntry]
  cases isFound : volume.found path pathprefix filepath with
  | none => exact ⟨.refl index _, fun skipped => (Bool.false_ne_true skipped).elim⟩
  | some found =>
      rw [isFound, Option.toList_some, List.flatMap_singleton] at once isNew
      rw [Option.toList_some, List.flatMap_singleton, Option.any_some]
      dsimp only
      by_cases seen : found.lsb.key ∈ index.dictionary
      · rw [if_pos seen]
        refine ⟨.refl index _, fun _ => ?_⟩
        cases isDropBox : volume.isDropBox found with
        | false => rfl
        | true => exact absurd seen (isNew found List.mem_cons_self isDropBox)
      · rw [if_neg seen]
        have inserted := Index.Extends.insertRow volume index found
        cases isDropBox : volume.isDropBox found with
        | true =>
            rw [if_pos (of_decide_eq_true isDropBox)]
            exact ⟨inserted.trans (.refl _ _), fun skipped => (Bool.false_ne_true skipped).elim⟩
        | false =>
            rw [if_neg (of_decide_eq_false isDropBox)]
            simp only [isDropBox, Bool.not_false, Bool.true_and] at once isNew ⊢
            split
            · rename_i follows
              rw [if_pos follows, ← List.singleton_append] at once isNew
              refine ⟨inserted.trans (recurses _ _ _ (List.pairwise_append.mp once).2.1 ?_), fun _ => trivial⟩
              exact isNew.after inserted once
            · exact ⟨inserted.trans (.refl _ _), fun _ => trivial⟩

/-- The loop of a folder goes through the places of its entries, by induction on the walk. -/
theorem Volume.GoesThrough.loop
    (recurses : ∀ path pathprefix, volume.GoesThrough (places' path pathprefix) (indexPath' path pathprefix))
    (walk : Walk (List Char)) (level level' : ℕ)
    : volume.GoesThrough
        ((volume.entries path pathprefix level' walk).flatMap (volume.entryPlaces places' path pathprefix))
        (walk.loop (fun _ => volume.indexEntry indexPath' path pathprefix) level) := by
  intro index once isNew
  induction walk generalizing level level' index with
  | done => exact .refl index _
  | failed other rest ih => exact ih level level' index once isNew
  | visit filepath descendents rest ihBelow ihRest =>
      have first : (if (volume.found path pathprefix filepath).isSome then [filepath] else []).flatMap
          (volume.entryPlaces places' path pathprefix)
          = volume.entryPlaces places' path pathprefix filepath := by
        cases isFound : volume.found path pathprefix filepath with
        | none =>
            rw [Volume.entryPlaces, isFound]
            rfl
        | some found => simp
      rw [Volume.entries, Walk.shown, List.flatMap_append, List.flatMap_append, first] at once isNew ⊢
      have onceFirst := (List.pairwise_append.mp once).1
      have newFirst : index.IsNewTo volume _ := fun place mem => isNew place (List.mem_append_left _ mem)
      obtain ⟨entered, enters⟩ := Index.Extends.indexEntry recurses
        (List.pairwise_append.mp onceFirst).1 fun place mem => newFirst place (List.mem_append_left _ mem)
      rw [Walk.loop]
      cases goesOn : (volume.indexEntry indexPath' path pathprefix filepath index).2 with
      | true =>
          simp only [if_true]
          rw [if_pos (enters goesOn)] at once isNew onceFirst newFirst ⊢
          have below := entered.trans
            (ihBelow (level + 1) (level' + 1) _ (List.pairwise_append.mp onceFirst).2.1
              (newFirst.after entered onceFirst))
          exact below.trans
            (ihRest level level' _ (List.pairwise_append.mp once).2.1 (isNew.after below once))
      | false =>
          simp only [Bool.false_eq_true, if_false]
          refine (entered.trans (.refl _ _)).trans
            (ihRest level level' _ (List.pairwise_append.mp once).2.1 (isNew.after ?_ once))
          exact entered.trans (.refl _ _)

/-- A pass goes through the places outside of drop boxes, by induction on the levels that are left. -/
theorem Volume.GoesThrough.indexPath (level : ℕ) (path : List Char) ( pathprefix : Option (List Char))
    : volume.GoesThrough (volume.places level path pathprefix) (volume.indexPath level path pathprefix) := by
  induction level generalizing path pathprefix with
  | zero => exact fun index _ _ => .refl index _
  | succ level ih =>
      intro index
      rw [Volume.places, Volume.indexPath]
      cases volume.enumerate path with
      | none => exact fun _ _ => .refl index _
      | some walk => exact Volume.GoesThrough.loop ih walk 0 0 index

/-- If no drop box is reached after a place with the same device and inode, the rows of a pass are those of places
that can be reached without going into a drop box.
-/
theorem indexFiles_sublist_places (files : List Char)
    (once : volume.DropBoxesComeOnce (volume.places indexMaxLevel (volume.resolving files) none))
    : (volume.indexFiles files).rows.Sublist
        ((volume.places indexMaxLevel (volume.resolving files) none).map (·.row)) := by
  obtain ⟨⟨rows, isRows, inside⟩, -⟩ := Volume.GoesThrough.indexPath indexMaxLevel (volume.resolving files) none
    .empty once fun _ _ _ => Finset.notMem_empty _
  rwa [Volume.indexFiles, isRows]

/-- Names lead to a drop box. -/
def Volume.IsDropBoxAt (volume : Volume) (files : List Char) (front : List (List Char)) : Prop :=
  ∃ stats, volume.stats (front.foldl volume.follow (volume.resolving files)) = some stats
    ∧ volume.typeWithStat (front.foldl volume.follow (volume.resolving files)) stats.2 = .dropBox

/-- None of the folders that names lead through is a drop box. -/
def Volume.IsClear (volume : Volume) (files : List Char) (list : List (List Char)) : Prop :=
  ∀ first rest, first ≠ [] → list = first ++ rest → ¬ volume.IsDropBoxAt files first

/-- A place lies in a folder that no drop box leads to. -/
def Volume.IsOutside (volume : Volume) (files : List Char) (row : IndexRow) : Prop :=
  ∃ list name, (∀ other ∈ list ++ [name], IsName other) ∧ row.virtualPath = '/' :: join (list ++ [name])
    ∧ volume.IsClear files list

/-- The places of a pass lie outside of drop boxes, by induction on the levels that are left. -/
theorem Volume.IsOpened.outside {files : List Char} {front : List (List Char)} (lawful : volume.IsLawful)
    (level : ℕ) (opened : volume.IsOpened files (render absolute list) pathprefix front)
    (resolves : volume.Resolves absolute list)
    (single : (render absolute list).length = 1 → render absolute list = ['/'])
    (clear : volume.IsClear files front)
    : ∀ place ∈ volume.places level (render absolute list) pathprefix, volume.IsOutside files place.row := by
  induction level generalizing absolute list pathprefix front with
  | zero => exact fun _ mem => absurd mem List.not_mem_nil
  | succ level ih =>
      intro place mem
      rw [Volume.places] at mem
      cases enumerates : volume.enumerate (render absolute list) with
      | none =>
          rw [enumerates] at mem
          exact absurd mem List.not_mem_nil
      | some walk =>
          rw [enumerates, Option.elim_some] at mem
          obtain ⟨filepath, isEntry, mem⟩ := List.mem_flatMap.mp mem
          obtain ⟨trail, has, -, entered⟩ := Walk.mem_shown_iff.mp isEntry
          obtain ⟨inner, name, leads⟩ := opened.leads lawful resolves single enumerates has
          -- The entries above have been found, and are no drop boxes.
          have noneAbove {above : List Char} (isAbove : above ∈ trail) {stats : FileStat × FileStat}
              (isStats : volume.stats (volume.resolvedPath above) = some stats)
              : volume.typeWithStat (volume.resolvedPath above) stats.2 ≠ .dropBox := by
            obtain ⟨index, at'⟩ := List.getElem?_of_mem isAbove
            have isFound := entered index above at'
            simp only [Volume.found, isStats] at isFound
            split at isFound
            · cases isFound
            · simpa [isDropBox] using isFound
          have clear' : volume.IsClear files (front ++ inner) := by
            rintro first rest some split ⟨stats, isStats, isDropBox⟩
            rcases List.append_eq_append_iff.mp split with ⟨more, rfl, behind⟩ | ⟨more, before, -⟩
            · by_cases none : more = []
              · subst none
                rw [List.append_nil] at isStats isDropBox
                exact clear front [] (by simpa using some) (List.append_nil _).symm ⟨stats, isStats, isDropBox⟩
              · obtain ⟨above, isAbove, same⟩ := leads.above more rest none behind
                rw [← same] at isStats isDropBox
                exact noneAbove isAbove isStats isDropBox
            · exact clear first more some before ⟨stats, isStats, isDropBox⟩
          rw [entryPlaces] at mem
          cases isFound : volume.found (render absolute list) pathprefix filepath with
          | none =>
              rw [isFound] at mem
              exact absurd mem List.not_mem_nil
          | some found =>
              rw [isFound, Option.toList_some, List.flatMap_singleton] at mem
              obtain ⟨isVirtual, isReal, sameAlias, isResolved⟩ := leads.isPlaced isFound
              rcases List.mem_cons.mp mem with rfl | mem
              · exact ⟨front ++ inner, name, leads.areNames, isVirtual, clear'⟩
              · split at mem
                · rename_i follows
                  rw [Bool.and_eq_true, Bool.and_eq_true, Bool.not_eq_true'] at follows
                  obtain ⟨⟨noDropBox, isAlias⟩, -⟩ := follows
                  obtain ⟨list', isTarget, resolves', opened'⟩ := leads.opened (sameAlias ▸ isAlias)
                  rw [isResolved, isTarget] at mem
                  refine ih opened' resolves' eq_root_of_length_one ?_ place mem
                  rintro first rest some split ⟨stats, isStats, isDropBox⟩
                  rcases List.eq_nil_or_concat rest with rfl | ⟨rest, last, rfl⟩
                  · rw [List.append_nil] at split
                    rw [← split, ← isReal] at isStats isDropBox
                    rw [stats_of_found isFound] at isStats
                    cases isStats
                    exact of_decide_eq_false noDropBox isDropBox
                  · rw [List.concat_eq_append, ← List.append_assoc] at split
                    exact clear' first rest some (List.append_inj_left' split rfl) ⟨stats, isStats, isDropBox⟩
                · exact absurd mem List.not_mem_nil

/-- A folder `/f/a` with a drop box, and a symbolic link to it, through which the drop box is met a second time. -/
def linkVolume : Volume :=
  let original (path : List Char) : List Char :=
    if "/f/l/".toList.isPrefixOf path then "/f/a".toList ++ path.drop 4 else path
  { aliasVolume with
    enumerate := fun path =>
      if path = "/f".toList then
        some (.visit "/f/a".toList (.visit "/f/a/d".toList (.visit "/f/a/d/s".toList .done .done) .done)
          (.visit "/f/l".toList (.visit "/f/l/d".toList (.visit "/f/l/d/s".toList .done .done) .done) .done))
      else none
    lstat := fun path => aliasVolume.lstat (original path)
    isAlias := fun _ => false
    resolveMacAlias := id
    typeOfDirectory := fun path => if original path = "/f/a/d".toList then .dropBox else .dir }

/-- The hypothesis is needed: behind the link, the file in the drop box gets into the index. -/
example : (linkVolume.indexFiles "/f".toList).rows.map (·.virtualPath)
    = ["/a".toList, "/a/d".toList, "/l".toList, "/l/d/s".toList] := by
  decide

end WiredServer.Files
