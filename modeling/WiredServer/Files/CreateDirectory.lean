import WiredServer.Files.LexicalPaths

/-! Creating a directory. A drop box that gets no privileges is deleted again, by the path of the client in
place of its real path.
-/

namespace WiredServer.Files

open WiredServer.PathStrings Subtrees

-----------------------------------------------------------------------------------------
-- System calls
-----------------------------------------------------------------------------------------

/-- A system without links: how its file systems compare names, and the place of the current directory. -/
structure DiskView where
  fold : List Char → List Char
  current : List (List Char)

/-- How `mkdir` ends where nothing is in the way: with a new directory, or not. -/
abbrev MakeCall :=
  Option ℕ

/-- How the calls of `wi_string_write_to_file` end: whether the file beside the path can be opened, whether
it can be renamed, and whether it is gone if it cannot.
-/
structure WriteCall where
  opens : Bool
  renames : Bool
  unlinks : Bool
  id : ℕ

/-- How the calls end that store a file in the directory for such files. -/
structure StoreCalls where
  directory : MakeCall
  file : WriteCall

/-- How the calls of a request end. -/
structure DirectoryCalls where
  directory : MakeCall
  type : StoreCalls
  privileges : StoreCalls

namespace DiskView

variable (disk : DiskView)

/-- The place of names: they lead down, dots nowhere and two dots up. -/
def placeOf (absolute : Bool) (list : List (List Char)) : List (List Char) :=
  (list.foldl resolveName (if absolute then [] else disk.current)).map disk.fold

/-- The place of a path. -/
def place (path : List Char) : List (List Char) :=
  disk.placeOf (isAbsolute path) (names path)

/-- What `lstat` finds. -/
def lstatPath (entries : Entries (List Char) TreeEntry) (path : List Char) : Option TreeEntry :=
  if path = [] then none else entries (disk.place path)

/-- Whether the parent of a place is a directory. -/
def hasParent (entries : Entries (List Char) TreeEntry) (place : List (List Char)) : Bool :=
  (entries place.dropLast).any fun parent => parent.contents.isNone

/-- `wi_fs_create_directory`, unless it fails. -/
def createDirectory (entries : Entries (List Char) TreeEntry) (path : List Char) (call : MakeCall)
    : Option (Entries (List Char) TreeEntry) :=
  let place := disk.place path
  call.bind fun id =>
    if path ≠ [] ∧ entries place = none ∧ hasParent entries place then
      some (Function.update entries place (some ⟨id, lastPathComponent path, none⟩))
    else none

/-- `wi_string_write_to_file` and its result. -/
def writeToFile (entries : Entries (List Char) TreeEntry) (string path : List Char) (call : WriteCall)
    : Entries (List Char) TreeEntry × Bool :=
  let fullpath := path ++ ['~']
  let contents := string.map fun char => char.val.toUInt8
  if !call.opens || !hasParent entries (disk.place fullpath) then (entries, false)
  else if call.renames then
    (Function.update (Function.update entries (disk.place fullpath) none) (disk.place path)
      (some ⟨call.id, lastPathComponent path, some contents⟩), true)
  else if call.unlinks then (Function.update entries (disk.place fullpath) none, false)
  else
    (Function.update entries (disk.place fullpath)
      (some ⟨call.id, lastPathComponent fullpath, some contents⟩), false)

/-- `wi_fs_delete_path`, whose calls do not fail. -/
def deletePath (entries : Entries (List Char) TreeEntry) (path : List Char)
    : Entries (List Char) TreeEntry :=
  match disk.lstatPath entries path with
  | none => entries
  | some _ => thinned entries (disk.place path) fun _ => false

/-- What can be reached by each location, where these files can be opened. -/
def system (entries : Entries (List Char) TreeEntry) (opens : List (List Char) → Bool) : FileSystem :=
  fun location =>
    let place := disk.placeOf location.absolute location.names
    (entries place).map fun entry =>
      match entry.contents with
      | none => .directory
      | some bytes => .file ⟨bytes.map fun byte => Char.ofNat byte.toNat, opens place⟩

-----------------------------------------------------------------------------------------
-- The request
-----------------------------------------------------------------------------------------

/-- A file in the directory that the server keeps in a directory, for its type or its privileges. -/
def storeMetaFile (entries : Entries (List Char) TreeEntry) (realpath : List Char) (name : String)
    (string : List Char) (calls : StoreCalls)
    : Entries (List Char) TreeEntry × Bool :=
  let metapath := appendPathComponent realpath ".wired".toList
  let filepath := appendPathComponent realpath name.toList
  match disk.createDirectory entries metapath calls.directory with
  | some entries => disk.writeToFile entries string filepath calls.file
  | none =>
      if (disk.lstatPath entries metapath).isSome then
        disk.writeToFile entries string filepath calls.file
      else (entries, false)

end DiskView

/-- The number of a type. -/
def FileType.number : FileType → UInt32
  | .file => 0
  | .dir => 1
  | .uploads => 2
  | .dropBox => 3
  | .other number => number

/-- A request to create a directory, by its path, type and privileges. -/
structure DirectoryRequest where
  path : List Char
  type : FileType
  privileges : FilePrivileges

/-- What is read of an account for this request: it has a directory of its own, or none. -/
structure DirectoryAccount extends FileAccount where
  files : List Char
  createDirectories : Bool
  setPermissions : Bool

/-- What `wd_message_file_create_directory` replies. -/
inductive DirectoryReply where
  | okay
  | fileNotFound
  | permissionDenied
  | fileErrno
  deriving DecidableEq, Repr

/-- What comes of the request: the last reply, the files, and whether a directory was created that got no
privileges.
-/
structure DirectoryOutcome where
  reply : DirectoryReply
  entries : Entries (List Char) TreeEntry
  rolledBack : Bool

namespace DiskView

variable (disk : DiskView)

/-- `wd_files_set_type`, for another type than that of a directory. -/
def setType (entries : Entries (List Char) TreeEntry) (realpath : List Char) (type : FileType)
    (calls : StoreCalls)
    : Entries (List Char) TreeEntry × Bool :=
  disk.storeMetaFile entries realpath ".wired/type" ((toString type.number).toList ++ ['\n']) calls

/-- `wd_files_set_privileges` -/
def setPrivileges (entries : Entries (List Char) TreeEntry) (realpath : List Char)
    (privileges : FilePrivileges) (calls : StoreCalls)
    : Entries (List Char) TreeEntry × Bool :=
  disk.storeMetaFile entries realpath ".wired/permissions" privileges.string calls

/-- `wd_files_create_path`, unless the directory cannot be created. -/
def createPath (entries : Entries (List Char) TreeEntry) (realpath : List Char) (type : FileType)
    (calls : DirectoryCalls)
    : Option (Entries (List Char) TreeEntry) :=
  (disk.createDirectory entries realpath calls.directory).map fun entries =>
    if type ≠ .dir then (disk.setType entries realpath type calls.type).1 else entries

/-- The part of `wd_message_file_create_directory` behind its checks, for a normalised path. -/
def createCheckedPath (tree : FileTree) (files : List Char) (account : DirectoryAccount)
    (path : List Char) (request : DirectoryRequest) (calls : DirectoryCalls)
    : DirectoryOutcome :=
  let realpath := resolvedPath files account.files path
  match disk.createPath tree.entries realpath request.type calls with
  | none => ⟨.fileErrno, tree.entries, false⟩
  | some entries =>
      if request.type = .dropBox ∧ account.setPermissions then
        let (entries, set) := disk.setPrivileges entries realpath request.privileges calls.privileges
        if set then ⟨.okay, entries, false⟩
        else ⟨.fileErrno, disk.deletePath entries path, true⟩
      else ⟨.okay, entries, false⟩

/-- `wd_message_file_create_directory`, unless a path with the tilde of another user ends the server. -/
def fileCreateDirectory (tree : FileTree) (opens : List (List Char) → Bool)
    (home : Option (List Char)) (files : List Char) (account : DirectoryAccount)
    (request : DirectoryRequest) (calls : DirectoryCalls)
    : Option DirectoryOutcome :=
  if !pathIsValid request.path then some ⟨.fileNotFound, tree.entries, false⟩
  else
    (normalizePath home request.path).map fun path =>
      let privileges :=
        (disk.system tree.entries opens).privileges (rootPath files account.files) path
      let permitted :=
        match privileges with
        | some privileges => privileges.isWritableByAccount account.toFileAccount
        | none => account.createDirectories
      if permitted then disk.createCheckedPath tree files account path request calls
      else ⟨.permissionDenied, tree.entries, false⟩

end DiskView

-----------------------------------------------------------------------------------------
-- Places
-----------------------------------------------------------------------------------------

/-- Names that lead down lead below a place, by induction on them from their end. -/
theorem foldl_resolveName (place : List (List Char)) {list : List (List Char)}
    (down : ∀ name ∈ list, name ≠ ['.'] ∧ name ≠ ['.', '.'])
    : list.foldl resolveName place = place ++ list := by
  induction list using List.reverseRecOn with
  | nil => simp
  | append_singleton list name ih =>
      obtain ⟨dot, up⟩ := down name (by simp)
      rw [List.foldl_concat, ih fun other mem => down other (List.mem_append_left _ mem), resolveName,
        if_neg dot, if_neg up, List.append_assoc]

namespace DiskView

variable {disk : DiskView}

/-- What is appended to a path stands behind what it names. -/
theorem appendPathComponent_append (path : List Char) {component : List Char}
    (nonempty : component ≠ []) (relative : component.head? ≠ some '/') (rest : List Char)
    : appendPathComponent path component ++ rest = appendPathComponent path (component ++ rest) := by
  have other : component ≠ ['/'] := fun slash => relative (by rw [slash]; rfl)
  have head : (component ++ rest).head? = component.head? := List.head?_append_of_ne_nil _ nonempty
  have other' : component ++ rest ≠ ['/'] := by
    intro slash
    rw [slash] at head
    exact relative head.symm
  unfold appendPathComponent
  rw [head, if_neg relative, if_neg relative, if_pos other, if_pos other']
  split
  · rfl
  · split <;> simp

/-- A component that leads down is below a path. -/
theorem place_appendPathComponent {path component : List Char} (some : path ≠ [])
    (relative : component.head? ≠ .some '/')
    (down : ∀ name ∈ names component, name ≠ ['.'] ∧ name ≠ ['.', '.'])
    : disk.place (appendPathComponent path component)
      = disk.place path ++ (names component).map disk.fold := by
  have other : component ≠ ['/'] := fun slash => relative (by rw [slash]; rfl)
  have start (rest : List Char) : isAbsolute (path ++ rest) = isAbsolute path := by
    rw [isAbsolute, List.head?_append_of_ne_nil _ some, isAbsolute]
  have parts : isAbsolute (appendPathComponent path component) = isAbsolute path
      ∧ names (appendPathComponent path component) = names path ++ names component := by
    rw [appendPathComponent, if_neg some, if_neg relative, if_pos other]
    split
    · rename_i last
      exact ⟨start _, PathComponents.components_append '/' (.inr (.inl last))⟩
    · exact ⟨start _, PathComponents.components_append_cons '/' path component⟩
  rw [place, place, parts.1, parts.2, placeOf, placeOf, List.foldl_append, foldl_resolveName _ down,
    List.map_append]

/-- Two trees differ only below a place. -/
def DifferBelow (place : List (List Char)) (entries entries' : Entries (List Char) TreeEntry) : Prop :=
  ∀ path, entries' path ≠ entries path → ∃ rest, rest ≠ [] ∧ path = place ++ rest

theorem DifferBelow.refl (place : List (List Char)) (entries : Entries (List Char) TreeEntry)
    : DifferBelow place entries entries :=
  fun _ differ => absurd rfl differ

/-- A change below a place leaves the rest. -/
theorem DifferBelow.update {place : List (List Char)} {entries entries' : Entries (List Char) TreeEntry}
    (below : DifferBelow place entries entries') {rest : List (List Char)} (some : rest ≠ [])
    (entry : Option TreeEntry)
    : DifferBelow place entries (Function.update entries' (place ++ rest) entry) := by
  intro path differ
  by_cases same : path = place ++ rest
  · exact ⟨rest, some, same⟩
  · rw [Function.update_of_ne same] at differ
    exact below path differ

/-- What a file is kept under in a directory: a relative path that leads down, and its names. -/
structure IsMetaName (name : List Char) : Prop where
  relative : name.head? ≠ some '/'
  some : names name ≠ []
  down : ∀ part ∈ names name, part ≠ ['.'] ∧ part ≠ ['.', '.']

instance IsMetaName.decidable (name : List Char) : Decidable (IsMetaName name) :=
  decidable_of_iff (name.head? ≠ .some '/' ∧ names name ≠ []
      ∧ ∀ part ∈ names name, part ≠ ['.'] ∧ part ≠ ['.', '.'])
    ⟨fun ⟨relative, some, down⟩ => ⟨relative, some, down⟩,
      fun isName => ⟨isName.relative, isName.some, isName.down⟩⟩

variable (disk) in
/-- Such a file is below the directory. -/
theorem IsMetaName.below {name : List Char} (isName : IsMetaName name) {path : List Char}
    (some : path ≠ [])
    : ∃ rest, rest ≠ [] ∧ disk.place (appendPathComponent path name) = disk.place path ++ rest :=
  ⟨_, by simpa using isName.some, place_appendPathComponent some isName.relative isName.down⟩

/-- A file is written below its directory only. -/
theorem differBelow_writeToFile {entries entries' : Entries (List Char) TreeEntry}
    {realpath name : List Char} (isName : IsMetaName name) (isTemporary : IsMetaName (name ++ ['~']))
    (some : realpath ≠ []) (below : DifferBelow (disk.place realpath) entries entries')
    (string : List Char) (call : WriteCall)
    : DifferBelow (disk.place realpath) entries
        (disk.writeToFile entries' string (appendPathComponent realpath name) call).1 := by
  have nonempty : name ≠ [] := by
    rintro rfl
    exact isName.some rfl
  obtain ⟨rest, more, isPlace⟩ := isName.below disk some
  obtain ⟨rest', more', isPlace'⟩ := isTemporary.below disk some
  rw [writeToFile, appendPathComponent_append realpath nonempty isName.relative, isPlace, isPlace']
  split
  · exact below
  · split
    · exact (below.update more' none).update more _
    · split
      · exact below.update more' none
      · exact below.update more' _

/-- A file that is stored in a directory changes nothing elsewhere. -/
theorem differBelow_storeMetaFile {entries : Entries (List Char) TreeEntry} {realpath : List Char}
    {name : String} (isName : IsMetaName name.toList) (isTemporary : IsMetaName (name.toList ++ ['~']))
    (some : realpath ≠ []) (string : List Char) (calls : StoreCalls)
    : DifferBelow (disk.place realpath) entries
        (disk.storeMetaFile entries realpath name string calls).1 := by
  have isMeta : IsMetaName ".wired".toList := by decide
  obtain ⟨rest, more, isPlace⟩ := isMeta.below disk some
  have same := DifferBelow.refl (disk.place realpath) entries
  rw [storeMetaFile]
  cases created : disk.createDirectory entries (appendPathComponent realpath ".wired".toList)
      calls.directory with
  | some entries' =>
      obtain ⟨id, -, made⟩ := Option.bind_eq_some_iff.mp created
      split at made
      · cases made
        refine differBelow_writeToFile isName isTemporary some ?_ string calls.file
        rw [isPlace]
        exact same.update more _
      · cases made
  | none =>
      dsimp only
      split
      · exact differBelow_writeToFile isName isTemporary some same string calls.file
      · exact same

-----------------------------------------------------------------------------------------
-- Rolling back
-----------------------------------------------------------------------------------------

/-- A directory that was created was not there before, and its parent was. -/
theorem createDirectory_eq_some {entries entries' : Entries (List Char) TreeEntry} {path : List Char}
    {call : MakeCall} (created : disk.createDirectory entries path call = some entries')
    : path ≠ [] ∧ entries (disk.place path) = none ∧ entries (disk.place path).dropLast ≠ none
      ∧ ∃ entry, entries' = Function.update entries (disk.place path) (some entry) := by
  obtain ⟨id, -, made⟩ := Option.bind_eq_some_iff.mp created
  split at made
  · rename_i free
    obtain ⟨nonempty, nothing, parent⟩ := free
    cases made
    refine ⟨nonempty, nothing, fun missing => ?_, _, rfl⟩
    rw [hasParent, missing] at parent
    cases parent
  · cases made

/-- The trees before and after the creation of a directory, with what was stored in it. -/
structure CreatedAt (place : List (List Char)) (entries entries' : Entries (List Char) TreeEntry) : Prop where
  nothing : entries place = none
  parent : entries place.dropLast ≠ none
  created : entries' place ≠ none
  other : ∀ path, ¬place <+: path → entries' path = entries path

/-- What is stored in a directory that was created leaves the directory and the rest. -/
theorem CreatedAt.of_differBelow {place : List (List Char)}
    {entries entries' entries'' : Entries (List Char) TreeEntry} (at_ : CreatedAt place entries entries')
    (below : DifferBelow place entries' entries'')
    : CreatedAt place entries entries'' where
  nothing := at_.nothing
  parent := at_.parent
  created := by
    have same : entries'' place = entries' place := by
      by_contra differ
      obtain ⟨rest, some, isPlace⟩ := below place differ
      exact some (List.append_right_eq_self.mp isPlace.symm)
    rw [same]
    exact at_.created
  other path outside := by
    rw [← at_.other path outside]
    by_contra differ
    obtain ⟨rest, -, isPath⟩ := below path differ
    exact outside ⟨rest, isPath.symm⟩

/-- The path that is created leads to a tree with its directory. -/
theorem createdAt_of_createPath {entries entries' : Entries (List Char) TreeEntry}
    {realpath : List Char} {type : FileType} {calls : DirectoryCalls}
    (created : disk.createPath entries realpath type calls = some entries')
    : realpath ≠ [] ∧ CreatedAt (disk.place realpath) entries entries' := by
  obtain ⟨made, isMade, typed⟩ := Option.map_eq_some_iff.mp created
  obtain ⟨nonempty, nothing, parent, entry, rfl⟩ := createDirectory_eq_some isMade
  have at_ : CreatedAt (disk.place realpath) entries
      (Function.update entries (disk.place realpath) (some entry)) := by
    refine ⟨nothing, parent, by simp, fun path outside => ?_⟩
    have other : path ≠ disk.place realpath := by
      rintro rfl
      exact outside (List.prefix_refl _)
    exact Function.update_of_ne other _ _
  refine ⟨nonempty, ?_⟩
  split at typed
  · rw [← typed]
    refine at_.of_differBelow (differBelow_storeMetaFile ?_ ?_ nonempty _ _)
    · decide
    · decide
  · rw [← typed]
    exact at_

/-- Deleting a path takes a directory that was created away, and nothing else, exactly if it names the
place of the directory.
-/
theorem deletePath_eq_iff {entries entries' : Entries (List Char) TreeEntry} (closed : Closed entries)
    {place : List (List Char)} (at_ : CreatedAt place entries entries') (path : List Char)
    : disk.deletePath entries' path = entries ↔ path ≠ [] ∧ disk.place path = place := by
  have deleted (nonempty : path ≠ []) (found : entries' (disk.place path) ≠ none)
      : disk.deletePath entries' path = thinned entries' (disk.place path) fun _ => false := by
    rw [deletePath, lstatPath, if_neg nonempty]
    cases entry : entries' (disk.place path) with
    | none => exact absurd entry found
    | some entry => rfl
  constructor
  · intro same
    by_cases found : disk.lstatPath entries' path = none
    · -- nothing is deleted, so the directory stays
      have kept : disk.deletePath entries' path = entries' := by rw [deletePath, found]
      have nothing := at_.nothing
      rw [← same, kept] at nothing
      exact absurd nothing at_.created
    · rw [lstatPath] at found
      split at found
      · exact absurd rfl found
      · rename_i nonempty
        rw [deleted nonempty found] at same
        refine ⟨nonempty, ?_⟩
        have gone := congrFun same place
        rw [at_.nothing, thinned] at gone
        have isPrefix : disk.place path <+: place := by
          by_contra outside
          rw [if_neg (by simp [outside])] at gone
          exact at_.created gone
        obtain ⟨rest, isPlace⟩ := isPrefix
        rcases List.eq_nil_or_concat rest with rfl | ⟨front, last, rfl⟩
        · rw [← isPlace, List.append_nil]
        · -- the directory above was there, and is deleted with it
          rw [List.concat_eq_append, ← List.append_assoc] at isPlace
          have parent := at_.parent
          rw [← isPlace, List.dropLast_concat] at parent
          have above : entries (disk.place path) ≠ none := fun missing =>
            parent (closed _ front missing)
          have taken := congrFun same (disk.place path)
          rw [thinned, if_pos (by simp)] at taken
          exact absurd taken.symm above
  · rintro ⟨nonempty, isPlace⟩
    rw [deleted nonempty (isPlace ▸ at_.created), isPlace]
    funext other
    rw [thinned]
    by_cases inside : place <+: other
    · obtain ⟨rest, rfl⟩ := inside
      rw [if_pos (by simp), closed place rest at_.nothing]
    · rw [if_neg (by simp [inside]), at_.other other inside]

/-- Behind the checks, a directory that got no privileges is deleted exactly if the path names its
place.
-/
theorem createCheckedPath_eq_iff {tree : FileTree} {files : List Char} {account : DirectoryAccount}
    {path : List Char} {request : DirectoryRequest} {calls : DirectoryCalls}
    (rolledBack : (disk.createCheckedPath tree files account path request calls).rolledBack = true)
    : (disk.createCheckedPath tree files account path request calls).entries = tree.entries
      ↔ path ≠ [] ∧ disk.place path = disk.place (resolvedPath files account.files path) := by
  unfold createCheckedPath at rolledBack ⊢
  dsimp only at rolledBack ⊢
  cases created : disk.createPath tree.entries (resolvedPath files account.files path) request.type
      calls with
  | none =>
      rw [created] at rolledBack
      cases rolledBack
  | some entries =>
      rw [created] at rolledBack
      obtain ⟨nonempty, at_⟩ := createdAt_of_createPath created
      dsimp only at rolledBack ⊢
      split at rolledBack
      · rename_i isDropBox
        rw [if_pos isDropBox]
        split at rolledBack
        · cases rolledBack
        · rename_i failed
          rw [if_neg failed]
          refine deletePath_eq_iff tree.closed (at_.of_differBelow ?_) path
          refine differBelow_storeMetaFile ?_ ?_ nonempty _ _
          · decide
          · decide
      · cases rolledBack

/-- A directory that got no privileges is deleted, and nothing else is, exactly if the path of the client
names the place of its real path.
-/
theorem rolledBack_iff (tree : FileTree) (opens : List (List Char) → Bool)
    (home : Option (List Char)) (files : List Char) (account : DirectoryAccount)
    (request : DirectoryRequest) (calls : DirectoryCalls) {outcome : DirectoryOutcome}
    (isOutcome : disk.fileCreateDirectory tree opens home files account request calls = some outcome)
    (rolledBack : outcome.rolledBack = true)
    : ∃ path, normalizePath home request.path = some path
      ∧ (outcome.entries = tree.entries
        ↔ path ≠ [] ∧ disk.place path = disk.place (resolvedPath files account.files path)) := by
  unfold fileCreateDirectory at isOutcome
  split at isOutcome
  · cases isOutcome
    cases rolledBack
  · obtain ⟨path, normalized, checked⟩ := Option.map_eq_some_iff.mp isOutcome
    refine ⟨path, normalized, ?_⟩
    dsimp only at checked
    split at checked
    · split at checked
      · subst checked
        exact createCheckedPath_eq_iff rolledBack
      · subst checked
        cases rolledBack
    · split at checked
      · subst checked
        exact createCheckedPath_eq_iff rolledBack
      · subst checked
        cases rolledBack

/-- Where the names of a path lead down, it names the place of its real path exactly if the directory of
the account is the one that the path starts from.
-/
theorem place_eq_iff {files account path : List Char}
    (down : ∀ name ∈ names path, name ≠ ['.'] ∧ name ≠ ['.', '.'])
    : disk.place path = disk.place (resolvedPath files account path)
      ↔ disk.placeOf (isAbsolute path) [] = disk.place (rootPath files account) := by
  obtain ⟨absolute, front, parts⟩ := realPath_parts files account
  have placed (path : List Char)
      : disk.place (resolvingAliasesInPath (realPath files account path))
        = disk.placeOf absolute (front ++ names path) := by
    obtain ⟨nonempty, isStart, -, isNames⟩ := parts path
    have areNames : ∀ name ∈ names (realPath files account path), IsName name :=
      fun name mem => isName_of_mem_names mem
    rw [resolvingAliasesInPath_eq nonempty, place, isAbsolute_render _ areNames,
      names_render _ areNames, isStart, isNames]
  have below (absolute : Bool) (front : List (List Char))
      : disk.placeOf absolute (front ++ names path)
        = disk.placeOf absolute front ++ (names path).map disk.fold := by
    rw [placeOf, List.foldl_append, foldl_resolveName _ down, List.map_append, placeOf]
  have slash : names ['/'] = [] := rfl
  have whole := below (isAbsolute path) []
  rw [List.nil_append] at whole
  rw [resolvedPath, placed, rootPath, placed, slash, List.append_nil, below, place, whole]
  exact List.append_left_inj _

end DiskView

-----------------------------------------------------------------------------------------
-- A drop box in the root of the disk and in another directory
-----------------------------------------------------------------------------------------

/-- A disk with the directory of a server and one that has nothing to do with it. -/
def serverDisk : FileTree :=
  .ofList
    [([], ⟨0, [], none⟩), (["files".toList], ⟨1, "files".toList, none⟩),
      (["drop".toList], ⟨2, "drop".toList, none⟩),
      (["drop".toList, "a".toList], ⟨3, "a".toList, some [1]⟩)]
    (by decide) (by decide)

/-- A disk that compares names as they are, and the server in its root. -/
def exactDisk : DiskView where
  fold := id
  current := []

/-- An account that may create drop boxes. -/
def dropBoxAccount : DirectoryAccount where
  name := "a".toList
  group := []
  groups := []
  accessAllDropboxes := false
  moveFiles := false
  renameFiles := false
  files := []
  createDirectories := true
  setPermissions := true

/-- The request for a drop box. -/
def dropBoxRequest (path : String) : DirectoryRequest where
  path := path.toList
  type := .dropBox
  privileges := defaultDropBoxPrivileges

/-- Calls that succeed, but for the file of the privileges. -/
def callsWithoutPrivileges : DirectoryCalls where
  directory := some 4
  type := ⟨some 5, ⟨true, true, true, 6⟩⟩
  privileges := ⟨none, ⟨false, true, true, 7⟩⟩

/-- A server that shares the root of its disk deletes the drop box. -/
theorem rolledBack_iff_diskRoot
    : ∃ outcome, exactDisk.fileCreateDirectory serverDisk (fun _ => true) none ['/'] dropBoxAccount
        (dropBoxRequest "/new") callsWithoutPrivileges = some outcome
      ∧ ∃ path, normalizePath none "/new".toList = some path
        ∧ (outcome.entries = serverDisk.entries
          ↔ path ≠ [] ∧ exactDisk.place path = exactDisk.place (resolvedPath ['/'] [] path)) := by
  have rolledBack : ((exactDisk.fileCreateDirectory serverDisk (fun _ => true) none ['/'] dropBoxAccount
      (dropBoxRequest "/new") callsWithoutPrivileges).map DirectoryOutcome.rolledBack) = some true := by
    decide
  obtain ⟨outcome, isOutcome, isRolledBack⟩ := Option.map_eq_some_iff.mp rolledBack
  exact ⟨outcome, isOutcome, DiskView.rolledBack_iff serverDisk (fun _ => true) none ['/'] dropBoxAccount
    (dropBoxRequest "/new") callsWithoutPrivileges isOutcome isRolledBack⟩

/-- Another server keeps the drop box, and deletes what has its path on the disk. -/
theorem not_rolledBack_otherRoot
    : ∃ outcome, exactDisk.fileCreateDirectory serverDisk (fun _ => true) none "/files".toList
        dropBoxAccount (dropBoxRequest "/drop") callsWithoutPrivileges = some outcome
      ∧ outcome.rolledBack = true
      ∧ serverDisk.entries ["files".toList, "drop".toList] = none
      ∧ outcome.entries ["files".toList, "drop".toList] ≠ none
      ∧ serverDisk.entries ["drop".toList, "a".toList] ≠ none
      ∧ outcome.entries ["drop".toList, "a".toList] = none := by
  have whole : (exactDisk.fileCreateDirectory serverDisk (fun _ => true) none "/files".toList
        dropBoxAccount (dropBoxRequest "/drop") callsWithoutPrivileges).map (fun outcome =>
          (outcome.rolledBack, (outcome.entries ["files".toList, "drop".toList]).isSome,
            outcome.entries ["drop".toList, "a".toList]))
      = some (true, true, none) := by
    decide
  obtain ⟨outcome, isOutcome, parts⟩ := Option.map_eq_some_iff.mp whole
  simp only [Prod.mk.injEq] at parts
  obtain ⟨isRolledBack, kept, gone⟩ := parts
  refine ⟨outcome, isOutcome, isRolledBack, by decide, ?_, by decide, gone⟩
  exact Option.isSome_iff_ne_none.mp kept

end WiredServer.Files
