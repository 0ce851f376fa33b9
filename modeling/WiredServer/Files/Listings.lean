import WiredServer.Files.Indexing

/-! Listings of folders. The list of a folder shows what is in it, and if it is recursive what is in its folders,
down to a depth that the account has, but not what is in drop boxes that the account cannot read.
-/

namespace WiredServer.Files

open PathStrings Walks

-----------------------------------------------------------------------------------------
-- Messages
-----------------------------------------------------------------------------------------

/-- `wd_files_privileges_is_readable_by_account` -/
def FilePrivileges.isReadableByAccount (privileges : FilePrivileges) (account : FileAccount) : Bool :=
  privileges.has .everyoneRead
  || account.accessAllDropboxes
  || (privileges.has .groupRead && privileges.group ≠ []
    && (privileges.group = account.group || account.groups.contains privileges.group))
  || (privileges.has .ownerRead && privileges.owner ≠ [] && privileges.owner = account.name)

/-- What a message says about the contents of an entry. -/
inductive Contents where
  | file (dataSize : UInt64) (rsrcSize : ℕ)
  | folder (directoryCount : ℕ)
  deriving DecidableEq

/-- Whether a drop box can be read and written. -/
structure DropBoxAccess where
  readable : Bool
  writable : Bool
  deriving DecidableEq

/-- The message `wired.file.file_list`. -/
structure FileListMessage where
  path : List Char
  contents : Contents
  creationTime : UInt32
  modificationTime : UInt32
  type : FileType
  link : Bool
  executable : Bool
  label : UInt32
  volume : UInt32
  access : Option DropBoxAccess
  deriving DecidableEq

/-- A reply to a request for a list. -/
inductive ListReply where
  | fileList (message : FileListMessage)
  | fileErrno
  | done (path : List Char) (access : Option DropBoxAccess) (available : ℕ)
  deriving DecidableEq

/-- Who asks for the list of a path, and the privileges of the account for it. -/
structure ListRequest where
  path : List Char
  recursive : Bool
  account : FileAccount
  depthLimit : ℕ
  uploadAnywhere : Bool
  uploadFiles : Bool

-----------------------------------------------------------------------------------------
-- The list
-----------------------------------------------------------------------------------------

namespace Volume

variable (volume : Volume) (rootVolume : UInt32) (request : ListRequest)

/-- The names that `wd_files_count_path` counts in a folder, if it can be opened. -/
def countPath (path : List Char) : Option ℕ :=
  (volume.directory path).map fun names =>
    names.countP fun name => name.head? ≠ some '.' && !volume.isInvisible (path ++ '/' :: name)

/-- `readable` and `writable` of a drop box. -/
def access (path : List Char) : DropBoxAccess :=
  let privileges := volume.dropBoxPrivileges path
  ⟨privileges.isReadableByAccount request.account, privileges.isWritableByAccount request.account⟩

/-- `virtualpath` in `wd_files_reply_list_thread` -/
def listedPath (path realpath filepath : List Char) : List Char :=
  let virtualpath := filepath.drop (pathLength realpath)
  if path = ['/'] then virtualpath else path ++ virtualpath

/-- The replies for an entry that can be read. A folder that cannot be opened is replied to with an error first. -/
def entryReplies (realpath : List Char) (dsb : FileStat) (filepath : List Char) (lsb sb : FileStat)
    : List ListReply :=
  let isAlias := volume.isAlias filepath
  let resolvedpath := volume.resolvedPath filepath
  let type := volume.typeWithStat resolvedpath sb
  let access := if type = .dropBox then some (volume.access request resolvedpath) else none
  let counts := match type with
    | .dir | .uploads => true
    | .dropBox => (volume.access request resolvedpath).readable
    | .file | .other _ => false
  let contents := match type with
    | .file => .file sb.size (volume.resourceForkSize resolvedpath)
    | .dir | .uploads | .dropBox | .other _ => .folder (if counts then (volume.countPath resolvedpath).getD 0 else 0)
  let device := if isAlias then dsb.dev else sb.dev
  (if counts && (volume.countPath resolvedpath).isNone then [.fileErrno] else [])
    ++ [.fileList ⟨listedPath request.path realpath filepath, contents, sb.birthtime, sb.mtime, type,
      isAlias || lsb.isSymbolicLink, type = .file && sb.isExecutable, volume.label filepath,
      if device = rootVolume then 0 else device, access⟩]

/-- The body of the loop in `wd_files_reply_list_thread`, and whether it goes on below the entry. -/
def listEntry (realpath : List Char) (dsb : FileStat) (level : ℕ) (filepath : List Char)
    (replies : List ListReply) : List ListReply × Bool :=
  if request.depthLimit > 0 && level > request.depthLimit then (replies, false)
  else if volume.isInvisible filepath then (replies, false)
  else
    let resolvedpath := volume.resolvedPath filepath
    match volume.stats resolvedpath with
    | none => (replies, request.recursive)
    | some (lsb, sb) =>
        let isUnreadable := volume.typeWithStat resolvedpath sb = .dropBox
          && !(volume.access request resolvedpath).readable
        (replies ++ volume.entryReplies rootVolume request realpath dsb filepath lsb sb,
          request.recursive && !isUnreadable)

/-- The message `wired.file.file_list.done`. -/
def doneReply (realpath : List Char) : ListReply :=
  let isDropBox := volume.type realpath = .dropBox
  let access := volume.access request realpath
  let upload :=
    if request.uploadAnywhere then true
    else match volume.type realpath with
      | .dropBox => access.writable
      | .uploads => request.uploadFiles
      | .file | .dir | .other _ => false
  .done request.path (if isDropBox then some access else none)
    (if upload then (volume.available realpath).getD 0 else 0)

/-- `wd_files_reply_list_thread`, given the real path of the folder. -/
def replyList (realpath : List Char) : List ListReply :=
  match volume.stat realpath with
  | none => [.fileErrno]
  | some dsb =>
      match volume.enumerate realpath with
      | none => [.fileErrno]
      | some walk =>
          walk.loop (volume.listEntry rootVolume request realpath dsb) 1 []
            ++ [volume.doneReply request realpath]

end Volume

-----------------------------------------------------------------------------------------
-- What is listed
-----------------------------------------------------------------------------------------

namespace Volume

variable {volume : Volume} {rootVolume : UInt32} {request : ListRequest}

/-- Whether an entry is within the depth of the account and visible. -/
def isVisible (volume : Volume) (request : ListRequest) (level : ℕ) (filepath : List Char) : Bool :=
  (request.depthLimit = 0 || level ≤ request.depthLimit) && !volume.isInvisible filepath

/-- Whether an entry is a drop box that the account cannot read. -/
def isClosed (volume : Volume) (request : ListRequest) (filepath : List Char) : Bool :=
  (volume.stats (volume.resolvedPath filepath)).any fun stats =>
    volume.typeWithStat (volume.resolvedPath filepath) stats.2 = .dropBox
      && !(volume.access request (volume.resolvedPath filepath)).readable

/-- The entries of a walk that are listed. -/
def listed (volume : Volume) (request : ListRequest) (level : ℕ) (walk : Walk (List Char)) : List (List Char) :=
  walk.shown
    (fun level filepath =>
      volume.isVisible request level filepath && (volume.stats (volume.resolvedPath filepath)).isSome)
    (fun level filepath =>
      volume.isVisible request level filepath && request.recursive && !volume.isClosed request filepath)
    level

/-- The replies for an entry. -/
def replies (volume : Volume) (rootVolume : UInt32) (request : ListRequest) (realpath : List Char)
    (dsb : FileStat) (filepath : List Char) : List ListReply :=
  (volume.stats (volume.resolvedPath filepath)).elim [] fun stats =>
    volume.entryReplies rootVolume request realpath dsb filepath stats.1 stats.2

/-- The body of the loop replies for an entry that is visible and can be read, and goes on below one that is visible
and not closed if the list is recursive.
-/
theorem listEntry_eq (realpath : List Char) (dsb : FileStat) (level : ℕ) (filepath : List Char)
    (before : List ListReply)
    : volume.listEntry rootVolume request realpath dsb level filepath before
      = (before ++ (if volume.isVisible request level filepath
            && (volume.stats (volume.resolvedPath filepath)).isSome then [filepath] else []).flatMap
          (volume.replies rootVolume request realpath dsb),
        volume.isVisible request level filepath && request.recursive && !volume.isClosed request filepath) := by
  by_cases tooDeep : (request.depthLimit > 0 && level > request.depthLimit) = true
  · have hidden : volume.isVisible request level filepath = false := by
      rw [Bool.and_eq_true, decide_eq_true_eq, decide_eq_true_eq] at tooDeep
      rw [isVisible, decide_eq_false (by omega), decide_eq_false (by omega)]
      rfl
    rw [listEntry, if_pos tooDeep, hidden]
    simp
  · have near : (request.depthLimit = 0 || level ≤ request.depthLimit) = true := by
      rw [Bool.and_eq_true, decide_eq_true_eq, decide_eq_true_eq] at tooDeep
      rw [Bool.or_eq_true, decide_eq_true_eq, decide_eq_true_eq]
      omega
    rw [listEntry, if_neg tooDeep]
    cases isInvisible : volume.isInvisible filepath with
    | true => simp [isVisible, isInvisible]
    | false =>
        have visible : volume.isVisible request level filepath = true := by
          rw [isVisible, near, isInvisible]
          rfl
        rw [visible, if_neg Bool.false_ne_true]
        cases isStats : volume.stats (volume.resolvedPath filepath) with
        | none => simp [isClosed, isStats]
        | some stats => simp [isClosed, replies, isStats]

/-- The loop replies for the listed entries in their order, by induction on the walk. -/
theorem loop_listEntry (realpath : List Char) (dsb : FileStat) (walk : Walk (List Char)) (level : ℕ)
    (before : List ListReply)
    : walk.loop (volume.listEntry rootVolume request realpath dsb) level before
      = before ++ (volume.listed request level walk).flatMap
        (volume.replies rootVolume request realpath dsb) := by
  induction walk generalizing level before with
  | done => exact (List.append_nil before).symm
  | failed other rest ih => exact ih level before
  | visit filepath descendents rest ihBelow ihRest =>
      rw [Walk.loop, listEntry_eq, listed, Walk.shown, List.flatMap_append, List.flatMap_append]
      dsimp only
      rw [ihRest]
      split
      · rw [ihBelow, List.append_assoc, List.append_assoc, List.append_assoc]
        rfl
      · rw [List.flatMap_nil, List.append_nil, List.append_assoc]
        rfl

/-- An entry is listed if and only if it is visible within the depth and can be read, there is nothing above it or the
list is recursive, and nothing above it is invisible or a drop box that the account cannot read.
-/
theorem mem_listed_iff {walk : Walk (List Char)} {filepath : List Char}
    : filepath ∈ volume.listed request 1 walk
      ↔ ∃ trail, walk.Has trail filepath ∧ (request.depthLimit = 0 ∨ trail.length < request.depthLimit)
        ∧ volume.isInvisible filepath = false ∧ (volume.stats (volume.resolvedPath filepath)).isSome = true
        ∧ (trail = [] ∨ request.recursive = true)
        ∧ ∀ above ∈ trail, volume.isInvisible above = false ∧ volume.isClosed request above = false := by
  rw [listed, Walk.mem_shown_iff]
  refine exists_congr fun trail => and_congr_right fun has => ?_
  simp only [isVisible, Bool.and_eq_true, Bool.or_eq_true, decide_eq_true_eq, Bool.not_eq_true']
  constructor
  · rintro ⟨⟨⟨near, visible⟩, isSome⟩, entered⟩
    refine ⟨by omega, visible, isSome, ?_, fun above mem => ?_⟩
    · cases trail with
      | nil => exact .inl rfl
      | cons first trail => exact .inr (entered 0 first rfl).1.2
    · obtain ⟨index, at'⟩ := List.getElem?_of_mem mem
      obtain ⟨⟨⟨-, visible⟩, -⟩, isOpen⟩ := entered index above at'
      exact ⟨visible, isOpen⟩
  · rintro ⟨near, visible, isSome, recursive, open'⟩
    refine ⟨⟨⟨by omega, visible⟩, isSome⟩, fun index above at' => ?_⟩
    have inside : index < trail.length := (List.getElem?_eq_some_iff.mp at').1
    obtain ⟨visible, isOpen⟩ := open' above (List.mem_of_getElem? at')
    refine ⟨⟨⟨by omega, visible⟩, recursive.resolve_left fun none => ?_⟩, isOpen⟩
    rw [none] at inside
    exact absurd inside (Nat.not_lt_zero index)

end Volume

/-- A folder is listed completely and in the order of the enumerator: the replies are those for the entries which are
within the depth, visible and readable, and lie at the top, or in a recursive list below nothing that is invisible or
a drop box that the account cannot read.
-/
theorem replyList_spec {volume : Volume} {rootVolume : UInt32} {request : ListRequest} {realpath : List Char}
    {dsb : FileStat} (isStat : volume.stat realpath = some dsb) {walk : Walk (List Char)}
    (enumerates : volume.enumerate realpath = some walk)
    : ∃ listed : List (List Char),
        volume.replyList rootVolume request realpath
          = listed.flatMap (volume.replies rootVolume request realpath dsb) ++ [volume.doneReply request realpath]
        ∧ listed.Sublist (walk.shown (fun _ _ => true) (fun _ _ => true) 1)
        ∧ ∀ filepath, filepath ∈ listed
          ↔ ∃ trail, walk.Has trail filepath ∧ (request.depthLimit = 0 ∨ trail.length < request.depthLimit)
            ∧ volume.isInvisible filepath = false ∧ (volume.stats (volume.resolvedPath filepath)).isSome = true
            ∧ (trail = [] ∨ request.recursive = true)
            ∧ ∀ above ∈ trail, volume.isInvisible above = false ∧ volume.isClosed request above = false := by
  refine ⟨volume.listed request 1 walk, ?_, Walk.shown_sublist _ _ 1 walk, fun _ => Volume.mem_listed_iff⟩
  rw [Volume.replyList, isStat, enumerates]
  dsimp only
  rw [Volume.loop_listEntry, List.nil_append]

/-- The volume with a drop box, where every path can be followed. -/
def listVolume : Volume :=
  { aliasVolume with stat := aliasVolume.lstat }

/-- A guest asks for all files. -/
def guestRequest : ListRequest where
  path := ['/']
  recursive := true
  account := ⟨"guest".toList, [], [], false, false, false⟩
  depthLimit := 0
  uploadAnywhere := false
  uploadFiles := false

/-- The drop box is listed, and what is in it is not. -/
theorem replyList_spec_guest
    : ∃ (listed : List (List Char)) (dsb : FileStat), listVolume.replyList 1 guestRequest "/f".toList
        = listed.flatMap (listVolume.replies 1 guestRequest "/f".toList dsb)
          ++ [listVolume.doneReply guestRequest "/f".toList]
      ∧ "/f/d".toList ∈ listed ∧ "/f/d/s".toList ∉ listed := by
  obtain ⟨listed, isList, -, spec⟩ := @replyList_spec listVolume 1 guestRequest "/f".toList _ rfl _ rfl
  refine ⟨listed, _, isList, (spec _).mpr ⟨[], ?_, .inl rfl, rfl, rfl, .inl rfl, fun _ mem => nomatch mem⟩, ?_⟩
  · exact .behind .here
  · rintro mem
    obtain ⟨trail, has, -, -, -, -, open'⟩ := (spec _).mp mem
    rcases has with _ | (_ | _) | (_ | (_ | (_ | _) | (_ | _)) | (_ | _))
    exact absurd (open' _ (List.mem_singleton_self _)).2 (by decide)

end WiredServer.Files
