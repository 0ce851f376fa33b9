import WiredServer.Base.ResolvedPaths
import WiredServer.Files.DropBoxes
import WiredServer.Lib.Walks

/-! What the server finds on a volume: the entries of folders, what they are, and the aliases of Mac OS among
them, which a path is followed through.
-/

namespace WiredServer.Files

open PathStrings Walks

-----------------------------------------------------------------------------------------
-- Volumes
-----------------------------------------------------------------------------------------

/-- `wi_fs_stat_t`, with what the server reads of it. -/
structure FileStat where
  dev : UInt32
  ino : UInt64
  mode : UInt32
  birthtime : UInt32
  mtime : UInt32
  size : UInt64
  deriving DecidableEq

/-- `S_ISDIR` -/
def FileStat.isDirectory (sb : FileStat) : Bool :=
  sb.mode &&& 0o170000 = 0o040000

/-- Whether someone may run a file. -/
def FileStat.isExecutable (sb : FileStat) : Bool :=
  sb.mode &&& 0o111 ≠ 0

/-- `S_ISLNK` -/
def FileStat.isSymbolicLink (sb : FileStat) : Bool :=
  sb.mode &&& 0o170000 = 0o120000

/-- What the operating system finds while the files do not change: what `wi_fs_enumerator_at_path` goes through, the names
in folders, the bytes that are free, what is at paths, and what Mac OS and the server keep about them.
-/
structure Volume where
  enumerate : List Char → Option (Walk (List Char))
  directory : List Char → Option (List (List Char))
  available : List Char → Option ℕ
  lstat : List Char → Option FileStat
  stat : List Char → Option FileStat
  isInvisible : List Char → Bool
  isAlias : List Char → Bool
  resolveMacAlias : List Char → List Char
  resourceForkSize : List Char → ℕ
  label : List Char → UInt32
  typeOfDirectory : List Char → FileType
  dropBoxPrivileges : List Char → FilePrivileges

namespace Volume

variable (volume : Volume)

/-- `wd_files_type_with_stat` -/
def typeWithStat (path : List Char) (sb : FileStat) : FileType :=
  if sb.isDirectory then volume.typeOfDirectory path else .file

/-- `wd_files_type` -/
def type (path : List Char) : FileType :=
  (volume.stat path).elim .file (volume.typeWithStat path)

/-- One component in the loop of `wi_mutable_string_resolve_aliases_in_path`. -/
def follow (partialPath component : List Char) : List Char :=
  volume.resolveMacAlias (appendPathComponent partialPath component)

/-- `wi_string_by_resolving_aliases_in_path` -/
def resolving (path : List Char) : List Char :=
  (pathComponents path).foldl volume.follow []

-----------------------------------------------------------------------------------------
-- Aliases
-----------------------------------------------------------------------------------------

/-- Whether a text is a name can be decided. -/
instance decidableIsName (text : List Char) : Decidable (IsName text) :=
  inferInstanceAs (Decidable (text ≠ [] ∧ '/' ∉ text))

/-- An entry of a walk is named by the entry above it, or by the path at the top, and a name. -/
def IsSpelled (path : List Char) (walk : Walk (List Char)) : Prop :=
  ∀ trail entry, walk.Has trail entry →
    ∃ name, IsName name ∧ entry = appendPathComponent (trail.getLastD path) name

/-- What Mac OS says about aliases: they are files, and lead to a path from the root that has none in it. -/
structure IsLawful : Prop where
  spelled : ∀ path walk, volume.enumerate path = some walk → IsSpelled path walk
  files : ∀ path walk, volume.enumerate path = some walk →
    ∀ trail entry, walk.Has trail entry → ∀ above ∈ trail, volume.isAlias above = false
  plain : ∀ path, volume.isAlias path = false → volume.resolveMacAlias path = path
  target : ∀ path, volume.isAlias path = true → ∃ list, (∀ name ∈ list, IsName name)
    ∧ volume.resolveMacAlias path = render true list
    ∧ volume.resolving (volume.resolveMacAlias path) = volume.resolveMacAlias path

end Volume

/-- A resolved path that is made of names. -/
structure Volume.Resolves (volume : Volume) (absolute : Bool) (list : List (List Char)) : Prop where
  areNames : ∀ name ∈ list, IsName name
  somewhere : absolute = true ∨ list ≠ []
  resolved : volume.resolving (render absolute list) = render absolute list

variable {volume : Volume} {absolute : Bool} {list : List (List Char)}

/-- Names that are joined have the components of the path before the first of them. -/
theorem pathComponents_render (areNames : ∀ name ∈ list, IsName name) (somewhere : absolute = true ∨ list ≠ [])
    : pathComponents (render absolute list) = (if absolute then [['/']] else []) ++ list := by
  cases absolute with
  | true =>
      rw [render, if_pos rfl, pathComponents_cons_slash, names_join areNames]
      rfl
  | false =>
      have some : list ≠ [] := somewhere.resolve_left Bool.false_ne_true
      obtain ⟨first, others, rfl⟩ := List.exists_cons_of_ne_nil some
      have isName := areNames first List.mem_cons_self
      have head := head_join others isName.1
      have nonempty : join (first :: others) ≠ [] := by
        intro empty
        have joined := names_join areNames
        rw [empty] at joined
        cases joined
      rw [render, if_neg Bool.false_ne_true, pathComponents_of_relative nonempty, names_join areNames]
      · rfl
      · rw [head]
        exact fun slash => isName.2 (List.mem_of_mem_head? slash)

/-- Names behind others are joined behind a slash, by induction on the names in front. -/
theorem join_append {front more : List (List Char)} (someFront : front ≠ []) (someMore : more ≠ [])
    : join (front ++ more) = join front ++ '/' :: join more := by
  induction more using List.reverseRecOn with
  | nil => exact absurd rfl someMore
  | append_singleton more name ih =>
      rw [← List.append_assoc, join_concat (by simp [someFront])]
      by_cases last : more = []
      · subst last
        have single : join [name] = name := List.intercalate_singleton
        rw [List.append_nil, List.nil_append, single]
      · rw [ih last, join_concat last, List.append_assoc]
        rfl

/-- A name behind a resolved path is followed from it. -/
theorem Volume.Resolves.resolving_concat (resolves : volume.Resolves absolute list) {name : List Char}
    (isName : IsName name)
    : volume.resolving (render absolute (list ++ [name]))
      = volume.follow (render absolute list) name := by
  have areNames : ∀ other ∈ list ++ [name], IsName other := by
    intro other mem
    rcases List.mem_append.mp mem with mem | mem
    · exact resolves.areNames other mem
    · rwa [List.mem_singleton.mp mem]
  have resolved := resolves.resolved
  rw [resolving, pathComponents_render resolves.areNames resolves.somewhere] at resolved
  rw [resolving, pathComponents_render areNames (.inr (by simp)), ← List.append_assoc, List.foldl_concat,
    resolved]

/-- A name behind a resolved path leads to a resolved path again. -/
theorem Volume.Resolves.follow (resolves : volume.Resolves absolute list) (lawful : volume.IsLawful)
    {name : List Char} (isName : IsName name)
    : ∃ absolute' list', volume.follow (render absolute list) name = render absolute' list'
      ∧ volume.Resolves absolute' list'
      ∧ (volume.isAlias (appendPathComponent (render absolute list) name) = true → absolute' = true)
      ∧ (volume.isAlias (appendPathComponent (render absolute list) name) = false →
        absolute' = absolute ∧ list' = list ++ [name]) := by
  have appended := appendPathComponent_render absolute resolves.areNames isName
  have areNames : ∀ other ∈ list ++ [name], IsName other := by
    intro other mem
    rcases List.mem_append.mp mem with mem | mem
    · exact resolves.areNames other mem
    · rwa [List.mem_singleton.mp mem]
  cases isAlias : volume.isAlias (appendPathComponent (render absolute list) name) with
  | false =>
      have stays := lawful.plain _ isAlias
      refine ⟨absolute, list ++ [name], stays.trans appended, ⟨areNames, .inr (by simp), ?_⟩,
        fun impossible => (Bool.false_ne_true impossible).elim, fun _ => ⟨rfl, rfl⟩⟩
      rw [resolves.resolving_concat isName]
      exact stays.trans appended
  | true =>
      obtain ⟨target, areNames', leads, resolved⟩ := lawful.target _ isAlias
      refine ⟨true, target, leads, ⟨areNames', .inl rfl, ?_⟩, fun _ => rfl,
        fun impossible => (Bool.false_ne_true impossible.symm).elim⟩
      rwa [leads] at resolved

/-- Names behind a resolved path lead to a resolved path, by induction on them. -/
theorem Volume.Resolves.foldl (resolves : volume.Resolves absolute list) (lawful : volume.IsLawful)
    {more : List (List Char)} (areNames : ∀ name ∈ more, IsName name)
    : ∃ absolute' list', more.foldl volume.follow (render absolute list) = render absolute' list'
      ∧ volume.Resolves absolute' list' := by
  induction more generalizing absolute list with
  | nil => exact ⟨absolute, list, rfl, resolves⟩
  | cons name more ih =>
      obtain ⟨absolute', list', follows, resolves', -⟩ :=
        resolves.follow lawful (areNames name List.mem_cons_self)
      rw [List.foldl_cons, follows]
      exact ih resolves' fun other mem => areNames other (List.mem_cons_of_mem _ mem)

/-- What a path leads to is resolved. -/
theorem resolves_resolving (lawful : volume.IsLawful) {path : List Char} (nonempty : path ≠ [])
    : ∃ absolute list, volume.resolving path = render absolute list ∧ volume.Resolves absolute list := by
  have first {component : List Char} {absolute : Bool} {list : List (List Char)}
      (areNames : ∀ name ∈ list, IsName name) (isComponent : [component] = (if absolute then [['/']] else []) ++ list)
      (same : appendPathComponent [] component = render absolute list)
      : ∃ absolute list, volume.follow [] component = render absolute list ∧ volume.Resolves absolute list := by
    have somewhere : absolute = true ∨ list ≠ [] := by
      cases absolute with
      | true => exact .inl rfl
      | false =>
          refine .inr fun empty => ?_
          subst empty
          cases isComponent
    cases isAlias : volume.isAlias (appendPathComponent [] component) with
    | false =>
        have stays := (lawful.plain _ isAlias).trans same
        refine ⟨absolute, list, stays, areNames, somewhere, ?_⟩
        rw [Volume.resolving, pathComponents_render areNames somewhere, ← isComponent]
        exact stays
    | true =>
        obtain ⟨target, areNames', leads, resolved⟩ := lawful.target _ isAlias
        refine ⟨true, target, leads, areNames', .inl rfl, ?_⟩
        rwa [leads] at resolved
  obtain ⟨char, rest, rfl⟩ := List.exists_cons_of_ne_nil nonempty
  by_cases slash : char = '/'
  · subst slash
    obtain ⟨absolute, list, follows, resolves⟩ :=
      @first ['/'] true [] (fun _ mem => nomatch mem) rfl rfl
    rw [Volume.resolving, pathComponents_cons_slash, List.foldl_cons, follows]
    exact resolves.foldl lawful fun name mem => isName_of_mem_names mem
  · have relative : (char :: rest).head? ≠ some '/' := by simpa using slash
    have areNames : ∀ name ∈ names (char :: rest), IsName name := fun name mem => isName_of_mem_names mem
    rw [Volume.resolving, pathComponents_of_relative nonempty relative]
    cases isNames : names (char :: rest) with
    | nil =>
        have same := pathComponents_of_relative nonempty relative
        rw [isNames, pathComponents] at same
        split at same
        · rename_i empty
          exact absurd empty (List.splitOn_ne_nil '/' _)
        · cases same
    | cons name others =>
        rw [isNames] at areNames
        have isName := areNames name List.mem_cons_self
        obtain ⟨absolute, list, follows, resolves⟩ := @first name false [name]
          (fun other mem => by rwa [List.mem_singleton.mp mem]) rfl (by simp [appendPathComponent, render, join])
        rw [List.foldl_cons, follows]
        exact resolves.foldl lawful fun other mem => areNames other (List.mem_cons_of_mem _ mem)

/-- An entry of a walk from a resolved path lies in a folder that is resolved too, and so are the entries that it
is below, by induction on these from below.
-/
theorem Volume.Resolves.entry (resolves : volume.Resolves absolute list) (lawful : volume.IsLawful)
    {walk : Walk (List Char)} (enumerates : volume.enumerate (render absolute list) = some walk)
    {trail : List (List Char)} {entry : List Char} (has : walk.Has trail entry)
    : ∃ front name, IsName name ∧ entry = render absolute (list ++ front ++ [name])
      ∧ volume.Resolves absolute (list ++ front)
      ∧ front.foldl volume.follow (render absolute list) = render absolute (list ++ front)
      ∧ ∀ first rest, first ≠ [] → front = first ++ rest → render absolute (list ++ first) ∈ trail
        ∧ first.foldl volume.follow (render absolute list) = render absolute (list ++ first) := by
  induction trail using List.reverseRecOn generalizing entry with
  | nil =>
      obtain ⟨name, isName, rfl⟩ := lawful.spelled _ _ enumerates _ _ has
      refine ⟨[], name, isName, ?_, by rwa [List.append_nil], by rw [List.append_nil]; rfl, ?_⟩
      · rw [List.append_nil]
        exact appendPathComponent_render absolute resolves.areNames isName
      · intro first rest some split
        exact absurd (List.append_eq_nil_iff.mp split.symm).1 some
  | append_singleton trail parent ih =>
      obtain ⟨front, last, isLast, rfl, folder, follows, above⟩ := ih (has.above rfl)
      obtain ⟨name, isName, rfl⟩ := lawful.spelled _ _ enumerates _ _ has
      have noAlias := lawful.files _ _ enumerates _ _ has _ List.mem_concat_self
      have appended := appendPathComponent_render absolute folder.areNames isLast
      obtain ⟨absolute', list', follow, parent', -, plain⟩ := folder.follow lawful isLast
      rw [appended] at plain
      obtain ⟨rfl, rfl⟩ := plain noAlias
      have follows' : (front ++ [last]).foldl volume.follow (render absolute' list)
          = render absolute' (list ++ (front ++ [last])) := by
        rw [List.foldl_concat, follows, follow, List.append_assoc]
      refine ⟨front ++ [last], name, isName, ?_, ?_, follows', fun first rest some split => ?_⟩
      · rw [← List.append_assoc, List.getLastD_concat]
        exact appendPathComponent_render absolute' parent'.areNames isName
      · rwa [← List.append_assoc]
      · rcases List.eq_nil_or_concat rest with rfl | ⟨rest, other, rfl⟩
        · rw [List.append_nil] at split
          subst split
          refine ⟨List.mem_append_right _ ?_, follows'⟩
          rw [← List.append_assoc, List.mem_singleton]
        · rw [List.concat_eq_append, ← List.append_assoc] at split
          obtain ⟨mem, leads⟩ := above first rest some (List.append_inj_left' split rfl)
          exact ⟨List.mem_append_left _ mem, leads⟩

/-- A path of a client leads where its names lead from the files of the server. -/
theorem resolving_realPath {files : List Char} (nonempty : files ≠ []) {list : List (List Char)}
    (areNames : ∀ name ∈ list, IsName name)
    : volume.resolving (realPath files [] ('/' :: join list)) = list.foldl volume.follow (volume.resolving files) := by
  obtain ⟨char, rest, rfl⟩ := List.exists_cons_of_ne_nil nonempty
  have behind (front : List Char) : names (front ++ '/' :: '/' :: join list) = names front ++ list := by
    rw [names, PathComponents.components_append_cons, PathComponents.components_cons_self]
    exact congrArg _ (names_join areNames)
  rw [realPath, if_neg (by simp)]
  by_cases slash : char = '/'
  · subst slash
    rw [Volume.resolving, Volume.resolving, List.cons_append, pathComponents_cons_slash,
      pathComponents_cons_slash, behind, ← List.cons_append, List.foldl_append]
  · have relative (more : List Char) : (char :: more).head? ≠ some '/' := by simpa using slash
    rw [Volume.resolving, Volume.resolving, List.cons_append,
      pathComponents_of_relative (List.cons_ne_nil _ _) (relative _), ← List.cons_append, behind,
      pathComponents_of_relative (List.cons_ne_nil _ _) (relative _), List.foldl_append]

end WiredServer.Files
