import WiredServer.Base.ResolvedPaths
import WiredServer.Files.FileMoves
import WiredServer.Files.MovePath

/-! Where the comment and the label of a file are kept: under the name of the file, in the stores of its
directory. The operations that change them find the directory by the path of the client, and those
that read them by the real path.
-/

namespace WiredServer.Files

open WiredServer.PathStrings

-----------------------------------------------------------------------------------------
-- Places
-----------------------------------------------------------------------------------------

section Places

variable {δ : Type} (directoryAt : Location → δ) (home : Option (List Char))

/-- The place of a file by its real path: the directory that it is in and its name. -/
def filePlace (realpath : List Char) : Option (δ × List Char) :=
  (deletingLastPathComponent home realpath).map fun dirpath =>
    (directoryAt (location dirpath), lastPathComponent realpath)

/-- The real path of a file with the aliases in it resolved. -/
def resolvedPath (files account path : List Char) : List Char :=
  resolvingAliasesInPath (realPath files account path)

/-- The place of a file by the path of a client, as the operations that change a comment or a label find
it.
-/
def clientPlace (files account path : List Char) : Option (δ × List Char) :=
  (deletingLastPathComponent home path).map fun dirpath =>
    (directoryAt (location (resolvedPath files account dirpath)), lastPathComponent path)

end Places

/-- A path that a client sent, after its validity was checked and it was normalised. -/
structure ClientPath (home : Option (List Char)) where
  path : List Char
  sent : ∃ sent, pathIsValid sent = true ∧ normalizePath home sent = some path

/-- A path of a client names a file below the directory of the server, which is not written with a tilde,
and the way there from the root does not lead up.
-/
structure NamesFile (files account path : List Char) : Prop where
  named : names path ≠ []
  noTilde : files.head? ≠ some '~'
  down : isAbsolute (realPath files account path) = true
    → ['.', '.'] ∉ names (realPath files account path)

instance (files account path : List Char) : Decidable (NamesFile files account path) :=
  decidable_of_iff (names path ≠ [] ∧ files.head? ≠ some '~'
      ∧ (isAbsolute (realPath files account path) = true
        → ['.', '.'] ∉ names (realPath files account path)))
    ⟨fun ⟨named, noTilde, down⟩ => ⟨named, noTilde, down⟩,
      fun ⟨named, noTilde, down⟩ => ⟨named, noTilde, down⟩⟩

-----------------------------------------------------------------------------------------
-- Names at the end of paths
-----------------------------------------------------------------------------------------

/-- A name at the end of a path, after a slash or on its own, is its last component. -/
theorem lastPathComponent_append {start name : List Char} (isName : IsName name)
    (before : start = [] ∨ start.getLast? = some '/')
    : lastPathComponent (start ++ name) = name := by
  obtain ⟨nonempty, noSlash⟩ := isName
  have noEnd : name.getLast? ≠ some '/' := fun slash => noSlash (List.mem_of_mem_getLast? slash)
  have noEnd' : (start ++ name).getLast? ≠ some '/' := by
    rwa [List.getLast?_append_of_ne_nil _ nonempty]
  have more : start ++ name ≠ ['/'] := fun slash => noEnd' (by rw [slash]; rfl)
  rw [lastPathComponent, if_neg more]
  simp only [if_neg noEnd']
  rcases before with rfl | ends
  · rw [List.nil_append, if_pos noSlash]
  · obtain ⟨front, rfl⟩ := List.getLast?_eq_some_iff.mp ends
    have inside : ∀ char ∈ name.reverse, decide (char ≠ '/') = true := by
      intro char mem
      rw [decide_eq_true_eq]
      rintro rfl
      exact noSlash (List.mem_reverse.mp mem)
    rw [if_neg (by simp), List.reverse_append, List.takeWhile_append_of_pos inside]
    simp

/-- The last name of a rendered path is its last component. -/
theorem lastPathComponent_render (absolute : Bool) {front : List (List Char)} {last : List Char}
    (isName : IsName last)
    : lastPathComponent (render absolute (front ++ [last])) = last := by
  by_cases nothing : front = []
  · subst nothing
    cases absolute with
    | false =>
        rw [render, if_neg (by simp), List.nil_append, join, List.intercalate_singleton]
        exact @lastPathComponent_append [] last isName (.inl rfl)
    | true =>
        rw [render, if_pos rfl, List.nil_append, join, List.intercalate_singleton]
        exact @lastPathComponent_append ['/'] last isName (.inr rfl)
  · have split : render absolute (front ++ [last])
        = ((if absolute then ['/'] else []) ++ join front ++ ['/']) ++ last := by
      cases absolute <;> simp [render, join_concat nothing]
    rw [split]
    exact lastPathComponent_append isName (.inr (by simp))

/-- The location of a rendered path. -/
theorem location_render (absolute : Bool) {list : List (List Char)}
    (areNames : ∀ name ∈ list, IsName name)
    : location (render absolute list) = ⟨absolute, list.filter (· ≠ ['.'])⟩ := by
  have start := isAbsolute_render absolute areNames
  have isNames := names_render absolute areNames
  rw [isAbsolute] at start
  rw [names] at isNames
  rw [location, start, isNames]

-----------------------------------------------------------------------------------------
-- Both places
-----------------------------------------------------------------------------------------

/-- The real path begins like the directory of the server, and has its names, those of the directory of
the account and those of the path.
-/
theorem realPath_parts (files account : List Char)
    : ∃ absolute front, ∀ path, realPath files account path ≠ []
      ∧ isAbsolute (realPath files account path) = absolute
      ∧ (absolute = false → (realPath files account path).head? = files.head?)
      ∧ names (realPath files account path) = front ++ names path := by
  refine ⟨isAbsolute (files ++ ['/']), names files ++ names account, fun path => ?_⟩
  by_cases none : account = []
  · subst none
    rw [realPath, if_neg (by simp)]
    refine ⟨by simp, ?_, ?_, ?_⟩
    · cases files <;> simp [isAbsolute]
    · cases files <;> simp [isAbsolute]
    · rw [names, PathComponents.components_append_cons]
      simp [names]
  · rw [realPath, if_pos none]
    refine ⟨by simp, ?_, ?_, ?_⟩
    · cases files <;> simp [isAbsolute]
    · cases files <;> simp [isAbsolute]
    · rw [names, PathComponents.components_append_cons, PathComponents.components_append_cons]

section Agreement

variable {home : Option (List Char)}

/-- A path of a client with a name has one after those of its directory. -/
theorem ClientPath.split (absolute : HomeIsAbsolute home) (client : ClientPath home)
    (named : names client.path ≠ [])
    : ∃ fromRoot front last, (∀ name ∈ front ++ [last], IsName name)
      ∧ client.path = render fromRoot (front ++ [last])
      ∧ deletingLastPathComponent home client.path = some (render fromRoot front) := by
  obtain ⟨path, sent, valid, normal⟩ := client
  rw [normalizePath_eq, Option.map_eq_some_iff] at normal
  obtain ⟨expanded, expands, rfl⟩ := normal
  have areNames : ∀ name ∈ normalNames (isAbsolute expanded) (names expanded), IsName name :=
    fun name mem => isName_of_mem_normalNames (fun _ => isName_of_mem_names) mem
  have isNames : names (normalForm expanded) = normalNames (isAbsolute expanded) (names expanded) :=
    names_render _ areNames
  have sentNamed : names sent ≠ [] := by
    intro nothing
    have noTilde : sent.head? ≠ some '~' := fun tilde =>
      absurd ((names_eq_nil_iff sent).mp nothing '~' (List.mem_of_mem_head? tilde)) (by decide)
    rw [expandTilde_of_noTilde home noTilde, Option.some.injEq] at expands
    subst expands
    rw [isNames, nothing] at named
    exact named rfl
  have directory := deletingLastPathComponent_normalForm absolute
    (isExpanded_of_expandTilde absolute valid sentNamed expands)
  rcases List.eq_nil_or_concat (normalNames (isAbsolute expanded) (names expanded)) with
    nothing | ⟨front, last, split⟩
  · exact absurd (isNames.trans nothing) named
  · rw [List.concat_eq_append] at split
    rw [split] at areNames
    refine ⟨isAbsolute expanded, front, last, areNames, ?_, ?_⟩
    · exact congrArg (render (isAbsolute expanded)) split
    · rw [directory, split, List.dropLast_concat]

/-- The operations that change the comment or the label of a file and those that read it find the same
place for it.
-/
theorem clientPlace_eq_filePlace {δ : Type} (directoryAt : Location → δ)
    (absolute : HomeIsAbsolute home) {files account : List Char} (client : ClientPath home)
    (isFile : NamesFile files account client.path)
    : ∃ place, clientPlace directoryAt home files account client.path = some place
      ∧ filePlace directoryAt home (resolvedPath files account client.path) = some place := by
  obtain ⟨named, noTilde, down⟩ := isFile
  obtain ⟨fromRoot, front, last, areNames, isPath, directory⟩ := client.split absolute named
  obtain ⟨start, above, parts⟩ := realPath_parts files account
  have isLast : IsName last := areNames last (by simp)
  have areFront : ∀ name ∈ front, IsName name := fun name mem =>
    areNames name (List.mem_append_left _ mem)
  obtain ⟨nonempty, isStart, begins, isReal⟩ := parts client.path
  obtain ⟨nonempty', isStart', -, isReal'⟩ := parts (render fromRoot front)
  rw [isPath, names_render fromRoot areNames, ← isPath] at isReal
  rw [names_render fromRoot areFront] at isReal'
  have areReal : ∀ name ∈ (above ++ front) ++ [last], IsName name := by
    intro name mem
    rw [List.append_assoc, ← isReal] at mem
    exact isName_of_mem_names mem
  have areReal' : ∀ name ∈ above ++ front, IsName name := fun name mem =>
    areReal name (List.mem_append_left _ mem)
  have resolved : resolvedPath files account client.path = render start ((above ++ front) ++ [last]) := by
    rw [resolvedPath, resolvingAliasesInPath_eq nonempty, isStart, isReal, List.append_assoc]
  have resolved' : resolvedPath files account (render fromRoot front) = render start (above ++ front) := by
    rw [resolvedPath, resolvingAliasesInPath_eq nonempty', isStart', isReal']
  have noTilde' : (render start ((above ++ front) ++ [last])).head? ≠ some '~' := by
    cases start with
    | true => simp [render]
    | false =>
        obtain ⟨first, rest, isCons⟩ := List.exists_cons_of_ne_nil
          (by simp : (above ++ front) ++ [last] ≠ [])
        have relative : (realPath files account client.path).head? ≠ some '/' := by
          simpa [isAbsolute] using isStart
        have head := head_names relative
          ((isReal.trans (List.append_assoc _ _ _).symm).trans isCons)
        rw [isCons] at areReal
        rw [render, if_neg (by simp), isCons,
          head_join rest (areReal first List.mem_cons_self).1, ← head, begins rfl]
        exact noTilde
  have readDirectory := deletingLastPathComponent_render absolute areReal noTilde'
  have noUp : start = true → ['.', '.'] ∉ above ++ front := by
    intro fromRoot' mem
    refine down (isStart.trans fromRoot') ?_
    rw [isReal, ← List.append_assoc]
    exact List.mem_append_left _ mem
  have areNormal : ∀ name ∈ normalNames start (above ++ front), IsName name := fun name mem =>
    isName_of_mem_normalNames areReal' mem
  have sameLocation : location (render start (normalNames start (above ++ front)))
      = location (render start (above ++ front)) := by
    rw [location_render start areNormal, location_render start areReal', normalNames,
      normalizeComponents_of_down [] noUp, List.reverse_nil, List.nil_append, List.filter_filter]
    refine congrArg (Location.mk start) (List.filter_congr fun name mem => ?_)
    have noSlash : name ≠ ['/'] := fun slash => (areReal' name mem).2 (by simp [slash])
    simp [noSlash]
  refine ⟨(directoryAt (location (render start (above ++ front))), last), ?_, ?_⟩
  · rw [clientPlace, directory, Option.map_some, resolved', isPath,
      lastPathComponent_render fromRoot isLast]
  · rw [filePlace, resolved, readDirectory, Option.map_some, sameLocation,
      lastPathComponent_render start isLast]

end Agreement

end WiredServer.Files
