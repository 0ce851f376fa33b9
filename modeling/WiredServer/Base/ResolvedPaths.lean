import WiredServer.Base.PathParents

/-! Paths that are put together from their components again: where they start, which names they have and
what their directories are.
-/

namespace WiredServer.PathStrings

-----------------------------------------------------------------------------------------
-- Rendered names
-----------------------------------------------------------------------------------------

/-- One more name is joined with a slash in between, by induction on the names before it. -/
theorem join_concat {list : List (List Char)} (some : list ≠ []) (name : List Char)
    : join (list ++ [name]) = join list ++ '/' :: name := by
  induction list with
  | nil => exact absurd rfl some
  | cons first list ih =>
      cases list with
      | nil => simp [join]
      | cons second others =>
          have rest := ih (by simp)
          have split (tail : List (List Char)) : join (first :: second :: tail)
              = first ++ '/' :: join (second :: tail) := by
            rw [join, List.intercalate_cons_cons, List.append_assoc]
            rfl
          rw [List.cons_append, List.cons_append, split, ← List.cons_append, rest, split,
            List.append_assoc, List.cons_append]

/-- Joined names do not end with a slash. -/
theorem getLast?_join {list : List (List Char)} (areNames : ∀ name ∈ list, IsName name)
    : (join list).getLast? ≠ some '/' := by
  rcases List.eq_nil_or_concat list with rfl | ⟨front, last, rfl⟩
  · simp [join]
  · rw [List.concat_eq_append] at areNames ⊢
    obtain ⟨nonempty, noSlash⟩ := areNames last (by simp)
    have inside (slash : last.getLast? = some '/') : False :=
      noSlash (List.mem_of_mem_getLast? slash)
    cases front with
    | nil =>
        rw [List.nil_append, join, List.intercalate_singleton]
        exact inside
    | cons first others =>
        rw [join_concat (by simp), List.getLast?_append_of_ne_nil _ (by simp)]
        obtain ⟨char, rest, rfl⟩ := List.exists_cons_of_ne_nil nonempty
        rw [List.getLast?_cons_cons]
        exact inside

/-- A rendered path has the names it was made of. -/
theorem names_render {list : List (List Char)} (absolute : Bool)
    (areNames : ∀ name ∈ list, IsName name)
    : names (render absolute list) = list := by
  cases absolute with
  | false => exact names_join areNames
  | true =>
      rw [render, if_pos rfl, names, PathComponents.components_cons_self]
      exact names_join areNames

/-- A rendered path starts where it should. -/
theorem isAbsolute_render {list : List (List Char)} (absolute : Bool)
    (areNames : ∀ name ∈ list, IsName name)
    : isAbsolute (render absolute list) = absolute := by
  cases absolute with
  | true => rfl
  | false =>
      cases list with
      | nil => rfl
      | cons first others =>
          obtain ⟨nonempty, noSlash⟩ := areNames first List.mem_cons_self
          obtain ⟨char, rest, rfl⟩ := List.exists_cons_of_ne_nil nonempty
          have other : char ≠ '/' := fun same => noSlash (by simp [same])
          rw [render, if_neg (by simp), isAbsolute, head_join others nonempty]
          simpa using other

-----------------------------------------------------------------------------------------
-- Resolved paths
-----------------------------------------------------------------------------------------

/-- A name is appended to a rendered path as one more name. -/
theorem appendPathComponent_render {list : List (List Char)} {name : List Char} (absolute : Bool)
    (areNames : ∀ name ∈ list, IsName name) (isName : IsName name)
    : appendPathComponent (render absolute list) name = render absolute (list ++ [name]) := by
  obtain ⟨nonempty, noSlash⟩ := isName
  have relative : name.head? ≠ some '/' := fun slash => noSlash (List.mem_of_mem_head? slash)
  have other : name ≠ ['/'] := fun slash => relative (by rw [slash]; rfl)
  by_cases nothing : list = []
  · subst nothing
    cases absolute with
    | false => simp [appendPathComponent, render, join]
    | true => simp [appendPathComponent, render, join, relative]
  · have noEnd := getLast?_join areNames
    have something : join list ≠ [] := by
      intro empty
      have joined := names_join areNames
      rw [empty] at joined
      exact nothing joined.symm
    cases absolute with
    | false =>
        simp only [render, Bool.false_eq_true, if_false, appendPathComponent, if_neg something,
          if_neg noEnd, if_pos other, join_concat nothing]
    | true =>
        have noEnd' : ('/' :: join list).getLast? ≠ some '/' := by
          rw [← List.singleton_append, List.getLast?_append_of_ne_nil _ something]
          exact noEnd
        simp only [render, if_true, appendPathComponent, if_neg (List.cons_ne_nil _ _), if_neg noEnd',
          if_pos other, join_concat nothing, List.cons_append]

/-- Names are appended to a rendered path one after the other, by induction on them. -/
theorem foldl_appendPathComponent (absolute : Bool) {kept list : List (List Char)}
    (areKept : ∀ name ∈ kept, IsName name) (areNames : ∀ name ∈ list, IsName name)
    : list.foldl appendPathComponent (render absolute kept) = render absolute (kept ++ list) := by
  induction list generalizing kept with
  | nil => rw [List.foldl_nil, List.append_nil]
  | cons name list ih =>
      have isName := areNames name List.mem_cons_self
      have areKept' : ∀ other ∈ kept ++ [name], IsName other := by
        intro other mem
        rcases List.mem_append.mp mem with mem | mem
        · exact areKept other mem
        · rwa [List.mem_singleton.mp mem]
      rw [List.foldl_cons, appendPathComponent_render absolute areKept isName,
        ih areKept' fun other mem => areNames other (List.mem_cons_of_mem _ mem), List.append_assoc,
        List.singleton_append]

/-- A resolved path is made of the names of the path. -/
theorem resolvingAliasesInPath_eq {path : List Char} (nonempty : path ≠ [])
    : resolvingAliasesInPath path = render (isAbsolute path) (names path) := by
  have areNames : ∀ name ∈ names path, IsName name := fun _ mem => isName_of_mem_names mem
  obtain ⟨char, rest, rfl⟩ := List.exists_cons_of_ne_nil nonempty
  by_cases slash : char = '/'
  · subst slash
    have start : appendPathComponent [] ['/'] = render true [] := rfl
    rw [names, PathComponents.components_cons_self] at areNames ⊢
    rw [resolvingAliasesInPath, pathComponents_cons_slash, List.foldl_cons, start,
      foldl_appendPathComponent true (by simp) areNames, List.nil_append]
    rfl
  · have relative : (char :: rest).head? ≠ some '/' := by simpa using slash
    have start : ([] : List Char) = render false [] := rfl
    have noRoot : isAbsolute (char :: rest) = false := by simpa [isAbsolute] using slash
    rw [resolvingAliasesInPath, pathComponents_of_relative nonempty relative, start,
      foldl_appendPathComponent false (by simp) areNames, List.nil_append, noRoot]

-----------------------------------------------------------------------------------------
-- Directories of resolved paths
-----------------------------------------------------------------------------------------

/-- Where the names of a path lead only down, normalisation only drops dots. -/
theorem normalizeComponents_of_down {absolute : Bool} (kept : List (List Char))
    {list : List (List Char)} (down : absolute = true → ['.', '.'] ∉ list)
    : normalizeComponents absolute kept list
      = kept.reverse ++ list.filter fun name => !(name = ['/'] || name = ['.']) := by
  induction list generalizing kept with
  | nil => simp [normalizeComponents]
  | cons name list ih =>
      have rest kept := ih kept fun fromRoot mem => down fromRoot (List.mem_cons_of_mem _ mem)
      have stays : ¬(absolute && name = ['.', '.'] && kept ≠ []) := by
        simp only [Bool.and_eq_true, decide_eq_true_eq, not_and]
        rintro ⟨fromRoot, up⟩
        exact absurd (up ▸ List.mem_cons_self) (down fromRoot)
      by_cases skipped : name = ['/'] || name = ['.']
      · rw [normalizeComponents, if_pos skipped, rest, List.filter_cons_of_neg (by simp [skipped])]
      · rw [normalizeComponents, if_neg skipped, if_neg stays, rest,
          List.filter_cons_of_pos (by simp [skipped]), List.reverse_cons, List.append_assoc]
        rfl

/-- The directory of a rendered path that starts with no tilde. -/
theorem deletingLastPathComponent_render {home : Option (List Char)}
    (absolute : HomeIsAbsolute home) {fromRoot : Bool} {front : List (List Char)} {last : List Char}
    (areNames : ∀ name ∈ front ++ [last], IsName name)
    (noTilde : (render fromRoot (front ++ [last])).head? ≠ some '~')
    : deletingLastPathComponent home (render fromRoot (front ++ [last]))
      = some (render fromRoot (normalNames fromRoot front)) := by
  have notHome : ¬IsHome home (render fromRoot (front ++ [last])) := by
    rintro ⟨-, alone⟩
    generalize render fromRoot (front ++ [last]) = path at alone noTilde
    cases path with
    | nil => exact absurd alone (by decide)
    | cons char rest =>
        by_cases slash : char = '/'
        · subst slash
          rw [pathComponents_cons_slash] at alone
          exact absurd (List.cons.inj alone).1 (by decide)
        · have relative : (char :: rest).head? ≠ some '/' := by simpa using slash
          rw [pathComponents_of_relative (by simp) relative] at alone
          exact noTilde (head_names relative alone)
  have isNames := names_render fromRoot areNames
  obtain ⟨list, isList, directory⟩ := deletingLastPathComponent_eq absolute
    (expandTilde_of_noTilde home noTilde) isNames notHome
  have isFront : list = front := List.append_cancel_right (isList.symm.trans isNames)
  rw [directory, isAbsolute_render fromRoot areNames, isFront]

end WiredServer.PathStrings
