import Mathlib

/-! Paths as C strings: their components, the directory that a tilde stands for, and the paths that
normalisation and the deletion of the last component leave.
-/

namespace WiredServer.PathStrings

/-- `_wi_string_path_components`, where a path that starts with a slash, and the empty path, have the
slash for their first component.
-/
def pathComponents (path : List Char) : List (List Char) :=
  match path.splitOn '/' with
  | [] => []
  | first :: rest => (if first = [] then ['/'] else first) :: rest.filter (· ≠ [])

/-- `wi_mutable_string_expand_tilde_in_path`, given the directory of the user who runs the server. For
the tilde of another user it changes a component that is immutable, which ends the server.
-/
def expandTilde (home : Option (List Char)) (path : List Char) : Option (List Char) :=
  if path.head? ≠ some '~' then some path
  else if (pathComponents path).head? = some ['~'] then
    some (home.elim path (· ++ path.drop 1))
  else none

/-- The loop of `wi_mutable_string_normalize_path` over the components, with those it keeps in reverse
order.
-/
def normalizeComponents (absolute : Bool) : List (List Char) → List (List Char) → List (List Char)
  | kept, [] => kept.reverse
  | kept, component :: rest =>
      if component = ['/'] || component = ['.'] then normalizeComponents absolute kept rest
      else if absolute && component = ['.', '.'] && kept ≠ [] then
        normalizeComponents absolute kept.tail rest
      else normalizeComponents absolute (component :: kept) rest

/-- `wi_mutable_string_normalize_path` -/
def normalizePath (home : Option (List Char)) (path : List Char) : Option (List Char) :=
  if path = [] || path = ['/'] then some path
  else
    (expandTilde home path).map fun path =>
      let absolute : Bool := path.head? = some '/'
      let string := ['/'].intercalate (normalizeComponents absolute [] (pathComponents path))
      if absolute then '/' :: string else string

/-- `wi_string_by_deleting_last_path_component` -/
def deletingLastPathComponent (home : Option (List Char)) (path : List Char)
    : Option (List Char) :=
  if path = ['/'] then some path
  else normalizePath home (['/'].intercalate (pathComponents path).dropLast)

/-- `wi_mutable_string_append_path_component` -/
def appendPathComponent (path component : List Char) : List Char :=
  if path = [] then component
  else if path.getLast? = some '/' then
    if component.head? = some '/' then path.dropLast ++ component else path ++ component
  else if component ≠ ['/'] then path ++ '/' :: component
  else path

/-- `wi_string_by_resolving_aliases_in_path` without the aliases of Mac OS. -/
def resolvingAliasesInPath (path : List Char) : List Char :=
  (pathComponents path).foldl appendPathComponent []

end WiredServer.PathStrings
