import Mathlib

/-! Trees as partial maps from paths to entries: what is below a path, and how whole subtrees move, are
replaced and lose entries.
-/

namespace Subtrees

variable {κ α : Type} [DecidableEq κ]

/-- What is at each path. -/
abbrev Entries (κ α : Type) :=
  List κ → Option α

/-- There is nothing below a path that is not there. -/
def Closed (entries : Entries κ α) : Prop :=
  ∀ path rest, entries path = none → entries (path ++ rest) = none

/-- The subtree at one path, moved to another in place of what was there. What the entry at its root is
called may change with it.
-/
def moved (entries : Entries κ α) (source destination : List κ) (relabel : α → α) : Entries κ α :=
  fun path =>
    if destination <+: path then
      (entries (source ++ path.drop destination.length)).map
        (if path = destination then relabel else id)
    else if source <+: path then none
    else entries path

/-- Another subtree at a path. -/
def replaced (entries : Entries κ α) (place : List κ) (subtree : Entries κ α) : Entries κ α :=
  fun path => if place <+: path then subtree (path.drop place.length) else entries path

/-- The subtree at a path without the entries that do not remain. -/
def thinned (entries : Entries κ α) (place : List κ) (remains : List κ → Bool) : Entries κ α :=
  fun path => if place <+: path && !remains (path.drop place.length) then none else entries path

/-- The destination of a move has what the source had. -/
theorem moved_destination (entries : Entries κ α) (source destination rest : List κ)
    (relabel : α → α)
    : moved entries source destination relabel (destination ++ rest)
      = (entries (source ++ rest)).map (if rest = [] then relabel else id) := by
  rw [moved, if_pos (List.prefix_append _ _), List.drop_left]
  simp only [List.append_right_eq_self]

/-- The source of a move is gone, apart from what is now at the destination. -/
theorem moved_source (entries : Entries κ α) {source destination rest : List κ}
    (relabel : α → α) (outside : ¬destination <+: source ++ rest)
    : moved entries source destination relabel (source ++ rest) = none := by
  rw [moved, if_neg outside, if_pos (List.prefix_append _ _)]

/-- A path outside the destination of a move that was not there is not there afterwards. -/
theorem moved_eq_none {entries : Entries κ α} {source destination path : List κ}
    (relabel : α → α) (outside : ¬destination <+: path) (nothing : entries path = none)
    : moved entries source destination relabel path = none := by
  rw [moved, if_neg outside, nothing, ite_self]

/-- Outside its place a replaced subtree changes nothing. -/
theorem replaced_other (entries : Entries κ α) {place path : List κ} (subtree : Entries κ α)
    (outside : ¬place <+: path)
    : replaced entries place subtree path = entries path :=
  if_neg outside

omit [DecidableEq κ] in
/-- In a closed tree, what is there is not below a place where nothing is. -/
theorem Closed.not_prefix {entries : Entries κ α} (closed : Closed entries) {place path : List κ}
    (nothing : entries place = none) (something : entries path ≠ none)
    : ¬place <+: path := by
  rintro ⟨rest, rfl⟩
  exact something (closed place rest nothing)

end Subtrees
