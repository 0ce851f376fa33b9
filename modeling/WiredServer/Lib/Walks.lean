import Mathlib

/-! Walks through trees, as an enumerator gives them: each entry before what is below it, which the loop over the
enumerator may skip.
-/

namespace Walks

variable {α σ : Type}

/-- What an enumerator gives: an error, or an entry, what is below it unless that is skipped, and what follows. -/
inductive Walk (α : Type) where
  | done
  | failed (entry : α) (rest : Walk α)
  | visit (entry : α) (descendents rest : Walk α)

namespace Walk

/-- The loop over an enumerator. Its body says whether it goes on below the entry, which is at a level. -/
def loop (body : ℕ → α → σ → σ × Bool) (level : ℕ) : Walk α → σ → σ
  | done, state => state
  | failed _ rest, state => loop body level rest state
  | visit entry descendents rest, state =>
      let next := body level entry state
      loop body level rest (if next.2 then loop body (level + 1) descendents next.1 else next.1)

/-- An entry of a walk, with those that it is below, from the top. -/
inductive Has : Walk α → List α → α → Prop where
  | here {entry : α} {descendents rest : Walk α} : Has (.visit entry descendents rest) [] entry
  | inside {above entry : α} {descendents rest : Walk α} {trail : List α} (has : Has descendents trail entry)
      : Has (.visit above descendents rest) (above :: trail) entry
  | behind {other entry : α} {descendents rest : Walk α} {trail : List α} (has : Has rest trail entry)
      : Has (.visit other descendents rest) trail entry
  | behindFailed {other entry : α} {rest : Walk α} {trail : List α} (has : Has rest trail entry)
      : Has (.failed other rest) trail entry

/-- What an entry is below is an entry itself, by induction on where the entry is. -/
theorem Has.above {walk : Walk α} {trail front back : List α} {entry above : α} (has : walk.Has trail entry)
    (split : trail = front ++ above :: back)
    : walk.Has front above := by
  induction has generalizing front with
  | here => exact absurd split (by simp)
  | @inside first entry descendents rest trail has ih =>
      cases front with
      | nil =>
          cases split
          exact .here
      | cons other front =>
          obtain ⟨rfl, rest'⟩ := List.cons.inj split
          exact (ih rest').inside
  | behind has ih => exact (ih split).behind
  | behindFailed has ih => exact (ih split).behindFailed

/-- What the body keeps at each entry of a walk, the loop keeps, by induction on the walk. -/
theorem loop_rule (invariant : σ → Prop) {body : ℕ → α → σ → σ × Bool} {walk : Walk α} {level : ℕ}
    (kept : ∀ trail entry state, walk.Has trail entry → invariant state →
      invariant (body (level + trail.length) entry state).1)
    {state : σ} (holds : invariant state)
    : invariant (walk.loop body level state) := by
  induction walk generalizing level state with
  | done => exact holds
  | failed other rest ih =>
      exact ih (fun trail entry state has => kept trail entry state has.behindFailed) holds
  | visit first descendents rest ihBelow ihRest =>
      have first' : invariant (body level first state).1 := kept [] first state .here holds
      refine ihRest (fun trail entry state has => kept trail entry state has.behind) ?_
      split
      · refine ihBelow (fun trail entry state has => ?_) first'
        rw [Nat.add_assoc, Nat.add_comm 1]
        exact kept (first :: trail) entry state has.inside
      · exact first'

/-- The entries of a walk that are shown, when the walk goes on below those that are entered. -/
def shown (shows enters : ℕ → α → Bool) (level : ℕ) : Walk α → List α
  | done => []
  | failed _ rest => shown shows enters level rest
  | visit entry descendents rest =>
      (if shows level entry then [entry] else [])
        ++ (if enters level entry then shown shows enters (level + 1) descendents else [])
        ++ shown shows enters level rest

/-- An entry is shown if and only if some occurrence of it is shown, and each entry above it is entered. -/
theorem mem_shown_iff {shows enters : ℕ → α → Bool} {level : ℕ} {walk : Walk α} {entry : α}
    : entry ∈ walk.shown shows enters level
      ↔ ∃ trail, walk.Has trail entry ∧ shows (level + trail.length) entry = true
        ∧ ∀ index above, trail[index]? = some above → enters (level + index) above = true := by
  constructor
  · intro mem
    induction walk generalizing level with
    | done => cases mem
    | failed other rest ih =>
        obtain ⟨trail, has, spec⟩ := ih mem
        exact ⟨trail, has.behindFailed, spec⟩
    | visit first descendents rest ihBelow ihRest =>
        rw [shown, List.mem_append, List.mem_append] at mem
        rcases mem with (mem | mem) | mem
        · split at mem
          · rename_i isShown
            rw [List.mem_singleton.mp mem]
            exact ⟨[], .here, isShown, fun _ _ found => by cases found⟩
          · cases mem
        · split at mem
          · rename_i isEntered
            obtain ⟨trail, has, isShown, entered⟩ := ihBelow mem
            refine ⟨first :: trail, has.inside, ?_, ?_⟩
            · rwa [List.length_cons, Nat.add_comm trail.length, ← Nat.add_assoc]
            · intro index above found
              cases index with
              | zero =>
                  cases found
                  exact isEntered
              | succ index =>
                  rw [Nat.add_comm index, ← Nat.add_assoc]
                  exact entered index above found
          · cases mem
        · obtain ⟨trail, has, spec⟩ := ihRest mem
          exact ⟨trail, has.behind, spec⟩
  · rintro ⟨trail, has, isShown, entered⟩
    induction has generalizing level with
    | @here entry descendents rest =>
        have first : shows level entry = true := isShown
        rw [shown, if_pos first]
        exact List.mem_append_left _ (List.mem_append_left _ (List.mem_singleton_self _))
    | @inside above entry descendents rest trail has ih =>
        have first : enters level above = true := entered 0 above rfl
        rw [shown, if_pos first]
        refine List.mem_append_left _ (List.mem_append_right _ (ih ?_ fun index other found => ?_))
        · rwa [List.length_cons, Nat.add_comm trail.length, ← Nat.add_assoc] at isShown
        · rw [Nat.add_assoc, Nat.add_comm 1]
          exact entered (index + 1) other found
    | behind has ih =>
        rw [shown]
        exact List.mem_append_right _ (ih isShown entered)
    | behindFailed has ih => exact ih isShown entered


/-- Whatever is shown is shown in the order of the walk. -/
theorem shown_sublist (shows enters : ℕ → α → Bool) (level : ℕ) (walk : Walk α)
    : (walk.shown shows enters level).Sublist (walk.shown (fun _ _ => true) (fun _ _ => true) level) := by
  induction walk generalizing level with
  | done => exact List.Sublist.refl _
  | failed entry rest ih => exact ih level
  | visit entry descendents rest ihBelow ihRest =>
      rw [shown, shown, if_pos rfl, if_pos rfl]
      refine (List.Sublist.append ?_ ?_).append (ihRest level)
      · split
        · exact List.Sublist.refl _
        · exact List.nil_sublist _
      · split
        · exact ihBelow (level + 1)
        · exact List.nil_sublist _

end Walk
end Walks
