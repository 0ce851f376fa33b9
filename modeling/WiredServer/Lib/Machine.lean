import Mathlib

/-! Machines that take actions one by one, where an action may be impossible in a state. What an
action keeps, in every state in which it meets a condition, holds after every run whose actions
meet it.
-/

namespace Machine

variable {α σ : Type}

/-- The state after a run, if every action of it is possible. -/
def run (step : α → σ → Option σ) : List α → σ → Option σ
  | [], state => some state
  | action :: actions, state => (step action state).bind (run step actions)

/-- Every action of a run meets a condition on the state before it. -/
def Meets (step : α → σ → Option σ) (condition : α → σ → Prop) : List α → σ → Prop
  | [], _ => True
  | action :: actions, state => condition action state
      ∧ ∀ next, step action state = some next → Meets step condition actions next

/-- Whether a run meets a condition that can be decided, can be decided. -/
instance decidableMeets (step : α → σ → Option σ) (condition : α → σ → Prop)
    [∀ action state, Decidable (condition action state)]
    : (actions : List α) → (state : σ) → Decidable (Meets step condition actions state)
  | [], _ => .isTrue trivial
  | action :: actions, state =>
      @instDecidableAnd (condition action state) _ inferInstance
        (match step action state with
        | none => .isTrue fun _ stepped => nomatch stepped
        | some next =>
            @decidable_of_iff _ (Meets step condition actions next)
              ⟨fun meets _ stepped => Option.some.inj stepped ▸ meets, fun meets => meets next rfl⟩
              (decidableMeets step condition actions next))

variable {step : α → σ → Option σ}

/-- A run takes its first action and goes on from there. -/
theorem run_cons {action : α} {actions : List α} {state last : σ}
    : run step (action :: actions) state = some last
      ↔ ∃ next, step action state = some next ∧ run step actions next = some last :=
  Option.bind_eq_some_iff

/-- What the actions of a run keep holds after it. -/
theorem holds_of_run {invariant : σ → Prop} {condition : α → σ → Prop}
    (kept : ∀ action state next, condition action state → invariant state →
      step action state = some next → invariant next)
    {actions : List α} {state last : σ} (ran : run step actions state = some last)
    (meets : Meets step condition actions state) (holds : invariant state)
    : invariant last := by
  induction actions generalizing state with
  | nil =>
      cases ran
      exact holds
  | cons action actions ih =>
      obtain ⟨next, stepped, rest⟩ := run_cons.mp ran
      exact ih rest (meets.2 next stepped) (kept action state next meets.1 holds stepped)

/-- A run meets a condition that its actions meet in every state. -/
theorem meets_of_forall {condition : α → σ → Prop} {actions : List α} {state : σ}
    (always : ∀ action ∈ actions, ∀ state, condition action state)
    : Meets step condition actions state := by
  induction actions generalizing state with
  | nil => trivial
  | cons action actions ih =>
      exact ⟨always action List.mem_cons_self state, fun _ _ =>
        ih fun action member => always action (List.mem_cons_of_mem _ member)⟩

/-- A run meets a condition that follows from one that it meets. -/
theorem Meets.mono {condition condition' : α → σ → Prop}
    (implies : ∀ action state, condition action state → condition' action state)
    {actions : List α} {state : σ} (meets : Meets step condition actions state)
    : Meets step condition' actions state := by
  induction actions generalizing state with
  | nil => trivial
  | cons action actions ih =>
      exact ⟨implies action state meets.1, fun next stepped => ih (meets.2 next stepped)⟩

/-- A run of two parts goes through a state between them. -/
theorem run_append {first rest : List α} {state last : σ}
    : run step (first ++ rest) state = some last
      ↔ ∃ middle, run step first state = some middle ∧ run step rest middle = some last := by
  induction first generalizing state with
  | nil => simp [run]
  | cons action first ih =>
      rw [List.cons_append, run_cons]
      constructor
      · rintro ⟨next, stepped, ran⟩
        obtain ⟨middle, ran, ran'⟩ := ih.mp ran
        exact ⟨middle, run_cons.mpr ⟨next, stepped, ran⟩, ran'⟩
      · rintro ⟨middle, ran, ran'⟩
        obtain ⟨next, stepped, ran⟩ := run_cons.mp ran
        exact ⟨next, stepped, ih.mpr ⟨middle, ran, ran'⟩⟩

/-- A property that an action gives up exactly when it does not meet a condition holds after a run
exactly when it held before and every action meets the condition.
-/
theorem holds_iff_meets_of_run {invariant holds : σ → Prop} {condition : α → σ → Prop}
    (kept : ∀ action state next, invariant state → step action state = some next →
      invariant next)
    (given : ∀ action state next, invariant state → step action state = some next →
      (holds next ↔ holds state ∧ condition action state))
    {actions : List α} {state last : σ} (ran : run step actions state = some last)
    (before : invariant state)
    : holds last ↔ holds state ∧ Meets step condition actions state := by
  induction actions generalizing state with
  | nil =>
      cases ran
      simp [Meets]
  | cons action actions ih =>
      obtain ⟨next, stepped, rest⟩ := run_cons.mp ran
      have others : (∀ other, step action state = some other →
          Meets step condition actions other) ↔ Meets step condition actions next := by
        constructor
        · exact fun meets => meets next stepped
        · intro meets other same
          rw [stepped] at same
          exact Option.some.inj same ▸ meets
      rw [ih rest (kept action state next before stepped),
        given action state next before stepped, Meets, others, and_assoc]

/-- Two conditions that are equivalent in every state with an invariant, which is kept where they hold,
are met by the same runs.
-/
theorem meets_iff_meets_of_run {invariant : σ → Prop} {condition condition' : α → σ → Prop}
    (same : ∀ action state next, invariant state → step action state = some next →
      (condition action state ↔ condition' action state))
    (kept : ∀ action state next, condition' action state → invariant state →
      step action state = some next → invariant next)
    {actions : List α} {state last : σ} (ran : run step actions state = some last)
    (before : invariant state)
    : Meets step condition actions state ↔ Meets step condition' actions state := by
  induction actions generalizing state with
  | nil => exact Iff.rfl
  | cons action actions ih =>
      obtain ⟨next, stepped, rest⟩ := run_cons.mp ran
      have first := same action state next before stepped
      constructor
      · intro meets
        refine ⟨first.mp meets.1, fun other stepped' => ?_⟩
        cases stepped.symm.trans stepped'
        have after := kept action state next (first.mp meets.1) before stepped
        exact (ih rest after).mp (meets.2 next stepped)
      · intro meets
        refine ⟨first.mpr meets.1, fun other stepped' => ?_⟩
        cases stepped.symm.trans stepped'
        exact (ih rest (kept action state next meets.1 before stepped)).mpr (meets.2 next stepped)

/-- What every action keeps holds after every run. -/
theorem holds_of_run_always {invariant : σ → Prop}
    (kept : ∀ action state next, invariant state → step action state = some next →
      invariant next)
    {actions : List α} {state last : σ} (ran : run step actions state = some last)
    (holds : invariant state)
    : invariant last := by
  have keptToo : ∀ action state next, (fun _ _ => True : α → σ → Prop) action state →
      invariant state → step action state = some next → invariant next :=
    fun action state next _ => kept action state next
  exact holds_of_run keptToo ran (meets_of_forall fun _ _ _ => trivial) holds

/-- Let an action lead to a state with a property exactly when it meets a condition, and let the actions
that meet it keep an invariant. Then the property holds in every state that a run reaches, and the
run is possible, exactly when all of its actions meet the condition.
-/
theorem throughout_iff {invariant holds : σ → Prop} {condition : α → Prop}
    (given : ∀ state, invariant state → holds state)
    (steps : ∀ action state, invariant state →
      ((∃ next, step action state = some next ∧ holds next) ↔ condition action))
    (kept : ∀ action state next, condition action → invariant state →
      step action state = some next → invariant next)
    {state : σ} (before : invariant state) (actions : List α)
    : (∀ seen, seen <+: actions → ∃ last, run step seen state = some last ∧ holds last)
      ↔ ∀ action ∈ actions, condition action := by
  induction actions generalizing state with
  | nil =>
      refine iff_of_true (fun seen none => ?_) nofun
      rw [List.prefix_nil.mp none]
      exact ⟨state, rfl, given state before⟩
  | cons action actions ih =>
      constructor
      · intro always
        obtain ⟨next, ran, holdsNext⟩ :=
          always [action] (List.cons_prefix_cons.mpr ⟨rfl, List.nil_prefix⟩)
        obtain ⟨after, stepped, same⟩ := run_cons.mp ran
        obtain rfl := Option.some.inj same
        have first := (steps action state before).mp ⟨_, stepped, holdsNext⟩
        refine List.forall_mem_cons.mpr
          ⟨first, (ih (kept action state _ first before stepped)).mp fun seen starts => ?_⟩
        obtain ⟨last, ran, holdsLast⟩ := always (action :: seen)
          (List.cons_prefix_cons.mpr ⟨rfl, starts⟩)
        obtain ⟨other, stepped', rest⟩ := run_cons.mp ran
        cases stepped.symm.trans stepped'
        exact ⟨last, rest, holdsLast⟩
      · intro meets seen starts
        obtain ⟨first, others⟩ := List.forall_mem_cons.mp meets
        obtain ⟨next, stepped, -⟩ := (steps action state before).mpr first
        cases seen with
        | nil => exact ⟨state, rfl, given state before⟩
        | cons other seen =>
            obtain ⟨rfl, rest⟩ := List.cons_prefix_cons.mp starts
            obtain ⟨last, ran, holdsLast⟩ :=
              (ih (kept other state next first before stepped)).mpr others seen rest
            exact ⟨last, run_cons.mpr ⟨next, stepped, ran⟩, holdsLast⟩

/-- Let two machines take the same actions, and let an action that meets a condition keep them related,
while after one that does not their states no longer agree. Then the states agree all along a run
that is possible for the second machine, and the first can take it, exactly when all of its actions
meet the condition.
-/
theorem agree_along_iff {τ : Type} {step' : α → τ → Option τ} {related agrees : σ → τ → Prop}
    {condition : α → σ → Prop}
    (given : ∀ state state', related state state' → agrees state state')
    (kept : ∀ action state state' next', related state state' → step' action state' = some next' →
      condition action state → ∃ next, step action state = some next ∧ related next next')
    (given_up : ∀ action state state' next next', related state state' →
      step' action state' = some next' → ¬condition action state →
      step action state = some next → ¬agrees next next')
    {actions : List α} {state : σ} {state' last' : τ} (before : related state state')
    (possible : run step' actions state' = some last')
    : (∀ seen, seen <+: actions → ∃ last last', run step seen state = some last
        ∧ run step' seen state' = some last' ∧ agrees last last')
      ↔ Meets step condition actions state := by
  induction actions generalizing state state' with
  | nil =>
      refine iff_of_true (fun seen none => ?_) trivial
      rw [List.prefix_nil.mp none]
      exact ⟨state, state', rfl, rfl, given state state' before⟩
  | cons action actions ih =>
      obtain ⟨next', stepped', rest'⟩ := run_cons.mp possible
      constructor
      · intro always
        obtain ⟨next, other', ran, ran', agree⟩ :=
          always [action] (List.cons_prefix_cons.mpr ⟨rfl, List.nil_prefix⟩)
        obtain ⟨after, stepped, same⟩ := run_cons.mp ran
        obtain ⟨after', steppedToo, same'⟩ := run_cons.mp ran'
        cases stepped'.symm.trans steppedToo
        cases same
        cases same'
        have first : condition action state := by
          by_contra fails
          exact given_up action state state' _ _ before stepped' fails stepped agree
        obtain ⟨_, stepped', keeps⟩ := kept action state state' _ before steppedToo first
        cases stepped.symm.trans stepped'
        refine ⟨first, fun other steppedOther => ?_⟩
        cases stepped.symm.trans steppedOther
        refine (ih keeps rest').mp fun seen starts => ?_
        obtain ⟨last, last', ran, ran', agree⟩ :=
          always (action :: seen) (List.cons_prefix_cons.mpr ⟨rfl, starts⟩)
        obtain ⟨middle, steppedMiddle, rest⟩ := run_cons.mp ran
        obtain ⟨middle', steppedMiddle', rest'⟩ := run_cons.mp ran'
        cases stepped.symm.trans steppedMiddle
        cases steppedToo.symm.trans steppedMiddle'
        exact ⟨last, last', rest, rest', agree⟩
      · intro meets seen starts
        obtain ⟨next, stepped, keeps⟩ := kept action state state' next' before stepped' meets.1
        cases seen with
        | nil => exact ⟨state, state', rfl, rfl, given state state' before⟩
        | cons other seen =>
            obtain ⟨rfl, rest⟩ := List.cons_prefix_cons.mp starts
            obtain ⟨last, last', ran, ran', agree⟩ :=
              (ih keeps rest').mpr (meets.2 next stepped) seen rest
            exact ⟨last, last', run_cons.mpr ⟨next, stepped, ran⟩,
              run_cons.mpr ⟨next', stepped', ran'⟩, agree⟩

/-- Let every action of a machine be possible for another one, and keep the two related. Then so is every
run.
-/
theorem exists_run_of_simulation {τ : Type} {step' : α → τ → Option τ} {related : σ → τ → Prop}
    (kept : ∀ action state state' next, related state state' → step action state = some next →
      ∃ next', step' action state' = some next' ∧ related next next')
    {actions : List α} {state last : σ} {state' : τ} (before : related state state')
    (ran : run step actions state = some last)
    : ∃ last', run step' actions state' = some last' ∧ related last last' := by
  induction actions generalizing state state' with
  | nil =>
      cases ran
      exact ⟨state', rfl, before⟩
  | cons action actions ih =>
      obtain ⟨next, stepped, rest⟩ := run_cons.mp ran
      obtain ⟨next', stepped', after⟩ := kept action state state' next before stepped
      obtain ⟨last', ran', relatedLast⟩ := ih after rest
      exact ⟨last', run_cons.mpr ⟨next', stepped', ran'⟩, relatedLast⟩

/-- Let actions that meet a condition keep two machines related. Then the first can take a run that is
possible for the second and whose actions meet the condition.
-/
theorem exists_related_of_meets {τ : Type} {step' : α → τ → Option τ} {related : σ → τ → Prop}
    {condition : α → σ → Prop}
    (kept : ∀ action state state', related state state' → condition action state →
      ∃ next next', step action state = some next ∧ step' action state' = some next'
        ∧ related next next')
    {actions : List α} {state : σ} {state' : τ} (before : related state state')
    (meets : Meets step condition actions state)
    : ∃ last last', run step actions state = some last ∧ run step' actions state' = some last'
      ∧ related last last' := by
  induction actions generalizing state state' with
  | nil => exact ⟨state, state', rfl, rfl, before⟩
  | cons action actions ih =>
      obtain ⟨next, next', stepped, stepped', keeps⟩ := kept action state state' before meets.1
      obtain ⟨last, last', ran, ran', after⟩ := ih keeps (meets.2 next stepped)
      exact ⟨last, last', run_cons.mpr ⟨next, stepped, ran⟩, run_cons.mpr ⟨next', stepped', ran'⟩,
        after⟩

/-- Let actions that meet a condition of their own keep two machines related. Then a run that is possible
for the second machine meets the condition in the first one exactly when all of its actions do.
-/
theorem meets_iff_forall {τ : Type} {step' : α → τ → Option τ} {related : σ → τ → Prop}
    {condition : α → Prop}
    (kept : ∀ action state state' next', related state state' → step' action state' = some next' →
      condition action → ∃ next, step action state = some next ∧ related next next')
    {actions : List α} {state : σ} {state' last' : τ} (before : related state state')
    (possible : run step' actions state' = some last')
    : Meets step (fun action _ => condition action) actions state
      ↔ ∀ action ∈ actions, condition action := by
  induction actions generalizing state state' with
  | nil => exact iff_of_true trivial nofun
  | cons action actions ih =>
      obtain ⟨next', stepped', rest'⟩ := run_cons.mp possible
      constructor
      · intro meets
        obtain ⟨next, stepped, keeps⟩ := kept action state state' next' before stepped' meets.1
        exact List.forall_mem_cons.mpr ⟨meets.1, (ih keeps rest').mp (meets.2 next stepped)⟩
      · exact fun all => meets_of_forall fun other member _ => all other member

/-- Let an action that is allowed lead to a state with an invariant, and do what it should, exactly when
it meets a condition. Then all actions of a run do so exactly when all of them meet the condition.
-/
theorem does_throughout_iff {invariant : σ → Prop} {does : α → σ → σ → Prop}
    {condition allowed : α → σ → Prop}
    (each : ∀ action state, invariant state → allowed action state →
      ((∃ next, step action state = some next ∧ invariant next ∧ does action state next)
        ↔ condition action state))
    {actions : List α} {state : σ} (before : invariant state)
    (allows : Meets step allowed actions state)
    : (∀ seen action rest, actions = seen ++ action :: rest → ∃ middle next,
        run step seen state = some middle ∧ step action middle = some next ∧ invariant next
        ∧ does action middle next)
      ↔ Meets step condition actions state := by
  induction actions generalizing state with
  | nil => exact iff_of_true (fun seen action rest split => by simp at split) trivial
  | cons action actions ih =>
      have first := each action state before allows.1
      constructor
      · intro always
        obtain ⟨middle, next, ran, stepped, invariantNext, right⟩ := always [] action actions rfl
        cases ran
        refine ⟨first.mp ⟨next, stepped, invariantNext, right⟩, fun other stepped' => ?_⟩
        cases stepped.symm.trans stepped'
        refine (ih invariantNext (allows.2 next stepped)).mp fun seen last rest split => ?_
        obtain ⟨middle, after, ran, more⟩ := always (action :: seen) last rest (by rw [split]; rfl)
        obtain ⟨other, stepped'', ran⟩ := run_cons.mp ran
        cases stepped.symm.trans stepped''
        exact ⟨middle, after, ran, more⟩
      · intro meets seen last rest split
        obtain ⟨next, stepped, invariantNext, right⟩ := first.mpr meets.1
        cases seen with
        | nil =>
            obtain ⟨rfl, rfl⟩ := List.cons.inj split
            exact ⟨state, next, rfl, stepped, invariantNext, right⟩
        | cons other seen =>
            obtain ⟨rfl, others⟩ := List.cons.inj split
            obtain ⟨middle, after, ran, more⟩ :=
              (ih invariantNext (allows.2 next stepped)).mpr (meets.2 next stepped) seen last rest
                others
            exact ⟨middle, after, run_cons.mpr ⟨next, stepped, ran⟩, more⟩

/-- What is known of a state after the actions that led to it is known after a run, if each action adds
to it.
-/
theorem holds_of_history {holds : List α → σ → Prop}
    (kept : ∀ seen action state next, holds seen state → step action state = some next →
      holds (seen ++ [action]) next)
    {actions : List α} {state last : σ} (ran : run step actions state = some last) {seen : List α}
    (before : holds seen state)
    : holds (seen ++ actions) last := by
  induction actions generalizing state seen with
  | nil =>
      cases ran
      rwa [List.append_nil]
  | cons action actions ih =>
      obtain ⟨next, stepped, rest⟩ := run_cons.mp ran
      have after := ih rest (kept seen action state next before stepped)
      rwa [List.append_assoc] at after

/-- Let an action that is possible in a state with a property lead to another one exactly when it meets a
condition. Then every state along a run has the property exactly when all of its actions meet the
condition.
-/
theorem throughout_iff_meets {holds : σ → Prop} {condition : α → σ → Prop}
    (given : ∀ action state next, holds state → step action state = some next →
      (holds next ↔ condition action state))
    {actions : List α} {state last : σ} (ran : run step actions state = some last)
    (before : holds state)
    : (∀ seen middle, seen <+: actions → run step seen state = some middle → holds middle)
      ↔ Meets step condition actions state := by
  induction actions generalizing state with
  | nil =>
      refine iff_of_true (fun seen middle none ran' => ?_) trivial
      rw [List.prefix_nil.mp none] at ran'
      exact Option.some.inj ran' ▸ before
  | cons action actions ih =>
      obtain ⟨next, stepped, rest⟩ := run_cons.mp ran
      constructor
      · intro always
        have after := always [action] next (List.cons_prefix_cons.mpr ⟨rfl, List.nil_prefix⟩)
          (run_cons.mpr ⟨next, stepped, rfl⟩)
        refine ⟨(given action state next before stepped).mp after, fun other stepped' => ?_⟩
        cases stepped.symm.trans stepped'
        refine (ih rest after).mp fun seen middle starts ran' => ?_
        exact always (action :: seen) middle (List.cons_prefix_cons.mpr ⟨rfl, starts⟩)
          (run_cons.mpr ⟨next, stepped, ran'⟩)
      · intro meets seen middle starts ran'
        cases seen with
        | nil => exact Option.some.inj ran' ▸ before
        | cons other seen =>
            obtain ⟨rfl, others⟩ := List.cons_prefix_cons.mp starts
            obtain ⟨after, stepped', ran'⟩ := run_cons.mp ran'
            cases stepped.symm.trans stepped'
            have holdsNext := (given other state next before stepped).mpr meets.1
            exact (ih rest holdsNext).mpr (meets.2 next stepped) seen middle others ran'

end Machine
