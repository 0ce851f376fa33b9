import Mathlib

/-! Rewriting a list of items in place. The first item about a pending key gives way to the block of the key,
later items about it are dropped, and the blocks of keys that no item is about go to the end. A key without a
block is left alone.
-/

namespace KeyedRewriting

variable {ι κ : Type} [DecidableEq κ] {key : ι → Option κ} {block : κ → Option (List ι)}

-----------------------------------------------------------------------------------------
-- The algorithm
-----------------------------------------------------------------------------------------

/-- The items so far, and the keys that are pending and done. -/
structure State (ι κ : Type) where
  items : List ι
  pending : Finset κ
  done : Finset κ

/-- An item is kept. -/
def State.keep (state : State ι κ) (item : ι) : State ι κ :=
  { state with items := state.items ++ [item] }

/-- The block of a pending key is put down. -/
def State.place (state : State ι κ) (name : κ) (items : List ι) : State ι κ where
  items := state.items ++ items
  pending := state.pending.erase name
  done := insert name state.done

/-- The next item. -/
def step (key : ι → Option κ) (block : κ → Option (List ι)) (state : State ι κ) (item : ι)
    : State ι κ :=
  match key item with
  | some name =>
      if name ∈ state.pending then
        match block name with
        | some items => state.place name items
        | none => state.keep item
      else if name ∈ state.done then state
      else state.keep item
  | none => state.keep item

/-- The items, with the blocks of the keys that are still pending, which are listed in some order. -/
def finish (block : κ → Option (List ι)) (items : List ι) (names : List κ) : List ι :=
  names.foldl (fun items name => items ++ (block name).getD []) items

/-- The items after the rewriting. -/
def rewrite (key : ι → Option κ) (block : κ → Option (List ι)) (enumerate : Finset κ → List κ)
    (pending : Finset κ) (items : List ι) : List ι :=
  let last := items.foldl (step key block) ⟨[], pending, ∅⟩
  finish block last.items (enumerate last.pending)

/-- The item is about the key. -/
def isAbout (key : ι → Option κ) (name : κ) (item : ι) : Bool :=
  key item = some name

/-- The item is not about a pending key that has a block. -/
def isOther (key : ι → Option κ) (block : κ → Option (List ι)) (pending : Finset κ) (item : ι) : Bool :=
  !(key item).any fun name => name ∈ pending && (block name).isSome

/-- Every data of a set is listed once. -/
def Enumerates (enumerate : Finset κ → List κ) : Prop :=
  ∀ names, (enumerate names).Nodup ∧ ∀ name, name ∈ enumerate names ↔ name ∈ names

-----------------------------------------------------------------------------------------
-- One item
-----------------------------------------------------------------------------------------

/-- The blocks of pending keys are about their keys. -/
def BlocksAreAbout (key : ι → Option κ) (block : κ → Option (List ι)) (pending : Finset κ) : Prop :=
  ∀ name ∈ pending, ∀ items, block name = some items → ∀ item ∈ items, key item = some name

/-- What holds when some of the items have been seen. -/
structure Kept (key : ι → Option κ) (block : κ → Option (List ι)) (pending : Finset κ) (seen : List ι)
    (state : State ι κ) : Prop where
  others : state.items.filter (isOther key block pending) = seen.filter (isOther key block pending)
  done : ∀ name ∈ state.done, name ∈ pending ∧ name ∉ state.pending
    ∧ ∃ items, block name = some items ∧ state.items.filter (isAbout key name) = items
  waiting : ∀ name ∈ pending, name ∉ state.done → name ∈ state.pending
    ∧ ((block name).isSome = true → state.items.filter (isAbout key name) = [])
  subset : state.pending ⊆ pending

variable {pending : Finset κ} {seen : List ι} {state : State ι κ}

/-- The items of a block are about its key, and not about another one. -/
theorem BlocksAreAbout.filter_isAbout (about : BlocksAreAbout key block pending) {name : κ}
    (isPending : name ∈ pending) {items : List ι} (found : block name = some items) (other : κ)
    : items.filter (isAbout key other) = if other = name then items else [] := by
  split
  · rename_i same
    rw [List.filter_eq_self]
    intro item mem
    rw [isAbout, about name isPending items found item mem, same, decide_eq_true rfl]
  · rename_i differs
    rw [List.filter_eq_nil_iff]
    intro item mem
    rw [isAbout, about name isPending items found item mem, decide_eq_true_eq, Option.some.injEq]
    exact fun same => differs same.symm

/-- The items of a block are not other items. -/
theorem BlocksAreAbout.filter_isOther (about : BlocksAreAbout key block pending) {name : κ}
    (isPending : name ∈ pending) {items : List ι} (found : block name = some items)
    : items.filter (isOther key block pending) = [] := by
  rw [List.filter_eq_nil_iff]
  intro item mem
  simp [isOther, about name isPending items found item mem, isPending, found]

/-- An item that is not about a key that is written has been kept. -/
theorem Kept.keep (kept : Kept key block pending seen state) {item : ι}
    (free : ∀ name ∈ pending, key item = some name → block name = none)
    : Kept key block pending (seen ++ [item]) (state.keep item) where
  others := by
    rw [State.keep, List.filter_append, List.filter_append, kept.others]
  done := by
    intro name mem
    obtain ⟨isPending, gone, items, found, own⟩ := kept.done name mem
    refine ⟨isPending, gone, items, found, ?_⟩
    have elsewhere : isAbout key name item = false := by
      rw [isAbout, decide_eq_false_iff_not]
      intro same
      rw [free name isPending same] at found
      cases found
    rw [State.keep, List.filter_append, own, List.filter_singleton, elsewhere, cond_false, List.append_nil]
  waiting := by
    intro name isPending notDone
    obtain ⟨waits, empty⟩ := kept.waiting name isPending notDone
    refine ⟨waits, fun hasBlock => ?_⟩
    have elsewhere : isAbout key name item = false := by
      rw [isAbout, decide_eq_false_iff_not]
      intro same
      rw [free name isPending same] at hasBlock
      cases hasBlock
    rw [State.keep, List.filter_append, empty hasBlock, List.filter_singleton, elsewhere, cond_false,
      List.append_nil]
  subset := kept.subset

/-- The first item about a pending key has given way to its block. -/
theorem Kept.place (about : BlocksAreAbout key block pending) (kept : Kept key block pending seen state)
    {item : ι} {name : κ} (isAbout' : key item = some name) (waits : name ∈ state.pending)
    {items : List ι} (found : block name = some items)
    : Kept key block pending (seen ++ [item]) (state.place name items) where
  others := by
    have isPending := kept.subset waits
    have goes : isOther key block pending item = false := by
      simp [isOther, isAbout', isPending, found]
    rw [State.place, List.filter_append, List.filter_append, kept.others,
      about.filter_isOther isPending found, List.filter_singleton, goes, cond_false]
  done := by
    intro other mem
    rw [State.place] at mem ⊢
    rcases Finset.mem_insert.mp mem with rfl | earlier
    · have notDone : other ∉ state.done := fun isDone => (kept.done other isDone).2.1 waits
      have isPending := kept.subset waits
      have empty := (kept.waiting other isPending notDone).2 (by rw [found]; rfl)
      refine ⟨isPending, Finset.notMem_erase other state.pending, items, found, ?_⟩
      rw [List.filter_append, empty, about.filter_isAbout isPending found, if_pos rfl, List.nil_append]
    · obtain ⟨isPending, gone, own, ownFound, stands⟩ := kept.done other earlier
      refine ⟨isPending, fun inside => gone (Finset.mem_of_mem_erase inside), own, ownFound, ?_⟩
      have differs : other ≠ name := fun same => gone (same ▸ waits)
      rw [List.filter_append, stands, about.filter_isAbout (kept.subset waits) found, if_neg differs,
        List.append_nil]
  waiting := by
    intro other isPending notDone
    rw [State.place] at notDone ⊢
    obtain ⟨differs, notEarlier⟩ := not_or.mp (mt Finset.mem_insert.mpr notDone)
    obtain ⟨otherWaits, empty⟩ := kept.waiting other isPending notEarlier
    refine ⟨Finset.mem_erase.mpr ⟨differs, otherWaits⟩, fun hasBlock => ?_⟩
    rw [List.filter_append, empty hasBlock, about.filter_isAbout (kept.subset waits) found, if_neg differs,
      List.append_nil]
  subset := (Finset.erase_subset _ _).trans kept.subset

/-- A later item about a key that is done has been dropped. -/
theorem Kept.drop (kept : Kept key block pending seen state) {item : ι} {name : κ}
    (isAbout' : key item = some name) (isDone : name ∈ state.done)
    : Kept key block pending (seen ++ [item]) state where
  others := by
    obtain ⟨isPending, -, items, found, -⟩ := kept.done name isDone
    have goes : isOther key block pending item = false := by
      simp [isOther, isAbout', isPending, found]
    rw [kept.others, List.filter_append, List.filter_singleton, goes, cond_false, List.append_nil]
  done := kept.done
  waiting := kept.waiting
  subset := kept.subset

/-- No key becomes pending. -/
theorem pending_step (item : ι) : (step key block state item).pending ⊆ state.pending := by
  rw [step]
  cases key item with
  | none => exact subset_rfl
  | some name =>
      dsimp only
      split
      · cases block name with
        | none => exact subset_rfl
        | some items => exact Finset.erase_subset _ _
      · split <;> exact subset_rfl

/-- What the next item does. -/
theorem Kept.step (about : BlocksAreAbout key block pending) (kept : Kept key block pending seen state)
    (item : ι)
    : Kept key block pending (seen ++ [item]) (step key block state item) := by
  rw [KeyedRewriting.step]
  cases isAbout' : key item with
  | none =>
      exact kept.keep fun name _ same => by
        rw [isAbout'] at same
        cases same
  | some name =>
      dsimp only
      split
      · rename_i waits
        cases found : block name with
        | some items => exact kept.place about isAbout' waits found
        | none =>
            refine kept.keep fun other _ same => ?_
            rw [isAbout'] at same
            cases same
            exact found
      · rename_i notWaiting
        split
        · rename_i isDone
          exact kept.drop isAbout' isDone
        · rename_i notDone
          refine kept.keep fun other isPending same => ?_
          rw [isAbout'] at same
          cases same
          exact absurd (kept.waiting name isPending notDone).1 notWaiting

-----------------------------------------------------------------------------------------
-- All items
-----------------------------------------------------------------------------------------

/-- What holds behind all items, by induction on them. -/
theorem Kept.foldl (about : BlocksAreAbout key block pending) (kept : Kept key block pending seen state)
    (items : List ι)
    : Kept key block pending (seen ++ items) (items.foldl (KeyedRewriting.step key block) state) := by
  induction items generalizing seen state with
  | nil => rwa [List.append_nil]
  | cons item items ih =>
      rw [List.foldl_cons, List.append_cons]
      exact ih (kept.step about item)

omit [DecidableEq κ] in
/-- The blocks of the remaining keys stand behind the items, by induction on the keys. -/
theorem finish_eq (items : List ι) (names : List κ)
    : finish block items names = items ++ names.flatMap fun name => (block name).getD [] := by
  induction names generalizing items with
  | nil => rw [List.flatMap_nil, List.append_nil, finish, List.foldl_nil]
  | cons name names ih =>
      have rest := ih (items ++ (block name).getD [])
      rw [finish] at rest
      rw [finish, List.foldl_cons, rest, List.flatMap_cons, List.append_assoc]

/-- Blocks of pending keys are not other items. -/
theorem BlocksAreAbout.filter_isOther_flatMap (about : BlocksAreAbout key block pending) {names : List κ}
    (arePending : ∀ name ∈ names, name ∈ pending)
    : (names.flatMap fun name => (block name).getD []).filter (isOther key block pending) = [] := by
  rw [List.filter_flatMap, List.flatMap_eq_nil_iff]
  intro name mem
  cases found : block name with
  | none => rfl
  | some items => exact about.filter_isOther (arePending name mem) found

/-- Of blocks that are listed once, one is about the key, by induction on the keys. -/
theorem BlocksAreAbout.filter_isAbout_flatMap (about : BlocksAreAbout key block pending) {names : List κ}
    (arePending : ∀ name ∈ names, name ∈ pending) (once : names.Nodup) (other : κ)
    : (names.flatMap fun name => (block name).getD []).filter (isAbout key other)
      = if other ∈ names then (block other).getD [] else [] := by
  induction names with
  | nil => rfl
  | cons name names ih =>
      have rest := ih (fun name mem => arePending name (List.mem_cons_of_mem _ mem)) once.of_cons
      have first : ((block name).getD []).filter (isAbout key other)
          = if other = name then (block name).getD [] else [] := by
        cases found : block name with
        | none => rw [Option.getD_none, List.filter_nil, ite_self]
        | some items => exact about.filter_isAbout (arePending name List.mem_cons_self) found other
      rw [List.flatMap_cons, List.filter_append, first, rest]
      by_cases same : other = name
      · subst same
        rw [if_pos rfl, if_neg (List.nodup_cons.mp once).1, if_pos List.mem_cons_self, List.append_nil]
      · simp only [if_neg same, List.nil_append, List.mem_cons, or_iff_right same]

/-- What the rewriting does: the other items are still there in their order, and the items about a pending
key with a block are its block, in any order of the keys that are left.
-/
theorem rewrite_spec {enumerate : Finset κ → List κ} (enumerates : Enumerates enumerate)
    (about : BlocksAreAbout key block pending) (items : List ι)
    : (rewrite key block enumerate pending items).filter (isOther key block pending)
        = items.filter (isOther key block pending)
      ∧ ∀ name ∈ pending, ∀ own, block name = some own →
        (rewrite key block enumerate pending items).filter (isAbout key name) = own := by
  have start : Kept key block pending [] ⟨[], pending, ∅⟩ := {
    others := rfl
    done := fun name mem => absurd mem (Finset.notMem_empty name)
    waiting := fun name isPending _ => ⟨isPending, fun _ => rfl⟩
    subset := subset_rfl
  }
  have last := start.foldl about items
  rw [List.nil_append] at last
  set state := items.foldl (step key block) ⟨[], pending, ∅⟩ with isState
  obtain ⟨once, lists⟩ := enumerates state.pending
  have arePending : ∀ name ∈ enumerate state.pending, name ∈ pending := fun name mem =>
    last.subset ((lists name).mp mem)
  have whole : rewrite key block enumerate pending items
      = state.items ++ (enumerate state.pending).flatMap fun name => (block name).getD [] := by
    rw [rewrite, ← isState, finish_eq]
  refine ⟨?_, fun name isPending own found => ?_⟩
  · rw [whole, List.filter_append, last.others, about.filter_isOther_flatMap arePending, List.append_nil]
  · rw [whole, List.filter_append, about.filter_isAbout_flatMap arePending once]
    by_cases isDone : name ∈ state.done
    · obtain ⟨-, gone, items, ownFound, stands⟩ := last.done name isDone
      rw [found] at ownFound
      cases ownFound
      rw [if_neg (fun mem => gone ((lists name).mp mem)), stands, List.append_nil]
    · obtain ⟨waits, empty⟩ := last.waiting name isPending isDone
      rw [if_pos ((lists name).mpr waits), empty (by rw [found]; rfl), found, Option.getD_some,
        List.nil_append]

/-- The items about a key that is not pending, or has no block, are those that were there. -/
theorem rewrite_isAbout_other {enumerate : Finset κ → List κ} (enumerates : Enumerates enumerate)
    (about : BlocksAreAbout key block pending) (items : List ι) {name : κ}
    (free : name ∈ pending → block name = none)
    : (rewrite key block enumerate pending items).filter (isAbout key name)
      = items.filter (isAbout key name) := by
  have inside (items : List ι) : items.filter (isAbout key name)
      = (items.filter (isOther key block pending)).filter (isAbout key name) := by
    rw [List.filter_filter]
    refine List.filter_congr fun item _ => ?_
    rw [Bool.eq_self_and, isAbout, decide_eq_true_eq]
    intro same
    rw [isOther, same, Option.any_some, Bool.not_eq_true', Bool.and_eq_false_iff, decide_eq_false_iff_not,
      Option.isSome_eq_false_iff, Option.isNone_iff_eq_none]
    by_cases isPending : name ∈ pending
    · exact .inr (free isPending)
    · exact .inl isPending
  rw [inside, (rewrite_spec enumerates about items).1, ← inside]

end KeyedRewriting
