import Mathlib
import WiredServer.Collections.DictionaryRefinement
import WiredServer.Collections.SetRefinement

/-! Histories of sets. They are histories of bags as long as no counted set is set to one that contains
something more than once, and no two counted sets are compared that differ in their counts alone.
-/

namespace WiredServer.Collections

open Loop

variable {κ : Type} {keys : Setoid (Option κ)} {callbacks : DictionaryCallbacks κ}

namespace WiSet

-----------------------------------------------------------------------------------------
-- Operations
-----------------------------------------------------------------------------------------

/-- An operation on a set. Another set that it is set to or copied from is given by its number. -/
inductive SetOperation (κ : Type) where
  | init (capacity : ℕ) (counted : Bool)
  | add (data : Option κ)
  | addArray (array : SoundArray κ)
  | remove (data : Option κ)
  | removeAll
  | set (source : ℕ)
  | copy (source : ℕ)

/-- A set is changed, or two sets are compared. -/
inductive SetAction (κ : Type) where
  | change (target : ℕ) (operation : SetOperation κ)
  | compare (first second : ℕ)

/-- Sets and what came of their comparisons. -/
structure Sets (κ : Type) where
  sets : ℕ → WiSet κ
  answers : List Bool

/-- Bags and what their comparisons should come to. -/
structure Bags (Q : Type) where
  bags : ℕ → Bag Q
  answers : List Bool

namespace SetOperation

/-- What an operation does to one of the sets. -/
def onSet (callbacks : DictionaryCallbacks κ) (sets : ℕ → WiSet κ) (target : ℕ)
    : SetOperation κ → Access (Option (WiSet κ))
  | .init capacity counted => .ok (some (initWithCapacity capacity counted))
  | .add data => (sets target).mutableAddData callbacks data
  | .addArray array => (sets target).mutableAddDataFromArray callbacks array.array
  | .remove data => (sets target).mutableRemoveData callbacks data
  | .removeAll => do
      let next ← (sets target).removeAllData callbacks
      .ok (some next)
  | .set source => do
      let next ← (sets target).mutableSetSet callbacks fun current =>
        if source = target then current else sets source
      .ok (some next)
  | .copy source => do
      let next ← (sets source).copy callbacks
      .ok (some next)

/-- The same operation on a bag, where an operation that the code asserts against is impossible. -/
def onBag [DecidableEq (Quotient keys)] (callbacks : DictionaryCallbacks κ)
    (bags : ℕ → Bag (Quotient keys)) (target : ℕ)
    : SetOperation κ → Option (Bag (Quotient keys))
  | .init _ counted => some (Bag.empty counted)
  | .add data =>
      if callbacks.keyRetains && data.isNone then none else some ((bags target).add ⟦data⟧)
  | .addArray array =>
      some (array.contents.foldl (fun bag data => bag.add ⟦data⟧) (bags target))
  | .remove data =>
      if callbacks.keyReleases && data.isNone then none else some ((bags target).remove ⟦data⟧)
  | .removeAll => some (Bag.empty (bags target).counted)
  | .set source => some ((bags target).setTo (bags source))
  | .copy source => some (bags source)

end SetOperation

/-- An action on sets. It is impossible if it ends the process or leaves a block. -/
def stepSets (callbacks : DictionaryCallbacks κ) (action : SetAction κ) (state : Sets κ)
    : Option (Sets κ) :=
  match action with
  | .change target operation =>
      match operation.onSet callbacks state.sets target with
      | .ok (some next) => some { state with sets := Function.update state.sets target next }
      | _ => none
  | .compare first second =>
      match (state.sets first).isEqual callbacks (state.sets second) with
      | .ok answer => some { state with answers := state.answers ++ [answer] }
      | .error _ => none

/-- The action on the bags. -/
def stepBags [DecidableEq (Quotient keys)] (callbacks : DictionaryCallbacks κ)
    (action : SetAction κ) (state : Bags (Quotient keys))
    : Option (Bags (Quotient keys)) :=
  match action with
  | .change target operation => do
      let next ← operation.onBag callbacks state.bags target
      some { state with bags := Function.update state.bags target next }
  | .compare first second =>
      some { state with answers := state.answers ++ [(state.bags first).sameAs (state.bags second)] }

/-- A set is set to one of which it can take over the counts: it is plain itself, or the other one is
plain or contains nothing more than once. Only an empty set may be set to itself. Counted sets that are
compared differ in more than their counts, if at all.
-/
def KeepsCounts (callbacks : DictionaryCallbacks κ) (state : Sets κ) : SetAction κ → Prop
  | .change target (.set source) =>
      if source = target then (state.sets source).table.keyCount = 0
      else (state.sets target).counted = true → (state.sets source).counted = true →
        ∀ data count, (state.sets source).countForData callbacks data = .ok count → count ≤ 1
  | .compare first second =>
      (state.sets first).counted = true → (state.sets second).counted = true →
        (∀ data, (state.sets first).containsData callbacks data
          = (state.sets second).containsData callbacks data) →
        ∀ data, (state.sets first).countForData callbacks data
          = (state.sets second).countForData callbacks data
  | _ => True

-----------------------------------------------------------------------------------------
-- Steps
-----------------------------------------------------------------------------------------

/-- What a set contains, how often if it is counted, and how many different data are those of a bag. -/
structure Agrees [DecidableEq (Quotient keys)] (callbacks : DictionaryCallbacks κ) (set : WiSet κ)
    (bag : Bag (Quotient keys)) : Prop where
  counted : set.counted = bag.counted
  contains : ∀ data, set.containsData callbacks data = .ok (decide (⟦data⟧ ∈ bag.all))
  counts : bag.counted = true → ∀ data, set.countForData callbacks data = .ok (bag.all.count ⟦data⟧)
  count : set.table.keyCount = bag.all.toFinset.card

section Steps

variable [DecidableEq (Quotient keys)] {set : WiSet κ} {bag after : Bag (Quotient keys)}
variable {sets : ℕ → WiSet κ} {bags : ℕ → Bag (Quotient keys)} {target : ℕ}

/-- A set agrees with its bag. -/
theorem Refines.agrees (refines : Refines callbacks set bag) (lawful : callbacks.Lawful keys)
    : Agrees callbacks set bag where
  counted := refines.counted
  contains := refines.containsData lawful
  counts := refines.countForData lawful
  count := refines.keyCount_eq

/-- A set agrees with no other bag. -/
theorem Agrees.unique (agrees : Agrees callbacks set bag) (refines : Refines callbacks set after)
    (lawful : callbacks.Lawful keys)
    : after = bag := by
  have kind := refines.counted.symm.trans agrees.counted
  refine Bag.ext_all kind ?_
  rcases Bool.eq_false_or_eq_true bag.counted with counted | isPlain
  · refine Multiset.ext.mpr fun data => ?_
    obtain ⟨data, rfl⟩ := Quotient.exists_rep data
    have own := refines.countForData lawful (kind.trans counted) data
    exact Except.ok.inj (own.symm.trans (agrees.counts counted data))
  · refine (Multiset.Nodup.ext (after.plain (kind.trans isPlain)) (bag.plain isPlain)).mpr ?_
    intro data
    obtain ⟨data, rfl⟩ := Quotient.exists_rep data
    have own := refines.containsData lawful data
    exact decide_eq_decide.mp (Except.ok.inj (own.symm.trans (agrees.contains data)))

/-- A set that is set to another one has the right bag if it can take over the counts. -/
theorem onceEach_eq_setTo_iff (lawful : callbacks.Lawful keys)
    (refines : ∀ i, Refines callbacks (sets i) (bags i)) (source : ℕ)
    : onceEach (bags target).counted (bags source) = (bags target).setTo (bags source)
      ↔ ((sets target).counted = true → (sets source).counted = true →
        ∀ data count, (sets source).countForData callbacks data = .ok count → count ≤ 1) := by
  rw [(refines target).counted, (refines source).counted]
  rcases Bool.eq_false_or_eq_true (bags target).counted with counted | isPlain
  · have all : ((bags target).setTo (bags source)).all = (bags source).all := if_pos counted
    have same : onceEach (bags target).counted (bags source) = (bags target).setTo (bags source)
        ↔ (bags source).all.Nodup := by
      rw [← Multiset.dedup_eq_self]
      constructor
      · exact fun same => (congrArg Bag.all same).trans all
      · exact fun once => Bag.ext_all rfl (once.trans all.symm)
    rw [same]
    constructor
    · intro once _ isCounted data count found
      rw [(refines source).countForData lawful isCounted] at found
      cases found
      exact Multiset.nodup_iff_count_le_one.mp once ⟦data⟧
    · intro few
      rcases Bool.eq_false_or_eq_true (bags source).counted with isCounted | isPlain
      · refine Multiset.nodup_iff_count_le_one.mpr fun data => ?_
        obtain ⟨data, rfl⟩ := Quotient.exists_rep data
        exact few counted isCounted data _ ((refines source).countForData lawful isCounted data)
      · exact (bags source).plain isPlain
  · refine iff_of_true (Bag.ext_all rfl ?_) fun counted => ?_
    · exact (if_neg (by simp [isPlain])).symm
    · rw [isPlain] at counted
      cases counted

/-- A set that is set to itself has the right bag if it is empty. -/
theorem empty_eq_setTo_iff (refines : Refines callbacks set bag)
    : Bag.empty bag.counted = bag.setTo bag ↔ set.table.keyCount = 0 := by
  have all : (bag.setTo bag).all = bag.all := by
    rw [Bag.setTo]
    split
    · rfl
    · rename_i isPlain
      exact Multiset.dedup_eq_self.mpr (bag.plain (by simpa using isPlain))
  rw [refines.keyCount_eq, Finset.card_eq_zero, Multiset.toFinset_eq_empty]
  constructor
  · exact fun same => (all.symm.trans (congrArg Bag.all same).symm)
  · exact fun nothing => Bag.ext_all rfl (nothing.symm.trans all.symm)

/-- Two sets are compared rightly if they do not differ in their counts alone. -/
theorem isEqual_eq_sameAs_iff {other : WiSet κ} {bag' : Bag (Quotient keys)}
    (lawful : callbacks.Lawful keys) (refines : Refines callbacks set bag)
    (refines' : Refines callbacks other bag')
    : decide (bag.all.toFinset = bag'.all.toFinset) = bag.sameAs bag'
      ↔ (set.counted = true → other.counted = true →
        (∀ data, set.containsData callbacks data = other.containsData callbacks data) →
        ∀ data, set.countForData callbacks data = other.countForData callbacks data) := by
  rw [refines.counted, refines'.counted]
  by_cases counted : bag.counted = true ∧ bag'.counted = true
  · have sameElements : (∀ data, set.containsData callbacks data = other.containsData callbacks data)
        ↔ bag.all.toFinset = bag'.all.toFinset := by
      rw [Finset.ext_iff]
      refine (forall_congr' fun data => ?_).trans Quotient.forall.symm
      rw [refines.containsData lawful, refines'.containsData lawful, Except.ok.injEq,
        decide_eq_decide, Multiset.mem_toFinset, Multiset.mem_toFinset]
    have sameCounts : (∀ data, set.countForData callbacks data = other.countForData callbacks data)
        ↔ bag.all = bag'.all := by
      rw [Multiset.ext]
      refine (forall_congr' fun data => ?_).trans Quotient.forall.symm
      rw [refines.countForData lawful counted.1, refines'.countForData lawful counted.2,
        Except.ok.injEq]
    rw [sameElements, sameCounts, Bag.sameAs, if_pos counted, decide_eq_decide]
    constructor
    · exact fun same _ _ => same.mp
    · exact fun same => ⟨same counted.1 counted.2, congrArg Multiset.toFinset⟩
  · rw [Bag.sameAs, if_neg counted]
    exact iff_of_true rfl fun first second => absurd ⟨first, second⟩ counted

/-- An operation that is possible on a bag leads to a set, which has the bag that it should have if the
operation can take over the counts.
-/
theorem onSet_spec (lawful : callbacks.Lawful keys)
    (refines : ∀ i, Refines callbacks (sets i) (bags i)) {operation : SetOperation κ}
    {bag' : Bag (Quotient keys)} (possible : operation.onBag callbacks bags target = some bag')
    (answers : List Bool)
    : ∃ next after, operation.onSet callbacks sets target = .ok (some next)
      ∧ Refines callbacks next after
      ∧ (after = bag' ↔ KeepsCounts callbacks ⟨sets, answers⟩ (.change target operation)) := by
  cases operation with
  | init capacity counted =>
      cases possible
      exact ⟨_, _, rfl, refines_init capacity counted, iff_of_true rfl trivial⟩
  | add data =>
      obtain ⟨allowed, same⟩ := Option.ite_none_left_eq_some.mp possible
      cases same
      obtain ⟨next, ran, refinesNext⟩ := (refines target).addData lawful data
      refine ⟨next, _, ?_, refinesNext, iff_of_true rfl trivial⟩
      simp only [SetOperation.onSet, mutableAddData, allowed, Bool.false_eq_true, if_false, ran, bind,
        Except.bind]
  | addArray array =>
      cases possible
      obtain ⟨next, ran, refinesNext⟩ :=
        @Refines.addDataFromArray _ _ _ _ _ _ lawful array.array [] array.contents array.sound
          (refines target)
      refine ⟨next, _, ?_, refinesNext, iff_of_true rfl trivial⟩
      rw [SetOperation.onSet, mutableAddDataFromArray, array.sound.dataCount_eq,
        List.range_eq_range']
      exact ran
  | remove data =>
      obtain ⟨allowed, same⟩ := Option.ite_none_left_eq_some.mp possible
      cases same
      obtain ⟨next, ran, refinesNext⟩ :=
        (refines target).mutableRemoveData lawful (Bool.eq_false_iff.mpr allowed)
      exact ⟨next, _, ran, refinesNext, iff_of_true rfl trivial⟩
  | removeAll =>
      cases possible
      obtain ⟨next, ran, refinesNext⟩ := (refines target).removeAllData
      refine ⟨next, _, ?_, refinesNext, iff_of_true rfl trivial⟩
      simp only [SetOperation.onSet, ran, bind, Except.bind]
  | set source =>
      cases possible
      by_cases own : source = target
      · subst own
        obtain ⟨next, ran, refinesNext⟩ := (refines source).mutableSetSet_self
        refine ⟨next, _, ?_, refinesNext, ?_⟩
        · simp only [SetOperation.onSet, if_true]
          change (do
            let next ← (sets source).mutableSetSet callbacks id
            Except.ok (some next)) = _
          rw [ran]
          rfl
        · rw [empty_eq_setTo_iff (refines source), KeepsCounts, if_pos rfl]
      · obtain ⟨next, ran, refinesNext⟩ :=
          (refines target).mutableSetSet (refines source) lawful
        refine ⟨next, _, ?_, refinesNext, ?_⟩
        · simp only [SetOperation.onSet, own, if_false, ran, bind, Except.bind]
        · rw [onceEach_eq_setTo_iff lawful refines source, KeepsCounts, if_neg own]
  | copy source =>
      cases possible
      obtain ⟨next, ran, refinesNext⟩ := (refines source).copy lawful
      refine ⟨next, _, ?_, refinesNext, iff_of_true rfl trivial⟩
      simp only [SetOperation.onSet, ran, bind, Except.bind]

/-- Sets refine bags, and their comparisons came to the same. -/
structure AllRefine (callbacks : DictionaryCallbacks κ) (state : Sets κ)
    (state' : Bags (Quotient keys)) : Prop where
  each : ∀ i, Refines callbacks (state.sets i) (state'.bags i)
  answers : state.answers = state'.answers

/-- Sets agree with bags, and their comparisons came to the same. -/
structure AllAgree (callbacks : DictionaryCallbacks κ) (state : Sets κ)
    (state' : Bags (Quotient keys)) : Prop where
  each : ∀ i, Agrees callbacks (state.sets i) (state'.bags i)
  answers : state.answers = state'.answers

/-- A possible action that keeps the counts is the same for sets and bags. -/
theorem AllRefine.step (lawful : callbacks.Lawful keys) {action : SetAction κ} {state : Sets κ}
    {state' next' : Bags (Quotient keys)} (refine' : AllRefine callbacks state state')
    (stepped : stepBags callbacks action state' = some next')
    (keeps : KeepsCounts callbacks state action)
    : ∃ next, stepSets callbacks action state = some next ∧ AllRefine callbacks next next' := by
  cases action with
  | change target operation =>
      obtain ⟨bag', possible, same⟩ := Option.bind_eq_some_iff.mp stepped
      cases same
      obtain ⟨next, after, ran, refinesNext, right⟩ :=
        onSet_spec lawful refine'.each possible state.answers
      obtain rfl := right.mpr keeps
      refine ⟨{ state with sets := Function.update state.sets target next }, ?_, fun i => ?_,
        refine'.answers⟩
      · simp only [stepSets, ran]
      · by_cases own : i = target
        · subst own
          simpa using refinesNext
        · simpa [Function.update_of_ne own] using refine'.each i
  | compare first second =>
      cases stepped
      have ran := (refine'.each first).isEqual (refine'.each second) lawful
      have right := (isEqual_eq_sameAs_iff lawful (refine'.each first) (refine'.each second)).mpr keeps
      refine ⟨{ state with
        answers := state.answers ++ [(state'.bags first).sameAs (state'.bags second)] }, ?_,
        refine'.each, ?_⟩
      · simp only [stepSets, ran, right]
      · rw [refine'.answers]

/-- After an action that does not keep the counts the sets do not agree with the bags. -/
theorem AllRefine.not_agree (lawful : callbacks.Lawful keys) {action : SetAction κ}
    {state next : Sets κ} {state' next' : Bags (Quotient keys)}
    (refine' : AllRefine callbacks state state')
    (stepped' : stepBags callbacks action state' = some next')
    (loses : ¬KeepsCounts callbacks state action)
    (stepped : stepSets callbacks action state = some next)
    : ¬AllAgree callbacks next next' := by
  intro agree
  cases action with
  | change target operation =>
      obtain ⟨bag', possible, same⟩ := Option.bind_eq_some_iff.mp stepped'
      cases same
      obtain ⟨after, bag, ran, refinesAfter, right⟩ :=
        onSet_spec lawful refine'.each possible state.answers
      simp only [stepSets, ran, Option.some.injEq] at stepped
      have own := agree.each target
      rw [← stepped] at own
      simp only [Function.update_self] at own
      exact loses (right.mp (own.unique refinesAfter lawful))
  | compare first second =>
      cases stepped'
      have ran := (refine'.each first).isEqual (refine'.each second) lawful
      simp only [stepSets, ran, Option.some.injEq] at stepped
      have answers := agree.answers
      rw [← stepped, refine'.answers, List.append_cancel_left_eq, List.singleton_inj] at answers
      exact loses ((isEqual_eq_sameAs_iff lawful (refine'.each first) (refine'.each second)).mp
        answers)

end Steps

-----------------------------------------------------------------------------------------
-- Runs
-----------------------------------------------------------------------------------------

/-- In a run that is possible on bags, with a hash that is equal for equal data, the sets have the contents
and the counts of the bags after every action, and compare as they do, exactly when every action
keeps the counts.
-/
theorem agree_throughout_iff [DecidableEq (Quotient keys)] (lawful : callbacks.Lawful keys)
    (capacities : ℕ → ℕ) (counted : ℕ → Bool) (actions : List (SetAction κ))
    (final : Bags (Quotient keys))
    (possible : Machine.run (stepBags callbacks) actions ⟨fun i => Bag.empty (counted i), []⟩
      = some final)
    : (∀ seen, seen <+: actions → ∃ (state : Sets κ) (state' : Bags (Quotient keys)),
        Machine.run (stepSets callbacks) seen
          ⟨fun i => initWithCapacity (capacities i) (counted i), []⟩ = some state
        ∧ Machine.run (stepBags callbacks) seen ⟨fun i => Bag.empty (counted i), []⟩ = some state'
        ∧ AllAgree callbacks state state')
      ↔ Machine.Meets (stepSets callbacks) (fun action state => KeepsCounts callbacks state action)
        actions ⟨fun i => initWithCapacity (capacities i) (counted i), []⟩ := by
  have start : AllRefine callbacks ⟨fun i => initWithCapacity (capacities i) (counted i), []⟩
      (⟨fun i => Bag.empty (counted i), []⟩ : Bags (Quotient keys)) :=
    ⟨fun i => refines_init _ _, rfl⟩
  refine @Machine.agree_along_iff _ _ (stepSets callbacks) _ (stepBags callbacks)
    (AllRefine callbacks) (AllAgree callbacks)
    (fun action state => KeepsCounts callbacks state action) ?_ ?_ ?_ actions _ _ final start possible
  · exact fun state state' refine' => ⟨fun i => (refine'.each i).agrees lawful, refine'.answers⟩
  · exact fun action state state' next' refine' stepped keeps => refine'.step lawful stepped keeps
  · exact fun action state state' next next' refine' stepped' loses stepped =>
      refine'.not_agree lawful stepped' loses stepped

section Examples

open WiDictionary.DictionaryOperation (numberKeys colliding colliding_lawful)

/-- A counted set is filled, copied and emptied again. -/
def countedHistory : List (SetAction ℕ) :=
  [.change 0 (.add (some 1)), .change 0 (.add (some 3)), .change 0 (.add (some 1)),
    .change 1 (.copy 0), .change 0 (.remove (some 1)), .change 0 (.remove (some 5)),
    .change 1 .removeAll]

theorem agree_throughout_iff_countedHistory
    : (∃ final : Bags (Quotient numberKeys),
        Machine.run (stepBags colliding) countedHistory ⟨fun _ => Bag.empty true, []⟩ = some final)
      ∧ ∀ seen, seen <+: countedHistory → ∃ (state : Sets ℕ) (state' : Bags (Quotient numberKeys)),
        Machine.run (stepSets colliding) seen ⟨fun _ => initWithCapacity 0 true, []⟩ = some state
        ∧ Machine.run (stepBags colliding) seen ⟨fun _ => Bag.empty true, []⟩ = some state'
        ∧ AllAgree colliding state state' := by
  obtain ⟨final, ran⟩ : ∃ final : Bags (Quotient numberKeys),
      Machine.run (stepBags colliding) countedHistory ⟨fun _ => Bag.empty true, []⟩ = some final :=
    ⟨_, rfl⟩
  refine ⟨⟨final, ran⟩, (agree_throughout_iff colliding_lawful (fun _ => 0) (fun _ => true)
    countedHistory final ran).mpr (Machine.meets_of_forall fun action member _ => ?_)⟩
  simp only [countedHistory, List.mem_cons, List.not_mem_nil, or_false] at member
  rcases member with rfl | rfl | rfl | rfl | rfl | rfl | rfl <;> trivial

/-- A counted set is set to one that contains 1 twice. -/
def lostCount : List (SetAction ℕ) :=
  [.change 0 (.add (some 1)), .change 0 (.add (some 1)), .change 1 (.set 0)]

theorem not_agree_throughout_lostCount
    : (∃ final : Bags (Quotient numberKeys),
        Machine.run (stepBags colliding) lostCount ⟨fun _ => Bag.empty true, []⟩ = some final)
      ∧ ¬(∀ seen, seen <+: lostCount → ∃ (state : Sets ℕ) (state' : Bags (Quotient numberKeys)),
        Machine.run (stepSets colliding) seen ⟨fun _ => initWithCapacity 0 true, []⟩ = some state
        ∧ Machine.run (stepBags colliding) seen ⟨fun _ => Bag.empty true, []⟩ = some state'
        ∧ AllAgree colliding state state') := by
  refine ⟨⟨_, rfl⟩, fun always => ?_⟩
  obtain ⟨state, state', ran, ran', agree⟩ := always lostCount List.prefix_rfl
  have once : (Machine.run (stepSets colliding) lostCount
      ⟨fun _ => initWithCapacity 0 true, []⟩).map
        (fun last => ((last.sets 1).countForData colliding (some 1)).toOption) = some (some 1) := by
    decide +kernel
  rw [ran, Option.map_some] at once
  have twice : (state'.bags 1).counted = true ∧ (state'.bags 1).all.count ⟦some 1⟧ = 2 := by
    obtain rfl := Option.some.inj ran'
    exact ⟨rfl, rfl⟩
  rw [(agree.each 1).counts twice.1, twice.2] at once
  cases once

end Examples

end WiSet

end WiredServer.Collections
