import Mathlib
import WiredServer.Collections.ArrayContents
import WiredServer.Collections.DictionaryContents

/-! The loops over all buckets of a dictionary, and its enumerators: they come to each bucket once, in
the order of the chains.
-/

namespace WiredServer.Collections

open Loop Link

variable {κ α : Type}

namespace WiDictionary

variable {callbacks : DictionaryCallbacks κ} {chains : Chains κ α}

-----------------------------------------------------------------------------------------
-- Loops
-----------------------------------------------------------------------------------------

section Each

variable {σ : Type} {dictionary : σ → WiDictionary κ α} {visit : σ → Entry κ α → Access σ}
variable {reached : List (ℕ × Entry κ α) → σ → Prop}

/-- The inner loop comes to the buckets that are left of a chain, by induction on them. Visiting a bucket
may change the state, but not the chains.
-/
theorem eachOfChain_ok
    (holds : ∀ done state, reached done state → (dictionary state).Holds callbacks chains)
    (visits : ∀ done link rest state, chains.flatten = done ++ link :: rest → reached done state →
      ∃ next, visit state link.2 = .ok next ∧ reached (done ++ [link]) next)
    {front back : Chains κ α} {before rest : List (ℕ × Entry κ α)}
    (split : chains = front ++ (before ++ rest) :: back) {state : σ} {bucket : Option ℕ} {fuel : ℕ}
    (start : reached (front.flatten ++ before) state)
    (leads : Leads (dictionary state).pool bucket rest none) (enough : rest.length < fuel)
    : ∃ last, eachOfChain dictionary visit fuel bucket state = .ok last
      ∧ reached (front.flatten ++ (before ++ rest)) last := by
  induction rest generalizing before state bucket fuel with
  | nil =>
      cases leads
      obtain ⟨fuel, rfl⟩ : ∃ rest, fuel = rest + 1 := ⟨fuel - 1, by simp at enough; omega⟩
      exact ⟨state, run_stop rfl, by simpa using start⟩
  | cons link rest ih =>
      obtain ⟨node, entry⟩ := link
      obtain ⟨rfl, next, read, -⟩ := leads_cons.mp leads
      rw [List.length_cons] at enough
      obtain ⟨fuel, rfl⟩ : ∃ rest, fuel = rest + 1 := ⟨fuel - 1, by omega⟩
      have whole : chains.flatten
          = (front.flatten ++ before) ++ (node, entry) :: (rest ++ back.flatten) := by
        rw [split]
        simp
      obtain ⟨state', visited, further⟩ := visits _ _ _ _ whole start
      have own := holds _ _ further
      have within : front.length < chains.length := by
        rw [split]
        simp
      obtain ⟨fronts, backs, head, front', back', chain, place⟩ := own.threads.exists_at within
      obtain rfl : chain = before ++ (node, entry) :: rest := by
        have both := place.chains.symm.trans split
        exact (List.cons.inj (List.append_inj both place.length_front).2).1
      obtain ⟨middle, -, fromNode⟩ := leads_append.mp place.leads
      obtain ⟨rfl, next', read', rest'⟩ := leads_cons.mp fromNode
      rw [List.append_assoc] at further
      have split' : chains = front ++ ((before ++ [(node, entry)]) ++ rest) :: back := by
        simpa using split
      obtain ⟨last, ran, end'⟩ := ih split' further rest' (by omega : rest.length < fuel)
      refine ⟨last, (run_again ?_).trans ran, by simpa using end'⟩
      simp only [read, visited, read', inside_some, bind, Except.bind]

/-- The two loops come to all buckets, by induction on the chains that are left. -/
theorem each_ok
    (holds : ∀ done state, reached done state → (dictionary state).Holds callbacks chains)
    (visits : ∀ done link rest state, chains.flatten = done ++ link :: rest → reached done state →
      ∃ next, visit state link.2 = .ok next ∧ reached (done ++ [link]) next)
    {state : σ} (start : reached [] state)
    : ∃ last, each dictionary visit state = .ok last ∧ reached chains.flatten last := by
  have further (front back : Chains κ α) (split : chains = front ++ back) (current : σ) (fuel : ℕ)
      (sofar : reached front.flatten current) (enough : back.length < fuel)
      : ∃ last, Loop.run (eachBody dictionary visit) fuel (front.length, current) = .ok last
        ∧ reached chains.flatten last := by
    induction back generalizing front current fuel with
    | nil =>
        rw [List.append_nil] at split
        subst split
        have counted := (holds _ _ sofar).length_chains
        obtain ⟨fuel, rfl⟩ : ∃ rest, fuel = rest + 1 := ⟨fuel - 1, by simp at enough; omega⟩
        have beyond : ¬chains.length < (dictionary current).bucketsCount := by omega
        exact ⟨current, run_stop (by simp only [eachBody, beyond, if_false]), sofar⟩
    | cons chain back ih =>
        have own := holds _ _ sofar
        have counted := own.length_chains
        have within : front.length < chains.length := by
          rw [split]
          simp
        rw [List.length_cons] at enough
        obtain ⟨fuel, rfl⟩ : ∃ rest, fuel = rest + 1 := ⟨fuel - 1, by omega⟩
        obtain ⟨fronts, backs, head, front', back', chain', place⟩ := own.threads.exists_at within
        obtain rfl : chain' = chain := by
          have both := place.chains.symm.trans split
          exact (List.cons.inj (List.append_inj both place.length_front).2).1
        have few := own.length_lt place
        have split' : chains = front ++ ([] ++ chain') :: back := split
        have sofar' : reached (front.flatten ++ []) current := by simpa using sofar
        obtain ⟨state', ran, reached'⟩ :=
          eachOfChain_ok holds visits split' sofar' place.leads few
        have split'' : chains = (front ++ [chain']) ++ back := by simp [split]
        have sofar'' : reached (front ++ [chain']).flatten state' := by simpa using reached'
        obtain ⟨last, ran', end'⟩ := ih (front ++ [chain']) split'' state' fuel sofar'' (by omega)
        have more : front.length < (dictionary current).bucketsCount := by omega
        rw [List.length_append, List.length_singleton] at ran'
        refine ⟨last, (run_again ?_).trans ran', end'⟩
        simp only [eachBody, more, if_true, place.head_eq, inside_some, bind, Except.bind, ran]
  refine further [] chains rfl state _ start ?_
  rw [← (holds _ _ start).length_chains]
  exact Nat.lt_succ_self _

/-- A loop that ends with the first entry that fails a test comes to whether all entries pass. -/
theorem Holds.each_all {table : WiDictionary κ α} (holds : table.Holds callbacks chains)
    {test : Entry κ α → Access Bool} {passes : Entry κ α → Bool}
    (tests : ∀ entry, test entry = .ok (passes entry))
    : each (fun _ => table) (fun equal entry => if equal then test entry else .ok false) true
      = .ok (chains.flatten.all fun link => passes link.2) := by
  obtain ⟨last, ran, same⟩ := @each_ok _ _ callbacks chains Bool (fun _ => table)
    (fun equal entry => if equal then test entry else .ok false)
    (fun done equal => equal = done.all fun link => passes link.2) (fun _ _ _ => holds) (by
      rintro done link rest equal - sofar
      rw [List.all_append, ← sofar, List.all_cons, List.all_nil, Bool.and_true]
      cases equal with
      | false => exact ⟨false, rfl, rfl⟩
      | true => exact ⟨passes link.2, tests link.2, rfl⟩) true rfl
  exact same ▸ ran

end Each

-----------------------------------------------------------------------------------------
-- Arrays of keys and values
-----------------------------------------------------------------------------------------

section Collect

variable {β : Type} {dictionary : WiDictionary κ α} {take : Entry κ α → Option β}

/-- Data that is not null is added to an array. -/
theorem mutableAddData_of_sound {array : WiArray β} {contents : List (Option β)}
    (sound : array.Sound contents) {data : Option β} (given : data.isSome = true)
    : ∃ next, array.mutableAddData data = .ok (some next) ∧ next.Sound (contents ++ [data]) := by
  obtain ⟨next, ran, own⟩ := sound.addData data
  have full : data.isNone = false := Option.isNone_eq_false_iff.mpr given
  refine ⟨next, ?_, own⟩
  simp only [WiArray.mutableAddData, full, Bool.false_eq_true, if_false, ran, bind, Except.bind]

/-- The entries are collected one after the other, until one of them has nothing to take. -/
theorem collect_eq_each (take : Entry κ α → Option β)
    : dictionary.collect take = each (fun _ => dictionary)
        (fun array entry => array.elim (.ok none) fun array => array.mutableAddData (take entry))
        (some (WiArray.initWithCapacity dictionary.keyCount)) := by
  rw [WiDictionary.collect]
  refine congrArg (each _ · _) (funext fun array => funext fun entry => ?_)
  cases array <;> rfl

/-- What is taken from all buckets makes an array, if none of it is null, and else ends the process. -/
theorem Holds.collect (holds : dictionary.Holds callbacks chains)
    : ((∀ link ∈ chains.flatten, (take link.2).isSome = true)
        → ∃ array, dictionary.collect take = .ok (some array)
          ∧ array.Sound (chains.flatten.map fun link => take link.2))
      ∧ ((∃ link ∈ chains.flatten, take link.2 = none) → dictionary.collect take = .ok none) := by
  rw [collect_eq_each]
  have loop := @each_ok _ _ callbacks chains (Option (WiArray β)) (fun _ => dictionary)
    (fun array entry => array.elim (.ok none) fun array => array.mutableAddData (take entry))
    (fun done array => (∀ link ∈ done, (take link.2).isSome = true)
        ∧ (∃ made, array = some made ∧ made.Sound (done.map fun link => take link.2))
      ∨ (∃ link ∈ done, take link.2 = none) ∧ array = none)
    (fun _ _ _ => holds) ?_ (some (WiArray.initWithCapacity dictionary.keyCount))
    (.inl ⟨List.forall_mem_nil _, _, rfl, [], WiArray.holds_init _⟩)
  · obtain ⟨last, ran, ⟨all, made, rfl, sound⟩ | ⟨⟨link, member, null⟩, rfl⟩⟩ := loop
    · refine ⟨fun _ => ⟨made, ran, sound⟩, ?_⟩
      rintro ⟨link, member, null⟩
      have given := all link member
      rw [null] at given
      cases given
    · refine ⟨fun all => ?_, fun _ => ran⟩
      have given := all link member
      rw [null] at given
      cases given
  · rintro done link rest array - (⟨all, made, rfl, sound⟩ | ⟨⟨other, member, null⟩, rfl⟩)
    · cases taken : take link.2 with
      | none =>
          refine ⟨none, ?_, .inr ⟨⟨link, by simp, taken⟩, rfl⟩⟩
          simp only [Option.elim_some, WiArray.mutableAddData, Option.isNone_none, if_true]
      | some data =>
          have given : (some data).isSome = true := rfl
          obtain ⟨next, ran, own⟩ := mutableAddData_of_sound sound given
          refine ⟨some next, ran, .inl ⟨fun other member => ?_, next, rfl, ?_⟩⟩
          · rcases List.mem_append.mp member with member | member
            · exact all other member
            · rw [List.mem_singleton.mp member, taken]
              rfl
          · simpa [taken] using own
    · exact ⟨none, rfl, .inr ⟨⟨other, by simp [member], null⟩, rfl⟩⟩

end Collect

-----------------------------------------------------------------------------------------
-- Enumerators
-----------------------------------------------------------------------------------------

section Enumerate

variable {dictionary : WiDictionary κ α}

/-- An enumerator has these links left. -/
inductive Left (dictionary : WiDictionary κ α) (chains : Chains κ α)
    : EnumeratorContext → List (ℕ × Entry κ α) → Prop where
  /-- It is in front of a chain. -/
  | front {first rest : Chains κ α} (split : chains = first ++ rest)
      : Left dictionary chains ⟨first.length, none⟩ rest.flatten
  /-- It is at a bucket. -/
  | bucket {first rest : Chains κ α} {before after : List (ℕ × Entry κ α)} {node : ℕ}
      {entry : Entry κ α} (split : chains = first ++ (before ++ (node, entry) :: after) :: rest)
      : Left dictionary chains ⟨first.length, some node⟩ (after ++ rest.flatten)

/-- In front of a chain the enumerator comes to the first bucket that is left, by induction on the
chains.
-/
theorem Holds.nextChain (holds : dictionary.Holds callbacks chains) {first rest : Chains κ α}
    (split : chains = first ++ rest)
    : (rest.flatten = [] ∧ ∃ context, dictionary.nextChain ⟨first.length, none⟩ = .ok (none, context)
        ∧ Left dictionary chains context [])
      ∨ ∃ node entry links context, rest.flatten = (node, entry) :: links
        ∧ dictionary.nextChain ⟨first.length, none⟩ = .ok (some node, context)
        ∧ Left dictionary chains context links := by
  have counted := holds.length_chains
  have loop (fuel : ℕ) (enough : rest.length < fuel)
      : (rest.flatten = [] ∧ ∃ context, Loop.run (nextChainBody dictionary) fuel ⟨first.length, none⟩
            = .ok (none, context)
          ∧ Left dictionary chains context [])
        ∨ ∃ node entry links context, rest.flatten = (node, entry) :: links
          ∧ Loop.run (nextChainBody dictionary) fuel ⟨first.length, none⟩ = .ok (some node, context)
          ∧ Left dictionary chains context links := by
    induction rest generalizing first fuel with
    | nil =>
        obtain ⟨fuel, rfl⟩ : ∃ rest, fuel = rest + 1 := ⟨fuel - 1, by simp at enough; omega⟩
        have beyond : ¬first.length < dictionary.bucketsCount := by
          rw [← counted, split]
          simp
        refine .inl ⟨rfl, ⟨first.length, none⟩, run_stop ?_, .front split⟩
        simp only [nextChainBody, beyond, if_false]
    | cons chain rest ih =>
        rw [List.length_cons] at enough
        obtain ⟨fuel, rfl⟩ : ∃ rest, fuel = rest + 1 := ⟨fuel - 1, by omega⟩
        have within : first.length < chains.length := by
          rw [split]
          simp
        obtain ⟨fronts, backs, head, front', back', chain', place⟩ := holds.threads.exists_at within
        obtain rfl : chain' = chain := by
          have both := place.chains.symm.trans split
          exact (List.cons.inj (List.append_inj both place.length_front).2).1
        have more : first.length < dictionary.bucketsCount := counted ▸ within
        cases chain' with
        | nil =>
            have null : head = none := by
              cases place.leads
              rfl
            have round : nextChainBody dictionary ⟨first.length, none⟩
                = .ok (.again ⟨first.length + 1, none⟩) := by
              simp only [nextChainBody, more, if_true, place.head_eq, null, inside_some, bind,
                Except.bind]
            have split' : chains = (first ++ [[]]) ++ rest := by simp [split]
            have further := ih split' fuel (by omega)
            rw [List.length_append, List.length_singleton] at further
            rw [run_again round, List.flatten_cons, List.nil_append]
            exact further
        | cons link links =>
            obtain ⟨node, entry⟩ := link
            obtain ⟨rfl, -⟩ := leads_cons.mp place.leads
            have split' : chains = first ++ ([] ++ (node, entry) :: links) :: rest := split
            refine .inr ⟨node, entry, links ++ rest.flatten, ⟨first.length, some node⟩, by simp,
              run_stop ?_, .bucket split'⟩
            simp only [nextChainBody, more, if_true, place.head_eq, inside_some, bind, Except.bind]
  refine loop _ ?_
  rw [← counted, split, List.length_append]
  omega

/-- The enumerator comes to the first bucket that is left, or to the end. -/
theorem Holds.enumerator (holds : dictionary.Holds callbacks chains) {context : EnumeratorContext}
    {links : List (ℕ × Entry κ α)} (left : Left dictionary chains context links)
    : (links = [] ∧ ∃ next, dictionary.enumerator context = .ok (none, next)
        ∧ Left dictionary chains next [])
      ∨ ∃ node entry rest next, links = (node, entry) :: rest
        ∧ dictionary.enumerator context = .ok (some node, next)
        ∧ Left dictionary chains next rest := by
  cases left with
  | front split => exact holds.nextChain split
  | @bucket first rest before after node entry split =>
      have within : first.length < chains.length := by
        rw [split]
        simp
      obtain ⟨fronts, backs, head, front', back', chain, place⟩ := holds.threads.exists_at within
      obtain rfl : chain = before ++ (node, entry) :: after := by
        have both := place.chains.symm.trans split
        exact (List.cons.inj (List.append_inj both place.length_front).2).1
      obtain ⟨middle, -, fromNode⟩ := leads_append.mp place.leads
      obtain ⟨rfl, pointer, read, further⟩ := leads_cons.mp fromNode
      cases after with
      | nil =>
          cases further
          have split' : chains = (first ++ [before ++ [(node, entry)]]) ++ rest := by simp [split]
          have next := holds.nextChain split'
          rw [List.length_append, List.length_singleton] at next
          rw [List.nil_append]
          simpa only [WiDictionary.enumerator, read, inside_some, bind, Except.bind] using next
      | cons link after =>
          obtain ⟨other, entry'⟩ := link
          obtain ⟨rfl, -⟩ := leads_cons.mp further
          have split' : chains
              = first ++ ((before ++ [(node, entry)]) ++ (other, entry') :: after) :: rest := by
            simp [split]
          refine .inr ⟨other, entry', after ++ rest.flatten, _, rfl, ?_, .bucket split'⟩
          simp only [WiDictionary.enumerator, read, inside_some, bind, Except.bind]

/-- Asked as often as there are entries, an enumerator returns what it takes from each of them in their
order, and is then at the end. By induction on the entries that are left.
-/
theorem Holds.enumerated {β : Type} (holds : dictionary.Holds callbacks chains)
    (take : Entry κ α → Option β) {context : EnumeratorContext} {links : List (ℕ × Entry κ α)}
    (left : Left dictionary chains context links)
    (part : ∀ link ∈ links, link ∈ chains.flatten)
    : ∃ last, dictionary.enumerated take links.length context
        = .ok (links.map fun link => take link.2, last)
      ∧ Left dictionary chains last [] := by
  induction links generalizing context with
  | nil => exact ⟨context, rfl, left⟩
  | cons link links ih =>
      rcases holds.enumerator left with ⟨none, -⟩ | ⟨node, entry, rest, next, same, ran, further⟩
      · cases none
      · cases same
        obtain ⟨pointer, read⟩ := holds.threads.read_of_mem (part _ List.mem_cons_self)
        obtain ⟨last, ran', end'⟩ :=
          ih further fun other member => part other (List.mem_cons_of_mem _ member)
        refine ⟨last, ?_, end'⟩
        simp only [List.length_cons, WiDictionary.enumerated, enumerate, ran, read, inside_some,
          bind, Except.bind, ran', List.map_cons]

/-- At the end an enumerator returns null and stays there. -/
theorem Holds.enumerate_end {β : Type} (holds : dictionary.Holds callbacks chains)
    (take : Entry κ α → Option β) {context : EnumeratorContext}
    (left : Left dictionary chains context [])
    : ∃ next, dictionary.enumerate take context = .ok (none, next)
      ∧ Left dictionary chains next [] := by
  rcases holds.enumerator left with ⟨-, next, ran, further⟩ | ⟨node, entry, rest, next, same, -⟩
  · exact ⟨next, by simp only [enumerate, ran, bind, Except.bind], further⟩
  · cases same

end Enumerate

end WiDictionary

end WiredServer.Collections
