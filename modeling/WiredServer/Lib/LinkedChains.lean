import Mathlib
import WiredServer.Lib.Loop
import WiredServer.Lib.NodePool

/-! Chains of nodes in a pool, each of which points to the next: where a pointer leads, what a change of
one node does to a chain, and the search for a value along it.
-/

open Loop

/-- A node of a chain. A null pointer is `none`. -/
structure Link (β : Type) where
  value : β
  next : Option ℕ

namespace Link

variable {β : Type}

/-- From the first pointer, these nodes with these values follow one another up to the last pointer. -/
inductive Leads (pool : Pool (Link β)) : Option ℕ → List (ℕ × β) → Option ℕ → Prop where
  | nil {pointer : Option ℕ} : Leads pool pointer [] pointer
  | cons {node : ℕ} {value : β} {next last : Option ℕ} {links : List (ℕ × β)}
      (read : pool.read node = some ⟨value, next⟩) (rest : Leads pool next links last)
      : Leads pool (some node) ((node, value) :: links) last

section Leads

variable {pool other : Pool (Link β)} {first middle last : Option ℕ} {links : List (ℕ × β)}

/-- Only a chain without nodes leads from the null pointer to itself. -/
theorem Leads.of_none (leads : Leads pool none links last) : links = [] ∧ last = none := by
  cases leads
  exact ⟨rfl, rfl⟩

/-- The first node of a chain. -/
theorem leads_cons {node : ℕ} {value : β}
    : Leads pool first ((node, value) :: links) last
      ↔ first = some node
        ∧ ∃ next, pool.read node = some ⟨value, next⟩ ∧ Leads pool next links last := by
  constructor
  · intro leads
    cases leads with
    | cons read rest => exact ⟨rfl, _, read, rest⟩
  · rintro ⟨rfl, next, read, rest⟩
    exact .cons read rest

/-- A chain of two parts goes through a pointer between them. -/
theorem leads_append {others : List (ℕ × β)}
    : Leads pool first (links ++ others) last
      ↔ ∃ middle, Leads pool first links middle ∧ Leads pool middle others last := by
  induction links generalizing first with
  | nil =>
      constructor
      · exact fun leads => ⟨first, .nil, leads⟩
      · rintro ⟨middle, leads, rest⟩
        cases leads
        exact rest
  | cons link links ih =>
      obtain ⟨node, value⟩ := link
      rw [List.cons_append, leads_cons]
      constructor
      · rintro ⟨rfl, next, read, rest⟩
        obtain ⟨middle, before, after⟩ := ih.mp rest
        exact ⟨middle, .cons read before, after⟩
      · rintro ⟨middle, before, after⟩
        obtain ⟨rfl, next, read, rest⟩ := leads_cons.mp before
        exact ⟨rfl, next, read, ih.mpr ⟨middle, rest, after⟩⟩

/-- A chain stays in every pool in which its nodes read the same. -/
theorem Leads.congr (leads : Leads pool first links last)
    (same : ∀ link ∈ links, other.read link.1 = pool.read link.1)
    : Leads other first links last := by
  induction leads with
  | nil => exact .nil
  | cons read rest ih =>
      exact .cons ((same _ List.mem_cons_self).trans read)
        (ih fun link member => same link (List.mem_cons_of_mem _ member))

/-- What the nodes of a chain hold. -/
theorem Leads.read_of_mem (leads : Leads pool first links last) {link : ℕ × β}
    (member : link ∈ links)
    : ∃ next, pool.read link.1 = some ⟨link.2, next⟩ := by
  induction leads with
  | nil => cases member
  | cons read rest ih =>
      rcases List.mem_cons.mp member with rfl | member
      · exact ⟨_, read⟩
      · exact ih member

/-- The last node of a chain can be pointed elsewhere. -/
theorem Leads.redirect {node : ℕ} {value : β} {target : Option ℕ}
    (leads : Leads pool first (links ++ [(node, value)]) last)
    (same : ∀ link ∈ links, other.read link.1 = pool.read link.1)
    (read : other.read node = some ⟨value, target⟩)
    : Leads other first (links ++ [(node, value)]) target := by
  obtain ⟨middle, before, after⟩ := leads_append.mp leads
  obtain ⟨rfl, next, -, -⟩ := leads_cons.mp after
  exact leads_append.mpr ⟨_, before.congr same, .cons read .nil⟩

end Leads

-----------------------------------------------------------------------------------------
-- Search
-----------------------------------------------------------------------------------------

/-- The search for the first node whose value is looked for, along with the node before it. -/
def search (pool : Pool (Link β)) (found : β → Bool) (fuel : ℕ) (previous pointer : Option ℕ)
    : Access (Option (Option ℕ × ℕ)) :=
  Loop.run (fun ((previous, pointer) : Option ℕ × Option ℕ) =>
    match pointer with
    | none => .ok (.stop none)
    | some node => do
        let link ← inside (pool.read node)
        if found link.value then .ok (.stop (some (previous, node)))
        else .ok (.again (some node, link.next))) fuel (previous, pointer)

section Search

variable {pool : Pool (Link β)} {found : β → Bool} {fuel : ℕ} {previous pointer : Option ℕ}

/-- A search along a chain without such a value comes to its end. -/
theorem search_none {links : List (ℕ × β)} (leads : Leads pool pointer links none)
    (enough : links.length < fuel) (missing : ∀ link ∈ links, found link.2 = false)
    : search pool found fuel previous pointer = .ok none := by
  induction links generalizing fuel previous pointer with
  | nil =>
      cases leads
      obtain ⟨fuel, rfl⟩ : ∃ rest, fuel = rest + 1 := ⟨fuel - 1, by simp at enough; omega⟩
      exact run_stop rfl
  | cons link links ih =>
      obtain ⟨node, value⟩ := link
      obtain ⟨rfl, next, read, rest⟩ := leads_cons.mp leads
      rw [List.length_cons] at enough
      obtain ⟨fuel, rfl⟩ : ∃ rest, fuel = rest + 1 := ⟨fuel - 1, by omega⟩
      have other : found value = false := missing (node, value) List.mem_cons_self
      have later := @ih fuel (some node) next rest (by omega) fun link member =>
        missing link (List.mem_cons_of_mem _ member)
      refine (run_again ?_).trans later
      simp only [read, inside_some, bind, Except.bind, other, Bool.false_eq_true, if_false]

/-- The node before the rest of a chain, if a given one is before all of it. -/
def previousOf (previous : Option ℕ) (before : List (ℕ × β)) : Option ℕ :=
  (before.getLast?.map Prod.fst).or previous

/-- A search along a chain finds the first such value. -/
theorem search_some {before after : List (ℕ × β)} {node : ℕ} {value : β}
    (leads : Leads pool pointer (before ++ (node, value) :: after) none)
    (enough : before.length < fuel) (missing : ∀ link ∈ before, found link.2 = false)
    (here : found value = true)
    : search pool found fuel previous pointer = .ok (some (previousOf previous before, node)) := by
  induction before generalizing fuel previous pointer with
  | nil =>
      obtain ⟨rfl, next, read, -⟩ := leads_cons.mp leads
      obtain ⟨fuel, rfl⟩ : ∃ rest, fuel = rest + 1 := ⟨fuel - 1, by simp at enough; omega⟩
      refine run_stop ?_
      simp only [read, inside_some, bind, Except.bind, here, if_true]
      rfl
  | cons link before ih =>
      obtain ⟨first, other⟩ := link
      obtain ⟨rfl, next, read, rest⟩ := leads_cons.mp leads
      rw [List.length_cons] at enough
      obtain ⟨fuel, rfl⟩ : ∃ rest, fuel = rest + 1 := ⟨fuel - 1, by omega⟩
      have differs : found other = false := missing (first, other) List.mem_cons_self
      have later := @ih fuel (some first) next rest (by omega) fun link member =>
        missing link (List.mem_cons_of_mem _ member)
      have same : previousOf (some first) before = previousOf previous ((first, other) :: before) := by
        simp only [previousOf, List.getLast?_cons]
        cases before.getLast? <;> rfl
      rw [← same]
      refine (run_again ?_).trans later
      simp only [read, inside_some, bind, Except.bind, differs, Bool.false_eq_true, if_false]

end Search

-----------------------------------------------------------------------------------------
-- Blocks of pointers
-----------------------------------------------------------------------------------------

/-- Each pointer of a block leads along the chain in its place to the end. -/
def Threads (pool : Pool (Link β)) (heads : List (Option ℕ)) (chains : List (List (ℕ × β))) : Prop :=
  List.Forall₂ (fun head chain => Leads pool head chain none) heads chains

/-- A pointer in a block, its chain, and the pointers and chains before and behind it. -/
structure ThreadAt (pool : Pool (Link β)) (heads : List (Option ℕ)) (chains : List (List (ℕ × β)))
    (index : ℕ) (fronts backs : List (Option ℕ)) (head : Option ℕ)
    (front back : List (List (ℕ × β))) (chain : List (ℕ × β)) : Prop where
  heads : heads = fronts ++ head :: backs
  chains : chains = front ++ chain :: back
  length_fronts : fronts.length = index
  length_front : front.length = index
  before : Threads pool fronts front
  leads : Leads pool head chain none
  after : Threads pool backs back

section Threads

variable {pool other : Pool (Link β)} {heads : List (Option ℕ)} {chains : List (List (ℕ × β))}

/-- There are as many pointers as chains. -/
theorem Threads.length_eq (threads : Threads pool heads chains) : heads.length = chains.length :=
  List.Forall₂.length_eq threads

/-- Chains stay in every pool in which their nodes read the same. -/
theorem Threads.congr (threads : Threads pool heads chains)
    (same : ∀ link ∈ chains.flatten, other.read link.1 = pool.read link.1)
    : Threads other heads chains := by
  induction threads with
  | nil => exact .nil
  | cons leads rest ih =>
      refine .cons (leads.congr fun link member => same link ?_)
        (ih fun link member => same link ?_)
      · exact List.mem_flatten_of_mem List.mem_cons_self member
      · rw [List.flatten_cons]
        exact List.mem_append_right _ member

/-- What the nodes of the chains hold. -/
theorem Threads.read_of_mem (threads : Threads pool heads chains) {link : ℕ × β}
    (member : link ∈ chains.flatten)
    : ∃ next, pool.read link.1 = some ⟨link.2, next⟩ := by
  induction threads with
  | nil => cases member
  | cons leads rest ih =>
      rw [List.flatten_cons] at member
      rcases List.mem_append.mp member with member | member
      · exact leads.read_of_mem member
      · exact ih member

/-- Blocks one behind the other. -/
theorem Threads.append {others : List (Option ℕ)} {more : List (List (ℕ × β))}
    (threads : Threads pool heads chains) (rest : Threads pool others more)
    : Threads pool (heads ++ others) (chains ++ more) := by
  induction threads with
  | nil => exact rest
  | cons leads _ ih => exact .cons leads ih

/-- Every place in a block has a pointer and a chain. -/
theorem Threads.exists_at (threads : Threads pool heads chains) {index : ℕ}
    (within : index < chains.length)
    : ∃ fronts backs head front back chain,
      ThreadAt pool heads chains index fronts backs head front back chain := by
  induction threads generalizing index with
  | nil => cases within
  | @cons head chain heads chains leads rest ih =>
      cases index with
      | zero => exact ⟨[], heads, head, [], chains, chain, rfl, rfl, rfl, rfl, .nil, leads, rest⟩
      | succ index =>
          obtain ⟨fronts, backs, head', front, back, chain', place⟩ :=
            ih (Nat.lt_of_succ_lt_succ within)
          refine ⟨head :: fronts, backs, head', chain :: front, back, chain', ?_⟩
          exact {
            heads := by rw [place.heads, List.cons_append]
            chains := by rw [place.chains, List.cons_append]
            length_fronts := by rw [List.length_cons, place.length_fronts]
            length_front := by rw [List.length_cons, place.length_front]
            before := .cons leads place.before
            leads := place.leads
            after := place.after }

/-- Null pointers lead along empty chains. -/
theorem threads_replicate (count : ℕ)
    : Threads pool (List.replicate count none) (List.replicate count []) := by
  induction count with
  | zero => exact .nil
  | succ count ih => exact .cons .nil ih

/-- What is said of the links of empty chains holds. -/
theorem placed_replicate (count : ℕ) {holds : ℕ → ℕ × β → Prop}
    : ∀ place links, (List.replicate count ([] : List (ℕ × β)))[place]? = some links →
      ∀ link ∈ links, holds place link := by
  intro place links found link member
  obtain rfl : links = [] := List.eq_of_mem_replicate (List.mem_of_getElem? found)
  cases member

variable {index : ℕ} {fronts backs : List (Option ℕ)} {head : Option ℕ}
variable {front back : List (List (ℕ × β))} {chain : List (ℕ × β)}

/-- A chain and its pointer can change while the nodes of the other chains stay. -/
theorem ThreadAt.change (place : ThreadAt pool heads chains index fronts backs head front back chain)
    {head' : Option ℕ} {chain' : List (ℕ × β)} (leads : Leads other head' chain' none)
    (sameFront : ∀ link ∈ front.flatten, other.read link.1 = pool.read link.1)
    (sameBack : ∀ link ∈ back.flatten, other.read link.1 = pool.read link.1)
    : Threads other (fronts ++ head' :: backs) (front ++ chain' :: back) :=
  (place.before.congr sameFront).append (.cons leads (place.after.congr sameBack))

/-- The pointer of a place. -/
theorem ThreadAt.head_eq (place : ThreadAt pool heads chains index fronts backs head front back chain)
    : heads[index]? = some head := by
  rw [place.heads, ← place.length_fronts]
  simp

/-- Storing a pointer in a place. -/
theorem ThreadAt.store_eq (place : ThreadAt pool heads chains index fronts backs head front back chain)
    (pointer : Option ℕ)
    : Slots.store heads index pointer = some (fronts ++ pointer :: backs) := by
  rw [place.heads, ← place.length_fronts]
  exact Slots.store_append

/-- All links, with those of one chain apart. -/
theorem ThreadAt.flatten_eq (place : ThreadAt pool heads chains index fronts backs head front back chain)
    : chains.flatten = front.flatten ++ (chain ++ back.flatten) := by
  rw [place.chains, List.flatten_append, List.flatten_cons]

/-- The nodes of a chain are the values of its links, in front of which and behind which are others. -/
theorem ThreadAt.mem_flatten (place : ThreadAt pool heads chains index fronts backs head front back chain)
    {link : ℕ × β} (member : link ∈ chain)
    : link ∈ chains.flatten := by
  rw [place.flatten_eq]
  exact List.mem_append_right _ (List.mem_append_left _ member)

/-- What holds of all links in their places holds after one chain changes, if it holds of that one. -/
theorem placed_change {holds : ℕ → ℕ × β → Prop} {chain' : List (ℕ × β)}
    (placed : ∀ place links, (front ++ chain :: back)[place]? = some links → ∀ link ∈ links,
      holds place link)
    (own : ∀ link ∈ chain', holds front.length link)
    : ∀ place links, (front ++ chain' :: back)[place]? = some links → ∀ link ∈ links,
      holds place link := by
  intro place links found link member
  by_cases here : place = front.length
  · subst here
    rw [List.getElem?_append_right le_rfl, Nat.sub_self, List.getElem?_cons_zero] at found
    cases found
    exact own link member
  · refine placed place links ?_ link member
    rw [← found]
    rcases Nat.lt_or_gt_of_ne here with before | behind
    · rw [List.getElem?_append_left before, List.getElem?_append_left before]
    · obtain ⟨more, same⟩ : ∃ more, place - front.length = more + 1 :=
        ⟨place - front.length - 1, by omega⟩
      rw [List.getElem?_append_right behind.le, List.getElem?_append_right behind.le, same,
        List.getElem?_cons_succ, List.getElem?_cons_succ]

end Threads

end Link
