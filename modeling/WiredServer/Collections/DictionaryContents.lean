import Mathlib
import WiredServer.Collections.Dictionaries

/-! What each operation of a dictionary does to its chains. A dictionary holds chains if its pointers
lead along them, their buckets are in use and no others, and each key stands in the chain of its
hash.
-/

namespace WiredServer.Collections

open Loop Link

variable {κ α : Type}

/-- The buckets of a dictionary equal keys that are the same, and their hashes are equal. -/
structure DictionaryCallbacks.Lawful (callbacks : DictionaryCallbacks κ) (keys : Setoid (Option κ)) : Prop
    where
  isEqual_iff : ∀ key other, callbacks.isEqual key other = true ↔ keys.r key other
  hash_eq : ∀ key other, keys.r key other → callbacks.hash key = callbacks.hash other

namespace WiDictionary

/-- The links of some chains: the numbers of buckets and what these hold. -/
abbrev Chains (κ α : Type) := List (List (ℕ × Entry κ α))

/-- The dictionary holds the entries of these chains, in these buckets. -/
structure Holds (callbacks : DictionaryCallbacks κ) (dictionary : WiDictionary κ α)
    (chains : Chains κ α) : Prop where
  threads : Threads dictionary.pool dictionary.buckets chains
  allocated : dictionary.buckets.length = dictionary.bucketsCount
  owns : dictionary.pool.Owns (chains.flatten.map Prod.fst)
  placed : ∀ index links, chains[index]? = some links → ∀ link ∈ links,
    callbacks.hash link.2.key % dictionary.bucketsCount = index
  counted : dictionary.keyCount = chains.flatten.length
  positive : 0 < dictionary.bucketsCount
  least : 1 < dictionary.minCount

section Holds

variable {callbacks : DictionaryCallbacks κ} {keys : Setoid (Option κ)}
variable {dictionary : WiDictionary κ α} {chains : Chains κ α}

/-- A new dictionary holds empty chains. -/
theorem holds_init (capacity : ℕ)
    : (initWithCapacity capacity : WiDictionary κ α).Holds callbacks
        (List.replicate (initWithCapacity capacity : WiDictionary κ α).bucketsCount []) := by
  have many : 1 < max (exp2m1 (log2 capacity + 1)) dictionaryMinCount :=
    lt_of_lt_of_le (by decide : 1 < dictionaryMinCount) (le_max_right _ _)
  exact {
    threads := threads_replicate _
    allocated := List.length_replicate
    owns := by
      rw [List.flatten_replicate_nil]
      exact Pool.owns_empty
    placed := placed_replicate _
    counted := by simp [initWithCapacity]
    positive := Nat.zero_lt_of_lt many
    least := many }

/-- The chains of a dictionary are as many as it counts. -/
theorem Holds.length_chains (holds : dictionary.Holds callbacks chains)
    : chains.length = dictionary.bucketsCount :=
  holds.threads.length_eq.symm.trans holds.allocated

/-- The place of a key. -/
theorem Holds.exists_at (holds : dictionary.Holds callbacks chains) (key : Option κ)
    : ∃ fronts backs head front back chain, ThreadAt dictionary.pool dictionary.buckets chains
        (dictionary.indexOf callbacks key) fronts backs head front back chain := by
  refine holds.threads.exists_at ?_
  rw [holds.length_chains]
  exact Nat.mod_lt _ holds.positive

/-- A chain is no longer than the loops along it. -/
theorem Holds.length_lt (holds : dictionary.Holds callbacks chains) {index : ℕ}
    {fronts backs : List (Option ℕ)} {head : Option ℕ} {front back : Chains κ α}
    {chain : List (ℕ × Entry κ α)}
    (place : ThreadAt dictionary.pool dictionary.buckets chains index fronts backs head front back
      chain)
    : chain.length < dictionary.chainFuel := by
  have few := holds.owns.length_le
  rw [place.flatten_eq] at few
  simp only [List.length_map, List.length_append] at few
  unfold chainFuel
  omega

-----------------------------------------------------------------------------------------
-- Search
-----------------------------------------------------------------------------------------

/-- A list has a first member with a property, or none of its members has it. -/
theorem exists_first_or {β : Type} (found : β → Bool) (list : List β)
    : (∃ before item after, list = before ++ item :: after ∧ found item = true
        ∧ ∀ other ∈ before, found other = false)
      ∨ ∀ other ∈ list, found other = false := by
  cases first : list.find? found with
  | some item =>
      obtain ⟨here, before, after, split, missing⟩ := List.find?_eq_some_iff_append.mp first
      refine .inl ⟨before, item, after, split, here, fun other member => ?_⟩
      simpa using missing other member
  | none => exact .inr fun other member => by simpa using List.find?_eq_none.mp first other member

/-- A bucket in the chain of its key, and what is before and behind it. -/
structure Found (callbacks : DictionaryCallbacks κ) (dictionary : WiDictionary κ α)
    (chains : Chains κ α) (key : Option κ) (fronts backs : List (Option ℕ)) (head : Option ℕ)
    (front back : Chains κ α) (before after : List (ℕ × Entry κ α)) (node : ℕ)
    (entry : Entry κ α) : Prop where
  place : ThreadAt dictionary.pool dictionary.buckets chains (dictionary.indexOf callbacks key)
    fronts backs head front back (before ++ (node, entry) :: after)
  equal : callbacks.isEqual entry.key key = true
  missing : ∀ link ∈ before, callbacks.isEqual link.2.key key = false

/-- All links, with that of a bucket apart. -/
theorem Found.flatten_eq {key : Option κ} {fronts backs : List (Option ℕ)} {head : Option ℕ}
    {front back : Chains κ α} {before after : List (ℕ × Entry κ α)} {node : ℕ}
    {entry : Entry κ α}
    (found : Found callbacks dictionary chains key fronts backs head front back before after node
      entry)
    : chains.flatten
      = (front.flatten ++ before) ++ (node, entry) :: (after ++ back.flatten) := by
  rw [found.place.flatten_eq]
  simp

/-- The search for a key finds its bucket, or no bucket has the key. -/
theorem Holds.search (holds : dictionary.Holds callbacks chains) (lawful : callbacks.Lawful keys)
    (key : Option κ)
    : (∃ fronts backs head front back before after node entry,
        Found callbacks dictionary chains key fronts backs head front back before after node entry
        ∧ dictionary.search callbacks key (dictionary.indexOf callbacks key)
          = .ok (some (previousOf none before, node)))
      ∨ (∀ link ∈ chains.flatten, ¬keys.r link.2.key key)
        ∧ dictionary.search callbacks key (dictionary.indexOf callbacks key) = .ok none := by
  obtain ⟨fronts, backs, head, front, back, chain, place⟩ := holds.exists_at key
  have enough := holds.length_lt place
  rcases exists_first_or (fun link : ℕ × Entry κ α => callbacks.isEqual link.2.key key) chain with
    ⟨before, ⟨node, entry⟩, after, rfl, equal, missing⟩ | missing
  · refine .inl ⟨fronts, backs, head, front, back, before, after, node, entry,
      ⟨place, equal, missing⟩, ?_⟩
    rw [List.length_append] at enough
    rw [WiDictionary.search, place.head_eq]
    change Link.search _ (fun entry : Entry κ α => callbacks.isEqual entry.key key) _ none head = _
    exact search_some place.leads (by omega) missing equal
  · refine .inr ⟨fun link member same => ?_, ?_⟩
    · obtain ⟨links, inChains, inLinks⟩ := List.mem_flatten.mp member
      obtain ⟨index, found⟩ := List.mem_iff_getElem?.mp inChains
      have here := holds.placed index links found link inLinks
      rw [lawful.hash_eq _ _ same] at here
      have same' : chains[index]? = some chain := by
        rw [← here, place.chains]
        change (front ++ chain :: back)[dictionary.indexOf callbacks key]? = some chain
        rw [← place.length_front]
        simp
      cases found.symm.trans same'
      rw [← lawful.isEqual_iff, missing link inLinks] at same
      cases same
    · rw [WiDictionary.search, place.head_eq]
      change Link.search _ (fun entry : Entry κ α => callbacks.isEqual entry.key key) _ none head = _
      exact search_none place.leads enough missing

-----------------------------------------------------------------------------------------
-- Changes of one chain
-----------------------------------------------------------------------------------------

section Found

variable {key : Option κ} {fronts backs : List (Option ℕ)} {head : Option ℕ}
variable {front back : Chains κ α} {before after : List (ℕ × Entry κ α)} {node : ℕ}
variable {entry : Entry κ α}

/-- No other link is in the bucket. -/
theorem Found.apart (holds : dictionary.Holds callbacks chains)
    (found : Found callbacks dictionary chains key fronts backs head front back before after node
      entry)
    : ∀ link ∈ (front.flatten ++ before) ++ (after ++ back.flatten), link.1 ≠ node := by
  have distinct := holds.owns.nodup
  rw [found.flatten_eq, List.map_append, List.map_cons] at distinct
  have fresh := (List.nodup_cons.mp (List.perm_middle.nodup_iff.mp distinct)).1
  rintro link member rfl
  rw [← List.map_append] at fresh
  exact fresh (List.mem_map.mpr ⟨link, member, rfl⟩)

/-- A bucket that was found can be given another key with the same hash, and other data. -/
theorem Holds.replace (holds : dictionary.Holds callbacks chains)
    (found : Found callbacks dictionary chains key fronts backs head front back before after node
      entry)
    (data : Option α)
    : ∃ next pool, dictionary.pool.read node = some ⟨entry, next⟩
      ∧ dictionary.pool.write node ⟨⟨key, data⟩, next⟩ = some pool
      ∧ { dictionary with pool }.Holds callbacks
        (front ++ (before ++ (node, (⟨key, data⟩ : Entry κ α)) :: after) :: back) := by
  obtain ⟨middle, toNode, fromNode⟩ := leads_append.mp found.place.leads
  obtain ⟨rfl, next, read, rest⟩ := leads_cons.mp fromNode
  have inUse : node ∈ chains.flatten.map Prod.fst := by
    rw [found.flatten_eq]
    simp
  obtain ⟨pool, written, owns, -, read', others⟩ :=
    holds.owns.write inUse (⟨⟨key, data⟩, next⟩ : Bucket κ α)
  have same : ∀ link ∈ (front.flatten ++ before) ++ (after ++ back.flatten),
      pool.read link.1 = dictionary.pool.read link.1 :=
    fun link member => others link.1 (found.apart holds link member)
  refine ⟨next, pool, read, written, ?_⟩
  have chain : Leads pool head (before ++ (node, ⟨key, data⟩) :: after) none :=
    leads_append.mpr ⟨some node, toNode.congr fun link member => same link (by simp [member]),
      .cons read' (rest.congr fun link member => same link (by simp [member]))⟩
  have threads := found.place.change chain (fun link member => same link (by simp_all))
    (fun link member => same link (by simp_all))
  rw [← found.place.heads] at threads
  have flat : (front ++ (before ++ (node, (⟨key, data⟩ : Entry κ α)) :: after) :: back).flatten
      = (front.flatten ++ before) ++ (node, ⟨key, data⟩) :: (after ++ back.flatten) := by simp
  have nodes : (front ++ (before ++ (node, (⟨key, data⟩ : Entry κ α)) :: after) :: back).flatten.map
      Prod.fst = chains.flatten.map Prod.fst := by
    rw [flat, found.flatten_eq]
    simp
  have placed := holds.placed
  rw [found.place.chains] at placed
  have own := placed front.length (before ++ (node, entry) :: after) (by simp)
  exact {
    threads
    allocated := holds.allocated
    owns := nodes ▸ owns
    placed := by
      refine placed_change placed fun link member => ?_
      rw [List.mem_append, List.mem_cons] at member
      rcases member with member | rfl | member
      · exact own link (by simp [member])
      · exact found.place.length_front.symm
      · exact own link (by simp [member])
    counted := by
      have lengths := congrArg List.length nodes
      rw [List.length_map, List.length_map] at lengths
      rw [lengths]
      exact holds.counted
    positive := holds.positive
    least := holds.least }

/-- The node before the rest of a chain that is not empty is its last one. -/
theorem previousOf_append {β : Type} (links : List (ℕ × β)) (last : ℕ × β)
    : previousOf none (links ++ [last]) = some last.1 := by
  simp [previousOf]

/-- A bucket that was found is taken out of its chain. -/
theorem Holds.unlink (holds : dictionary.Holds callbacks chains)
    (found : Found callbacks dictionary chains key fronts backs head front back before after node
      entry)
    : ∃ next, dictionary.unlink (dictionary.indexOf callbacks key) (previousOf none before) node
        = .ok next
      ∧ next.Holds callbacks (front ++ (before ++ after) :: back)
      ∧ next.bucketsCount = dictionary.bucketsCount ∧ next.minCount = dictionary.minCount := by
  have apart := found.apart holds
  obtain ⟨middle, toNode, fromNode⟩ := leads_append.mp found.place.leads
  obtain ⟨rfl, next, read, rest⟩ := leads_cons.mp fromNode
  have flat : (front ++ (before ++ after) :: back).flatten
      = (front.flatten ++ before) ++ (after ++ back.flatten) := by simp
  have order : (chains.flatten.map Prod.fst).Perm
      (node :: (front ++ (before ++ after) :: back).flatten.map Prod.fst) := by
    rw [found.flatten_eq, flat]
    exact List.perm_middle.map Prod.fst
  have placed := holds.placed
  rw [found.place.chains] at placed
  have own := placed front.length (before ++ (node, entry) :: after) (by simp)
  have taken {pool : Pool (Bucket κ α)} {pointer : Option ℕ}
      (owns : pool.Owns (chains.flatten.map Prod.fst))
      (chain : Leads pool pointer (before ++ after) none)
      (sameFront : ∀ link ∈ front.flatten, pool.read link.1 = dictionary.pool.read link.1)
      (sameBack : ∀ link ∈ back.flatten, pool.read link.1 = dictionary.pool.read link.1)
      : ({ dictionary with
          buckets := fronts ++ pointer :: backs
          pool }.bucketRemove node).Holds callbacks (front ++ (before ++ after) :: back) := {
    threads := (found.place.change chain sameFront sameBack).congr fun _ _ => rfl
    allocated := by
      rw [← show _ = dictionary.bucketsCount from holds.allocated, found.place.heads]
      simp [bucketRemove]
    owns := (owns.perm order).release
    placed := by
      refine placed_change placed fun link member => own link ?_
      rcases List.mem_append.mp member with member | member <;> simp [member]
    counted := by
      have lengths := order.length_eq
      rw [List.length_map, List.length_cons, List.length_map] at lengths
      change dictionary.keyCount - 1 = _
      rw [holds.counted, lengths, Nat.add_sub_cancel]
    positive := holds.positive
    least := holds.least }
  rcases List.eq_nil_or_concat' before with rfl | ⟨init, ⟨previous, other⟩, rfl⟩
  · cases toNode
    have owns := holds.owns
    refine ⟨_, ?_, taken owns rest (fun _ _ => rfl) (fun _ _ => rfl), rfl, rfl⟩
    simp only [WiDictionary.unlink, read, found.place.head_eq, found.place.store_eq, inside_some,
      bind, Except.bind, if_true]
    rfl
  · obtain ⟨middle, toPrevious, fromPrevious⟩ := leads_append.mp toNode
    obtain ⟨rfl, next', readPrevious, toNext⟩ := leads_cons.mp fromPrevious
    cases toNext
    have inUse : previous ∈ chains.flatten.map Prod.fst := by
      rw [found.flatten_eq]
      simp
    obtain ⟨pool, written, owns, -, read', others⟩ :=
      holds.owns.write inUse (⟨other, next⟩ : Bucket κ α)
    have distinct := holds.owns.nodup
    rw [found.flatten_eq] at distinct
    have order' : ((front.flatten ++ (init ++ [(previous, other)])) ++ (node, entry)
        :: (after ++ back.flatten)).Perm ((previous, other)
          :: ((front.flatten ++ init) ++ (node, entry) :: (after ++ back.flatten))) := by
      rw [← List.append_assoc, List.append_assoc (front.flatten ++ init)]
      exact List.perm_middle
    have fresh := (List.nodup_cons.mp ((order'.map Prod.fst).nodup_iff.mp distinct)).1
    have same : ∀ link ∈ (front.flatten ++ init) ++ (node, entry) :: (after ++ back.flatten),
        pool.read link.1 = dictionary.pool.read link.1 := by
      intro link member
      refine others link.1 ?_
      rintro rfl
      exact fresh (List.mem_map.mpr ⟨link, member, rfl⟩)
    have first : head ≠ some node := by
      rintro rfl
      cases init with
      | nil =>
          obtain ⟨equal, -⟩ := leads_cons.mp found.place.leads
          exact apart (previous, other) (by simp) (Option.some.inj equal).symm
      | cons link init =>
          obtain ⟨equal, -⟩ := leads_cons.mp found.place.leads
          exact apart link (by simp) (Option.some.inj equal).symm
    have chain : Leads pool head ((init ++ [(previous, other)]) ++ after) none :=
      leads_append.mpr ⟨next, toNode.redirect (fun link member => same link (by simp [member])) read',
        rest.congr fun link member => same link (by simp [member])⟩
    refine ⟨_, ?_, taken owns chain (fun link member => same link (by simp_all))
      (fun link member => same link (by simp_all)), rfl, rfl⟩
    rw [previousOf_append]
    simp only [WiDictionary.unlink, read, found.place.head_eq, inside_some, bind, Except.bind, first,
      if_false, readPrevious, written, ← found.place.heads]

end Found

/-- A new bucket comes first in the chain of its key. -/
theorem Holds.push (holds : dictionary.Holds callbacks chains) {key : Option κ}
    {fronts backs : List (Option ℕ)} {head : Option ℕ} {front back : Chains κ α}
    {chain : List (ℕ × Entry κ α)}
    (place : ThreadAt dictionary.pool dictionary.buckets chains
      (dictionary.indexOf callbacks key) fronts backs head front back chain)
    (data : Option α) (blank : Bucket κ α)
    : ∃ pool, (dictionary.pool.create blank).2.write (dictionary.pool.create blank).1
        ⟨⟨key, data⟩, head⟩ = some pool
      ∧ { dictionary with
          buckets := fronts ++ some (dictionary.pool.create blank).1 :: backs
          pool
          keyCount := dictionary.keyCount + 1 }.Holds callbacks
        (front ++ (((dictionary.pool.create blank).1, (⟨key, data⟩ : Entry κ α)) :: chain)
          :: back) := by
  obtain ⟨created, kept⟩ := holds.owns.create blank
  obtain ⟨pool, written, owns, -, read, others⟩ :=
    created.write List.mem_cons_self (⟨⟨key, data⟩, head⟩ : Bucket κ α)
  have same : ∀ link ∈ chains.flatten, pool.read link.1 = dictionary.pool.read link.1 := by
    intro link member
    have used : link.1 ∈ chains.flatten.map Prod.fst := List.mem_map_of_mem member
    rw [others link.1 fun equal => (List.nodup_cons.mp created.nodup).1 (equal ▸ used),
      kept link.1 used]
  rw [place.flatten_eq] at same
  have threads := place.change
    (.cons read (place.leads.congr fun link member => same link (by simp [member])))
    (fun link member => same link (by simp_all)) (fun link member => same link (by simp_all))
  have placed := holds.placed
  rw [place.chains] at placed
  have flat : ((front ++ (((dictionary.pool.create blank).1, (⟨key, data⟩ : Entry κ α)) :: chain)
      :: back).flatten).Perm (((dictionary.pool.create blank).1, ⟨key, data⟩) :: chains.flatten) := by
    rw [place.flatten_eq]
    simp only [List.flatten_append, List.flatten_cons, List.cons_append]
    exact List.perm_middle
  refine ⟨pool, written, ?_⟩
  exact {
    threads
    allocated := by
      rw [← holds.allocated, place.heads]
      simp
    owns := owns.perm (flat.map Prod.fst).symm
    placed := by
      refine placed_change placed fun link member => ?_
      rcases List.mem_cons.mp member with rfl | member
      · exact place.length_front.symm
      · exact placed front.length chain (by simp) link member
    counted := by
      rw [flat.length_eq, List.length_cons, ← holds.counted]
    positive := holds.positive
    least := holds.least }

-----------------------------------------------------------------------------------------
-- Resizing
-----------------------------------------------------------------------------------------

/-- A block of pointers to chains that have been moved by the hashes of their keys. -/
structure Regrouped (callbacks : DictionaryCallbacks κ) (bucketsCount : ℕ)
    (pool : Pool (Bucket κ α)) (buckets : List (Option ℕ)) (chains : Chains κ α)
    (moved : List (ℕ × Entry κ α)) (waiting : List ℕ) : Prop where
  threads : Threads pool buckets chains
  length : chains.length = bucketsCount
  placed : ∀ index links, chains[index]? = some links → ∀ link ∈ links,
    callbacks.hash link.2.key % bucketsCount = index
  order : chains.flatten.Perm moved
  owns : pool.Owns (moved.map Prod.fst ++ waiting)

/-- One bucket is moved to the front of the chain of its hash. -/
theorem Regrouped.move {bucketsCount : ℕ} (positive : 0 < bucketsCount) {pool : Pool (Bucket κ α)}
    {buckets : List (Option ℕ)} {moved : List (ℕ × Entry κ α)} {node : ℕ} {waiting : List ℕ}
    (regrouped : Regrouped callbacks bucketsCount pool buckets chains moved (node :: waiting))
    (entry : Entry κ α)
    : ∃ first pool' buckets' chains',
      buckets[callbacks.hash entry.key % bucketsCount]? = some first
      ∧ pool.write node ⟨entry, first⟩ = some pool'
      ∧ Slots.store buckets (callbacks.hash entry.key % bucketsCount) (some node) = some buckets'
      ∧ Regrouped callbacks bucketsCount pool' buckets' chains' ((node, entry) :: moved) waiting
      ∧ ∀ other, other ≠ node → pool'.read other = pool.read other := by
  have within : callbacks.hash entry.key % bucketsCount < chains.length := by
    rw [regrouped.length]
    exact Nat.mod_lt _ positive
  obtain ⟨fronts, backs, head, front, back, chain, place⟩ := regrouped.threads.exists_at within
  obtain ⟨pool', written, owns, -, read, others⟩ :=
    regrouped.owns.write (by simp : node ∈ moved.map Prod.fst ++ node :: waiting)
      (⟨entry, head⟩ : Bucket κ α)
  have fresh : node ∉ moved.map Prod.fst := by
    have distinct := List.perm_middle.nodup_iff.mp regrouped.owns.nodup
    exact fun member => (List.nodup_cons.mp distinct).1 (List.mem_append_left _ member)
  have same : ∀ link ∈ front.flatten ++ (chain ++ back.flatten),
      pool'.read link.1 = pool.read link.1 := by
    intro link member
    rw [← place.flatten_eq] at member
    refine others link.1 ?_
    rintro rfl
    exact fresh (List.mem_map.mpr ⟨link, regrouped.order.mem_iff.mp member, rfl⟩)
  have placed := regrouped.placed
  rw [place.chains] at placed
  refine ⟨head, pool', _, front ++ ((node, entry) :: chain) :: back, place.head_eq, written,
    place.store_eq _, ?_, others⟩
  exact {
    threads := place.change
      (.cons read (place.leads.congr fun link member => same link (by simp [member])))
      (fun link member => same link (by simp_all)) (fun link member => same link (by simp_all))
    length := by
      rw [← regrouped.length, place.chains]
      simp
    placed := by
      refine placed_change placed fun link member => ?_
      rcases List.mem_cons.mp member with rfl | member
      · exact place.length_front.symm
      · exact placed front.length chain (by simp) link member
    order := by
      have more := regrouped.order.cons (node, entry)
      rw [place.flatten_eq] at more
      simp only [List.flatten_append, List.flatten_cons, List.cons_append]
      exact List.perm_middle.trans more
    owns := owns.perm List.perm_middle }

/-- The buckets of a chain are moved one after the other, by induction on the chain. -/
theorem Regrouped.rehashChain {bucketsCount : ℕ} (positive : 0 < bucketsCount)
    {links : List (ℕ × Entry κ α)} {pool : Pool (Bucket κ α)} {buckets : List (Option ℕ)}
    {moved : List (ℕ × Entry κ α)} {waiting : List ℕ} {bucket : Option ℕ} {fuel : ℕ}
    (regrouped : Regrouped callbacks bucketsCount pool buckets chains moved
      (links.map Prod.fst ++ waiting))
    (leads : Leads pool bucket links none) (enough : links.length < fuel)
    : ∃ buckets' pool' chains',
      rehashChain callbacks bucketsCount fuel bucket buckets pool = .ok (buckets', pool')
      ∧ Regrouped callbacks bucketsCount pool' buckets' chains' (links.reverse ++ moved) waiting
      ∧ ∀ node ∉ links.map Prod.fst, pool'.read node = pool.read node := by
  induction links generalizing pool buckets chains moved bucket fuel with
  | nil =>
      cases leads
      obtain ⟨fuel, rfl⟩ : ∃ rest, fuel = rest + 1 := ⟨fuel - 1, by simp at enough; omega⟩
      exact ⟨buckets, pool, chains, run_stop rfl, regrouped, fun _ _ => rfl⟩
  | cons link links ih =>
      obtain ⟨node, entry⟩ := link
      obtain ⟨rfl, next, read, rest⟩ := leads_cons.mp leads
      rw [List.length_cons] at enough
      obtain ⟨fuel, rfl⟩ : ∃ rest, fuel = rest + 1 := ⟨fuel - 1, by omega⟩
      obtain ⟨first, pool', buckets', chains', here, written, stored, regrouped', others⟩ :=
        Regrouped.move positive regrouped entry
      have fresh : node ∉ links.map Prod.fst := by
        have distinct := (List.perm_middle.nodup_iff.mp regrouped.owns.nodup)
        intro member
        exact (List.nodup_cons.mp distinct).1
          (List.mem_append_right _ (List.mem_append_left _ member))
      have rest' : Leads pool' next links none := rest.congr fun link member =>
        others link.1 fun equal => fresh (List.mem_map.mpr ⟨link, member, equal⟩)
      obtain ⟨buckets'', pool'', chains'', ran, regrouped'', others'⟩ :=
        ih regrouped' rest' (by omega : links.length < fuel)
      refine ⟨buckets'', pool'', chains'', ?_, ?_, fun other apart => ?_⟩
      · refine (run_again ?_).trans ran
        simp only [read, here, written, stored, inside_some, bind, Except.bind]
      · rw [List.reverse_cons, List.append_assoc]
        exact regrouped''
      · rw [List.map_cons, List.mem_cons, not_or] at apart
        rw [others' other apart.2, others other apart.1]

/-- All chains are moved one after the other, by induction on the pointers that are left. -/
theorem Regrouped.rehash {bucketsCount : ℕ} (positive : 0 < bucketsCount)
    {fronts heads : List (Option ℕ)} {olds : Chains κ α} {pool : Pool (Bucket κ α)}
    {buckets : List (Option ℕ)} {moved : List (ℕ × Entry κ α)}
    (split : dictionary.buckets = fronts ++ heads) (threads : Threads pool heads olds)
    (enough : ∀ links ∈ olds, links.length < dictionary.chainFuel)
    (regrouped : Regrouped callbacks bucketsCount pool buckets chains moved
      (olds.flatten.map Prod.fst))
    : ∃ buckets' pool' chains' moved',
      rehash callbacks dictionary bucketsCount (List.range' fronts.length heads.length) buckets pool
        = .ok (buckets', pool')
      ∧ Regrouped callbacks bucketsCount pool' buckets' chains' moved' []
      ∧ moved'.Perm (olds.flatten ++ moved) := by
  induction olds generalizing fronts heads pool buckets chains moved with
  | nil =>
      cases threads
      exact ⟨buckets, pool, chains, moved, rfl, regrouped, List.Perm.refl _⟩
  | cons links olds ih =>
      cases threads with
      | @cons head _ heads _ leads rest =>
          rw [List.flatten_cons, List.map_append] at regrouped
          obtain ⟨buckets', pool', chains', ran, regrouped', others⟩ :=
            regrouped.rehashChain positive leads (enough links List.mem_cons_self)
          have apart : ∀ link ∈ olds.flatten, link.1 ∉ links.map Prod.fst := by
            intro link member here
            have distinct := regrouped.owns.nodup.of_append_right
            exact List.disjoint_of_nodup_append distinct here
              (List.mem_map.mpr ⟨link, member, rfl⟩)
          have rest' : Threads pool' heads olds :=
            Threads.congr rest fun link member => others link.1 (apart link member)
          have split' : dictionary.buckets = (fronts ++ [head]) ++ heads := by simp [split]
          obtain ⟨buckets'', pool'', chains'', moved'', ran', regrouped'', order⟩ :=
            ih split' rest' (fun other member => enough other (List.mem_cons_of_mem _ member))
              regrouped'
          refine ⟨buckets'', pool'', chains'', moved'', ?_, regrouped'', ?_⟩
          · have here : dictionary.buckets[fronts.length]? = some head := by simp [split]
            rw [List.length_append, List.length_singleton] at ran'
            rw [List.length_cons, List.range'_succ, WiDictionary.rehash]
            simp only [here, inside_some, bind, Except.bind, ran, ran']
          · refine order.trans ?_
            rw [List.flatten_cons, List.append_assoc, ← List.append_assoc,
              ← List.append_assoc links]
            refine List.Perm.append_right moved ?_
            exact List.perm_append_comm.trans ((List.reverse_perm links).append_right _)

/-- A resized dictionary holds the same entries in other chains. -/
theorem Holds.resize (holds : dictionary.Holds callbacks chains)
    : ∃ next chains', dictionary.resize callbacks = .ok next
      ∧ next.Holds callbacks chains' ∧ chains'.flatten.Perm chains.flatten
      ∧ next.keyCount = dictionary.keyCount ∧ next.minCount = dictionary.minCount
      ∧ next.bucketsCount = clamp (exp2m1 (log2 dictionary.keyCount + 1)) dictionary.minCount
        dictionaryMaxCount := by
  have positive : 0 < clamp (exp2m1 (log2 dictionary.keyCount + 1)) dictionary.minCount
      dictionaryMaxCount := by
    have least := holds.least
    unfold clamp dictionaryMaxCount
    split_ifs <;> omega
  generalize size : clamp (exp2m1 (log2 dictionary.keyCount + 1)) dictionary.minCount
    dictionaryMaxCount = count at positive
  have start : Regrouped callbacks count dictionary.pool (List.replicate count none)
      (List.replicate count []) [] (chains.flatten.map Prod.fst) := {
    threads := threads_replicate count
    length := List.length_replicate
    placed := placed_replicate count
    order := by simp
    owns := holds.owns }
  have enough : ∀ links ∈ chains, links.length < dictionary.chainFuel := by
    intro links member
    have few := holds.owns.length_le
    have part : links.length ≤ chains.flatten.length := by
      rw [List.length_flatten]
      exact List.le_sum_of_mem (List.mem_map_of_mem member)
    rw [List.length_map] at few
    unfold chainFuel
    omega
  obtain ⟨buckets, pool, chains', moved, ran, regrouped, order⟩ :=
    Regrouped.rehash positive (List.nil_append _).symm holds.threads enough start
  rw [List.append_nil] at order
  have same := regrouped.order.trans order
  refine ⟨{ dictionary with buckets, bucketsCount := count, pool }, chains', ?_, ?_, same, rfl, rfl,
    rfl⟩
  · rw [List.length_nil, ← List.range_eq_range', holds.allocated] at ran
    simp only [WiDictionary.resize, size, ran, bind, Except.bind]
  · have owns := regrouped.owns
    rw [List.append_nil] at owns
    exact {
      threads := regrouped.threads
      allocated := regrouped.threads.length_eq.trans regrouped.length
      owns := owns.perm (regrouped.order.map Prod.fst).symm
      placed := regrouped.placed
      counted := holds.counted.trans same.length_eq.symm
      positive
      least := holds.least }

-----------------------------------------------------------------------------------------
-- When a dictionary is resized
-----------------------------------------------------------------------------------------

/-- The dictionary needs no resizing, and has no more pointers than it may be given by one. -/
structure Settled (dictionary : WiDictionary κ α) : Prop where
  calm : ¬dictionary.NeedsResize
  bounded : dictionary.bucketsCount = dictionary.minCount
    ∨ dictionary.bucketsCount ≤ dictionaryMaxCount

/-- The dictionary is one operation away from one that needed no resizing. -/
structure Settling (dictionary : WiDictionary κ α) : Prop where
  bounded : dictionary.bucketsCount = dictionary.minCount
    ∨ dictionary.bucketsCount ≤ dictionaryMaxCount
  few : dictionary.NeedsResize → dictionary.keyCount < 2 ^ 31

/-- As many pointers as the next power of two are as many as the keys, and no more than twice as many. -/
theorem exp2m1_log2_bounds {count : ℕ} (few : count < 2 ^ 31)
    : count ≤ exp2m1 (log2 count + 1) ∧ exp2m1 (log2 count + 1) ≤ max 1 (2 * count - 1) := by
  by_cases none : count = 0
  · subst none
    rw [log2_eq]
    decide
  · have low : 2 ^ log2 count ≤ count := by
      rw [log2_eq]
      exact Nat.log2_self_le none
    have high := lt_two_pow_log2 count
    have small : log2 count + 1 < 32 := by
      rw [log2_eq]
      have := (Nat.log2_lt none).mpr few
      omega
    rw [exp2m1, Nat.mod_eq_of_lt small, pow_succ] at *
    omega

/-- A dictionary that has been checked is settled. -/
theorem Holds.checkResize (holds : dictionary.Holds callbacks chains) (settling : dictionary.Settling)
    : ∃ next chains', dictionary.checkResize callbacks = .ok next
      ∧ next.Holds callbacks chains' ∧ next.Settled ∧ chains'.flatten.Perm chains.flatten := by
  unfold WiDictionary.checkResize
  by_cases needs : dictionary.NeedsResize
  · rw [if_pos needs]
    obtain ⟨next, chains', ran, own, same, keyCount, minCount, bucketsCount⟩ := holds.resize
    have bounds := exp2m1_log2_bounds (settling.few needs)
    have least := holds.least
    refine ⟨next, chains', ran, own, ⟨?_, ?_⟩, same⟩
    · unfold NeedsResize
      rw [keyCount, minCount, bucketsCount]
      unfold clamp
      split_ifs <;> omega
    · rw [minCount, bucketsCount]
      unfold clamp
      split_ifs <;> omega
  · rw [if_neg needs]
    exact ⟨dictionary, chains, rfl, holds, ⟨needs, settling.bounded⟩, List.Perm.refl _⟩

-----------------------------------------------------------------------------------------
-- Operations
-----------------------------------------------------------------------------------------

/-- The dictionary is settled and holds these entries, in some order and in some chains. -/
def Contains (callbacks : DictionaryCallbacks κ) (dictionary : WiDictionary κ α)
    (entries : List (Entry κ α)) : Prop :=
  ∃ chains : Chains κ α, dictionary.Holds callbacks chains ∧ dictionary.Settled
    ∧ (chains.flatten.map Prod.snd).Perm entries

/-- An operation that keeps the number of keys, or changes it by one, leaves little to settle. -/
theorem Settled.settling (settled : dictionary.Settled) {next : WiDictionary κ α}
    (bucketsCount : next.bucketsCount = dictionary.bucketsCount)
    (minCount : next.minCount = dictionary.minCount)
    (keyCount : next.keyCount ≤ dictionary.keyCount + 1)
    : next.Settling := by
  have calm := settled.calm
  have bounded := settled.bounded
  unfold NeedsResize dictionaryMaxCount at calm
  unfold dictionaryMaxCount at bounded
  refine ⟨?_, fun needs => ?_⟩
  · rw [bucketsCount, minCount]
    exact settled.bounded
  · unfold NeedsResize dictionaryMaxCount at needs
    rw [bucketsCount, minCount] at needs
    omega

/-- What the check for a resize does to a dictionary that holds some entries. -/
theorem Holds.checked (holds : dictionary.Holds callbacks chains) (settling : dictionary.Settling)
    : ∃ next, dictionary.checkResize callbacks = .ok next
      ∧ next.Contains callbacks (chains.flatten.map Prod.snd) := by
  obtain ⟨next, chains', ran, own, settled, same⟩ := holds.checkResize settling
  exact ⟨next, ran, chains', own, settled, same.map Prod.snd⟩

/-- Setting data for a key exchanges the entry of that key, or adds one if there is none. -/
theorem Contains.setDataForKey {entries : List (Entry κ α)}
    (contains : dictionary.Contains callbacks entries) (lawful : callbacks.Lawful keys)
    (data : Option α) (key : Option κ)
    : ∃ next, dictionary.setDataForKey callbacks data key = .ok next
      ∧ ((∃ entry rest, entries.Perm (entry :: rest) ∧ keys.r entry.key key
          ∧ next.Contains callbacks (⟨key, data⟩ :: rest))
        ∨ (∀ entry ∈ entries, ¬keys.r entry.key key)
          ∧ next.Contains callbacks (⟨key, data⟩ :: entries)) := by
  obtain ⟨chains, holds, settled, same⟩ := contains
  rcases holds.search lawful key with
    ⟨fronts, backs, head, front, back, before, after, node, entry, found, ran⟩ | ⟨missing, ran⟩
  · obtain ⟨next, pool, read, written, own⟩ := holds.replace found data
    obtain ⟨last, checked, chains', own', settled', same'⟩ :=
      own.checked (settled.settling rfl rfl (Nat.le_succ _))
    refine ⟨last, ?_, .inl ⟨entry,
      (front.flatten ++ before).map Prod.snd ++ (after ++ back.flatten).map Prod.snd, ?_,
      (lawful.isEqual_iff _ _).mp found.equal, chains', own', settled', same'.trans ?_⟩⟩
    · simp only [WiDictionary.setDataForKey, bucketForKey, ran, bind, Except.bind, Option.map_some,
        read, written, inside_some]
      exact checked
    · refine same.symm.trans ?_
      rw [found.flatten_eq, List.map_append, List.map_cons]
      exact List.perm_middle
    · have flat : (front ++ (before ++ (node, (⟨key, data⟩ : Entry κ α)) :: after) :: back).flatten
          = (front.flatten ++ before) ++ (node, ⟨key, data⟩) :: (after ++ back.flatten) := by simp
      rw [flat, List.map_append, List.map_cons]
      exact List.perm_middle
  · obtain ⟨fronts, backs, head, front, back, chain, place⟩ := holds.exists_at key
    obtain ⟨pool, written, own⟩ := holds.push place data ⟨⟨none, none⟩, none⟩
    obtain ⟨last, checked, chains', own', settled', same'⟩ :=
      own.checked (settled.settling rfl rfl le_rfl)
    refine ⟨last, ?_, .inr ⟨fun entry member equal => ?_, chains', own', settled', same'.trans ?_⟩⟩
    · simp only [WiDictionary.setDataForKey, bucketForKey, ran, bind, Except.bind, Option.map_none,
        place.head_eq, place.store_eq, written, inside_some]
      exact checked
    · obtain ⟨link, inChains, rfl⟩ := List.mem_map.mp (same.mem_iff.mpr member)
      exact missing link inChains equal
    · refine List.Perm.trans ?_ (same.cons _)
      rw [place.flatten_eq]
      simp only [List.flatten_append, List.flatten_cons, List.map_append, List.map_cons,
        List.cons_append]
      exact List.perm_middle

/-- Removing the data of a key takes its entry out, if there is one. -/
theorem Contains.removeDataForKey {entries : List (Entry κ α)}
    (contains : dictionary.Contains callbacks entries) (lawful : callbacks.Lawful keys)
    (key : Option κ)
    : ∃ next, dictionary.removeDataForKey callbacks key = .ok next
      ∧ ((∃ entry rest, entries.Perm (entry :: rest) ∧ keys.r entry.key key
          ∧ next.Contains callbacks rest)
        ∨ (∀ entry ∈ entries, ¬keys.r entry.key key) ∧ next.Contains callbacks entries) := by
  obtain ⟨chains, holds, settled, same⟩ := contains
  rcases holds.search lawful key with
    ⟨fronts, backs, head, front, back, before, after, node, entry, found, ran⟩ | ⟨missing, ran⟩
  · obtain ⟨next, unlinked, own, bucketsCount, minCount⟩ := holds.unlink found
    have flat : (front ++ (before ++ after) :: back).flatten
        = (front.flatten ++ before) ++ (after ++ back.flatten) := by simp
    have fewer : next.keyCount ≤ dictionary.keyCount + 1 := by
      rw [own.counted, holds.counted, flat, found.flatten_eq]
      simp only [List.length_append, List.length_cons]
      omega
    obtain ⟨last, checked, chains', own', settled', same'⟩ :=
      own.checked (settled.settling bucketsCount minCount fewer)
    refine ⟨last, ?_, .inl ⟨entry, (front ++ (before ++ after) :: back).flatten.map Prod.snd, ?_,
      (lawful.isEqual_iff _ _).mp found.equal, chains', own', settled', same'⟩⟩
    · simp only [WiDictionary.removeDataForKey, ran, bind, Except.bind, unlinked, checked]
    · refine same.symm.trans ?_
      rw [found.flatten_eq, flat]
      exact List.perm_middle.map Prod.snd
  · obtain ⟨last, checked, chains', own', settled', same'⟩ :=
      holds.checked (settled.settling rfl rfl (Nat.le_succ _))
    refine ⟨last, ?_, .inr ⟨fun entry member equal => ?_, chains', own', settled',
      same'.trans same⟩⟩
    · simp only [WiDictionary.removeDataForKey, ran, bind, Except.bind, checked]
    · obtain ⟨link, inChains, rfl⟩ := List.mem_map.mp (same.mem_iff.mpr member)
      exact missing link inChains equal

/-- The buckets of a chain are freed one after the other, by induction on the chain. -/
theorem removeChain_spec {links : List (ℕ × Entry κ α)} {bucket : Option ℕ} {waiting : List ℕ}
    {fuel : ℕ} {current : WiDictionary κ α} (leads : Leads current.pool bucket links none)
    (owns : current.pool.Owns (links.map Prod.fst ++ waiting)) (enough : links.length < fuel)
    : ∃ free, removeChain fuel bucket current = .ok { current with
          pool := { current.pool with free }
          keyCount := current.keyCount - links.length }
      ∧ ({ current.pool with free } : Pool (Bucket κ α)).Owns waiting := by
  induction links generalizing bucket fuel current with
  | nil =>
      cases leads
      obtain ⟨fuel, rfl⟩ : ∃ rest, fuel = rest + 1 := ⟨fuel - 1, by simp at enough; omega⟩
      exact ⟨current.pool.free, run_stop rfl, owns⟩
  | cons link links ih =>
      obtain ⟨node, entry⟩ := link
      obtain ⟨rfl, next, read, rest⟩ := leads_cons.mp leads
      rw [List.length_cons] at enough
      obtain ⟨fuel, rfl⟩ : ∃ rest, fuel = rest + 1 := ⟨fuel - 1, by omega⟩
      have rest' : Leads (current.bucketRemove node).pool next links none :=
        rest.congr fun _ _ => rfl
      obtain ⟨free, ran, owns'⟩ := ih rest' owns.release (by omega : links.length < fuel)
      refine ⟨free, ?_, owns'⟩
      refine (run_again ?_).trans (ran.trans ?_)
      · have read' : (current.bucketRemove node).pool.read node = some ⟨entry, next⟩ := read
        simp only [read', inside_some, bind, Except.bind]
      · rw [List.length_cons, Nat.add_comm, ← Nat.sub_sub]
        rfl

/-- All chains are freed and their pointers cleared, by induction on the pointers that are left. -/
theorem removeChains_spec {fronts heads : List (Option ℕ)} {current : WiDictionary κ α}
    (split : current.buckets = fronts ++ heads) (threads : Threads current.pool heads chains)
    (owns : current.pool.Owns (chains.flatten.map Prod.fst))
    : ∃ free, removeChains (List.range' fronts.length heads.length) current = .ok { current with
          buckets := fronts ++ List.replicate heads.length none
          pool := { current.pool with free }
          keyCount := current.keyCount - chains.flatten.length }
      ∧ ({ current.pool with free } : Pool (Bucket κ α)).Owns [] := by
  induction chains generalizing fronts heads current with
  | nil =>
      cases threads
      refine ⟨current.pool.free, ?_, owns⟩
      simp [removeChains, ← split]
  | cons links chains ih =>
      cases threads with
      | @cons head _ heads _ leads rest =>
          have few := owns.length_le
          rw [List.flatten_cons, List.map_append] at owns
          rw [List.flatten_cons, List.length_map, List.length_append] at few
          have enough : links.length < current.chainFuel := by
            unfold chainFuel
            omega
          obtain ⟨free, ran, owns'⟩ := removeChain_spec leads owns enough
          have here : current.buckets[fronts.length]? = some head := by simp [split]
          have cleared : Slots.store current.buckets fronts.length none
              = some (fronts ++ none :: heads) := by
            rw [split]
            exact Slots.store_append
          have rest' : Threads { current.pool with free } heads chains :=
            Threads.congr rest fun _ _ => rfl
          obtain ⟨free', ran', owns''⟩ := @ih (fronts ++ [none]) heads { current with
            buckets := fronts ++ none :: heads
            pool := { current.pool with free }
            keyCount := current.keyCount - links.length } (by simp) rest' owns'
          refine ⟨free', ?_, owns''⟩
          rw [List.length_append, List.length_singleton] at ran'
          rw [List.length_cons, List.range'_succ, WiDictionary.removeChains]
          simp only [here, inside_some, bind, Except.bind, ran, cleared, ran', List.append_assoc,
            List.singleton_append, List.replicate_succ, List.flatten_cons, List.length_append,
            Nat.sub_sub]

/-- Removing all data leaves no entry. -/
theorem Contains.removeAllData {entries : List (Entry κ α)}
    (contains : dictionary.Contains callbacks entries)
    : ∃ next, dictionary.removeAllData callbacks = .ok next ∧ next.Contains callbacks [] := by
  obtain ⟨chains, holds, settled, same⟩ := contains
  obtain ⟨free, ran, owns⟩ :=
    removeChains_spec (List.nil_append dictionary.buckets).symm holds.threads holds.owns
  rw [List.length_nil, ← List.range_eq_range', holds.allocated, holds.counted, Nat.sub_self] at ran
  have emptied : { dictionary with
      buckets := [] ++ List.replicate dictionary.bucketsCount none
      pool := { dictionary.pool with free }
      keyCount := 0 }.Holds callbacks (List.replicate dictionary.bucketsCount []) := {
    threads := threads_replicate _
    allocated := by simp
    owns := by simpa using owns
    placed := placed_replicate _
    counted := by simp
    positive := holds.positive
    least := holds.least }
  obtain ⟨next, checked, own⟩ := emptied.checked (settled.settling rfl rfl (Nat.zero_le _))
  refine ⟨next, ?_, ?_⟩
  · simp only [WiDictionary.removeAllData, ran, bind, Except.bind]
    exact checked
  · simpa using own

end Holds

end WiDictionary

end WiredServer.Collections
