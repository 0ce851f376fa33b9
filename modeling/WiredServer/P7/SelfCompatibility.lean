import Mathlib
import WiredServer.P7.CompatiblePeers

/-! A peer with the same specification is compatible. Every comparison of the check accepts equal sides,
and what the loader ensures leads each comparison to the equal one: no name twice in a table, and no
reply twice in a group.
-/

namespace WiredServer.P7

-----------------------------------------------------------------------------------------
-- Messages
-----------------------------------------------------------------------------------------

/-- An entry of a table is what its name looks up. -/
theorem lookup_of_mem_entries {κ ν : Type} [DecidableEq κ] {table : Dictionary κ ν}
    {entry : Sigma fun _ : κ => ν} (mem : entry ∈ table.entries)
    : table.lookup entry.1 = some entry.2 :=
  AList.mem_lookup_iff.mpr mem

/-- A field is compatible with itself. -/
theorem fieldIsCompatible_self (message : SpecMessage) (field : SpecField)
    : fieldIsCompatible message field field = .ok () :=
  fieldIsCompatible_eq_ok.mpr ⟨rfl, rfl, fun _ _ _ => rfl⟩

/-- A parameter is compatible with itself, whether it is required or not. -/
theorem parameterIsCompatible_self (message : SpecMessage) (parameter : SpecParameter)
    : parameterIsCompatible message parameter (some parameter) = .ok () := by
  simp only [parameterIsCompatible, Bool.and_not_self, Bool.false_eq_true, if_false]
  exact fieldIsCompatible_self message parameter.field

/-- A message is compatible with itself. -/
theorem messageIsCompatible_self (message : SpecMessage)
    : messageIsCompatible message message = .ok () := by
  simp only [messageIsCompatible, ne_eq, not_true_eq_false, if_false]
  refine Fallible.forM_eq_ok.mpr fun entry mem => ?_
  rw [lookup_of_mem_entries mem]
  exact parameterIsCompatible_self message entry.2

-----------------------------------------------------------------------------------------
-- Replies
-----------------------------------------------------------------------------------------

section Replies

variable {transaction : Transaction}

/-- A peer that sends a reply as often as it is expected is accepted, whatever the count is. -/
theorem countIsCompatible_self (count : Int) : countIsCompatible count count = true := by
  unfold countIsCompatible
  split_ifs <;> simp_all

/-- A reply is compatible with itself in both directions. -/
theorem replyIsCompatible_self (commutativity : Bool) (reply : Reply)
    : replyIsCompatible transaction commutativity reply (some reply) = .ok () := by
  cases commutativity <;>
    simp [replyIsCompatible, countIsCompatible_self, messageIsCompatible_self]

/-- The next required reply of a group is the first of its required replies. -/
theorem dropWhile_optional {rest required : List Reply} {reply : Reply}
    (next : rest.filter (·.required) = reply :: required)
    : ∃ later, (rest.dropWhile fun other => !other.required) = reply :: later
      ∧ later.filter (·.required) = required := by
  obtain ⟨optional, later, rfl, skipped, isRequired, others⟩ := List.filter_eq_cons_iff.mp next
  refine ⟨later, ?_, others⟩
  rw [List.dropWhile_append_of_pos (by simpa using skipped)]
  exact List.dropWhile_cons_of_neg (by simpa using isRequired)

/-- The replies of a group are compatible with the group, by induction on the replies: as many
required ones are left of the group as of the replies.
-/
theorem repliesAreCompatible_self (commutativity : Bool) {group replies rest : List Reply}
    (distinct : (group.map (·.message.name)).Nodup) (subset : replies ⊆ group)
    (aligned : rest.filter (·.required) = replies.filter (·.required))
    : repliesAreCompatible transaction commutativity group rest replies = .ok () := by
  induction replies generalizing rest with
  | nil => rw [repliesAreCompatible]
  | cons reply replies ih =>
      have here : reply ∈ group := subset List.mem_cons_self
      have later : replies ⊆ group := fun _ mem => subset (List.mem_cons_of_mem _ mem)
      rw [repliesAreCompatible]
      cases required : reply.required with
      | true =>
          rw [List.filter_cons_of_pos required] at aligned
          obtain ⟨others, next, aligned⟩ := dropWhile_optional aligned
          simp only [if_true, next, replyIsCompatible_self]
          exact ih later aligned
      | false =>
          rw [List.filter_cons_of_neg (by simp [required])] at aligned
          have found : group.find? (·.message.name = reply.message.name) = some reply := by
            obtain ⟨first, found⟩ : ∃ first,
                group.find? (·.message.name = reply.message.name) = some first :=
              Option.isSome_iff_exists.mp (List.find?_isSome.mpr ⟨reply, here, by simp⟩)
            have same : first.message.name = reply.message.name := by
              simpa using List.find?_some found
            rw [found, List.inj_on_of_nodup_map distinct (List.mem_of_find?_eq_some found) here same]
          simp only [Bool.false_eq_true, if_false, found, replyIsCompatible_self]
          exact ih later aligned

/-- Groups are compatible with themselves, one after the other, if each is. -/
theorem andorsAreCompatible_self {children : List AndOr}
    (each : ∀ child ∈ children, andorIsCompatible transaction child child = .ok ())
    : andorsAreCompatible transaction children children = .ok () := by
  induction children with
  | nil =>
      rw [andorsAreCompatible]
      intro _ _ _ _ first
      cases first
  | cons child children ih =>
      rw [List.forall_mem_cons] at each
      rw [andorsAreCompatible, each.1]
      exact ih each.2

/-- A group without a reply twice is compatible with itself, by induction on its nesting. -/
theorem andorIsCompatible_self {andor : AndOr} (distinct : andor.RepliesDistinct)
    : andorIsCompatible transaction andor andor = .ok () := by
  induction distinct with
  | @group type replies children names _ ih =>
      have own (commutativity : Bool)
          : repliesAreCompatible transaction commutativity replies replies replies = .ok () :=
        repliesAreCompatible_self commutativity names (List.Subset.refl _) rfl
      rw [andorIsCompatible]
      simp only [ne_eq, not_true_eq_false, if_false, own]
      exact andorsAreCompatible_self ih

end Replies

-----------------------------------------------------------------------------------------
-- Specifications
-----------------------------------------------------------------------------------------

/-- A transaction without a reply twice in a group is compatible with itself. -/
theorem transactionIsCompatible_self {transaction : Transaction}
    (distinct : transaction.andor.RepliesDistinct)
    : transactionIsCompatible transaction (some transaction) = .ok () := by
  simp only [transactionIsCompatible, Bool.and_not_self, Bool.false_eq_true, if_false, ne_eq,
    not_true_eq_false, messageIsCompatible_self]
  exact andorIsCompatible_self distinct

/-- Every specification that a program can hold is compatible with itself. -/
theorem Spec.Loaded.isCompatibleWithSpec_self {spec : Spec} (loaded : spec.Loaded)
    : spec.isCompatibleWithSpec spec = .ok () := by
  unfold Spec.isCompatibleWithSpec
  refine Fallible.bind_eq_ok.mpr ⟨(), ?_, ?_⟩
  · refine Fallible.forM_eq_ok.mpr fun entry mem => ?_
    have found := lookup_of_mem_entries mem
    rw [found]
    exact transactionIsCompatible_self (loaded.repliesDistinct found)
  · refine Fallible.forM_eq_ok.mpr fun entry mem => ?_
    rw [lookup_of_mem_entries mem]
    exact messageIsCompatible_self entry.2.message

/-- Witness: the builtin specification. -/
theorem isCompatibleWithSpec_self_builtin
    : builtinSpec.isCompatibleWithSpec builtinSpec = .ok () :=
  Spec.Loaded.builtin.isCompatibleWithSpec_self

end WiredServer.P7
