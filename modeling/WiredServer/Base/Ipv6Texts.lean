import WiredServer.Base.Numerals
import WiredServer.Lib.Joining

/-! The texts of IPv6 addresses: eight groups of digits, or fewer with two colons in the place of those
that are zero. The scanner of `inet_pton` takes these texts and no others. Where two texts are compared,
the zero groups are put in front, wherever the two colons stand.
-/

namespace WiredServer.Ip

-----------------------------------------------------------------------------------------
-- Texts of addresses
-----------------------------------------------------------------------------------------

/-- A group: one digit to four, in base sixteen. -/
def IsGroup (part : List Char) : Prop :=
  part ≠ [] ∧ part.length ≤ 4 ∧ ∀ char ∈ part, (digitValue char).isSome

instance : DecidablePred IsGroup := fun part =>
  decidable_of_iff (part ≠ [] ∧ part.length ≤ 4 ∧ part.all (fun char => (digitValue char).isSome) = true)
    (and_congr_right fun _ => and_congr_right fun _ => List.all_eq_true)

/-- Groups with colons between them. -/
abbrev joinGroups (groups : List (List Char)) : List Char :=
  [':'].intercalate groups

/-- How an address is written: with all its groups, or with two colons between the groups in front and
those behind.
-/
inductive Spelling where
  | whole (groups : List (List Char))
  | elided (front behind : List (List Char))

namespace Spelling

/-- The text of a spelling. -/
def text : Spelling → List Char
  | .whole groups => joinGroups groups
  | .elided front behind => joinGroups front ++ ':' :: ':' :: joinGroups behind

/-- There are eight groups, or fewer where some are left out. -/
def IsWellFormed : Spelling → Prop
  | .whole groups => groups.length = 8 ∧ ∀ group ∈ groups, IsGroup group
  | .elided front behind =>
      front.length + behind.length < 8 ∧ (∀ group ∈ front, IsGroup group)
      ∧ ∀ group ∈ behind, IsGroup group

end Spelling

/-- The value of a group. -/
def groupValue (group : List Char) : ℕ :=
  (digitsValue 16 group).getD 0

/-- A group with four digits. -/
def filled (group : List Char) : List Char :=
  List.replicate (4 - group.length) '0' ++ group

namespace Spelling

/-- The eight numbers of an address. -/
def value : Spelling → List ℕ
  | .whole groups => groups.map groupValue
  | .elided front behind =>
      front.map groupValue ++ List.replicate (8 - front.length - behind.length) 0
        ++ behind.map groupValue

/-- The groups with the zero groups in front, but for those that the empty parts of the text stand
for.
-/
def moved : Spelling → List (List Char)
  | .whole groups => groups.map filled
  | .elided [] behind => List.replicate (8 - behind.length) (filled []) ++ behind.map filled
  | .elided front [] =>
      List.replicate (6 - front.length) (filled []) ++ front.map filled ++ [filled [], filled []]
  | .elided front behind =>
      List.replicate (7 - front.length - behind.length) (filled []) ++ front.map filled
        ++ filled [] :: behind.map filled

end Spelling

/-- A text is the address with these numbers. -/
def Denotes (text : List Char) (value : List ℕ) : Prop :=
  ∃ spelling : Spelling, spelling.IsWellFormed ∧ spelling.text = text ∧ spelling.value = value

-----------------------------------------------------------------------------------------
-- The scanner
-----------------------------------------------------------------------------------------

/-- A digit is no colon. -/
theorem ne_colon_of_digitValue {char : Char} (digit : (digitValue char).isSome) : char ≠ ':' := by
  rintro rfl
  exact absurd digit (by decide)

/-- A group has no colon. -/
theorem IsGroup.colon_notMem {group : List Char} (isGroup : IsGroup group) : ':' ∉ group :=
  fun mem => ne_colon_of_digitValue (isGroup.2.2 ':' mem) rfl

/-- The end of a text completes its groups if there are eight, or fewer where some are left out. -/
theorem groupsComplete_nil (scan : GroupScan)
    : groupsComplete scan []
      = if scan.elided then decide ((if scan.digits = 0 then scan.groups else scan.groups + 1) < 8)
        else decide ((if scan.digits = 0 then scan.groups else scan.groups + 1) = 8) :=
  rfl

/-- A colon ends a group or stands for the groups that are left out. -/
theorem groupsComplete_colon (scan : GroupScan) (rest : List Char)
    : groupsComplete scan (':' :: rest)
      = if scan.digits = 0 then !scan.elided && groupsComplete { scan with elided := true } rest
        else
          rest ≠ [] && scan.groups < 8
            && groupsComplete { scan with groups := scan.groups + 1, digits := 0 } rest :=
  rfl

/-- The scanner takes digits while there are no more than four in the group, by induction on them. -/
theorem groupsComplete_append (scan : GroupScan) (part rest : List Char) (noColon : ':' ∉ part)
    : groupsComplete scan (part ++ rest) = true
      ↔ (∀ char ∈ part, (digitValue char).isSome)
        ∧ (part ≠ [] → scan.digits + part.length ≤ 4)
        ∧ groupsComplete { scan with digits := scan.digits + part.length } rest = true := by
  induction part generalizing scan with
  | nil => simp
  | cons char part ih =>
      rw [List.mem_cons, not_or] at noColon
      have next := ih { scan with digits := scan.digits + 1 } noColon.2
      have other : char ≠ ':' := Ne.symm noColon.1
      rw [List.cons_append, groupsComplete.eq_3 _ _ _ other]
      simp only [Bool.and_eq_true, decide_eq_true_eq, next, List.forall_mem_cons, List.length_cons]
      have count : scan.digits + 1 + part.length = scan.digits + (part.length + 1) := by omega
      rw [count]
      constructor
      · rintro ⟨⟨digit, few⟩, digits, fewMore, complete⟩
        refine ⟨⟨digit, digits⟩, fun _ => ?_, complete⟩
        cases part with
        | nil => exact few
        | cons => exact fewMore (by simp)
      · rintro ⟨⟨digit, digits⟩, few, complete⟩
        have few := few (by simp)
        exact ⟨⟨digit, by omega⟩, digits, fun _ => few, complete⟩

/-- The scanner takes a group, and goes on behind its colon or ends. -/
theorem groupsComplete_group {groups : ℕ} {elided : Bool} {part : List Char} (nonempty : part ≠ [])
    (noColon : ':' ∉ part)
    : (groupsComplete ⟨groups, elided, 0⟩ part = true
        ↔ IsGroup part ∧ if elided then groups + 1 < 8 else groups + 1 = 8)
      ∧ ∀ rest, groupsComplete ⟨groups, elided, 0⟩ (part ++ ':' :: rest) = true
        ↔ IsGroup part ∧ rest ≠ [] ∧ groups < 8
          ∧ groupsComplete ⟨groups + 1, elided, 0⟩ rest = true := by
  have some : part.length ≠ 0 := by simpa using nonempty
  have isGroup : IsGroup part
      ↔ (∀ char ∈ part, (digitValue char).isSome) ∧ (part ≠ [] → part.length ≤ 4) := by
    simp only [IsGroup]
    tauto
  constructor
  · have ended := groupsComplete_append ⟨groups, elided, 0⟩ part [] noColon
    rw [List.append_nil] at ended
    rw [ended, isGroup]
    cases elided <;> simp [groupsComplete_nil, some, and_assoc]
  · intro rest
    rw [groupsComplete_append _ part _ noColon, isGroup]
    simp [groupsComplete_colon, some, and_assoc]

/-- A text begins with a colon or with a part that has none. -/
theorem text_cases (text : List Char)
    : text = [] ∨ (∃ rest, text = ':' :: rest)
      ∨ ∃ part, part ≠ [] ∧ ':' ∉ part ∧ (text = part ∨ ∃ rest, text = part ++ ':' :: rest) := by
  by_cases colon : ':' ∈ text
  · obtain ⟨part, rest, rfl, noColon⟩ := List.eq_append_cons_of_mem colon
    rcases eq_or_ne part [] with rfl | nonempty
    · exact .inr (.inl ⟨rest, rfl⟩)
    · exact .inr (.inr ⟨part, nonempty, noColon, .inr ⟨rest, rfl⟩⟩)
  · rcases eq_or_ne text [] with rfl | nonempty
    · exact .inl rfl
    · exact .inr (.inr ⟨text, nonempty, colon, .inl rfl⟩)

/-- The first of several groups stands in front of a colon. -/
theorem joinGroups_cons (group : List Char) {groups : List (List Char)} (some : groups ≠ [])
    : joinGroups (group :: groups) = group ++ ':' :: joinGroups groups := by
  obtain ⟨second, others, rfl⟩ := List.exists_cons_of_ne_nil some
  rw [joinGroups, List.intercalate_cons_cons, List.append_assoc, List.singleton_append]

/-- Groups make a text. -/
theorem joinGroups_ne_nil {groups : List (List Char)} (areGroups : ∀ group ∈ groups, IsGroup group)
    (some : groups ≠ [])
    : joinGroups groups ≠ [] := by
  obtain ⟨first, others, rfl⟩ := List.exists_cons_of_ne_nil some
  have nonempty := (areGroups first List.mem_cons_self).1
  rcases eq_or_ne others [] with rfl | more
  · rwa [joinGroups, List.intercalate_singleton]
  · rw [joinGroups_cons first more]
    simp [nonempty]

/-- Behind two colons the scanner takes groups, by induction on them. -/
theorem groupsComplete_of_behind {groups : ℕ} {behind : List (List Char)}
    (areGroups : ∀ group ∈ behind, IsGroup group) (few : groups + behind.length < 8)
    : groupsComplete ⟨groups, true, 0⟩ (joinGroups behind) = true := by
  induction behind generalizing groups with
  | nil => simpa [joinGroups, groupsComplete_nil] using few
  | cons group behind ih =>
      obtain ⟨isGroup, others⟩ := List.forall_mem_cons.mp areGroups
      have scanned := @groupsComplete_group groups true group isGroup.1 isGroup.colon_notMem
      rw [List.length_cons] at few
      rcases eq_or_ne behind [] with rfl | more
      · rw [joinGroups, List.intercalate_singleton]
        exact scanned.1.mpr ⟨isGroup, by simpa using few⟩
      · rw [joinGroups_cons group more]
        exact (scanned.2 _).mpr ⟨isGroup, joinGroups_ne_nil others more, by omega,
          ih others (by omega)⟩

/-- Behind two colons the scanner takes nothing else, by induction on the length of the text. -/
theorem behind_of_groupsComplete {groups : ℕ} {text : List Char}
    (complete : groupsComplete ⟨groups, true, 0⟩ text = true)
    : ∃ behind, (∀ group ∈ behind, IsGroup group) ∧ joinGroups behind = text
      ∧ groups + behind.length < 8 := by
  induction length : text.length using Nat.strong_induction_on generalizing groups text with
  | _ count ih =>
      rcases text_cases text with rfl | ⟨rest, rfl⟩ | ⟨part, nonempty, noColon, rfl | ⟨rest, rfl⟩⟩
      · exact ⟨[], List.forall_mem_nil _, rfl, by simpa [groupsComplete_nil] using complete⟩
      · simp [groupsComplete_colon] at complete
      · obtain ⟨isGroup, few⟩ := (groupsComplete_group nonempty noColon).1.mp complete
        refine ⟨[text], by simpa using isGroup, ?_, by simpa using few⟩
        rw [joinGroups, List.intercalate_singleton]
      · obtain ⟨isGroup, more, -, complete⟩ := ((groupsComplete_group nonempty noColon).2 rest).mp complete
        have shorter : rest.length < count := by
          rw [← length, List.length_append, List.length_cons]
          omega
        obtain ⟨behind, areGroups, rfl, few⟩ := ih rest.length shorter complete rfl
        have some : behind ≠ [] := by
          rintro rfl
          exact more rfl
        refine ⟨part :: behind, List.forall_mem_cons.mpr ⟨isGroup, areGroups⟩,
          joinGroups_cons part some, ?_⟩
        rw [List.length_cons]
        omega

/-- Groups with two colons behind the last one in front; where there is none, the first colon was read
before.
-/
def elidedRest (front behind : List (List Char)) : List Char :=
  if front = [] then ':' :: joinGroups behind
  else joinGroups front ++ ':' :: ':' :: joinGroups behind

/-- The first group stands in front of a colon and of the others. -/
theorem elidedRest_cons (group : List Char) (front behind : List (List Char))
    : elidedRest (group :: front) behind = group ++ ':' :: elidedRest front behind := by
  rw [elidedRest, if_neg (List.cons_ne_nil _ _), elidedRest]
  rcases eq_or_ne front [] with rfl | more
  · rw [if_pos rfl, joinGroups, List.intercalate_singleton]
  · rw [if_neg more, joinGroups_cons group more]
    simp

/-- What the scanner takes before it has seen two colons: the groups that are left, or groups with two
colons between them.
-/
def Remains (groups : ℕ) (text : List Char) : Prop :=
  (∃ others : List (List Char), (∀ group ∈ others, IsGroup group) ∧ joinGroups others = text
    ∧ groups + others.length = 8)
  ∨ ∃ front behind : List (List Char), (∀ group ∈ front, IsGroup group)
    ∧ (∀ group ∈ behind, IsGroup group) ∧ elidedRest front behind = text
    ∧ groups + front.length + behind.length < 8

/-- The scanner takes nothing but what remains, by induction on the length of the text. -/
theorem remains_of_groupsComplete {groups : ℕ} {text : List Char}
    (complete : groupsComplete ⟨groups, false, 0⟩ text = true)
    : Remains groups text := by
  induction length : text.length using Nat.strong_induction_on generalizing groups text with
  | _ count ih =>
      rcases text_cases text with rfl | ⟨rest, rfl⟩ | ⟨part, nonempty, noColon, rfl | ⟨rest, rfl⟩⟩
      · exact .inl ⟨[], List.forall_mem_nil _, rfl, by simpa [groupsComplete_nil] using complete⟩
      · rw [groupsComplete_colon, if_pos rfl] at complete
        obtain ⟨behind, areGroups, rfl, few⟩ := behind_of_groupsComplete complete
        exact .inr ⟨[], behind, List.forall_mem_nil _, areGroups, rfl, few⟩
      · obtain ⟨isGroup, last⟩ := (groupsComplete_group nonempty noColon).1.mp complete
        refine .inl ⟨[text], by simpa using isGroup, ?_, by simpa using last⟩
        rw [joinGroups, List.intercalate_singleton]
      · obtain ⟨isGroup, more, -, complete⟩ := ((groupsComplete_group nonempty noColon).2 rest).mp complete
        have shorter : rest.length < count := by
          rw [← length, List.length_append, List.length_cons]
          omega
        rcases ih rest.length shorter complete rfl with ⟨others, areGroups, rfl, eight⟩
          | ⟨front, behind, areFront, areBehind, rfl, few⟩
        · have some : others ≠ [] := by
            rintro rfl
            exact more rfl
          refine .inl ⟨part :: others, List.forall_mem_cons.mpr ⟨isGroup, areGroups⟩,
            joinGroups_cons part some, ?_⟩
          rw [List.length_cons]
          omega
        · refine .inr ⟨part :: front, behind, List.forall_mem_cons.mpr ⟨isGroup, areFront⟩, areBehind,
            elidedRest_cons part front behind, ?_⟩
          rw [List.length_cons]
          omega

/-- The scanner takes groups with two colons between them, by induction on those in front. -/
theorem groupsComplete_elidedRest {groups : ℕ} {front behind : List (List Char)}
    (areFront : ∀ group ∈ front, IsGroup group) (areBehind : ∀ group ∈ behind, IsGroup group)
    (few : groups + front.length + behind.length < 8)
    : groupsComplete ⟨groups, false, 0⟩ (elidedRest front behind) = true := by
  induction front generalizing groups with
  | nil =>
      rw [elidedRest, if_pos rfl, groupsComplete_colon, if_pos rfl]
      exact groupsComplete_of_behind areBehind (by simpa using few)
  | cons group front ih =>
      obtain ⟨isGroup, others⟩ := List.forall_mem_cons.mp areFront
      rw [List.length_cons] at few
      rw [elidedRest_cons]
      have scanned := @groupsComplete_group groups false group isGroup.1 isGroup.colon_notMem
      refine (scanned.2 _).mpr ⟨isGroup, ?_, by omega, ih others (by omega)⟩
      rw [elidedRest]
      split <;> simp

/-- The scanner takes the groups that are left, by induction on them. -/
theorem groupsComplete_joinGroups {groups : ℕ} {others : List (List Char)}
    (areGroups : ∀ group ∈ others, IsGroup group) (eight : groups + others.length = 8)
    : groupsComplete ⟨groups, false, 0⟩ (joinGroups others) = true := by
  induction others generalizing groups with
  | nil => simpa [joinGroups, groupsComplete_nil] using eight
  | cons group others ih =>
      obtain ⟨isGroup, more⟩ := List.forall_mem_cons.mp areGroups
      have scanned := @groupsComplete_group groups false group isGroup.1 isGroup.colon_notMem
      rw [List.length_cons] at eight
      rcases eq_or_ne others [] with rfl | some
      · rw [joinGroups, List.intercalate_singleton]
        exact scanned.1.mpr ⟨isGroup, by simpa using eight⟩
      · rw [joinGroups_cons group some]
        have left : 0 < others.length := List.length_pos_of_ne_nil some
        exact (scanned.2 _).mpr ⟨isGroup, joinGroups_ne_nil more some, by omega,
          ih more (by omega)⟩

/-- The text of groups does not begin with a colon. -/
theorem head_joinGroups {groups : List (List Char)} (areGroups : ∀ group ∈ groups, IsGroup group)
    : (joinGroups groups).head? ≠ some ':' := by
  cases groups with
  | nil => simp [joinGroups]
  | cons first others =>
      have isGroup := areGroups first List.mem_cons_self
      obtain ⟨char, rest, rfl⟩ := List.exists_cons_of_ne_nil isGroup.1
      have other := ne_colon_of_digitValue (isGroup.2.2 char List.mem_cons_self)
      rcases eq_or_ne others [] with rfl | more
      · simpa [joinGroups] using other
      · rw [joinGroups_cons _ more]
        simpa using other

/-- A text that does not begin with a colon is scanned from its first group on. -/
theorem isIpv6_of_head {text : List Char} (head : text.head? ≠ some ':')
    : isIpv6 text = groupsComplete ⟨0, false, 0⟩ text := by
  unfold isIpv6
  split
  · simp at head
  · simp at head
  · rfl

/-- The scanner takes the texts of well-formed addresses and no others. -/
theorem isIpv6_iff (text : List Char)
    : isIpv6 text = true ↔ ∃ spelling : Spelling, spelling.IsWellFormed ∧ spelling.text = text := by
  constructor
  · intro isAddress
    by_cases head : text.head? = some ':'
    · -- a colon in front is the first of two
      obtain ⟨rest, rfl⟩ := List.head?_eq_some_iff.mp head
      cases rest with
      | nil => simp [isIpv6] at isAddress
      | cons char rest =>
          by_cases second : char = ':'
          · subst second
            rcases remains_of_groupsComplete isAddress with ⟨others, areGroups, same, -⟩
              | ⟨front, behind, areFront, areBehind, same, few⟩
            · exact absurd (by rw [same]; rfl) (head_joinGroups areGroups)
            · rcases eq_or_ne front [] with rfl | some
              · rw [elidedRest, if_pos rfl] at same
                refine ⟨.elided [] behind, ⟨by simpa using few, List.forall_mem_nil _, areBehind⟩, ?_⟩
                rw [← same]
                rfl
              · rw [elidedRest, if_neg some] at same
                have first := head_joinGroups areFront
                rw [← List.head?_append_of_ne_nil _ (joinGroups_ne_nil areFront some), same] at first
                exact absurd rfl first
          · unfold isIpv6 at isAddress
            split at isAddress <;> simp_all
    · rw [isIpv6_of_head head] at isAddress
      rcases remains_of_groupsComplete isAddress with ⟨others, areGroups, rfl, eight⟩
        | ⟨front, behind, areFront, areBehind, rfl, few⟩
      · exact ⟨.whole others, ⟨by simpa using eight, areGroups⟩, rfl⟩
      · rcases eq_or_ne front [] with rfl | some
        · rw [elidedRest, if_pos rfl] at head
          exact absurd rfl head
        · refine ⟨.elided front behind, ⟨by simpa using few, areFront, areBehind⟩, ?_⟩
          rw [elidedRest, if_neg some]
          rfl
  · rintro ⟨whole | ⟨front, behind⟩, wellFormed, rfl⟩
    · obtain ⟨eight, areGroups⟩ := wellFormed
      rw [Spelling.text, isIpv6_of_head (head_joinGroups areGroups)]
      exact groupsComplete_joinGroups areGroups (by simpa using eight)
    · obtain ⟨few, areFront, areBehind⟩ := wellFormed
      have complete := @groupsComplete_elidedRest 0 front behind areFront areBehind (by simpa using few)
      rcases eq_or_ne front [] with rfl | nonempty
      · exact complete
      · rw [elidedRest, if_neg nonempty] at complete
        have first : (Spelling.elided front behind).text.head? ≠ some ':' := by
          change (joinGroups front ++ ':' :: ':' :: joinGroups behind).head? ≠ some ':'
          rw [List.head?_append_of_ne_nil _ (joinGroups_ne_nil areFront nonempty)]
          exact head_joinGroups areFront
        rw [isIpv6_of_head first]
        exact complete

-----------------------------------------------------------------------------------------
-- Parts
-----------------------------------------------------------------------------------------

/-- The parts of a text that is made of groups. No groups make one empty part. -/
def partsOf (groups : List (List Char)) : List (List Char) :=
  if groups = [] then [[]] else groups

/-- The parts between the colons of an address. -/
def Spelling.parts : Spelling → List (List Char)
  | .whole groups => groups
  | .elided front behind => partsOf front ++ [] :: partsOf behind

/-- Parts in two rows have a colon between them, by induction on the first row. -/
theorem joinGroups_append {front behind : List (List Char)} (some : front ≠ []) (more : behind ≠ [])
    : joinGroups (front ++ behind) = joinGroups front ++ ':' :: joinGroups behind := by
  induction front with
  | nil => exact absurd rfl some
  | cons first front ih =>
      rcases eq_or_ne front [] with rfl | others
      · have alone : joinGroups [first] = first := List.intercalate_singleton ..
        rw [List.singleton_append, joinGroups_cons first more, alone]
      · rw [List.cons_append, joinGroups_cons first (by simp [others]), ih others,
          joinGroups_cons first others]
        simp

/-- An empty part makes no text. -/
theorem joinGroups_partsOf (groups : List (List Char)) : joinGroups (partsOf groups) = joinGroups groups := by
  rw [partsOf]
  split
  · rename_i nothing
    rw [nothing]
    rfl
  · rfl

theorem partsOf_ne_nil (groups : List (List Char)) : partsOf groups ≠ [] := by
  rw [partsOf]
  split
  · simp
  · assumption

/-- The parts of groups are the groups or empty. -/
theorem mem_partsOf {groups : List (List Char)} {part : List Char} (mem : part ∈ partsOf groups)
    : part ∈ groups ∨ groups = [] ∧ part = [] := by
  rw [partsOf] at mem
  split at mem
  · rename_i nothing
    exact .inr ⟨nothing, List.mem_singleton.mp mem⟩
  · exact .inl mem

/-- The text of an address is split into its parts. -/
theorem splitOn_text {spelling : Spelling} (wellFormed : spelling.IsWellFormed)
    : spelling.text.splitOn ':' = spelling.parts := by
  cases spelling with
  | whole groups =>
      obtain ⟨eight, areGroups⟩ := wellFormed
      have some : groups ≠ [] := by
        rintro rfl
        cases eight
      exact List.splitOn_intercalate ':' (fun group mem => (areGroups group mem).colon_notMem) some
  | elided front behind =>
      obtain ⟨-, areFront, areBehind⟩ := wellFormed
      have joined : (Spelling.elided front behind).text
          = joinGroups (Spelling.elided front behind).parts := by
        rw [Spelling.parts, joinGroups_append (partsOf_ne_nil front) (List.cons_ne_nil _ _),
          joinGroups_cons [] (partsOf_ne_nil behind), joinGroups_partsOf, joinGroups_partsOf]
        rfl
      rw [joined]
      refine List.splitOn_intercalate ':' ?_ (by simp [Spelling.parts])
      intro part mem
      rw [Spelling.parts, List.mem_append, List.mem_cons] at mem
      rcases mem with inFront | rfl | inBehind
      · rcases mem_partsOf inFront with isGroup | ⟨-, rfl⟩
        · exact (areFront part isGroup).colon_notMem
        · exact List.not_mem_nil
      · exact List.not_mem_nil
      · rcases mem_partsOf inBehind with isGroup | ⟨-, rfl⟩
        · exact (areBehind part isGroup).colon_notMem
        · exact List.not_mem_nil

/-- The parts of groups tell the groups. -/
theorem partsOf_injective {groups others : List (List Char)} (noEmpty : [] ∉ groups)
    (noEmpty' : [] ∉ others) (same : partsOf groups = partsOf others)
    : groups = others := by
  unfold partsOf at same
  split at same
  · rename_i nothing
    split at same
    · rename_i nothing'
      rw [nothing, nothing']
    · exact absurd (by simp [← same]) noEmpty'
  · split at same
    · exact absurd (by simp [same]) noEmpty
    · exact same

/-- Groups in front of an empty part are found again. -/
theorem takeWhile_partsOf {front : List (List Char)} (areFront : ∀ group ∈ front, IsGroup group)
    (rest : List (List Char))
    : (partsOf front ++ [] :: rest).takeWhile (· ≠ []) = front := by
  have nonempty : ∀ group ∈ front, decide (group ≠ []) = true := fun group mem =>
    decide_eq_true (areFront group mem).1
  rw [partsOf]
  split
  · rename_i nothing
    rw [nothing]
    simp
  · rw [List.takeWhile_append_of_pos nonempty]
    simp

/-- The same parts make the same address. -/
theorem Spelling.eq_of_parts {spelling other : Spelling} (wellFormed : spelling.IsWellFormed)
    (wellFormed' : other.IsWellFormed) (same : spelling.parts = other.parts)
    : spelling = other := by
  have noEmpty {groups : List (List Char)} (areGroups : ∀ group ∈ groups, IsGroup group)
      : [] ∉ groups := fun mem => (areGroups [] mem).1 rfl
  cases spelling with
  | whole groups =>
      cases other with
      | whole groups' => exact congrArg _ same
      | elided front behind =>
          change groups = partsOf front ++ [] :: partsOf behind at same
          exact absurd (by simp [same]) (noEmpty wellFormed.2)
  | elided front behind =>
      cases other with
      | whole groups =>
          change partsOf front ++ [] :: partsOf behind = groups at same
          exact absurd (by simp [← same]) (noEmpty wellFormed'.2)
      | elided front' behind' =>
          change partsOf front ++ [] :: partsOf behind = partsOf front' ++ [] :: partsOf behind' at same
          obtain ⟨-, areFront, areBehind⟩ := wellFormed
          obtain ⟨-, areFront', areBehind'⟩ := wellFormed'
          have sameFront := congrArg (List.takeWhile (· ≠ [])) same
          rw [takeWhile_partsOf areFront, takeWhile_partsOf areFront'] at sameFront
          subst sameFront
          have sameBehind := (List.cons.inj (List.append_cancel_left same)).2
          rw [partsOf_injective (noEmpty areBehind) (noEmpty areBehind') sameBehind]

-----------------------------------------------------------------------------------------
-- What is compared
-----------------------------------------------------------------------------------------

/-- What an address is expanded to: its groups with the zero groups in front, wherever they are left
out.
-/
theorem ipv6ExpandedValue_text {spelling : Spelling} (wellFormed : spelling.IsWellFormed)
    : ipv6ExpandedValue (.ofList spelling.text) = some spelling.moved := by
  have kept {first : List Char} {rest : List (List Char)} (isGroup : IsGroup first)
      : (first :: rest).dropWhile (· = []) = first :: rest :=
    List.dropWhile_cons_of_neg (by simpa using isGroup.1)
  rw [ipv6ExpandedValue, String.toList_ofList, splitOn_text wellFormed]
  cases spelling with
  | whole groups =>
      obtain ⟨eight, areGroups⟩ := wellFormed
      obtain ⟨first, rest, rfl⟩ := List.exists_cons_of_length_eq_add_one eight
      simp only [Spelling.parts, eight, kept (areGroups first List.mem_cons_self), List.length_map]
      rfl
  | elided front behind =>
      obtain ⟨few, areFront, areBehind⟩ := wellFormed
      cases front with
      | nil =>
          cases behind with
          | nil => rfl
          | cons second behind =>
              have dropped : ([] :: [] :: second :: behind).dropWhile (· = [])
                  = second :: behind :=
                kept (areBehind second List.mem_cons_self)
              have parts : (Spelling.elided [] (second :: behind)).parts
                  = [] :: [] :: second :: behind := rfl
              rw [parts, if_neg (by simp)]
              simp only [dropped, List.length_map]
              rfl
      | cons first front =>
          have parts : (Spelling.elided (first :: front) behind).parts
              = first :: front ++ [] :: partsOf behind := rfl
          have some := List.length_pos_of_ne_nil (partsOf_ne_nil behind)
          have dropped : (first :: front ++ [] :: partsOf behind).dropWhile (· = [])
              = first :: front ++ [] :: partsOf behind :=
            kept (areFront first List.mem_cons_self)
          rw [parts, if_neg (by simp only [List.length_append, List.length_cons]; omega)]
          simp only [dropped, List.length_map]
          cases behind with
          | nil =>
              have count : 8 - (first :: front ++ [] :: partsOf []).length
                  = 6 - (first :: front).length := by
                simp only [partsOf, if_true, List.length_append, List.length_cons, List.length_nil]
                omega
              rw [count, List.map_append, ← List.append_assoc]
              rfl
          | cons second behind =>
              have count : 8 - (first :: front ++ [] :: partsOf (second :: behind)).length
                  = 7 - (first :: front).length - (second :: behind).length := by
                rw [partsOf, if_neg (List.cons_ne_nil _ _)]
                simp only [List.length_append, List.length_cons]
                omega
              rw [count, List.map_append, ← List.append_assoc]
              rfl

/-- Two texts are the same address. -/
def SameAddress (ip pattern : List Char) : Prop :=
  ∃ value, Denotes ip value ∧ Denotes pattern value

/-- A text that is matched with an address is no other spelling of it. The two colons of the texts stand in
other places, so that the groups in front of them are moved to others, or a letter is not written in
the same case; or the groups that are moved are those of another address; or the other text is no
address, but has the same groups behind its first colons.
-/
inductive IsConfused (spelling : Spelling) (pattern : List Char) : Prop where
  | missed (other : Spelling) (wellFormed : other.IsWellFormed) (isText : other.text = pattern)
      (same : other.value = spelling.value) (differ : other.moved ≠ spelling.moved)
  | mistaken (other : Spelling) (wellFormed : other.IsWellFormed) (isText : other.text = pattern)
      (differ : other.value ≠ spelling.value) (same : other.moved = spelling.moved)
  | malformed (noAddress : isIpv6 pattern = false)
      (same : ipv6ExpandedValue (.ofList pattern) = some spelling.moved)

/-- An address has one value. -/
theorem Denotes.unique {text : List Char} {value : List ℕ} (denotes : Denotes text value)
    {spelling : Spelling} (wellFormed : spelling.IsWellFormed) (isText : spelling.text = text)
    : value = spelling.value := by
  obtain ⟨other, wellFormed', isText', rfl⟩ := denotes
  have same : other.parts = spelling.parts := by
    rw [← splitOn_text wellFormed', ← splitOn_text wellFormed, isText, isText']
  rw [Spelling.eq_of_parts wellFormed' wellFormed same]

/-- An address has colons. -/
theorem colon_mem_text {spelling : Spelling} (wellFormed : spelling.IsWellFormed)
    : ':' ∈ spelling.text := by
  cases spelling with
  | whole groups =>
      obtain ⟨eight, -⟩ := wellFormed
      obtain ⟨first, rest, rfl⟩ := List.exists_cons_of_length_eq_add_one eight
      have more : rest ≠ [] := by
        rintro rfl
        cases eight
      rw [Spelling.text, joinGroups_cons first more]
      simp
  | elided front behind => simp [Spelling.text]

/-- The text of an address is matched with the other spellings of the address, and with these only,
exactly if it is not confused.
-/
theorem ipv6MatchLiteral_iff {spelling : Spelling} (wellFormed : spelling.IsWellFormed)
    (pattern : List Char)
    : (ipv6MatchLiteral (.ofList spelling.text) (.ofList pattern) = true
        ↔ SameAddress spelling.text pattern)
      ↔ ¬IsConfused spelling pattern := by
  have matched : ipv6MatchLiteral (.ofList spelling.text) (.ofList pattern) = true
      ↔ ipv6ExpandedValue (.ofList pattern) = some spelling.moved := by
    rw [ipv6MatchLiteral, ipv6ExpandedValue_text wellFormed]
    cases ipv6ExpandedValue (.ofList pattern) with
    | none => simp
    | some expanded => simp [eq_comm]
  have same : SameAddress spelling.text pattern ↔ Denotes pattern spelling.value := by
    constructor
    · rintro ⟨value, denotes, denotes'⟩
      rwa [denotes.unique wellFormed rfl] at denotes'
    · exact fun denotes => ⟨_, ⟨spelling, wellFormed, rfl, rfl⟩, denotes⟩
  rw [matched, same]
  by_cases isAddress : isIpv6 pattern = true
  · obtain ⟨other, wellFormed', rfl⟩ := (isIpv6_iff pattern).mp isAddress
    have value : Denotes other.text spelling.value ↔ other.value = spelling.value := by
      constructor
      · exact fun denotes => (denotes.unique wellFormed' rfl).symm
      · exact fun equal => ⟨other, wellFormed', rfl, equal⟩
    have unique {third : Spelling} (wellFormed'' : third.IsWellFormed) (isText : third.text = other.text)
        : third = other := by
      refine Spelling.eq_of_parts wellFormed'' wellFormed' ?_
      rw [← splitOn_text wellFormed'', ← splitOn_text wellFormed', isText]
    rw [ipv6ExpandedValue_text wellFormed', Option.some_inj, value]
    constructor
    · rintro agree (⟨third, wellFormed'', isText, equal, differ⟩
        | ⟨third, wellFormed'', isText, differ, equal⟩ | ⟨noAddress, -⟩)
      · obtain rfl := unique wellFormed'' isText
        exact differ (agree.mpr equal)
      · obtain rfl := unique wellFormed'' isText
        exact differ (agree.mp equal)
      · rw [isAddress] at noAddress
        cases noAddress
    · intro clear
      constructor
      · intro equal
        by_contra differ
        exact clear (.mistaken other wellFormed' rfl differ equal)
      · intro equal
        by_contra differ
        exact clear (.missed other wellFormed' rfl equal differ)
  · have noAddress : ¬Denotes pattern spelling.value := by
      rintro ⟨other, wellFormed', isText, -⟩
      exact isAddress ((isIpv6_iff pattern).mpr ⟨other, wellFormed', isText⟩)
    rw [iff_false_right noAddress, not_iff_not]
    constructor
    · exact .malformed (by simpa using isAddress)
    · rintro (⟨other, wellFormed', isText, -, -⟩ | ⟨other, wellFormed', isText, -, -⟩ | ⟨-, equal⟩)
      · exact absurd ((isIpv6_iff pattern).mpr ⟨other, wellFormed', isText⟩) isAddress
      · exact absurd ((isIpv6_iff pattern).mpr ⟨other, wellFormed', isText⟩) isAddress
      · exact equal

/-- The groups stand where they are compared: none are left out, or those in front, or one, or two at the
end.
-/
def Spelling.IsPlaced : Spelling → Prop
  | .whole _ | .elided [] _ => True
  | .elided front [] => front.length = 6
  | .elided front behind => front.length + behind.length = 7

/-- Zeros in front of a group leave its value. -/
theorem groupValue_filled (group : List Char) : groupValue (filled group) = groupValue group := by
  have zeros (count : ℕ) : digitsValue 16 (List.replicate count '0' ++ group) = digitsValue 16 group := by
    induction count with
    | zero => rfl
    | succ count ih =>
        rw [List.replicate_succ, List.cons_append]
        exact ih
  rw [groupValue, filled, zeros, groupValue]

/-- Groups that stand where they are compared are those of the address. -/
theorem Spelling.map_groupValue_moved {spelling : Spelling} (placed : spelling.IsPlaced)
    : spelling.moved.map groupValue = spelling.value := by
  have values (groups : List (List Char)) : (groups.map filled).map groupValue = groups.map groupValue := by
    simp [groupValue_filled]
  have zero : groupValue (filled []) = 0 := rfl
  match spelling with
  | .whole groups => exact values groups
  | .elided [] behind => simp [moved, value, values, zero]
  | .elided (first :: front) [] =>
      have six : (first :: front).length = 6 := placed
      have two : 8 - (first :: front).length = 2 := by omega
      have none : 6 - (first :: front).length = 0 := by omega
      simp only [moved, value, none, List.length_nil, Nat.sub_zero, two, List.map_append, values]
      simp [zero, List.replicate]
  | .elided (first :: front) (second :: behind) =>
      have seven : (first :: front).length + (second :: behind).length = 7 := placed
      have one : 8 - (first :: front).length - (second :: behind).length = 1 := by omega
      have none : 7 - (first :: front).length - (second :: behind).length = 0 := by omega
      simp only [moved, value, one, none, List.map_append, values, List.map_cons]
      simp [zero, groupValue_filled]

/-- Two addresses whose groups stand where they are compared are not mistaken for each other. -/
theorem Spelling.value_eq_of_moved {spelling other : Spelling} (placed : spelling.IsPlaced)
    (placed' : other.IsPlaced) (same : other.moved = spelling.moved)
    : other.value = spelling.value := by
  rw [← map_groupValue_moved placed, ← map_groupValue_moved placed', same]

/-- A text without dots is matched with the spellings of the address that it is, and with nothing if it
is none, exactly if it is not confused.
-/
theorem matchesIpv6_iff (unfit : UInt32) {ip : String} (noDot : '.' ∉ ip.toList) (pattern : String)
    : (matchesString unfit ip pattern = true ↔ SameAddress ip.toList pattern.toList)
      ↔ ∀ spelling : Spelling, spelling.IsWellFormed → spelling.text = ip.toList →
        ¬IsConfused spelling pattern.toList := by
  by_cases isAddress : isIpv6 ip.toList = true
  · obtain ⟨spelling, wellFormed, isText⟩ := (isIpv6_iff ip.toList).mp isAddress
    have colon : ':' ∈ ip.toList := isText ▸ colon_mem_text wellFormed
    have isVersion : version ip = .ipv6 := by simp [version, noDot, colon, isAddress]
    have literal := ipv6MatchLiteral_iff wellFormed pattern.toList
    rw [isText, String.ofList_toList, String.ofList_toList] at literal
    simp only [matchesString, isVersion]
    rw [literal]
    constructor
    · intro clear other wellFormed' isText'
      have same : other = spelling := by
        refine Spelling.eq_of_parts wellFormed' wellFormed ?_
        rw [← splitOn_text wellFormed', ← splitOn_text wellFormed, isText, isText']
      rwa [same]
    · exact fun clear => clear spelling wellFormed isText
  · have isVersion : version ip = .null := by simp [version, noDot, isAddress]
    have noSpelling (spelling : Spelling) (wellFormed : spelling.IsWellFormed)
        : spelling.text ≠ ip.toList := fun isText =>
      isAddress ((isIpv6_iff ip.toList).mpr ⟨spelling, wellFormed, isText⟩)
    have noAddress : ¬SameAddress ip.toList pattern.toList := by
      rintro ⟨value, ⟨spelling, wellFormed, isText, -⟩, -⟩
      exact noSpelling spelling wellFormed isText
    simp only [matchesString, isVersion]
    refine iff_of_true (iff_of_false (by simp) noAddress) ?_
    exact fun spelling wellFormed isText => absurd isText (noSpelling spelling wellFormed)

/-- The address of the test is matched with all its groups. -/
theorem matchesIpv6_iff_loopback
    : (matchesString 0 "::1" "0000:0000:0000:0000:0000:0000:0000:0001" = true
        ↔ SameAddress "::1".toList "0000:0000:0000:0000:0000:0000:0000:0001".toList)
      ↔ ∀ spelling : Spelling, spelling.IsWellFormed → spelling.text = "::1".toList →
        ¬IsConfused spelling "0000:0000:0000:0000:0000:0000:0000:0001".toList :=
  matchesIpv6_iff 0 (by decide) "0000:0000:0000:0000:0000:0000:0000:0001"

/-- An address whose groups are left out behind others is not matched with all its groups. -/
theorem not_matches_elidedBehind
    : matchesString 0 "1::2" "1:0:0:0:0:0:0:2" = false
      ∧ SameAddress "1::2".toList "1:0:0:0:0:0:0:2".toList := by
  refine ⟨by decide, [1, 0, 0, 0, 0, 0, 0, 2], ?_, ?_⟩
  · exact ⟨.elided [['1']] [['2']], ⟨by decide, by decide, by decide⟩,
      by decide, by decide⟩
  · exact ⟨.whole [['1'], ['0'], ['0'], ['0'], ['0'], ['0'], ['0'], ['2']],
      ⟨by decide, by decide⟩, by decide, by decide⟩

end WiredServer.Ip
