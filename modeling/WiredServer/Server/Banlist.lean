import Mathlib
import WiredServer.Base.Ip

/-! The decision whether an address is banned. The loop over the bans calls the matcher with its
arguments swapped, keeps what the last ban says, and leaves the caller's date alone at a ban that
never expires. Its answer is right exactly when the bans that are literally the address decide
like all that match.
-/

namespace WiredServer.Server

/-- A point in time, in microseconds. -/
abbrev Date := ℤ

/-- The column with the expiration date of a ban: it is NULL, or a text with the date that
`wi_date_with_sqlite3_string` reads from it, if it is one.
-/
inductive Expiration where
  | never
  | on (date : Option Date)
  deriving DecidableEq, Repr

/-- A row of the table `banlist`. -/
structure Ban where
  ip : String
  expiration : Expiration
  deriving DecidableEq, Repr

/-- `wi_date_valid_expiration_date`. -/
def validExpirationDate (now : Date) : Option Date → Bool
  | none => false
  | some date => date - now > 0

/-- `STRFTIME('%%s', expiration_date)` as a number: two percent signs give one, so it is the text
`%s` for every date, which counts as zero.
-/
def Expiration.seconds : Expiration → Option ℤ
  | .on (some _) => some 0
  | _ => none

/-- The statement that should delete the expired bans, with the same text for the present. -/
def deleteExpired (bans : List Ban) : List Ban :=
  bans.filter fun ban => !ban.expiration.seconds.any fun seconds => 0 - seconds > 0

section Search

-- `unfit` is what converting a number that does not fit gives; `live` says whether a SELECT that
-- is running notices that a row ahead of it was deleted, which SQLite leaves open.
variable (unfit : UInt32) (live : Bool) (now : Date) (ip : String)

/-- The variables of the loop of `wd_banlist_ip_is_banned`, and whether it has deleted the ban of
the address.
-/
structure Search where
  banned : Bool
  expirationDate : Option Date
  deleted : Bool
  deriving DecidableEq, Repr

/-- The call of the matcher: the text of the ban stands where the address belongs. -/
def isLiteral (ban : Ban) : Bool :=
  Ip.matchesString unfit ban.ip ip

/-- What the loop does with a row. -/
def visitBan (search : Search) (ban : Ban) : Search :=
  if isLiteral unfit ip ban then
    match ban.expiration with
    | .on date =>
        if validExpirationDate now date then
          { search with banned := true, expirationDate := date }
        else { banned := false, expirationDate := none, deleted := true }
    | .never => { search with banned := true }
  else search

/-- The loop over the rows that the SELECT returns. -/
def searchBans (search : Search) : List Ban → Search
  | [] => search
  | ban :: bans =>
      if live && search.deleted && ban.ip = ip then searchBans search bans
      else searchBans (visitBan unfit now ip search ban) bans

/-- `wd_banlist_ip_is_banned`: its answer, the date it stores for the caller and the bans that it
leaves in the table. `initial` is the date that the caller's variable holds before.
-/
def ipIsBanned (initial : Option Date) (bans : List Ban) : Bool × Option Date × List Ban :=
  let bans := deleteExpired bans
  let search := searchBans unfit live now ip ⟨false, initial, false⟩ bans
  (search.banned, search.expirationDate,
    if search.deleted then bans.filter (·.ip ≠ ip) else bans)

end Search

/-- The statement deletes nothing. -/
theorem deleteExpired_eq (bans : List Ban)
    : deleteExpired bans = bans := by
  apply List.filter_eq_self.mpr
  intro ban _
  cases expiration : ban.expiration with
  | never => rfl
  | on date => cases date <;> rfl

/-- A ban that has not expired. -/
def Ban.isActive (now : Date) (ban : Ban) : Bool :=
  match ban.expiration with
  | .never => true
  | .on date => validExpirationDate now date

/-- The expiration date of a ban. A ban without one that is active never expires. -/
def Ban.date (ban : Ban) : Option Date :=
  match ban.expiration with
  | .never => none
  | .on date => date

section Decision

variable (unfit : UInt32) (live : Bool) (now : Date) (ip : String)

/-- A ban that has not expired and has a pattern that matches the address. -/
def Ban.Applies (ban : Ban) : Prop :=
  Ip.matchesString unfit ip ban.ip = true ∧ ban.isActive now = true

/-- What the answer should be: the address is banned iff some ban applies, and the date is that of
one which does.
-/
structure DecidesRightly (initial : Option Date) (bans : List Ban) : Prop where
  banned : (ipIsBanned unfit live now ip initial bans).1 = true
    ↔ ∃ ban ∈ bans, ban.Applies unfit now ip
  date : (ipIsBanned unfit live now ip initial bans).1 = true
    → ∃ ban ∈ bans, ban.Applies unfit now ip
      ∧ ban.date = (ipIsBanned unfit live now ip initial bans).2.1

/-- The rows that are literally the address, among those that the SELECT returns: once such a row
has expired, a row with the very text of the address may be gone.
-/
def literalBans (deleted : Bool) : List Ban → List Ban
  | [] => []
  | ban :: bans =>
      if live && deleted && ban.ip = ip then literalBans deleted bans
      else if isLiteral unfit ip ban then
        ban :: literalBans (deleted || !ban.isActive now) bans
      else literalBans deleted bans

/-- The date that bans leave to the caller: that of the last one which is not permanent. -/
def dateLeft (initial : Option Date) (bans : List Ban) : Option Date :=
  match (bans.filter (·.expiration ≠ .never)).getLast? with
  | some ban => if ban.isActive now then ban.date else none
  | none => initial

/-- The bans that are literally the address decide like all that match. -/
def LiteralsDecide (initial : Option Date) (bans : List Ban) : Prop :=
  let literals := literalBans unfit live now ip false bans
  if literals.getLast?.any (Ban.isActive now) then
    ∃ ban ∈ bans, ban.Applies unfit now ip ∧ ban.date = dateLeft now initial literals
  else ∀ ban ∈ bans, ¬ban.Applies unfit now ip

end Decision

section Loop

variable {unfit : UInt32} {live : Bool} {now : Date} {ip : String}

/-- A ban that is not literally the address changes nothing. -/
theorem visitBan_other {ban : Ban} (other : isLiteral unfit ip ban = false) (search : Search)
    : visitBan unfit now ip search ban = search := by
  rw [visitBan, other]
  rfl

/-- A literal ban decides, and leaves its date unless it is permanent. -/
theorem visitBan_literal {ban : Ban} (literal : isLiteral unfit ip ban = true) (search : Search)
    : visitBan unfit now ip search ban
      = { banned := ban.isActive now
          expirationDate := dateLeft now search.expirationDate [ban]
          deleted := search.deleted || !ban.isActive now } := by
  rcases ban with ⟨text, expiration⟩
  cases expiration with
  | never => simp [visitBan, literal, Ban.isActive, dateLeft]
  | on date =>
      cases valid : validExpirationDate now date <;>
        simp [visitBan, literal, Ban.isActive, dateLeft, Ban.date, valid]

/-- The dates of more bans go over the dates of the first. -/
theorem dateLeft_cons (initial : Option Date) (ban : Ban) (bans : List Ban)
    : dateLeft now (dateLeft now initial [ban]) bans = dateLeft now initial (ban :: bans) := by
  by_cases permanent : ban.expiration = .never
  · simp [dateLeft, permanent]
  · have first : [ban].filter (·.expiration ≠ .never) = [ban] := by simp [permanent]
    have all : (ban :: bans).filter (·.expiration ≠ .never)
        = ban :: bans.filter (·.expiration ≠ .never) := List.filter_cons_of_pos (by simpa)
    simp only [dateLeft, first, all, List.getLast?_cons]
    cases (bans.filter (·.expiration ≠ .never)).getLast? <;> rfl

/-- The loop keeps what the last literal ban says, by induction on the rows. -/
theorem searchBans_eq (bans : List Ban) (search : Search)
    : (searchBans unfit live now ip search bans).banned
        = ((literalBans unfit live now ip search.deleted bans).getLast?.map
          (Ban.isActive now)).getD search.banned
      ∧ (searchBans unfit live now ip search bans).expirationDate
        = dateLeft now search.expirationDate
          (literalBans unfit live now ip search.deleted bans) := by
  induction bans generalizing search with
  | nil => exact ⟨rfl, rfl⟩
  | cons ban bans ih =>
      rw [searchBans, literalBans]
      split_ifs with hidden literal
      · exact ih search
      · obtain ⟨banned, date⟩ := ih (visitBan unfit now ip search ban)
        rw [visitBan_literal literal] at banned date ⊢
        rw [banned, date, dateLeft_cons]
        refine ⟨?_, rfl⟩
        rw [List.getLast?_cons]
        cases (literalBans unfit live now ip (search.deleted || !ban.isActive now) bans).getLast? <;>
          rfl
      · rw [visitBan_other (Bool.eq_false_of_not_eq_true literal)]
        exact ih search

/-- The answer is what the last literal ban says, with the date that they leave. -/
theorem ipIsBanned_eq (initial : Option Date) (bans : List Ban)
    : (ipIsBanned unfit live now ip initial bans).1
        = (literalBans unfit live now ip false bans).getLast?.any (Ban.isActive now)
      ∧ (ipIsBanned unfit live now ip initial bans).2.1
        = dateLeft now initial (literalBans unfit live now ip false bans) := by
  obtain ⟨banned, date⟩ := searchBans_eq  bans ⟨false, initial, false⟩
  rw [ipIsBanned, deleteExpired_eq]
  refine ⟨banned.trans ?_, date⟩
  cases (literalBans unfit live now ip false bans).getLast? <;> rfl

end Loop

/-- The decision is right exactly when the literal bans decide like all that match. -/
theorem decidesRightly_iff (unfit : UInt32) (live : Bool) (now : Date) (ip : String)
    (initial : Option Date) (bans : List Ban)
    : DecidesRightly unfit live now ip initial bans
      ↔ LiteralsDecide unfit live now ip initial bans := by
  obtain ⟨banned, date⟩ := ipIsBanned_eq 
    initial bans
  rw [LiteralsDecide]
  constructor
  · intro right
    have sound := right.banned
    have dated := right.date
    rw [banned] at sound dated
    rw [date] at dated
    split_ifs with active
    · exact dated active
    · intro ban listed applies
      exact active (sound.mpr ⟨ban, listed, applies⟩)
  · intro decide
    split_ifs at decide with active
    · obtain ⟨ban, listed, applies, same⟩ := decide
      exact ⟨by rw [banned]; exact ⟨fun _ => ⟨ban, listed, applies⟩, fun _ => active⟩,
        fun _ => ⟨ban, listed, applies, by rw [date]; exact same⟩⟩
    · refine ⟨?_, fun answer => absurd (banned ▸ answer) active⟩
      rw [banned]
      refine ⟨fun answer => absurd answer active, ?_⟩
      intro ⟨ban, listed, applies⟩
      exact absurd applies (decide ban listed)

/-- A ban with a wildcard does not ban the addresses that it matches. -/
theorem not_decidesRightly_wildcard
    : ¬DecidesRightly 0 true 0 "192.168.1.2" none [⟨"192.168.*.*", .never⟩] := by
  intro right
  have applies : (⟨"192.168.*.*", .never⟩ : Ban).Applies 0 0 "192.168.1.2" := by
    unfold Ban.Applies
    decide
  have banned := right.banned.mpr ⟨_, .head _, applies⟩
  exact absurd banned (by decide)

end WiredServer.Server
