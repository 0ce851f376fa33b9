import WiredServer.Server.Servers

/-! The totals of a tracker count its active servers in every run in which no server registers from an
address that it knows as inactive, and the sums fit into the totals.
-/

namespace WiredServer.Server

/-- What a server that is known counts for: nothing if it is not active. -/
def TrackedServer.weight (total : TrackerTotal) (server : TrackedServer) : ℕ :=
  if server.active then (server.count total).toNat else 0

namespace Tracker

/-- The sum over the active servers; their number, for the total of the servers. -/
def activeTotal (state : Tracker) (total : TrackerTotal) : ℕ :=
  state.servers.total (TrackedServer.weight total)

/-- The sum over the active servers under other addresses. -/
def othersTotal (state : Tracker) (ip : String) (total : TrackerTotal) : ℕ :=
  state.servers.totalWithout (TrackedServer.weight total) ip

/-- The totals are the sums over the active servers, and were never below what was subtracted. -/
structure CountsServers (state : Tracker) : Prop where
  totals : ∀ total, (state.current total).toNat = state.activeTotal total
  above : state.belowZero = false

/-- The totals are the sums over the active servers but the one under an address. -/
structure CountsOthers (state : Tracker) (ip : String) : Prop where
  totals : ∀ total, (state.current total).toNat = state.othersTotal ip total
  above : state.belowZero = false

/-- The sums over the active servers fit into the totals with a server under an address. -/
def HasRoom (state : Tracker) (ip : String) (server : TrackedServer) : Prop :=
  ∀ total, state.othersTotal ip total + (server.count total).toNat < 2 ^ 64

/-- Every server is known under its own address. -/
def IsKeyed (state : Tracker) : Prop :=
  ∀ ip server, state.servers.row ip = some server → server.ip = ip

/-- An update from an address leaves the sums small enough, if there is an active server. -/
def UpdateFits (state : Tracker) (ip : String) (now : Date) (message : SendUpdate) : Prop :=
  ∀ server, state.servers.row ip = some server → server.active = true →
    state.HasRoom ip (server.updated now message)

end Tracker

/-- An action that is carried out does not register a server from an address that is known as inactive,
and leaves the sums small enough for the totals.
-/
def TrackerAction.KeepsTotals : TrackerAction → Tracker → Prop
  | .sendRegister enableTracker _ _ user message, state =>
      enableTracker = true → user.account.boolean .trackerRegisterServers = true →
        (∀ server, state.servers.row user.ip = some server → server.active = true)
        ∧ state.HasRoom user.ip (.ofMessage user.ip message)
  | .sendUpdate enableTracker now user message, state =>
      enableTracker = true → user.account.boolean .trackerRegisterServers = true →
        state.UpdateFits user.ip now message
  | .receiveUpdate enableTracker now ip message, state =>
      enableTracker = true → state.UpdateFits ip now message
  | .restart, _ | .updateServers .., _ => True

namespace Tracker

variable {state : Tracker} {server : TrackedServer} {ip : String}

section Totals

/-- Servers that are loaded count for nothing. -/
theorem countsServers_loadServers (database : KeyedTable String StoredServer)
    : (loadServers database).CountsServers where
  totals total := by
    refine (KeyedTable.total_eq_zero _ _ fun ip server here => ?_).symm
    obtain ⟨row, -, rfl⟩ := Option.map_eq_some_iff.mp here
    rfl
  above := rfl

/-- Taking a server away leaves the others, if it counts. -/
theorem CountsServers.removeStatsForServer (counts : state.CountsServers)
    (here : state.servers.row ip = some server) (active : server.active = true)
    : (state.removeStatsForServer server).CountsOthers ip := by
  have whole : ∀ total, state.othersTotal ip total + (server.count total).toNat
      = (state.current total).toNat := by
    intro total
    have split := state.servers.totalWithout_add_weightAt (TrackedServer.weight total) ip
    rw [state.servers.weightAt_of_row _ here, TrackedServer.weight, if_pos active] at split
    exact split.trans (counts.totals total).symm
  have room : ∀ total, server.count total ≤ state.current total := by
    intro total
    rw [UInt64.le_iff_toNat_le, ← whole total]
    exact Nat.le_add_left _ _
  constructor
  · intro total
    show (state.current total - server.count total).toNat = state.othersTotal ip total
    rw [UInt64.toNat_sub_of_le _ _ (room total), ← whole total, Nat.add_sub_cancel]
  · have none : ¬∃ total, state.current total < server.count total :=
      fun ⟨total, less⟩ => UInt64.not_lt.mpr (room total) less
    simp [Tracker.removeStatsForServer, counts.above, none]

/-- Without an active server under an address, the others are all. -/
theorem CountsServers.countsOthers (counts : state.CountsServers)
    (inactive : ∀ server, state.servers.row ip = some server → server.active = false)
    : state.CountsOthers ip where
  totals total := by
    have light : state.servers.weightAt (TrackedServer.weight total) ip = 0 := by
      cases here : state.servers.row ip with
      | none => rw [KeyedTable.weightAt, here, Option.elim_none]
      | some server =>
          rw [state.servers.weightAt_of_row _ here, TrackedServer.weight, inactive server here]
          rfl
    have split := state.servers.totalWithout_add_weightAt (TrackedServer.weight total) ip
    rw [light, add_zero] at split
    exact (counts.totals total).trans split.symm
  above := counts.above

/-- Removing the server itself leaves the others. -/
theorem CountsOthers.removeServer (others : state.CountsOthers server.ip)
    : (state.removeServer server).CountsOthers server.ip where
  totals total :=
    (others.totals total).trans (state.servers.totalWithout_delete _ server.ip).symm
  above := others.above

/-- An active server that is added is counted exactly if there is room for it. -/
theorem CountsOthers.countsServers_iff (others : state.CountsOthers server.ip)
    (active : server.active = true)
    : ((state.addServer server).addStatsForServer server).CountsServers
      ↔ state.HasRoom server.ip server := by
  have after : ∀ total, ((state.addServer server).addStatsForServer server).activeTotal total
      = (state.current total).toNat + (server.count total).toNat := by
    intro total
    rw [others.totals total]
    refine (state.servers.total_put _ server.ip server).trans ?_
    rw [TrackedServer.weight, if_pos active, othersTotal]
  have counted : ∀ total,
      (((state.addServer server).addStatsForServer server).current total).toNat
          = ((state.addServer server).addStatsForServer server).activeTotal total
        ↔ state.othersTotal server.ip total + (server.count total).toNat < 2 ^ 64 := by
    intro total
    rw [after total, ← others.totals total]
    exact UInt64.toNat_add_eq_iff _ _
  constructor
  · exact fun counts total => (counted total).mp (counts.totals total)
  · exact fun room => ⟨fun total => (counted total).mpr (room total), others.above⟩

/-- An inactive server that is added is not counted. -/
theorem CountsOthers.addServer (others : state.CountsOthers server.ip)
    (inactive : server.active = false)
    : (state.addServer server).CountsServers where
  totals total := by
    refine (others.totals total).trans (Eq.symm ?_)
    refine (state.servers.total_put _ server.ip server).trans ?_
    rw [TrackedServer.weight, inactive]
    rfl
  above := others.above

end Totals

section Steps

/-- Storing a server in the database changes no total. -/
@[simp]
theorem countsServers_storeServer (server : TrackedServer)
    : (state.storeServer server).CountsServers ↔ state.CountsServers :=
  ⟨fun counts => ⟨counts.totals, counts.above⟩, fun counts => ⟨counts.totals, counts.above⟩⟩

/-- An inactive server that is taken away, when it registers again, is missing from then on. -/
theorem CountsServers.not_register_inactive (counts : state.CountsServers)
    {existing : TrackedServer} (here : state.servers.row server.ip = some existing)
    (same : existing.ip = server.ip) (inactive : existing.active = false)
    (active : server.active = true)
    : ¬((((state.removeServer existing).removeStatsForServer existing).addServer
        server).addStatsForServer server).CountsServers := by
  intro after
  have before := counts.totals .servers
  have light := state.servers.totalWithout_add_weightAt (TrackedServer.weight .servers) server.ip
  rw [state.servers.weightAt_of_row _ here, TrackedServer.weight, inactive] at light
  have whole := after.totals .servers
  have heavy : activeTotal ((((state.removeServer existing).removeStatsForServer existing).addServer
      server).addStatsForServer server) .servers = state.activeTotal .servers + 1 := by
    refine (KeyedTable.total_put _ _ _ server).trans ?_
    rw [TrackedServer.weight, if_pos active]
    show (state.servers.delete existing.ip).totalWithout _ server.ip + 1 = _
    rw [same, KeyedTable.totalWithout_delete]
    exact congrArg (· + 1) light
  have kept : ((((state.removeServer existing).removeStatsForServer existing).addServer
      server).addStatsForServer server).current .servers = state.current .servers :=
    UInt64.sub_add_cancel _ 1
  rw [kept, heavy, before] at whole
  omega

/-- A registration keeps the totals right exactly if the address has no inactive server, and there is
room for the new one.
-/
theorem CountsServers.registerServer_iff (counts : state.CountsServers) (keyed : state.IsKeyed)
    (categories : List String) (now : Date) (user : TrackerUser) (message : SendRegister)
    : (state.registerServer categories now user message).CountsServers
      ↔ (∀ server, state.servers.row user.ip = some server → server.active = true)
        ∧ state.HasRoom user.ip (.ofMessage user.ip message) := by
  rw [registerServer, countsServers_storeServer]
  let server := TrackedServer.registered categories now user message
  have room : state.HasRoom user.ip (.ofMessage user.ip message)
      ↔ state.HasRoom server.ip server :=
    forall_congr' fun total => by cases total <;> rfl
  rw [room]
  change (((state.removeExistingServer user.ip).addServer server).addStatsForServer
    server).CountsServers ↔ _
  cases here : state.servers.row user.ip with
  | none =>
      have others : state.CountsOthers server.ip := counts.countsOthers fun _ other => by
        rw [show state.servers.row server.ip = none from here] at other
        cases other
      rw [removeExistingServer, here]
      exact (others.countsServers_iff rfl).trans (by simp)
  | some existing =>
      have same : existing.ip = server.ip := keyed _ _ here
      rw [removeExistingServer, here]
      cases active : existing.active with
      | false =>
          refine iff_of_false (counts.not_register_inactive here same active rfl) fun both => ?_
          have contra := both.1 existing rfl
          rw [active] at contra
          cases contra
      | true =>
          have taken : (state.removeStatsForServer existing).CountsOthers existing.ip :=
            same ▸ counts.removeStatsForServer here active
          -- The server is removed first, which changes nothing for the totals.
          have others : ((state.removeServer existing).removeStatsForServer existing).CountsOthers
              server.ip :=
            same ▸ taken.removeServer
          refine (others.countsServers_iff rfl).trans ?_
          have kept : ((state.removeServer existing).removeStatsForServer existing).HasRoom server.ip
              server ↔ state.HasRoom server.ip server := by
            refine forall_congr' fun total => ?_
            show (state.servers.delete existing.ip).totalWithout _ server.ip + _ < _ ↔ _
            rw [same, KeyedTable.totalWithout_delete, othersTotal]
          rw [kept, and_iff_right fun _ other => Option.some.inj other ▸ active]

/-- An update keeps the totals right exactly if the new numbers fit into them. -/
theorem CountsServers.updateServer_iff (counts : state.CountsServers) (keyed : state.IsKeyed)
    (ip : String) (now : Date) (message : SendUpdate)
    : (state.updateServer ip now message).2.CountsServers ↔ state.UpdateFits ip now message := by
  unfold updateServer
  cases here : state.servers.row ip with
  | none =>
      refine iff_of_true counts fun server other => ?_
      rw [here] at other
      cases other
  | some server =>
      cases active : server.active with
      | false =>
          simp only [Bool.false_eq_true, if_false, active]
          refine iff_of_true counts fun other same isActive => ?_
          rw [here] at same
          rw [← Option.some.inj same, active] at isActive
          cases isActive
      | true =>
          have own : server.ip = ip := keyed ip server here
          have others : (state.removeStatsForServer server).CountsOthers
              (server.updated now message).ip :=
            own.symm ▸ counts.removeStatsForServer here active
          simp only [if_true, active]
          refine (others.countsServers_iff active).trans ?_
          constructor
          · intro room other same _
            rw [here] at same
            rw [← Option.some.inj same, ← own]
            exact room
          · intro fits
            exact own.symm ▸ fits server here active

/-- A server that is not heard of any more is taken away. -/
theorem CountsServers.expireServer (counts : state.CountsServers) (keyed : state.IsKeyed) (now : Date)
    (ip : String)
    : (state.expireServer now ip).CountsServers := by
  unfold Tracker.expireServer
  cases here : state.servers.row ip with
  | none => exact counts
  | some server =>
      simp only
      split_ifs with expired
      · have active := (Bool.and_eq_true_iff.mp expired).1
        have others := counts.removeStatsForServer here active
        rw [← keyed ip server here] at others
        have inactive : ({ server with active := false } : TrackedServer).active = false := rfl
        refine CountsOthers.addServer ?_ inactive
        exact others
      · exact counts

end Steps

section Keys

/-- A server is put under its own address. -/
theorem IsKeyed.addServer (keyed : state.IsKeyed) (server : TrackedServer)
    : (state.addServer server).IsKeyed := by
  intro ip other here
  have split := (state.servers.row_put server.ip ip server).symm.trans here
  split_ifs at split with same
  · cases split
    exact same.symm
  · exact keyed ip other split

/-- Removing a server leaves the others under their addresses. -/
theorem IsKeyed.removeServer (keyed : state.IsKeyed) (server : TrackedServer)
    : (state.removeServer server).IsKeyed := by
  intro ip other here
  have split := (state.servers.row_delete server.ip ip).symm.trans here
  split_ifs at split
  exact keyed ip other split

/-- A registration puts the server under its address. -/
theorem IsKeyed.registerServer (keyed : state.IsKeyed) (categories : List String) (now : Date)
    (user : TrackerUser) (message : SendRegister)
    : (state.registerServer categories now user message).IsKeyed := by
  have removed : (state.removeExistingServer user.ip).IsKeyed := by
    unfold removeExistingServer
    cases state.servers.row user.ip with
    | none => exact keyed
    | some existing => exact keyed.removeServer existing
  exact removed.addServer _

/-- An update keeps the address. -/
theorem IsKeyed.updateServer (keyed : state.IsKeyed) (ip : String) (now : Date) (message : SendUpdate)
    : (state.updateServer ip now message).2.IsKeyed := by
  unfold Tracker.updateServer
  cases state.servers.row ip with
  | none => exact keyed
  | some server =>
      simp only
      split_ifs
      · exact IsKeyed.addServer keyed _
      · exact keyed

/-- The timer keeps the addresses. -/
theorem IsKeyed.expireServer (keyed : state.IsKeyed) (now : Date) (ip : String)
    : (state.expireServer now ip).IsKeyed := by
  unfold Tracker.expireServer
  cases state.servers.row ip with
  | none => exact keyed
  | some server =>
      simp only
      split_ifs
      · exact IsKeyed.addServer keyed _
      · exact keyed

/-- Servers are loaded under their addresses. -/
theorem isKeyed_loadServers (database : KeyedTable String StoredServer)
    : (loadServers database).IsKeyed := by
  intro ip server here
  obtain ⟨row, -, rfl⟩ := Option.map_eq_some_iff.mp here
  rfl

/-- The timer keeps the addresses, in whichever order it goes through the servers. -/
theorem IsKeyed.updateServers (keyed : state.IsKeyed) (now : Date) (ips : List String)
    : (state.updateServers now ips).IsKeyed := by
  unfold Tracker.updateServers
  induction ips generalizing state with
  | nil => exact keyed
  | cons ip ips ih => exact ih (keyed.expireServer now ip)

/-- The timer keeps the totals right, in whichever order it goes through the servers. -/
theorem CountsServers.updateServers (counts : state.CountsServers) (keyed : state.IsKeyed)
    (now : Date) (ips : List String)
    : (state.updateServers now ips).CountsServers := by
  unfold Tracker.updateServers
  induction ips generalizing state with
  | nil => exact counts
  | cons ip ips ih => exact ih (counts.expireServer keyed now ip) (keyed.expireServer now ip)

end Keys

end Tracker

namespace TrackerAction

open Tracker

variable {action : TrackerAction} {state next : Tracker}

/-- Every action keeps the servers under their addresses. -/
theorem isKeyed_step (stepped : action.step state = some next) (keyed : state.IsKeyed)
    : next.IsKeyed := by
  cases action with
  | restart =>
      cases stepped
      exact isKeyed_loadServers _
  | sendRegister enableTracker categories now user message =>
      cases stepped
      rw [sendRegister_snd]
      split_ifs
      · exact keyed.registerServer categories now user message
      · exact keyed
  | sendUpdate enableTracker now user message =>
      cases stepped
      rw [sendUpdate_snd]
      split_ifs
      · exact keyed.updateServer user.ip now message
      · exact keyed
  | receiveUpdate enableTracker now ip message =>
      cases stepped
      rw [receiveUpdate_snd]
      split_ifs
      · exact keyed.updateServer ip now message
      · exact keyed
  | updateServers now ips =>
      obtain ⟨-, rfl⟩ := step_updateServers.mp stepped
      exact keyed.updateServers now ips

/-- An action keeps the totals right exactly if it meets the condition. -/
theorem countsServers_step_iff (stepped : action.step state = some next) (keyed : state.IsKeyed)
    (counts : state.CountsServers)
    : next.CountsServers ↔ action.KeepsTotals state := by
  cases action with
  | restart =>
      cases stepped
      exact iff_of_true (countsServers_loadServers _) trivial
  | sendRegister enableTracker categories now user message =>
      cases stepped
      rw [sendRegister_snd, KeepsTotals]
      split_ifs with accepted
      · rw [counts.registerServer_iff keyed categories now user message]
        exact ⟨fun fits _ _ => fits, fun fits => fits accepted.1 accepted.2⟩
      · exact iff_of_true counts fun enabled privileged => absurd ⟨enabled, privileged⟩ accepted
  | sendUpdate enableTracker now user message =>
      cases stepped
      rw [sendUpdate_snd, KeepsTotals]
      split_ifs with accepted
      · rw [counts.updateServer_iff keyed user.ip now message]
        exact ⟨fun fits _ _ => fits, fun fits => fits accepted.1 accepted.2⟩
      · exact iff_of_true counts fun enabled privileged => absurd ⟨enabled, privileged⟩ accepted
  | receiveUpdate enableTracker now ip message =>
      cases stepped
      rw [receiveUpdate_snd, KeepsTotals]
      split_ifs with enabled
      · rw [counts.updateServer_iff keyed ip now message]
        exact ⟨fun fits _ => fits, fun fits => fits enabled⟩
      · exact iff_of_true counts fun enabled' => absurd enabled' enabled
  | updateServers now ips =>
      obtain ⟨-, rfl⟩ := step_updateServers.mp stepped
      exact iff_of_true (counts.updateServers keyed now ips) trivial

/-- The totals count the active servers in every state of a run exactly if every action of it meets the
condition.
-/
theorem countsServers_iff_keepsTotals {database : KeyedTable String StoredServer}
    {actions : List TrackerAction} {last : Tracker}
    (ran : Machine.run step actions (loadServers database) = some last)
    : Machine.Meets step (fun action state => ∀ next, action.step state = some next →
          next.CountsServers) actions (loadServers database)
      ↔ Machine.Meets step KeepsTotals actions (loadServers database) := by
  have same : ∀ action state next, state.IsKeyed ∧ state.CountsServers →
      step action state = some next →
      ((∀ next, action.step state = some next → next.CountsServers)
        ↔ action.KeepsTotals state) := by
    intro action state next before stepped
    have here := countsServers_step_iff stepped before.1 before.2
    rw [← here, stepped]
    exact ⟨fun always => always next rfl, fun counts _ equal => Option.some.inj equal ▸ counts⟩
  have kept : ∀ action state next, action.KeepsTotals state →
      state.IsKeyed ∧ state.CountsServers → step action state = some next →
      next.IsKeyed ∧ next.CountsServers := fun action state next keeps before stepped =>
    ⟨isKeyed_step stepped before.1, (countsServers_step_iff stepped before.1 before.2).mpr keeps⟩
  exact Machine.meets_iff_meets_of_run same kept ran
    ⟨isKeyed_loadServers database, countsServers_loadServers database⟩

section Registration

/-- A server at an address, which may register. -/
def registeringUser : TrackerUser where
  ip := "192.0.2.1"
  isIpv6 := false
  cipher := none
  account := Account.empty.set .trackerRegisterServers true

/-- Its registration. -/
def registration : SendRegister where
  tracker := some false
  category := ""
  ip := none
  port := some 4871
  users := some 3
  name := "Server"
  description := ""
  filesCount := some 20
  filesSize := some 4096

/-- A tracker that has never seen a server counts the first one that registers. -/
theorem countsServers_first
    : Machine.Meets step (fun action state => ∀ next, action.step state = some next →
          next.CountsServers) [.sendRegister true [] 0 registeringUser registration]
        (loadServers .empty) := by
  have keeps : KeepsTotals (.sendRegister true [] 0 registeringUser registration)
      (loadServers .empty) := by
    intro _ _
    refine ⟨fun server here => ?_, fun total => ?_⟩
    · cases here
    · have others : (loadServers .empty).othersTotal registeringUser.ip total = 0 := by
        simp [othersTotal, KeyedTable.totalWithout, loadServers, KeyedTable.empty]
      rw [others]
      cases total <;> decide
  obtain ⟨last, ran⟩ : ∃ last, Machine.run step
      [.sendRegister true [] 0 registeringUser registration] (loadServers .empty) = some last :=
    ⟨_, rfl⟩
  exact (countsServers_iff_keepsTotals ran).mpr ⟨keeps, fun _ _ => trivial⟩

/-- A server that the tracker has loaded from its database registers again: the total of the servers
goes below zero, and stays zero with an active server.
-/
theorem not_countsServers_loaded
    : ∃ last, Machine.run step [.sendRegister true [] 0 registeringUser registration]
        (loadServers (KeyedTable.empty.put "192.0.2.1" { port := 4871, cipher := none })) = some last
      ∧ last.belowZero = true ∧ last.current .servers = 0
      ∧ (last.servers.row "192.0.2.1").any (·.active) = true ∧ ¬last.CountsServers :=
  ⟨_, rfl, by decide, by decide, by decide, fun counts => absurd counts.above (by decide)⟩

end Registration

end TrackerAction

end WiredServer.Server
