import CrowdwizChain.Chain.Evaluator
import CrowdwizChain.Lib.Roster
import Mathlib.Data.List.Sort

/-!
# The teams of the Great Race

The operations of `greatrace_evaluator.cpp` on teams: a captain makes a team and deletes it again,
invites players and removes them; a player accepts an invitation, and leaves. Most of it is only
possible in the intervals in which there is no race.

Who is in a team is written down twice, in the team and in the account. `Database.teamOf` and
`Database.rosterOf` are the two copies, and each operation is told by what it does to them.
-/

namespace CrowdwizChain

open Option Function

/-! ### Operations -/

/-- The number of bytes of a short string when it is packed. -/
def packSize (s : List Char) : Nat := s.length + if s.length < 128 then 1 else 2

/-- `gr_team_create_operation` -/
structure GrTeamCreateOperation where
  fee : Asset
  captain : AccountId
  name : List Char
  description : List Char
  logo : List Char

/-- `gr_team_create_operation::validate` -/
def GrTeamCreateOperation.validate (op : GrTeamCreateOperation) : Bool :=
  0 ≤ op.fee.amount ∧ packSize op.name < 65 ∧ packSize op.description < 257 ∧ packSize op.logo < 257

/-- `gr_team_delete_operation` -/
structure GrTeamDeleteOperation where
  fee : Asset
  captain : AccountId
  team : Nat

/-- `gr_team_delete_operation::validate` -/
def GrTeamDeleteOperation.validate (op : GrTeamDeleteOperation) : Bool := 0 ≤ op.fee.amount

/-- `gr_invite_send_operation`, `gr_player_remove_operation` and `gr_team_leave_operation`, which
have the same fields. -/
structure GrPlayerOperation where
  fee : Asset
  captain : AccountId
  player : AccountId
  team : Nat

/-- `gr_invite_send_operation::validate`, `gr_player_remove_operation::validate` and
`gr_team_leave_operation::validate` -/
def GrPlayerOperation.validate (op : GrPlayerOperation) : Bool :=
  0 ≤ op.fee.amount ∧ op.captain ≠ op.player

/-- `gr_invite_accept_operation` -/
structure GrInviteAcceptOperation where
  fee : Asset
  captain : AccountId
  player : AccountId
  team : Nat
  invite : Nat

/-- `gr_invite_accept_operation::validate` -/
def GrInviteAcceptOperation.validate (op : GrInviteAcceptOperation) : Bool := 0 ≤ op.fee.amount

/-- The intervals of start, rest and finish, in which teams may change and be deleted. -/
def isRestInterval (interval : Nat) : Bool := interval ∈ [1, 3, 5, 7, 8, 10, 12, 14]

/-- `players.insert`, for a `flat_set`. -/
def insertPlayer (players : List AccountId) (a : AccountId) : List AccountId :=
  if a ∈ players then players else players.orderedInsert (· ≤ ·) a

namespace Database

/-- The account has no team any more. -/
def resetTeam (db : Database) (a : AccountId) : Option Database :=
  (db.accounts.find a).map fun _ =>
    { db with accounts := db.accounts.modify a fun acc => { acc with grTeam := none } }

/-! ### Teams -/

/-- `gr_team_create_evaluator::do_evaluate` -/
def grTeamCreateEvaluate (op : GrTeamCreateOperation) (db : Database) : Bool :=
  hardforkCwd7Time ≤ db.headBlockTime ∧ db.currentGrInterval = 1 ∧
    (db.accounts.find op.captain).any fun captain =>
      (db.statistics.lookup op.captain).any fun captainStats =>
        db.greatraceParameters.minTeamStatus ≤ captain.referralStatusType ∧
          db.greatraceParameters.minTeamVolume ≤ captainStats.lastPeriodGr ∧
          (db.grTeams.inOrder.all fun e => e.2.captain ≠ op.captain) ∧
          captain.grTeam = none ∧
          (op.name ≠ [] → db.grTeams.inOrder.all fun e => e.2.name ≠ op.name)

/-- `gr_team_create_evaluator::do_apply`. The indices by name and by captain do not take two teams
with the same name, not even an empty one, or with the same captain. -/
def grTeamCreateApply (op : GrTeamCreateOperation) (db : Database) : Option Database :=
  (db.accounts.find op.captain).bind fun _ =>
    if db.grTeams.inOrder.all fun e => e.2.name ≠ op.name ∧ e.2.captain ≠ op.captain then
      some { db with
        grTeams := db.grTeams.create
          { name := op.name, description := op.description, logo := op.logo, captain := op.captain }
        accounts := db.accounts.modify op.captain fun a =>
          { a with grTeam := some db.grTeams.nextId } }
    else none

/-- A new team. -/
def grTeamCreate (db : Database) (op : GrTeamCreateOperation) : Option Database :=
  if op.validate then
    db.applyOperation op.captain op.fee (grTeamCreateEvaluate op) (grTeamCreateApply op)
  else none

/-- `gr_team_delete_evaluator::do_evaluate` -/
def grTeamDeleteEvaluate (op : GrTeamDeleteOperation) (db : Database) : Bool :=
  hardforkCwd7Time ≤ db.headBlockTime ∧ isRestInterval db.currentGrInterval ∧
    (db.grTeams.find op.team).any fun team => team.captain = op.captain

/-- `gr_team_delete_evaluator::do_apply` -/
def grTeamDeleteApply (op : GrTeamDeleteOperation) (db : Database) : Option Database :=
  (db.grTeams.find op.team).bind fun team =>
    ((op.captain :: team.players).foldlM resetTeam db).map fun db =>
      { db with grTeams := db.grTeams.remove op.team }

/-- A team goes. -/
def grTeamDelete (db : Database) (op : GrTeamDeleteOperation) : Option Database :=
  if op.validate then
    db.applyOperation op.captain op.fee (grTeamDeleteEvaluate op) (grTeamDeleteApply op)
  else none

/-! ### Invitations -/

/-- `gr_invite_send_evaluator::do_evaluate` -/
def grInviteSendEvaluate (op : GrPlayerOperation) (db : Database) : Bool :=
  hardforkCwd7Time ≤ db.headBlockTime ∧ (db.accounts.find op.player).any fun player =>
      isRestInterval db.currentGrInterval ∧ (db.grTeams.find op.team).any fun team =>
          team.captain = op.captain ∧ team.players.length < 11 ∧ op.player ∉ team.players ∧
            player.grTeam = none

/-- `gr_invite_send_evaluator::do_apply` -/
def grInviteSendApply (op : GrPlayerOperation) (db : Database) : Option Database :=
  some { db with grInvites := db.grInvites.create ⟨op.captain, op.player, op.team⟩ }

/-- An invitation. -/
def grInviteSend (db : Database) (op : GrPlayerOperation) : Option Database :=
  if op.validate then
    db.applyOperation op.captain op.fee (grInviteSendEvaluate op) (grInviteSendApply op)
  else none

/-- `gr_invite_accept_evaluator::do_evaluate`. The interval is not looked at. -/
def grInviteAcceptEvaluate (op : GrInviteAcceptOperation) (db : Database) : Bool :=
  hardforkCwd7Time ≤ db.headBlockTime ∧ (db.grTeams.find op.team).any fun team =>
      (db.grInvites.find op.invite).any fun invite =>
        (db.accounts.find op.player).any fun player =>
          invite.player = op.player ∧ invite.team = op.team ∧ team.captain = op.captain ∧
            op.player ∉ team.players ∧ team.players.length < 11 ∧ player.grTeam = none

/-- `gr_invite_accept_evaluator::do_apply` -/
def grInviteAcceptApply (op : GrInviteAcceptOperation) (db : Database) : Option Database :=
  (db.grTeams.find op.team).bind fun _ =>
    (db.grInvites.find op.invite).bind fun _ =>
      (db.accounts.find op.player).map fun _ =>
        { db with
          grTeams := db.grTeams.modify op.team fun t =>
            { t with players := insertPlayer t.players op.player }
          accounts := db.accounts.modify op.player fun a => { a with grTeam := some op.team }
          grInvites := db.grInvites.remove op.invite }

/-- An invitation is accepted. -/
def grInviteAccept (db : Database) (op : GrInviteAcceptOperation) : Option Database :=
  if op.validate then
    db.applyOperation op.player op.fee (grInviteAcceptEvaluate op) (grInviteAcceptApply op)
  else none

/-! ### Players leave -/

/-- `gr_player_remove_evaluator::do_evaluate` and `gr_team_leave_evaluator::do_evaluate` -/
def grTeamLeaveEvaluate (op : GrPlayerOperation) (db : Database) : Bool :=
  hardforkCwd7Time ≤ db.headBlockTime ∧ isRestInterval db.currentGrInterval ∧
    (db.grTeams.find op.team).any fun team =>
      (db.accounts.find op.player).any fun player =>
        op.player ∈ team.players ∧ (player.grTeam.all fun t => t = op.team) ∧
          team.captain = op.captain

/-- `gr_player_remove_evaluator::do_apply` and `gr_team_leave_evaluator::do_apply` -/
def grTeamLeaveApply (op : GrPlayerOperation) (db : Database) : Option Database :=
  (db.grTeams.find op.team).bind fun _ =>
    (db.resetTeam op.player).map fun db =>
      { db with
        grTeams := db.grTeams.modify op.team fun t =>
          { t with players := t.players.erase op.player } }

/-- The captain removes a player. -/
def grPlayerRemove (db : Database) (op : GrPlayerOperation) : Option Database :=
  if op.validate then
    db.applyOperation op.captain op.fee (grTeamLeaveEvaluate op) (grTeamLeaveApply op)
  else none

/-- A player leaves. -/
def grTeamLeave (db : Database) (op : GrPlayerOperation) : Option Database :=
  if op.validate then
    db.applyOperation op.player op.fee (grTeamLeaveEvaluate op) (grTeamLeaveApply op)
  else none

/-! ### The two copies of who is in a team -/

/-- The team of an account, as the account has it. -/
def teamOf (db : Database) (a : AccountId) : Option Nat :=
  (db.accounts.find a).bind Account.grTeam

end Database

/-- The captain and the players of a team. -/
def GrTeam.roster (t : GrTeam) : AccountId × List AccountId := (t.captain, t.players)

namespace Database

/-- Who is in a team, as the team has it. -/
def rosterOf (db : Database) (t : Nat) : Option (AccountId × List AccountId) :=
  (db.grTeams.find t).map GrTeam.roster

end Database

/-! ### The race, without volumes and ranks -/

/-- What the teams and the bets of the race depend on: the clock, who is in which team,
and the bets. -/
@[ext]
structure RaceView where
  headBlockTime : Nat
  parameters : GreatraceParameters
  interval : Nat
  nextTime : Nat
  betTime : Nat
  /-- the captain and the players of a team -/
  roster : Nat → Option (AccountId × List AccountId)
  teamOf : AccountId → Option Nat
  rangeBets : Nat → Option GrRangeBet
  teamBets : Nat → Option GrTeamBet

namespace Database

/-- The race in a database. -/
def raceView (db : Database) : RaceView where
  headBlockTime := db.headBlockTime
  parameters := db.greatraceParameters
  interval := db.currentGrInterval
  nextTime := db.nextGrIntervalTime
  betTime := db.grBetIntervalTime
  roster := db.rosterOf
  teamOf := db.teamOf
  rangeBets := db.grRangeBets.find
  teamBets := db.grTeamBets.find

/-- What no operation on teams changes: the clock of the race and the bets. -/
structure TeamFrame (db db' : Database) : Prop where
  raceView_eq : db'.raceView = { db.raceView with roster := db'.rosterOf, teamOf := db'.teamOf }

variable {db db' : Database}

theorem teamOf_modify (t : Option Nat) {a : AccountId} (ha : (db.accounts.find a).isSome) :
    teamOf { db with accounts := db.accounts.modify a fun acc => { acc with grTeam := t } } =
      update db.teamOf a t := by
  obtain ⟨acc, hacc⟩ := isSome_iff_exists.1 ha
  funext b
  rw [update_apply, teamOf, Table.find_modify]
  split
  · rw [hacc]
    rfl
  · rfl

theorem TeamFrame.refl (db : Database) : db.TeamFrame db := ⟨rfl⟩

theorem TeamFrame.trans {db'' : Database} (h : db.TeamFrame db') (h' : db'.TeamFrame db'') :
    db.TeamFrame db'' := by
  constructor
  rw [h'.raceView_eq, h.raceView_eq]

/-! ### What the operations do -/

theorem grTeamCreate_eq_some {op : GrTeamCreateOperation} (h : db.grTeamCreate op = some db') :
    db.TeamFrame db' ∧ db.currentGrInterval = 1 ∧ db.teamOf op.captain = none ∧
      db'.teamOf = update db.teamOf op.captain (some db.grTeams.nextId) ∧
        db'.grTeams = db.grTeams.create
        { name := op.name, description := op.description, logo := op.logo,
          captain := op.captain } := by
  obtain ⟨-, coreFee, db1, m, -, hev, h1, -, rfl⟩ := operation_eq_some h
  obtain ⟨captain, hcaptain, h1⟩ := bind_eq_some_iff.1 h1
  obtain ⟨-, h1⟩ := ite_none_right_eq_some.1 h1
  cases h1
  simp only [grTeamCreateEvaluate, any_eq_true, decide_eq_true_eq] at hev
  obtain ⟨-, hinterval, captain', hcaptain', stats, -, -, -, -, hteam, -⟩ := hev
  refine ⟨⟨rfl⟩, hinterval, ?_, ?_, rfl⟩
  · rw [teamOf, hcaptain']
    exact hteam
  · exact teamOf_modify _ (isSome_iff_exists.2 ⟨captain, hcaptain⟩)

/-- Some accounts lose their team, one after another. -/
theorem foldlM_resetTeam {l : List AccountId} (h : l.foldlM resetTeam db = some db') :
    db.TeamFrame db' ∧ db'.grTeams = db.grTeams ∧ ∀ a, db'.teamOf a = if a ∈ l then none
      else db.teamOf a := by
  induction l generalizing db with
  | nil =>
    obtain rfl := some.inj h
    exact ⟨TeamFrame.refl db, rfl, fun a => by simp⟩
  | cons b l ih =>
    obtain ⟨db1, h1, h⟩ := bind_eq_some_iff.1 h
    obtain ⟨acc, hacc, rfl⟩ := map_eq_some_iff.1 h1
    obtain ⟨hframe, hteams, hteamOf⟩ := ih h
    refine ⟨TeamFrame.trans ?_ hframe, hteams, fun a => ?_⟩
    · exact ⟨rfl⟩
    · rw [hteamOf a, teamOf_modify none (isSome_iff_exists.2 ⟨acc, hacc⟩), update_apply]
      by_cases hl : a ∈ l
      · simp [hl]
      · by_cases hb : a = b <;> simp [hl, hb]

theorem grTeamDelete_eq_some {op : GrTeamDeleteOperation} (h : db.grTeamDelete op = some db') :
    db.TeamFrame db' ∧ isRestInterval db.currentGrInterval ∧
      db'.grTeams = db.grTeams.remove op.team ∧ ∃ team, db.grTeams.find op.team = some team ∧
        (∀ a, a = team.captain ∨ a ∈ team.players → db'.teamOf a = none) ∧
        ∀ a, ¬(a = team.captain ∨ a ∈ team.players) → db'.teamOf a = db.teamOf a := by
  obtain ⟨-, coreFee, db1, m, -, hev, h1, -, rfl⟩ := operation_eq_some h
  obtain ⟨team, hteam, h1⟩ := bind_eq_some_iff.1 h1
  obtain ⟨db2, h2, rfl⟩ := map_eq_some_iff.1 h1
  obtain ⟨hframe, hteams, hteamOf⟩ := foldlM_resetTeam h2
  simp only [grTeamDeleteEvaluate, any_eq_true, decide_eq_true_eq] at hev
  obtain ⟨-, hrest, team', hteam', hcaptain⟩ := hev
  cases hteam.symm.trans hteam'
  have hcrew : ∀ a, a ∈ op.captain :: team.players ↔ a = team.captain ∨ a ∈ team.players := by
    intro a
    rw [List.mem_cons, ← hcaptain]
  refine ⟨.trans ⟨hframe.raceView_eq⟩ ⟨rfl⟩, hrest, congrArg (Table.remove · op.team) hteams, team,
    hteam,
    fun a ha => ?_, fun a ha => ?_⟩
  · exact (hteamOf a).trans (if_pos ((hcrew a).2 ha))
  · exact (hteamOf a).trans (if_neg fun hmem => ha ((hcrew a).1 hmem))

theorem grInviteSend_eq_some {op : GrPlayerOperation} (h : db.grInviteSend op = some db') :
    db.TeamFrame db' ∧ db'.teamOf = db.teamOf ∧ db'.grTeams = db.grTeams := by
  obtain ⟨-, coreFee, db1, m, -, -, h1, -, rfl⟩ := operation_eq_some h
  cases h1
  exact ⟨⟨rfl⟩, rfl, rfl⟩

theorem grInviteAccept_eq_some {op : GrInviteAcceptOperation}
    (h : db.grInviteAccept op = some db') :
    db.TeamFrame db' ∧ db.teamOf op.player = none ∧
      db'.teamOf = update db.teamOf op.player (some op.team) ∧
      db'.grTeams = db.grTeams.modify op.team
        (fun t => { t with players := insertPlayer t.players op.player }) ∧
      ∃ team, db.grTeams.find op.team = some team ∧ team.players.length < 11 := by
  obtain ⟨-, coreFee, db1, m, -, hev, h1, -, rfl⟩ := operation_eq_some h
  obtain ⟨team, hteam, h1⟩ := bind_eq_some_iff.1 h1
  obtain ⟨invite, hinvite, h1⟩ := bind_eq_some_iff.1 h1
  obtain ⟨player, hplayer, rfl⟩ := map_eq_some_iff.1 h1
  simp only [grInviteAcceptEvaluate, any_eq_true, decide_eq_true_eq] at hev
  obtain ⟨-, team', hteam', invite', -, player', hplayer', -, -, -, -, hfull, hnone⟩ := hev
  refine ⟨⟨rfl⟩, ?_, ?_, rfl, team', hteam', hfull⟩
  · rw [teamOf, hplayer']
    exact hnone
  · exact teamOf_modify _ (isSome_iff_exists.2 ⟨player, hplayer⟩)

/-- A player is removed or leaves: the two operations differ in who pays. -/
theorem applyLeave_eq_some {payer : AccountId} {op : GrPlayerOperation}
    (h : db.applyOperation payer op.fee (grTeamLeaveEvaluate op) (grTeamLeaveApply op) = some db') :
    db.TeamFrame db' ∧ db'.teamOf = update db.teamOf op.player none ∧
      db'.grTeams = db.grTeams.modify op.team
      (fun t => { t with players := t.players.erase op.player }) ∧
      ∃ team, db.grTeams.find op.team = some team ∧ op.player ∈ team.players := by
  obtain ⟨coreFee, db1, m, -, hev, h1, -, rfl⟩ := applyOperation_eq_some h
  obtain ⟨team, hteam, h1⟩ := bind_eq_some_iff.1 h1
  obtain ⟨db2, h2, rfl⟩ := map_eq_some_iff.1 h1
  obtain ⟨player, hplayer, rfl⟩ := map_eq_some_iff.1 h2
  simp only [grTeamLeaveEvaluate, any_eq_true, decide_eq_true_eq] at hev
  obtain ⟨-, -, team', hteam', player', -, hmem, -⟩ := hev
  exact ⟨⟨rfl⟩, teamOf_modify _ (isSome_iff_exists.2 ⟨player, hplayer⟩), rfl, team', hteam', hmem⟩

end Database

end CrowdwizChain
