import CrowdwizChain.Chain.RaceBet

/-!
# The intervals of the Great Race

The part of `database::perform_chain_maintenance` that turns the clock of the race, with the
routines of `db_maint.cpp` that it calls. The race goes through fourteen intervals and starts over:
a start, three races with rests between them, a break of two intervals, three more races, and the
finish. At the end of a race interval the best three teams are rewarded and the bets are settled; at
the end of each half the teams get their ranks, and the rewards of the ranks; at the start of the
next race the players of the best team become the apostles.

While the routines run, the dynamic properties still have the interval that ends; the new
interval and the new times are entered last. Loops that walk along an index of the teams do not
change what the index is sorted by.
-/

namespace CrowdwizChain

open Option Table

/-- `GRAPHENE_APOSTOLOS_ACCOUNT` -/
def grapheneApostolosAccount : AccountId := 65735

/-- The first apostles, of `init_gr_race`. -/
def firstApostles : List AccountId := [32, 35, 37, 66, 105, 176, 429, 733, 3559]

/-- The volumes of a team start over. -/
def GrTeam.resetVolumes (t : GrTeam) : GrTeam :=
  { t with
    grIntervalVolume := fun _ => 0
    firstHalfVolume := 0
    secondHalfVolume := 0
    totalVolume := 0 }

namespace Database

/-! ### Rewards for the best three -/

/-- `database::proceed_gr_top3` -/
def proceedGrTop3 (db : Database) : Option Database :=
  if isGrInterval db.currentGrInterval then
    let volume : GrTeam → Int := (·.grIntervalVolume db.currentGrInterval)
    let teams := db.teamsBy volume
    if 3 ≤ teams.length then
      let best := (teams.reverse.take 3).filter fun e => 0 < volume e.2
      (db.adjustBalances (best.map fun e => (e.2.captain, .core db.grTop3Reward))).bind fun db =>
        db.modifyCore fun c =>
          { c with currentSupply := c.currentSupply + db.grTop3Reward * best.length }
    else some db
  else some db

/-- `database::clear_gr_invite` -/
def clearGrInvite (db : Database) : Database := { db with grInvites := db.grInvites.clear }

/-! ### Ranks -/

/-- `database::reset_gr_rank` -/
def resetGrRank (db : Database) : Database :=
  { db with
    accounts := db.accounts.modifyAll fun a => { a with lastGrRank := 0 }
    grTeams := db.grTeams.modifyAll fun t => { t with lastGrRank := 0 } }

/-- An account gets a rank. -/
def setGrRank (rank : Nat) (db : Database) (a : AccountId) : Option Database :=
  (db.accounts.find a).map fun _ =>
    { db with accounts := db.accounts.modify a fun acc => { acc with lastGrRank := rank } }

/-- `database::assign_gr_rank_to_team` -/
def assignGrRankToTeam (reward : Int) (rank : Nat) (db : Database) (id : Nat) : Option Database :=
  (db.grTeams.find id).bind fun team =>
    (setGrRank rank { db with grTeams := db.grTeams.modify id fun t =>
      { t with lastGrRank := rank } } team.captain).bind fun db =>
      (db.adjustBalance team.captain (.core reward)).bind fun db =>
        team.players.foldlM (setGrRank rank) db

/-- The volume that the ranks go by: that of the half which ends with the interval. -/
def rankVolume (db : Database) : Option (GrTeam → Int) :=
  if db.currentGrInterval = 7 then some GrTeam.firstHalfVolume
  else if db.currentGrInterval = 14 then some GrTeam.secondHalfVolume
  else none

/-- The teams that `database::assign_gr_rank` walks along: those from one volume up to
another, or up to the end for the rank of the masters. A loop that starts behind its end
does not come to an end. -/
def rankedTeams (db : Database) (volume : GrTeam → Int) (start stop : Int) (rank : Nat) :
    Option (List Nat) :=
  let teams := db.teamsBy volume
  let first := (teams.takeWhile fun e => volume e.2 < start).length
  let last := if rank = 7 then teams.length else (teams.takeWhile fun e => volume e.2 < stop).length
  if first ≤ last then some (((teams.drop first).take (last - first)).map Prod.fst) else none

/-- `database::assign_gr_rank`, and the rewards added up. -/
def assignGrRank (db : Database) (start stop : Int) (reward : Int) (rank : Nat) :
    Option (Database × Int) :=
  match db.rankVolume with
  | none => some (db, 0)
  | some volume =>
    (db.rankedTeams volume start stop rank).bind fun ids =>
      (ids.foldlM (assignGrRankToTeam reward rank) db).map fun db => (db, reward * ids.length)

/-- The ranks, with where the volumes of each of them end. -/
def rankRanges (db : Database) : List (Nat × GrRank × Int) :=
  [(1, .iron, db.grVolume .bronze - 1), (2, .bronze, db.grVolume .silver - 1),
    (3, .silver, db.grVolume .gold - 1), (4, .gold, db.grVolume .platinum - 1),
    (5, .platinum, db.grVolume .diamond - 1), (6, .diamond, db.grVolume .master - 1),
    (7, .master, 0)]

/-- One rank after another. -/
def assignGrRanks : List (Nat × GrRank × Int) → Database × Int → Option (Database × Int)
  | [], st => some st
  | (rank, r, stop) :: l, (db, total) =>
    (db.assignGrRank (db.grVolume r) stop (db.grReward r) rank).bind fun (db, rewards) =>
      assignGrRanks l (db, total + rewards)

/-- The elite: the masters among the best ten teams. -/
def assignElite : List Nat → Database × Int → Option (Database × Int)
  | [], st => some st
  | id :: l, (db, total) =>
    if (db.grTeams.find id).any fun t => t.lastGrRank = 7 then
      (assignGrRankToTeam (db.grReward .elite) 8 db id).bind fun db =>
        assignElite l (db, total + db.grReward .elite)
    else assignElite l (db, total)

/-- The best ten teams, if there are that many. -/
def bestTen (db : Database) : List Nat :=
  match db.rankVolume with
  | none => []
  | some volume =>
    let teams := db.teamsBy volume
    if 10 ≤ teams.length then (teams.reverse.take 10).map Prod.fst else []

/-- `database::proceed_gr_rank` -/
def proceedGrRank (db : Database) : Option Database :=
  let db := db.resetGrRank
  (assignGrRanks db.rankRanges (db, 0)).bind fun (db, total) =>
    (assignElite db.bestTen (db, total)).bind fun (db, total) =>
      db.modifyCore fun c => { c with currentSupply := c.currentSupply + total }

/-! ### Apostles -/

/-- An account becomes an apostle. -/
def setApostolos (db : Database) (a : AccountId) : Option Database :=
  (db.accounts.find a).map fun _ =>
    { db with accounts := db.accounts.modify a fun acc => { acc with apostolos := true } }

/-- `database::init_gr_race`; the authorities of the account of the apostles are left out. -/
def initGrRace (db : Database) : Option Database :=
  (firstApostles.foldlM setApostolos db).bind fun db =>
    (db.accounts.find grapheneApostolosAccount).map fun _ => db

/-- `database::proceed_apostolos`; the authorities of the account of the apostles are left out. -/
def proceedApostolos (db : Database) : Option Database :=
  let db : Database :=
    { db with accounts := db.accounts.modifyAll fun a => { a with apostolos := false } }
  match (db.teamsBy GrTeam.totalVolume).reverse with
  | [] => some db
  | e :: _ =>
    ((e.2.captain :: e.2.players).foldlM setApostolos db).bind fun db =>
      if hardforkCwd7Time ≤ db.headBlockTime then
        (db.accounts.find grapheneApostolosAccount).map fun _ => db
      else some db

/-! ### Volumes and votes -/

/-- `database::reset_gr_volumes` -/
def resetGrVolumes (db : Database) : Database :=
  { db with
    grTeams := db.grTeams.modifyAll fun t => if 1 ≤ t.totalVolume then t.resetVolumes else t }

/-- `database::perform_gr_maintenance` -/
def performGrMaintenance (db : Database) : Database :=
  { db with
    statistics := db.statistics.mapValues fun s =>
      if 0 < s.lastPeriodGr ∨ 0 < s.currentPeriodGr then
        { s with lastPeriodGr := s.currentPeriodGr, currentPeriodGr := 0 }
      else s }

/-- `database::count_gr_votes` -/
def countGrVotes (db : Database) : Database :=
  let votes : List GrVotes := db.grVotes.inOrder.map Prod.snd
  if votes = [] then db
  else
    { db with
      grVolume := fun r => ((votes.map fun v : GrVotes => v.volume r).sum).tdiv votes.length
      grReward := fun r => ((votes.map fun v : GrVotes => v.reward r).sum).tdiv votes.length
      grVotes := db.grVotes.clear }

/-! ### The clock -/

/-- The end of an interval: what is done, in the interval that ends. -/
def intervalWork (db : Database) : Option Database :=
  let n := db.currentGrInterval
  if n = 0 ∨ n = 14 then
    (if n = 0 then db.initGrRace else some db).bind fun db =>
      db.proceedGrRank.bind fun db =>
        db.proceedApostolos.map fun db => db.resetGrVolumes.performGrMaintenance
  else if isGrInterval (n + 1) then some db.clearGrInvite
  else if isGrInterval n then db.proceedGrTop3.bind proceedGrBets
  else if n = 7 then db.proceedGrRank.map performGrMaintenance
  else some db

/-- A number of days from the time at which the interval ends. -/
def grTimeAfter (db : Database) (days : Nat) : Nat :=
  timePointSec db.nextGrIntervalTime (days * secondsPerDay)

/-- The end of an interval: the next one, and its times. -/
def advanceClock (db : Database) : Database :=
  let n := db.currentGrInterval
  let p := db.greatraceParameters
  if n = 0 ∨ n = 14 then
    { db with
      currentGrInterval := 1
      grVoteIsActive := true
      nextGrIntervalTime := db.grTimeAfter (p.interval 1)
      endGrVoteTime := timePointSec db.headBlockTime p.voteDuration }
  else if isGrInterval (n + 1) then
    { db with
      currentGrInterval := n + 1
      grBetIntervalTime := db.grTimeAfter (p.interval (n + 1) / 2)
      nextGrIntervalTime := db.grTimeAfter (p.interval (n + 1)) }
  else if n < 14 then
    { db with
      currentGrInterval := n + 1
      nextGrIntervalTime := db.grTimeAfter (p.interval (n + 1)) }
  else db

/-- One percent as a `share_type`: the number `0.01` of the source is converted to `int64_t`. -/
def hardcupPercent : Int := 0

/-- The interval ends with this block. Between two hardforks the race stands still, and later on
also while the supply may be at its limit. -/
def raceIsDue (db : Database) : Bool :=
  db.nextGrIntervalTime ≤ db.headBlockTime ∧
    (db.headBlockTime < hardforkCore144Time ∨ hardforkCore1482BlockNum < db.headBlockNum) ∧
    (db.assets.find 0).any fun core =>
      ¬(hardforkCore1482BlockNum < db.headBlockNum ∧
        core.maxSupply < core.currentSupply + core.maxSupply * hardcupPercent)

/-- The state in which the maintenance calls `proceed_gr_bets`, if it does. -/
def callsBets (db : Database) : Option Database :=
  if db.raceIsDue ∧ isGrInterval db.currentGrInterval then db.proceedGrTop3 else none

/-- The part of `database::perform_chain_maintenance` about the race, after the head
has moved on. -/
def raceMaintenance (db : Database) : Option Database :=
  (if db.raceIsDue then db.intervalWork.map advanceClock else some db).map fun db =>
    if db.endGrVoteTime ≤ db.headBlockTime ∧ db.grVoteIsActive then
      { db.countGrVotes with grVoteIsActive := false }
    else db

end Database

/-! ### The race, without volumes and ranks -/

namespace RaceView

/-- A number of days from the time at which the interval ends. -/
def timeAfter (v : RaceView) (days : Nat) : Nat := timePointSec v.nextTime (days * secondsPerDay)

/-- All bets are gone. -/
def settled (v : RaceView) : RaceView :=
  { v with rangeBets := fun _ => none, teamBets := fun _ => none }

/-- The end of an interval. Bets are settled at the end of a race. -/
def advance (v : RaceView) : RaceView :=
  let n := v.interval
  let v := if isGrInterval n then v.settled else v
  if n = 0 ∨ n = 14 then
    { v with interval := 1, nextTime := v.timeAfter (v.parameters.interval 1) }
  else if isGrInterval (n + 1) then
    { v with
      interval := n + 1
      betTime := v.timeAfter (v.parameters.interval (n + 1) / 2)
      nextTime := v.timeAfter (v.parameters.interval (n + 1)) }
  else if n < 14 then
    { v with interval := n + 1, nextTime := v.timeAfter (v.parameters.interval (n + 1)) }
  else v

end RaceView

namespace Database

variable {db db' : Database} {a : AccountId} {rank : Nat} {total : Int}

/-- The race and the votes stay as they are: what the ranks and the rewards do. -/
structure RaceFrame (db db' : Database) : Prop where
  raceView_eq : db'.raceView = db.raceView
  grVotes : db'.grVotes = db.grVotes

theorem RaceFrame.refl (db : Database) : db.RaceFrame db := ⟨rfl, rfl⟩

theorem RaceFrame.trans {db'' : Database} (h : db.RaceFrame db') (h' : db'.RaceFrame db'') :
    db.RaceFrame db'' := ⟨h'.raceView_eq.trans h.raceView_eq, h'.grVotes.trans h.grVotes⟩

theorem raceFrame_foldlM {α : Type*} {f : Database → α → Option Database}
    (hf : ∀ {d a d'}, f d a = some d' → d.RaceFrame d') {l : List α}
    (h : l.foldlM f db = some db') : db.RaceFrame db' :=
  Transition.foldlM_rel RaceFrame.refl RaceFrame.trans hf h

theorem raceFrame_modifyCore {f : AssetObject → AssetObject} (h : db.modifyCore f = some db') :
    db.RaceFrame db' := by
  obtain ⟨c, -, rfl⟩ := modifyCore_eq_some h
  exact ⟨rfl, rfl⟩

theorem raceFrame_proceedGrTop3 (h : db.proceedGrTop3 = some db') : db.RaceFrame db' := by
  rw [proceedGrTop3] at h
  split at h
  · dsimp only at h
    split at h
    · obtain ⟨db1, h1, h⟩ := bind_eq_some_iff.1 h
      obtain ⟨m, -, rfl⟩ := adjustBalances_eq_some h1
      have hframe := raceFrame_modifyCore h
      exact ⟨hframe.raceView_eq, hframe.grVotes⟩
    · exact some.inj h ▸ RaceFrame.refl db
  · exact some.inj h ▸ RaceFrame.refl db

/-! #### Ranks and apostles -/

theorem raceFrame_members (db : Database) {accounts : Table Account} {grTeams : Table GrTeam}
    (h : (fun a => (accounts.find a).map Account.grTeam) = fun a =>
    (db.accounts.find a).map Account.grTeam)
    (hteams : (fun t => (grTeams.find t).map GrTeam.roster) = db.rosterOf) :
    db.RaceFrame { db with accounts, grTeams } := by
  have hteamOf : (fun a => (accounts.find a).bind Account.grTeam) = db.teamOf := by
    funext a
    rw [teamOf, ← Function.id_comp Account.grTeam, ← bind_map, congrFun h a, bind_map]
  exact ⟨congrArg₂ (fun f g => { db.raceView with teamOf := f, roster := g }) hteamOf hteams, rfl⟩

theorem raceFrame_setGrRank (h : db.setGrRank rank a = some db') : db.RaceFrame db' := by
  obtain ⟨acc, -, rfl⟩ := map_eq_some_iff.1 h
  refine raceFrame_members db (map_find_modify_of_eq ?_ db.accounts a) rfl
  exact fun _ => rfl

theorem raceFrame_assignGrRankToTeam {reward : Int} {id : Nat}
    (h : assignGrRankToTeam reward rank db id = some db') : db.RaceFrame db' := by
  obtain ⟨team, -, h⟩ := bind_eq_some_iff.1 h
  obtain ⟨db1, h1, h⟩ := bind_eq_some_iff.1 h
  obtain ⟨db2, h2, h⟩ := bind_eq_some_iff.1 h
  obtain ⟨m, -, rfl⟩ := adjustBalance_eq_some h2
  have hrank : db.RaceFrame { db with
      grTeams := db.grTeams.modify id fun t => { t with lastGrRank := rank } } := by
    refine raceFrame_members db rfl (map_find_modify_of_eq ?_ db.grTeams id)
    exact fun _ => rfl
  have hpaid : db1.RaceFrame { db1 with balances := m } := ⟨rfl, rfl⟩
  exact ((hrank.trans (raceFrame_setGrRank h1)).trans hpaid).trans
    (raceFrame_foldlM raceFrame_setGrRank h)

theorem raceFrame_assignGrRank {start stop reward : Int}
    (h : db.assignGrRank start stop reward rank = some (db', total)) : db.RaceFrame db' := by
  rw [assignGrRank] at h
  split at h
  · cases h
    exact RaceFrame.refl _
  · obtain ⟨ids, -, h⟩ := bind_eq_some_iff.1 h
    obtain ⟨db1, h1, h⟩ := map_eq_some_iff.1 h
    cases h
    exact raceFrame_foldlM raceFrame_assignGrRankToTeam h1

theorem raceFrame_assignGrRanks {l : List (Nat × GrRank × Int)} {total' : Int}
    (h : assignGrRanks l (db, total) = some (db', total')) : db.RaceFrame db' := by
  induction l generalizing db total with
  | nil =>
    cases h
    exact RaceFrame.refl _
  | cons e l ih =>
    obtain ⟨⟨db1, rewards⟩, h1, h⟩ := bind_eq_some_iff.1 h
    exact (raceFrame_assignGrRank h1).trans (ih h)

theorem raceFrame_assignElite {l : List Nat} {total' : Int}
    (h : assignElite l (db, total) = some (db', total')) : db.RaceFrame db' := by
  induction l generalizing db total with
  | nil =>
    cases h
    exact RaceFrame.refl _
  | cons id l ih =>
    rw [assignElite] at h
    split at h
    · obtain ⟨db1, h1, h⟩ := bind_eq_some_iff.1 h
      exact (raceFrame_assignGrRankToTeam h1).trans (ih h)
    · exact ih h

theorem raceFrame_proceedGrRank (h : db.proceedGrRank = some db') : db.RaceFrame db' := by
  obtain ⟨⟨db1, total1⟩, h1, h⟩ := bind_eq_some_iff.1 h
  obtain ⟨⟨db2, total2⟩, h2, h⟩ := bind_eq_some_iff.1 h
  have hreset : db.RaceFrame db.resetGrRank := by
    refine raceFrame_members db (map_find_modifyAll_of_eq ?_ db.accounts)
      (map_find_modifyAll_of_eq ?_ db.grTeams)
    all_goals exact fun _ => rfl
  exact ((hreset.trans (raceFrame_assignGrRanks h1)).trans (raceFrame_assignElite h2)).trans
    (raceFrame_modifyCore h)

theorem raceFrame_setApostolos (h : db.setApostolos a = some db') : db.RaceFrame db' := by
  obtain ⟨acc, -, rfl⟩ := map_eq_some_iff.1 h
  refine raceFrame_members db (map_find_modify_of_eq ?_ db.accounts a) rfl
  exact fun _ => rfl

theorem raceFrame_proceedApostolos (h : db.proceedApostolos = some db') : db.RaceFrame db' := by
  have hreset : db.RaceFrame { db with
      accounts := db.accounts.modifyAll fun a => { a with apostolos := false } } := by
    refine raceFrame_members db (map_find_modifyAll_of_eq ?_ db.accounts) rfl
    exact fun _ => rfl
  rw [proceedApostolos] at h
  split at h
  · cases h
    exact hreset
  · obtain ⟨db1, h1, h⟩ := bind_eq_some_iff.1 h
    have hset := hreset.trans (raceFrame_foldlM raceFrame_setApostolos h1)
    split at h
    · obtain ⟨acc, -, rfl⟩ := map_eq_some_iff.1 h
      exact hset
    · cases h
      exact hset

/-! #### The clock -/

theorem raceFrame_resetGrVolumes (db : Database) :
    db.RaceFrame db.resetGrVolumes.performGrMaintenance := by
  have hteams := map_find_modifyAll_of_eq (g := GrTeam.roster)
    (f := fun t => if 1 ≤ t.totalVolume then t.resetVolumes else t)
    (fun t => by split <;> rfl) db.grTeams
  exact ⟨(raceFrame_members db rfl hteams).raceView_eq, rfl⟩

theorem raceView_proceedGrBets (h : db.proceedGrBets = some db') :
    db'.raceView = db.raceView.settled := by
  obtain ⟨m, c, ss, -, -, -, rfl⟩ := proceedGrBets_eq_some h
  rfl

theorem raceView_countGrVotes (db : Database) : db.countGrVotes.raceView = db.raceView := by
  rw [countGrVotes]
  split <;> rfl

/-- At the end of a race interval the best three teams are rewarded and the bets settled. -/
theorem intervalWork_of_isGrInterval (h : isGrInterval db.currentGrInterval) :
    db.intervalWork = db.proceedGrTop3.bind proceedGrBets := by
  have hn : db.currentGrInterval ∈ [2, 4, 6, 9, 11, 13] := of_decide_eq_true h
  have hcases : ∀ n ∈ [2, 4, 6, 9, 11, 13], ¬(n = 0 ∨ n = 14) ∧ ¬isGrInterval (n + 1) := by decide
  obtain ⟨hends, hnext⟩ := hcases _ hn
  rw [intervalWork, if_neg hends, if_neg hnext, if_pos h]

theorem core_of_callsBets {e : Database} (h : db.callsBets = some e) :
    ∃ core, e.assets.find 0 = some core := by
  rw [callsBets] at h
  split at h
  · next hcond =>
    have hdue := hcond.1
    simp only [raceIsDue, any_eq_true, decide_eq_true_eq] at hdue
    obtain ⟨-, -, core, hcore, -⟩ := hdue
    rw [proceedGrTop3, if_pos hcond.2] at h
    dsimp only at h
    split at h
    · obtain ⟨db1, h1, h⟩ := bind_eq_some_iff.1 h
      obtain ⟨c, hc, rfl⟩ := modifyCore_eq_some h
      exact ⟨_, by rw [find_modify_self, hc, map_some]⟩
    · cases h
      exact ⟨core, hcore⟩
  · cases h

theorem raceView_callsBets {e : Database} (h : db.callsBets = some e) :
    e.raceView = db.raceView := by
  obtain ⟨-, h⟩ := ite_none_right_eq_some.1 h
  exact (raceFrame_proceedGrTop3 h).raceView_eq

/-- **The work at the end of an interval in which there was no race.** -/
theorem raceFrame_intervalWork (hgr : ¬isGrInterval db.currentGrInterval)
    (h : db.intervalWork = some db') : db.RaceFrame db' := by
  rw [intervalWork] at h
  split at h
  · obtain ⟨db1, h1, h⟩ := bind_eq_some_iff.1 h
    obtain ⟨db2, h2, h⟩ := bind_eq_some_iff.1 h
    obtain ⟨db3, h3, rfl⟩ := map_eq_some_iff.1 h
    have hinit : db.RaceFrame db1 := by
      split at h1
      · obtain ⟨db0, h0, h1⟩ := bind_eq_some_iff.1 h1
        obtain ⟨acc, -, rfl⟩ := map_eq_some_iff.1 h1
        exact raceFrame_foldlM raceFrame_setApostolos h0
      · exact some.inj h1 ▸ RaceFrame.refl db
    exact ((hinit.trans (raceFrame_proceedGrRank h2)).trans (raceFrame_proceedApostolos h3)).trans
      (raceFrame_resetGrVolumes db3)
  · split at h
    · cases h
      exact ⟨rfl, rfl⟩
    · split at h
      · obtain ⟨db1, h1, rfl⟩ := map_eq_some_iff.1 h
        exact (raceFrame_proceedGrRank h1).trans ⟨rfl, rfl⟩
      · exact some.inj h ▸ RaceFrame.refl db

theorem raceView_intervalWork (h : db.intervalWork = some db') : db'.raceView =
      if isGrInterval db.currentGrInterval then db.raceView.settled else db.raceView := by
  split
  · next hgr =>
    rw [intervalWork_of_isGrInterval hgr] at h
    obtain ⟨db1, h1, h⟩ := bind_eq_some_iff.1 h
    rw [raceView_proceedGrBets h, (raceFrame_proceedGrTop3 h1).raceView_eq]
  · next hgr => exact (raceFrame_intervalWork hgr h).raceView_eq

theorem raceView_advanceClock {v : RaceView}
    (h : db.raceView = if isGrInterval v.interval then v.settled else v) :
    db.advanceClock.raceView = v.advance := by
  have hn : db.currentGrInterval = v.interval := by
    have hn := congrArg RaceView.interval h
    split at hn <;> exact hn
  rw [advanceClock, RaceView.advance, ← h, hn]
  split
  · rfl
  · split
    · rfl
    · split <;> rfl

/-- **The maintenance of the race moves its clock by one interval, or does nothing to it.** -/
theorem raceView_raceMaintenance (h : db.raceMaintenance = some db') : db'.raceView = db.raceView ∨
      db.nextGrIntervalTime ≤ db.headBlockTime ∧ db'.raceView = db.raceView.advance := by
  obtain ⟨db1, h1, rfl⟩ := map_eq_some_iff.1 h
  have hvotes : raceView (if db1.endGrVoteTime ≤ db1.headBlockTime ∧ db1.grVoteIsActive then
      { db1.countGrVotes with grVoteIsActive := false } else db1) = db1.raceView := by
    split
    · exact raceView_countGrVotes db1
    · rfl
  rw [hvotes]
  split at h1
  · next hdue =>
    obtain ⟨db2, h2, rfl⟩ := map_eq_some_iff.1 h1
    rw [raceIsDue, decide_eq_true_eq] at hdue
    exact .inr ⟨hdue.1, raceView_advanceClock (raceView_intervalWork h2)⟩
  · exact .inl (congrArg raceView (some.inj h1).symm)

end Database

end CrowdwizChain
