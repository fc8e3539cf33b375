import CrowdwizChain.Chain.RaceMachine

/-!
# The Great Race

Runs of the chain as far as the race goes: the operations on teams, bets, and blocks with or without
maintenance, in any order, with anything else in between that leaves the race alone. Every step of
the chain is a step of the machine of `RaceView` (`RaceSystem.step_refines`), so that what the
machine keeps holds in every run.

Bets are settled on teams that exist only if no bet is placed at the second at which the first race
starts: the time for bets has not ended then, but teams can already be made and deleted.
-/

namespace CrowdwizChain

open Transition Option Table Database

/-- What can happen on the chain, as far as the race goes. -/
inductive RaceAction
  | teamCreate (op : GrTeamCreateOperation)
  | teamDelete (op : GrTeamDeleteOperation)
  | inviteSend (op : GrPlayerOperation)
  | inviteAccept (op : GrInviteAcceptOperation)
  | playerRemove (op : GrPlayerOperation)
  | teamLeave (op : GrPlayerOperation)
  | rangeBet (op : GrRangeBetOperation)
  | teamBet (op : GrTeamBetOperation)
  /-- the head moves on to a block with this time, which may be one with maintenance -/
  | block (time : Nat) (maintenance : Bool)
  /-- anything else: every part of the database may change, but the clock of the race, the bets,
  and who is in which team -/
  | other (e : Database)

namespace Database

/-- A new head block. -/
def moveHead (db : Database) (time : Nat) : Database :=
  { db with headBlockTime := time, headBlockNum := db.headBlockNum + 1 }

/-- The race is as it was. -/
def SameRace (db e : Database) : Prop :=
  e.headBlockTime = db.headBlockTime ∧ e.greatraceParameters = db.greatraceParameters ∧
    e.currentGrInterval = db.currentGrInterval ∧ e.nextGrIntervalTime = db.nextGrIntervalTime ∧
    e.grBetIntervalTime = db.grBetIntervalTime ∧ Table.Same GrTeam.roster db.grTeams e.grTeams ∧
    (∀ a < max db.accounts.nextId e.accounts.nextId, e.teamOf a = db.teamOf a) ∧
    Table.Same id db.grRangeBets e.grRangeBets ∧ Table.Same id db.grTeamBets e.grTeamBets

instance (db e : Database) : Decidable (db.SameRace e) := inferInstanceAs (Decidable (_ ∧ _))

variable {db db' e : Database} {t : Nat}

theorem SameRace.raceView_eq (h : db.SameRace e) : e.raceView = db.raceView := by
  obtain ⟨hhead, hparams, hinterval, hnext, hbet, hteams, hteamOf, hrange, hteam⟩ := h
  have hnone : ∀ (d : Database) a, d.accounts.nextId ≤ a → d.teamOf a = none := by
    intro d a ha
    rw [teamOf, find_of_nextId_le ha]
    rfl
  ext1
  case headBlockTime => exact hhead
  case parameters => exact hparams
  case interval => exact hinterval
  case nextTime => exact hnext
  case betTime => exact hbet
  case roster => exact funext hteams.map_find
  case teamOf =>
    funext a
    rcases Nat.lt_or_ge a (max db.accounts.nextId e.accounts.nextId) with hlt | hge
    · exact hteamOf a hlt
    · show e.teamOf a = db.teamOf a
      rw [hnone e a (le_trans (le_max_right _ _) hge), hnone db a (le_trans (le_max_left _ _) hge)]
  case rangeBets => exact funext hrange.find_eq
  case teamBets => exact funext hteam.find_eq

theorem find_rangeBets_of_raceView (h : e.raceView = db.raceView) (i : Nat) :
    e.grRangeBets.find i = db.grRangeBets.find i :=
  congrFun (congrArg RaceView.rangeBets h) i

theorem find_teamBets_of_raceView (h : e.raceView = db.raceView) (i : Nat) :
    e.grTeamBets.find i = db.grTeamBets.find i :=
  congrFun (congrArg RaceView.teamBets h) i

theorem rosterOf_of_find {team : GrTeam} (h : db.grTeams.find t = some team) :
    db.rosterOf t = some (team.captain, team.players) := by
  rw [rosterOf, h]
  rfl

theorem isSome_rosterOf (h : (db.grTeams.find t).isSome) : (db.rosterOf t).isSome := by
  rwa [rosterOf, isSome_map]

theorem rosterOf_update {o : Option GrTeam}
    (h : db'.grTeams.find = Function.update db.grTeams.find t o) :
    db'.rosterOf = Function.update db.rosterOf t (o.map GrTeam.roster) := by
  funext i
  rw [rosterOf, h, Function.update_apply, Function.update_apply]
  split <;> rfl

end Database

namespace RaceSystem

open Database RaceView

/-- One action. -/
def step (db : Database) : RaceAction → Option Database
  | .teamCreate op => db.grTeamCreate op
  | .teamDelete op => db.grTeamDelete op
  | .inviteSend op => db.grInviteSend op
  | .inviteAccept op => db.grInviteAccept op
  | .playerRemove op => db.grPlayerRemove op
  | .teamLeave op => db.grTeamLeave op
  | .rangeBet op => db.grRangeBet op
  | .teamBet op => db.grTeamBet op
  | .block time maintenance =>
    if db.headBlockTime < time then
      if maintenance then (db.moveHead time).raceMaintenance else some (db.moveHead time)
    else none
  | .other e => if db.SameRace e then some e else none

/-- The kind of an action. -/
def kind : RaceAction → Kind
  | .rangeBet _ => .bet
  | .teamBet _ => .bet
  | .block time _ => .block time
  | .other _ => .other
  | _ => .team

variable {db db' : Database}

/-! ### Refinement -/

theorem step_teamCreate {op : GrTeamCreateOperation} (h : db.grTeamCreate op = some db') :
    db.raceView.Step .team db'.raceView := by
  obtain ⟨hframe, hinterval, hnone, hteamOf, hteams⟩ := grTeamCreate_eq_some h
  have hroster := rosterOf_update (hteams ▸ find_create_eq_update _)
  have hfresh : db.rosterOf db.grTeams.nextId = none := by
    rw [rosterOf, find_nextId]
    rfl
  rw [hframe.raceView_eq, hroster, hteamOf]
  exact .found hinterval hfresh hnone

theorem step_teamDelete {op : GrTeamDeleteOperation} (h : db.grTeamDelete op = some db') :
    db.raceView.Step .team db'.raceView := by
  obtain ⟨hframe, hrest, hteams, team, hteam, hin, hout⟩ := grTeamDelete_eq_some h
  have hroster := rosterOf_update (hteams ▸ find_remove_eq_update _)
  rw [hframe.raceView_eq, hroster]
  exact .disband hrest (rosterOf_of_find hteam) hin hout

theorem step_inviteSend {op : GrPlayerOperation} (h : db.grInviteSend op = some db') :
    db.raceView.Step .team db'.raceView := by
  obtain ⟨hframe, hteamOf, hteams⟩ := grInviteSend_eq_some h
  have hroster : db'.rosterOf = db.rosterOf := by
    funext t
    rw [rosterOf, hteams, rosterOf]
  rw [hframe.raceView_eq, hroster, hteamOf]
  exact .stay

theorem step_inviteAccept {op : GrInviteAcceptOperation} (h : db.grInviteAccept op = some db') :
    db.raceView.Step .team db'.raceView := by
  obtain ⟨hframe, hnone, hteamOf, hteams, team, hteam, hfull⟩ := grInviteAccept_eq_some h
  have hroster := rosterOf_update (hteams ▸ find_modify_eq_update hteam _)
  rw [hframe.raceView_eq, hroster, hteamOf]
  exact .join (rosterOf_of_find hteam) hfull hnone

theorem step_leave {payer : AccountId} {op : GrPlayerOperation}
    (h : db.applyOperation payer op.fee (grTeamLeaveEvaluate op) (grTeamLeaveApply op) = some db') :
    db.raceView.Step .team db'.raceView := by
  obtain ⟨hframe, hteamOf, hteams, team, hteam, hmem⟩ := applyLeave_eq_some h
  have hroster := rosterOf_update (hteams ▸ find_modify_eq_update hteam _)
  rw [hframe.raceView_eq, hroster, hteamOf]
  exact .leave (rosterOf_of_find hteam) hmem

theorem step_rangeBet {op : GrRangeBetOperation} (h : db.grRangeBet op = some db') :
    db.raceView.Step .bet db'.raceView := by
  obtain ⟨hview, hmay, hteam, -, id, b, ⟨hkey, hb⟩, hbets⟩ := grRangeBet_eq_some h
  obtain ⟨hopen, hamount⟩ := mayBet_eq_true hmay
  rw [hview, hbets]
  exact .rangeBet hopen hamount (hkey.1 ▸ isSome_rosterOf hteam)
    (hb.imp_right fun hnew => ⟨hnew.1, hnew.2.1⟩)

theorem step_teamBet {op : GrTeamBetOperation} (h : db.grTeamBet op = some db') :
    db.raceView.Step .bet db'.raceView := by
  obtain ⟨hview, hmay, hteam1, hteam2, hne, -, id, b, ⟨hkey, hb⟩, hbets⟩ := grTeamBet_eq_some h
  have hb := hb.imp_right fun hnew => And.intro hnew.1 hnew.2.1
  obtain ⟨hopen, hamount⟩ := mayBet_eq_true hmay
  have hteam1 := isSome_rosterOf hteam1
  have hteam2 := isSome_rosterOf hteam2
  rw [hview, hbets]
  rcases hkey with ⟨hkey1, hkey2⟩ | ⟨hkey1, hkey2⟩
  · exact .teamBet hopen hamount (hkey1 ▸ hteam1) (hkey2 ▸ hteam2)
      (by rw [hkey1, hkey2]; exact hne) hb
  · exact .teamBet hopen hamount (hkey1 ▸ hteam2) (hkey2 ▸ hteam1)
      (by rw [hkey1, hkey2]; exact hne.symm) hb

/-- **Every step of the chain is a step of the machine.** -/
theorem step_refines {a : RaceAction} (h : step db a = some db') :
    db.raceView.Step (kind a) db'.raceView := by
  cases a with
  | teamCreate op => exact step_teamCreate h
  | teamDelete op => exact step_teamDelete h
  | inviteSend op => exact step_inviteSend h
  | inviteAccept op => exact step_inviteAccept h
  | playerRemove op =>
    rw [step, grPlayerRemove] at h
    split at h
    · exact step_leave h
    · cases h
  | teamLeave op =>
    rw [step, grTeamLeave] at h
    split at h
    · exact step_leave h
    · cases h
  | rangeBet op => exact step_rangeBet h
  | teamBet op => exact step_teamBet h
  | block time maintenance =>
    rw [step] at h
    split at h
    · next htime =>
      have hmove : (db.moveHead time).raceView = { db.raceView with headBlockTime := time } := rfl
      split at h
      · rcases raceView_raceMaintenance h with hsame | ⟨hdue, hadvance⟩
        · rw [hsame, hmove]
          exact .tick htime
        · rw [hadvance, hmove]
          exact .advance htime hdue
      · cases h
        exact .tick htime
    · cases h
  | other e =>
    rw [step] at h
    split at h
    · next hsame =>
      cases h
      rw [hsame.raceView_eq]
      exact .stay
    · cases h

/-! ### Who is in which team -/

/-- Nobody has a team. -/
def NoTeams (db : Database) : Prop := (∀ t, db.grTeams.find t = none) ∧ ∀ a, db.teamOf a = none

theorem NoTeams.rosterOf (h : NoTeams db) (t : Nat) : db.rosterOf t = none := by
  rw [Database.rosterOf, h.1]
  rfl

theorem NoTeams.manned (h : NoTeams db) : db.raceView.Manned where
  agree a t := by
    have hcrew : db.raceView.crew t = none := by
      show (db.rosterOf t).map _ = none
      rw [h.rosterOf]
      rfl
    rw [hcrew]
    constructor
    · intro hteam
      rw [show db.raceView.teamOf a = none from h.2 a] at hteam
      cases hteam
    · rintro ⟨s, hs, -⟩
      cases hs
  players {t r} hr := by
    rw [show db.raceView.roster t = none from h.rosterOf t] at hr
    cases hr

/-- **Who is in which team.** In every run that starts without teams, an account has a team as its
own exactly if this team exists and has the account as its captain or among its players. So nobody
is in two teams, a captain is not a player of any team, and a team has at most eleven players. -/
theorem team_membership {l : List RaceAction} (hdb : NoTeams db) (hrun : run step db l = some db') :
    (∀ a t, db'.teamOf a = some t ↔
      ∃ team, db'.grTeams.find t = some team ∧ (a = team.captain ∨ a ∈ team.players)) ∧
    (∀ a t t' team team', db'.grTeams.find t = some team → db'.grTeams.find t' = some team' →
      (a = team.captain ∨ a ∈ team.players) → (a = team'.captain ∨ a ∈ team'.players) → t = t') ∧
    (∀ t t' team team', db'.grTeams.find t = some team → db'.grTeams.find t' = some team' →
      team.captain ∉ team'.players) ∧
    ∀ t team, db'.grTeams.find t = some team → team.players.Nodup ∧ team.players.length ≤ 11 := by
  have hstep : ∀ {s a s'}, s.raceView.Manned → step s a = some s' → s'.raceView.Manned :=
    fun h hs => h.step (step_refines hs)
  have hinv : db'.raceView.Manned := invariant hstep hdb.manned hrun
  have hcrew : ∀ {t team}, db'.grTeams.find t = some team →
      db'.raceView.crew t = some {a | a = team.captain ∨ a ∈ team.players} :=
    fun ht => crew_of_roster (rosterOf_of_find ht)
  have hunique : ∀ a t t' team team', db'.grTeams.find t = some team →
      db'.grTeams.find t' = some team' → (a = team.captain ∨ a ∈ team.players) →
      (a = team'.captain ∨ a ∈ team'.players) → t = t' := by
    intro a t t' team team' ht ht' ha ha'
    exact hinv.agree.unique (hcrew ht) ha (hcrew ht') ha'
  refine ⟨fun a t => (hinv.agree a t).trans ?_, hunique, ?_, ?_⟩
  · constructor
    · rintro ⟨s, hs, ha⟩
      cases ht : db'.grTeams.find t with
      | none =>
        have hroster : db'.raceView.crew t = none := by
          show (db'.rosterOf t).map _ = none
          rw [rosterOf, ht]
          rfl
        rw [hroster] at hs
        cases hs
      | some team =>
        rw [hcrew ht] at hs
        cases hs
        exact ⟨team, rfl, ha⟩
    · rintro ⟨team, ht, ha⟩
      exact ⟨_, hcrew ht, ha⟩
  · intro t t' team team' ht ht' hmem
    obtain rfl := hunique team.captain t t' team team' ht ht' (.inl rfl) (.inr hmem)
    cases ht.symm.trans ht'
    exact (hinv.players (rosterOf_of_find ht)).2.1 hmem
  · intro t team ht
    obtain ⟨hnodup, -, hlength⟩ := hinv.players (rosterOf_of_find ht)
    exact ⟨hnodup, hlength⟩

/-- Three accounts in the first interval of a race. -/
def threeAccounts : Database :=
  { start grStartTime
      (List.replicate 3 { referrer := 0, referralStatusType := 4 }) 1000 with
    currentGrInterval := 1 }

theorem threeAccounts_noTeams : NoTeams threeAccounts := by
  refine ⟨fun _ => rfl, fun a => ?_⟩
  have hsmall : ∀ a < 3, threeAccounts.teamOf a = none := by decide +kernel
  rcases Nat.lt_or_ge a 3 with hlt | hge
  · exact hsmall a hlt
  · rw [Database.teamOf, find_of_nextId_le hge]
    rfl

/-- Account 1 makes a team, and account 2 joins it. -/
def foundAndJoin : List RaceAction :=
  [.teamCreate ⟨.core 0, 1, ['a'], [], []⟩, .inviteSend ⟨.core 0, 1, 2, 0⟩,
    .inviteAccept ⟨.core 0, 1, 2, 0, 0⟩]

theorem team_membership_found_and_join : ∃ db', run step threeAccounts foundAndJoin = some db' ∧
      ∀ a t, db'.teamOf a = some t ↔
        ∃ team, db'.grTeams.find t = some team ∧ (a = team.captain ∨ a ∈ team.players) :=
  ⟨_, (some_get (by decide +kernel)).symm,
    (team_membership threeAccounts_noTeams (some_get (by decide +kernel)).symm).1⟩

/-! ### Bets and living teams -/

/-- The race before it starts. -/
structure Genesis (db : Database) : Prop where
  parameters : db.greatraceParameters = {}
  interval : db.currentGrInterval = 0
  nextTime : db.nextGrIntervalTime = grStartTime
  betTime : db.grBetIntervalTime = grStartTime
  teams : ∀ t, db.grTeams.find t = none
  rangeBets : ∀ i, db.grRangeBets.find i = none
  teamBets : ∀ i, db.grTeamBets.find i = none

theorem Genesis.gated (h : Genesis db) : db.raceView.Gated where
  parameters := h.parameters
  interval := by
    show db.currentGrInterval ≤ 14
    rw [h.interval]
    decide
  early _ := by
    refine ⟨fun t => ?_, h.betTime, h.nextTime⟩
    show db.rosterOf t = none
    rw [rosterOf, h.teams]
    rfl
  rest hrest := by
    rw [show db.raceView.interval = 0 from h.interval] at hrest
    cases hrest
  race hrace := by
    rw [show db.raceView.interval = 0 from h.interval] at hrace
    cases hrace
  onTeams := NoBets.onTeams ⟨h.rangeBets, h.teamBets⟩

/-- **Bets are settled on living teams.** In every run from the genesis in which no bet is placed at
the second at which the first race starts, and which ends three weeks before the end of time: there
are no bets in an interval in which teams may be deleted; and whenever a maintenance block calls
`proceed_gr_bets`, the teams of all bets exist, their places are between one and the number of
teams, and two teams never share a place. -/
theorem bets_settle_on_living_teams {l : List RaceAction} (hdb : Genesis db)
    (hl : Along step (fun db a => db.raceView.Timely (kind a)) db l)
    (hrun : run step db l = some db') :
    (isRestInterval db'.currentGrInterval →
      (∀ i, db'.grRangeBets.find i = none) ∧ ∀ i, db'.grTeamBets.find i = none) ∧
    ∀ time e, (db'.moveHead time).callsBets = some e →
      (∀ i b, e.grRangeBets.find i = some b → (e.grTeams.find b.team).isSome) ∧
      (∀ i b, e.grTeamBets.find i = some b →
        (e.grTeams.find b.team1).isSome ∧ (e.grTeams.find b.team2).isSome ∧ b.team1 ≠ b.team2) ∧
      (∀ t, (e.grTeams.find t).isSome → 1 ≤ e.place t ∧ e.place t ≤ e.grTeams.inOrder.length) ∧
      ∀ t t', (e.grTeams.find t).isSome → (e.grTeams.find t').isSome → t ≠ t' →
      e.place t ≠ e.place t' := by
  have hstep : ∀ {s a s'}, s.raceView.Gated → s.raceView.Timely (kind a) → step s a = some s' →
      s'.raceView.Gated := fun h ht hs => h.step ht (step_refines hs)
  have hinv : db'.raceView.Gated := invariant_of_along hstep hdb.gated hl hrun
  refine ⟨fun hrest => (hinv.rest hrest).1, fun time e he => ?_⟩
  have hview : e.raceView = (db'.moveHead time).raceView := raceView_callsBets he
  have hroster : ∀ {t}, (db'.rosterOf t).isSome → (e.grTeams.find t).isSome := by
    intro t ht
    rw [show db'.rosterOf t = e.rosterOf t from (congrFun (congrArg RaceView.roster hview) t).symm,
      rosterOf, isSome_map] at ht
    exact ht
  have hgr : isGrInterval e.currentGrInterval = true := by
    rw [show e.currentGrInterval = (db'.moveHead time).currentGrInterval from
      congrArg RaceView.interval hview]
    obtain ⟨hcond, he⟩ := ite_none_right_eq_some.1 he
    exact hcond.2
  refine ⟨fun i b hb => ?_, fun i b hb => ?_, fun t ht => place_mem_range hgr ht,
    fun t t' ht ht' hne heq => hne (place_injective hgr ht ht' heq)⟩
  · rw [find_rangeBets_of_raceView hview] at hb
    exact hroster (hinv.onTeams.range hb)
  · rw [find_teamBets_of_raceView hview] at hb
    obtain ⟨h1, h2, hne⟩ := hinv.onTeams.teams hb
    exact ⟨hroster h1, hroster h2, hne⟩

/-- The accounts that the first race needs. -/
def raceAccounts : Table Account where
  rows := (grapheneApostolosAccount :: firstApostles).foldl
    (fun m a => m.insert a { referrer := 0, referralStatusType := 4 }) ∅
  nextId := 65736
  fresh id h := by
    have hkeys : ∀ id ∈ ((grapheneApostolosAccount :: firstApostles).foldl
        (fun m a => m.insert a ({ referrer := 0, referralStatusType := 4 } : Account)) ∅ :
          AList fun _ => Account).keys, id < 65736 := by decide +kernel
    exact hkeys id h

/-- Shortly before the first race. -/
def beforeRace : Database :=
  { start (grStartTime - 3) [] 0 with
    accounts := raceAccounts
    statistics := firstApostles.foldl (fun m a => m.insert a {}) ∅
    balances := firstApostles.foldl (fun m a => m.insert (a, 0) ⟨1000000, true⟩) ∅ }

theorem beforeRace_genesis : Genesis beforeRace :=
  ⟨rfl, rfl, rfl, rfl, fun _ => rfl, fun _ => rfl, fun _ => rfl⟩

/-- Account 32 makes a team after the race has started, and account 35 bets on it in the second
interval. -/
def betInTime : List RaceAction :=
  [.block (grStartTime + 3) true, .teamCreate ⟨.core 0, 32, ['a'], [], []⟩,
    .block (grStartTime + 7 * secondsPerDay) true,
    .rangeBet ⟨.core 0, 0, 1, 1, true, 35, .core 500000⟩]

theorem bets_settle_on_living_teams_bet_in_time : ∃ db', run step beforeRace betInTime = some db' ∧
      ∃ e, (db'.moveHead (grStartTime + 28 * secondsPerDay)).callsBets = some e ∧
        (∃ b, e.grRangeBets.find 0 = some b) ∧
        ∀ i b, e.grRangeBets.find i = some b → (e.grTeams.find b.team).isSome :=
  ⟨_, (some_get (by decide +kernel)).symm, _, (some_get (by decide +kernel)).symm,
    ⟨_, (some_get (by decide +kernel)).symm⟩,
    ((bets_settle_on_living_teams beforeRace_genesis (by decide +kernel)
      (some_get (by decide +kernel)).symm).2 _ _ (some_get (by decide +kernel)).symm).1⟩

/-- The first maintenance block of the race has the time at which the race starts. Right after it,
account 32 makes a team, account 35 bets on it, and account 32 deletes it again. -/
def betAtStart : List RaceAction :=
  [.block grStartTime true, .teamCreate ⟨.core 0, 32, ['a'], [], []⟩,
    .rangeBet ⟨.core 0, 0, 1, 1, true, 35, .core 500000⟩, .teamDelete ⟨.core 0, 32, 0⟩]

/-- The bet is there in an interval in which teams may be deleted, and when it is settled its team
is gone and has no place. -/
theorem bet_outlives_its_team : Genesis beforeRace ∧
    (∃ db', run step beforeRace betAtStart = some db' ∧
      isRestInterval db'.currentGrInterval ∧ (db'.grRangeBets.find 0).isSome) ∧
    ∃ db', run step beforeRace (betAtStart ++ [.block (grStartTime + 7 * secondsPerDay) true]) =
      some db' ∧ ∃ e, (db'.moveHead (grStartTime + 28 * secondsPerDay)).callsBets = some e ∧
        ∃ b, e.grRangeBets.find 0 = some b ∧ e.grTeams.find b.team = none ∧ e.place b.team = 0 := by
  refine ⟨beforeRace_genesis, ⟨_, (some_get (by decide +kernel)).symm, ?_⟩,
    ⟨_, (some_get (by decide +kernel)).symm, _, (some_get (by decide +kernel)).symm,
      _, (some_get (by decide +kernel)).symm, ?_⟩⟩
  · decide +kernel
  · refine ⟨isNone_iff_eq_none.1 (by decide +kernel), by decide +kernel⟩

/-! ### Pools -/

/-- A bet on places debits the bettor, and goes into the pool of its outcome. -/
theorem placed_rangeBet {op : GrRangeBetOperation} (h : db.grRangeBet op = some db') :
    db.balances.adjustAll [(op.bettor, -op.bet), (op.bettor, -op.fee)] = some db'.balances ∧
      BetPool.Placed db.grRangeBets db'.grRangeBets GrRangeBet.pool op.IsOn (fun _ => op.result)
        op.bettor op.bet.amount := by
  obtain ⟨-, -, -, hdebit, id, b, hb, hbets⟩ := grRangeBet_eq_some h
  refine ⟨hdebit, id, b, _, hb, (congrFun hbets id).trans (Function.update_self ..), hb.1, ?_,
    fun i hi => (congrFun hbets i).trans (Function.update_of_ne hi ..)⟩
  exact b.pool.raises_bet op.result op.bettor op.bet.amount

/-- A bet on two teams debits the bettor, and goes into the pool of the two in either order. -/
theorem placed_teamBet {op : GrTeamBetOperation} (h : db.grTeamBet op = some db') :
    db.balances.adjustAll [(op.bettor, -op.bet), (op.bettor, -op.fee)] = some db'.balances ∧
      BetPool.Placed db.grTeamBets db'.grTeamBets GrTeamBet.pool op.IsOn
        (fun b => op.winner = b.team1) op.bettor op.bet.amount := by
  obtain ⟨-, -, -, -, -, hdebit, id, b, hb, hbets⟩ := grTeamBet_eq_some h
  refine ⟨hdebit, id, b, _, hb, (congrFun hbets id).trans (Function.update_self ..), hb.1, ?_,
    fun i hi => (congrFun hbets i).trans (Function.update_of_ne hi ..)⟩
  exact b.pool.raises_bet (op.winner = b.team1) op.bettor op.bet.amount

/-- **Pools of bets add up and are settled in a fair way.** In every run that starts without bets,
the prize of a pool is the sum of its sides and the total of a side is the sum of the stakes on
it. An accepted bet debits the bettor by its amount and the fee, and raises by this amount the
pool of its outcome, that side of it, and what the bettor has there; a pool of two teams is the
same in either order. Whenever a maintenance block calls `proceed_gr_bets`, all pools are settled:
the payments of a pool and what is left for the accumulated fees are its prize, winners get the
floor of their exact share and at least their stake, and if there are no stakes on a side
everybody gets the stake back. -/
theorem bet_pools_fair {l : List RaceAction} (hparams : db.greatraceParameters = {})
    (hrange : ∀ i, db.grRangeBets.find i = none) (hteam : ∀ i, db.grTeamBets.find i = none)
    (hrun : run step db l = some db') :
    (∀ i b, db'.grRangeBets.find i = some b →
      b.totalPrize = b.totalTrueBets + b.totalFalseBets ∧ b.totalTrueBets = b.trueBets.total ∧
        b.totalFalseBets = b.falseBets.total) ∧
    (∀ i b, db'.grTeamBets.find i = some b →
      b.totalPrize = b.totalTeam1Bets + b.totalTeam2Bets ∧ b.totalTeam1Bets = b.team1Bets.total ∧
        b.totalTeam2Bets = b.team2Bets.total) ∧
    (∀ op d, db'.grRangeBet op = some d →
      db'.balances.adjustAll [(op.bettor, -op.bet), (op.bettor, -op.fee)] = some d.balances ∧
        BetPool.Placed db'.grRangeBets d.grRangeBets GrRangeBet.pool op.IsOn (fun _ => op.result)
          op.bettor op.bet.amount) ∧
    (∀ op d, db'.grTeamBet op = some d →
      db'.balances.adjustAll [(op.bettor, -op.bet), (op.bettor, -op.fee)] = some d.balances ∧
        BetPool.Placed db'.grTeamBets d.grTeamBets GrTeamBet.pool op.IsOn
          (fun b => op.winner = b.team1) op.bettor op.bet.amount) ∧
    ∀ time e, (db'.moveHead time).callsBets = some e →
      ∃ e' m, ∃ ss : List Settlement, e.proceedGrBets = some e' ∧
        List.Forall₂ (fun o s => o.1.Fair o.2 s) e.outcomes ss ∧
        Balances.adjustAll e.balances
          (ss.flatMap fun s => s.payments.map fun p => (p.1, .core p.2)) = some m ∧
        e' = { e with
          balances := m
          grRangeBets := e.grRangeBets.clear
          grTeamBets := e.grTeamBets.clear
          assets := e.assets.modify 0 fun c =>
            { c with accumulatedFees := c.accumulatedFees + (ss.map Settlement.fee).sum } } := by
  have hstart : db.raceView.Funded := by
    refine ⟨?_, fun {i b} hb => ?_, fun {i b} hb => ?_⟩
    · show 0 < db.greatraceParameters.minGrBet
      rw [hparams]
      decide
    · rw [show db.raceView.rangeBets i = none from hrange i] at hb
      cases hb
    · rw [show db.raceView.teamBets i = none from hteam i] at hb
      cases hb
  have hstep : ∀ {s a s'}, s.raceView.Funded → step s a = some s' → s'.raceView.Funded :=
    fun h hs => h.step (step_refines hs)
  have hinv : db'.raceView.Funded := invariant hstep hstart hrun
  refine ⟨fun i b hb => ?_, fun i b hb => ?_, fun op d hd => placed_rangeBet hd,
    fun op d hd => placed_teamBet hd, fun time e he => ?_⟩
  · have hpool := hinv.range hb
    exact ⟨hpool.prize, hpool.total1, hpool.total2⟩
  · have hpool := hinv.teams hb
    exact ⟨hpool.prize, hpool.total1, hpool.total2⟩
  · have hview : e.raceView = (db'.moveHead time).raceView := raceView_callsBets he
    obtain ⟨core, hcore⟩ := core_of_callsBets he
    refine proceedGrBets_fair hcore fun o ho => ?_
    rcases List.mem_append.1 ho with ho | ho
    · obtain ⟨⟨i, b⟩, hb, rfl⟩ := List.mem_map.1 ho
      have hfind := mem_inOrder.1 hb
      rw [find_rangeBets_of_raceView hview] at hfind
      exact hinv.range hfind
    · obtain ⟨⟨i, b⟩, hb, rfl⟩ := List.mem_map.1 ho
      have hfind := mem_inOrder.1 hb
      rw [find_teamBets_of_raceView hview] at hfind
      exact hinv.teams hfind

/-- Two teams in a race interval, and two more accounts. -/
def twoTeams : Database :=
  { start grStartTime
      [{ referrer := 0, grTeam := some 0 }, { referrer := 0, grTeam := some 1 },
        { referrer := 0 }, { referrer := 0 }] 1000000 with
    currentGrInterval := 2
    grBetIntervalTime := grStartTime + 10 * secondsPerDay
    grTeams := (Table.empty.create { captain := 0 }).create { captain := 1 } }

/-- Accounts 2 and 3 bet on the two teams in one pool, which the second of them
addresses the other way round. -/
def betOnBoth : List RaceAction :=
  [.teamBet ⟨.core 0, 0, 1, 0, 2, .core 500000⟩, .teamBet ⟨.core 0, 1, 0, 1, 3, .core 700000⟩]

theorem bet_pools_fair_bet_on_both : ∃ db', run step twoTeams betOnBoth = some db' ∧
      ∃ e, (db'.moveHead (grStartTime + 21 * secondsPerDay)).callsBets = some e ∧
        ∃ e' m, ∃ ss : List Settlement, e.proceedGrBets = some e' ∧
          List.Forall₂ (fun o s => o.1.Fair o.2 s) e.outcomes ss ∧ Balances.adjustAll e.balances
            (ss.flatMap fun s => s.payments.map fun p => (p.1, .core p.2)) = some m ∧ e' = { e with
            balances := m
            grRangeBets := e.grRangeBets.clear
            grTeamBets := e.grTeamBets.clear
            assets := e.assets.modify 0 fun c =>
              { c with accumulatedFees := c.accumulatedFees + (ss.map Settlement.fee).sum } } :=
  ⟨_, (some_get (by decide +kernel)).symm, _, (some_get (by decide +kernel)).symm,
    (bet_pools_fair rfl (fun _ => rfl) (fun _ => rfl)
      (some_get (by decide +kernel)).symm).2.2.2.2 _ _ (some_get (by decide +kernel)).symm⟩

end RaceSystem

end CrowdwizChain
