import CrowdwizChain.Chain.LeaderBonus

/-!
# The linear bonus

`account_statistics_object::process_fees`: the fees that an account has paid are distributed over
eight levels of rewardable referrers, each of which gets its percentage of the whole fee, and what
is left over goes to the accumulated fees of the core asset. The eight levels are written out one
inside the other in the source, with the same code; here they are one definition, `payLevel`, and a
recursion over the percentages. The first level differs: it may be the account itself, and it also
counts for the race of the teams.

Where a share of the status reduces a cut, the rest is collected and goes to the next referrer of
the bonus status. From block 24940000 on a part of every cut is burned; the two parts are rounded
down separately, and what is lost by that is in the journal.
-/

namespace CrowdwizChain

open Option

/-- The state that the nested levels of `pay_out_fees` share. -/
structure PayState where
  db : Database
  networkCut : Int
  totalDenominatorVolume : Int
  accountsSet : List AccountId

/-- The cut of a level and the collected denominator volume after it. -/
def ChainParameters.feeCut (p : ChainParameters) (activeStatus statusDenominator : Nat)
    (coreFeeTotal : Int) (percent : Nat) (volume : Int) : Int × Int :=
  let cut := cutFee coreFeeTotal percent
  if p.denominator then
    let (volume, cut) :=
      if statusDenominator < graphene100Percent then
        (volume + cutFee cut (graphene100Percent - statusDenominator), cutFee cut statusDenominator)
      else (volume, cut)
    if activeStatus = p.denominatorBonusLevel ∧ 0 < volume then (cut + volume, 0)
    else (cut, volume)
  else (cut, volume)

/-- The share of a cut that is not handed out, in hundredths of a percent. -/
def burnedPercent (headBlockNum : Nat) : Nat :=
  if headBlockNum < hardforkCore1480BlockNum then 0
  else if headBlockNum < hardforkCore1481BlockNum then grapheneDefaultBurnPercentOfFee
  else grapheneDefaultCutLinearBonus

/-- Volumes of the teams count in these intervals of the race. -/
def isGrInterval (interval : Nat) : Bool := interval ∈ [2, 4, 6, 9, 11, 13]

/-- The volume of a team in the current interval. -/
def GrTeam.addVolume (t : GrTeam) (interval : Nat) (reward : Int) : GrTeam :=
  { t with
    grIntervalVolume := fun i =>
      if i = interval then t.grIntervalVolume i + reward else t.grIntervalVolume i
    firstHalfVolume := if interval ≤ 6 then t.firstHalfVolume + reward else t.firstHalfVolume
    secondHalfVolume := if interval ≤ 6 then t.secondHalfVolume else t.secondHalfVolume + reward
    totalVolume := t.totalVolume + reward }

namespace Database

/-- The reward of a level is credited, and a part of the cut is burned: to the null account, or
later out of the supply. -/
def payCut (db : Database) (level : Nat) (ref : AccountId) (cut : Int) (requireVesting : Bool) :
    Option (Database × Int) :=
  let reward := cutFee cut (graphene100Percent - burnedPercent db.headBlockNum)
  let burned := cutFee cut (burnedPercent db.headBlockNum)
  (if db.headBlockNum < hardforkCore1480BlockNum then some db
  else if db.headBlockNum < hardforkCore1481BlockNum then
    db.adjustBalance grapheneNullAccount (.core burned)
  else
    db.modifyCore fun c => { c with currentSupply := c.currentSupply - burned }).bind fun db =>
    (db.depositCashback ref reward requireVesting true).map fun db =>
      (db.log (.linearReward ref level cut reward burned), reward)

/-- The reward of the first level counts for the race. -/
def countGrReward (db : Database) (ref : AccountId) (reward : Int) : Option Database :=
  if isGrInterval db.currentGrInterval then
    (db.modifyStatistics ref fun s =>
      { s with currentPeriodGr := s.currentPeriodGr + reward }).bind fun db =>
      (db.accounts.find ref).bind fun account =>
        match account.grTeam with
        | none => some db
        | some team => (db.grTeams.find team).map fun _ =>
          { db with
            grTeams := db.grTeams.modify team (·.addVolume db.currentGrInterval reward) }
  else some db

/-- One level of `pay_out_fees`. -/
def payLevel (coreFeeTotal : Int) (requireVesting : Bool) (level percent : Nat) (ref : AccountId)
    (st : PayState) : Option PayState :=
  (st.db.accounts.find ref).bind fun account =>
    if 0 < percent ∧ 0 < st.networkCut ∧ level ≤ account.referralLevels then
      let (cut, volume) := st.db.parameters.feeCut (st.db.activeStatus account)
        account.statusDenominator coreFeeTotal percent st.totalDenominatorVolume
      (st.db.payCut level ref cut requireVesting).bind fun (db, reward) =>
        (if level = 1 then db.countGrReward ref reward else some db).map fun db =>
          { db
            networkCut := st.networkCut - cut
            totalDenominatorVolume := volume
            accountsSet := ref :: st.accountsSet }
    else some st

/-- The referrer has not been rewarded yet; until block 24940000 this is not looked at. -/
def notYetPaid (st : PayState) (ref : AccountId) : Bool :=
  st.db.headBlockNum < hardforkCore1480BlockNum ∨ ref ∉ st.accountsSet

/-- The nested levels of `pay_out_fees`, over the percentages from a level on. -/
def payLevels (coreFeeTotal : Int) (requireVesting : Bool) :
    List Nat → Nat → AccountId → PayState → Option PayState
  | [], _, _, st => some st
  | percent :: percents, level, ref, st =>
    (payLevel coreFeeTotal requireVesting level percent ref st).bind fun st =>
      if percents = [] then some st
      else
        (st.db.nextRewardable ref).bind fun next =>
          (st.db.accounts.find next).bind fun _ =>
            if ref ≠ next ∧ notYetPaid st next then
              payLevels coreFeeTotal requireVesting percents (level + 1) next st
            else some st

/-- `pay_out_fees` of `process_fees`. -/
def payOutFees (db : Database) (a : AccountId) (coreFeeTotal : Int) (requireVesting : Bool) :
    Option Database :=
  (db.accounts.find a).bind fun account =>
    (if db.parameters.cashback ∧ 0 < db.activeStatus account then some a
    else db.nextRewardable a).bind fun ref =>
      (db.accounts.find ref).bind fun _ =>
        let st : PayState := ⟨db, coreFeeTotal, 0, []⟩
        (if (a ≠ ref ∨ db.parameters.cashback) ∧ notYetPaid st ref then
          payLevels coreFeeTotal requireVesting db.parameters.refPercentOfFee 1 ref st
        else some st).bind fun st =>
          st.db.modifyCore fun c =>
            { c with accumulatedFees := c.accumulatedFees + st.networkCut }

/-- `pay_out_fees` is called for what is pending, if there is something. -/
def payOutPending (db : Database) (a : AccountId) (amount : Int) (requireVesting : Bool) :
    Option Database :=
  if 0 < amount then db.payOutFees a amount requireVesting else some db

/-- `account_statistics_object::process_fees` -/
def processFees (db : Database) (a : AccountId) : Option Database :=
  (db.pending a).bind fun (fees, vested) =>
    if 0 < fees ∨ 0 < vested then
      (db.payOutPending a fees true).bind fun db =>
        (db.pending a).bind fun (_, vested) =>
          (db.payOutPending a vested false).bind fun db =>
            db.modifyStatistics a fun s =>
              { s with
                lifetimeFeesPaid := s.lifetimeFeesPaid + (s.pendingFees + s.pendingVestedFees)
                pendingFees := 0
                pendingVestedFees := 0 }
    else some db

/-! ### The ledger of a cut -/

variable {db db' : Database} {a ref : AccountId} {requireVesting : Bool} {reward total : Int}
  {level : Nat}

theorem rewardFrame_payCut {cut : Int}
    (h : db.payCut level ref cut requireVesting = some (db', reward)) :
    db.RewardFrame db' := by
  obtain ⟨db1, h1, h⟩ := bind_eq_some_iff.1 h
  obtain ⟨db2, h2, heq⟩ := map_eq_some_iff.1 h
  cases heq
  refine RewardFrame.trans ?_
    ((depositCashback_steps h2).rewardFrame.trans (rewardFrame_log db2 rfl))
  split at h1
  · cases h1
    exact RewardFrame.refl db
  · split at h1
    · exact rewardFrame_adjustBalance h1
    · exact rewardFrame_modifyCore h1

/-- A cut is paid in full, up to the rounding that the journal notes. -/
theorem imbalance_payCut {cut : Int}
    (h : db.payCut level ref cut requireVesting = some (db', reward)) :
    db'.imbalance = db.imbalance + cut := by
  obtain ⟨db1, h1, h⟩ := bind_eq_some_iff.1 h
  obtain ⟨db2, h2, heq⟩ := map_eq_some_iff.1 h
  cases heq
  have himb1 : db1.imbalance = db.imbalance + cutFee cut (burnedPercent db.headBlockNum) := by
    split at h1
    · next hnum =>
      cases h1
      simp [burnedPercent, hnum, cutFee]
    · split at h1
      · rw [imbalance_adjustBalance h1, Asset.coreAmount_core]
      · obtain ⟨c, hc, -⟩ := modifyCore_eq_some h1
        rw [imbalance_modifyCore hc h1]
        simp only
        omega
  rw [imbalance_log, imbalance_depositCashback h2, himb1, JournalEntry.minted]
  omega

/-- Counting a reward enters it into the statistics, and into the volumes of a team. -/
theorem countGrReward_eq_some (h : db.countGrReward ref reward = some db') :
    db' = db ∨ ∃ db1 grTeams, db.modifyStatistics ref (fun s =>
      { s with currentPeriodGr := s.currentPeriodGr + reward }) = some db1 ∧
        db' = { db1 with grTeams } := by
  rw [countGrReward] at h
  split at h
  · obtain ⟨db1, h1, h⟩ := bind_eq_some_iff.1 h
    obtain ⟨account, -, h⟩ := bind_eq_some_iff.1 h
    split at h
    · exact .inr ⟨db1, db1.grTeams, h1, (some.inj h).symm⟩
    · obtain ⟨t, -, rfl⟩ := map_eq_some_iff.1 h
      exact .inr ⟨db1, _, h1, rfl⟩
  · exact .inl (some.inj h).symm

theorem countGrReward_ledger (h : db.countGrReward ref reward = some db') :
    db.RewardFrame db' ∧ db'.imbalance = db.imbalance := by
  rcases countGrReward_eq_some h with rfl | ⟨db1, t, h1, rfl⟩
  · exact ⟨RewardFrame.refl _, rfl⟩
  · refine ⟨{ rewardFrame_modifyStatistics h1 fun _ => ⟨rfl, rfl⟩ with }, ?_⟩
    obtain ⟨s, hs, -⟩ := modifyStatistics_eq_some h1
    have himb := imbalance_modifyStatistics hs h1
    simp only [AccountStatistics.held] at himb
    exact himb.trans (by omega)

end Database

end CrowdwizChain
