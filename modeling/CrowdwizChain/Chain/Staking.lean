import CrowdwizChain.Chain.Credit
import CrowdwizChain.Chain.RaceInterval
import CrowdwizChain.Chain.RewardPlan

/-!
# Staking

`poc_stak_evaluator` of `poc_evaluator.cpp`: an amount of the core asset is locked in vesting
balances for three, six or twelve months, together with a reward by the percentage that was voted
for the term. Up to eight referrers of the staker get rewards as well, the holders of gold get a
share through the accumulated fees, and so does the account of the apostles. All of this is newly
issued: the amounts are added up as they are credited, and last the supply grows by the sum.

A reward is computed in 128 bits, read as 64 bits without a sign, which throws where it does not
fit, and assigned to an amount, which has a sign: from 2^63 on it is negative. The percentages are
voted in amounts, and nothing bounds them.

`pocStakIssue` gives the amounts that were credited along with the database, for what is said about
them; the evaluator is its first component.
-/

namespace CrowdwizChain

/-- `poc_stak_operation` -/
structure PocStakOperation where
  fee : Asset
  account : AccountId
  stakAmount : Asset
  stakingType : Nat

/-- `poc_stak_operation::validate` -/
def PocStakOperation.validate (op : PocStakOperation) : Bool :=
  0 ≤ op.fee.amount ∧ 0 < op.stakAmount.amount ∧ op.stakAmount.assetId = 0 ∧
    (op.stakingType = 3 ∨ op.stakingType = 6 ∨ op.stakingType = 12)

/-- The amounts that a staking credits besides the amount itself: the reward of the staker, those of
the referrers, the share of the gold holders, and the reward of the apostles. -/
structure StakingIssue where
  reward : Int
  referrals : List (AccountId × Int)
  gcwd : Int
  apostolos : Int

/-- `current_supply_increase` -/
def StakingIssue.total (i : StakingIssue) : Int :=
  i.reward + (i.referrals.map Prod.snd).sum + i.gcwd + i.apostolos

namespace Database

/-- The percentage that was voted for a term. -/
def pocPercentOf (db : Database) (stakingType : Nat) : Nat :=
  if stakingType = 3 then db.poc3Percent
  else if stakingType = 6 then db.poc6Percent
  else db.poc12Percent

/-- The least amount for a term. -/
def pocMinAmountOf (db : Database) (stakingType : Nat) : Int :=
  if stakingType = 3 then db.stakingParameters.poc3MinAmount
  else if stakingType = 6 then db.stakingParameters.poc6MinAmount
  else db.stakingParameters.poc12MinAmount

/-- The sum of percentages that `posible_reward` is computed with, in `uint64_t`. -/
def possiblePercent (db : Database) (stakingType : Nat) : Nat :=
  (db.pocPercentOf stakingType + db.stakingParameters.pocRef.sum + db.stakingParameters.pocGcwd) %
    2 ^ 64

/-- `poc_stak_evaluator::do_evaluate` -/
def pocStakEvaluate (op : PocStakOperation) (db : Database) : Bool :=
  hardforkCwd6Time ≤ db.headBlockTime ∧ db.pocMinAmountOf op.stakingType ≤ op.stakAmount.amount ∧
    (stakingReward op.stakAmount.amount (db.possiblePercent op.stakingType)).any
      fun possibleReward =>
      (db.assets.find 0).any fun core =>
        core.currentSupply + op.stakAmount.amount + possibleReward ≤ core.maxSupply

/-! ### The rewards of the referrers -/

/-- The referrers above an account, the nearest first. -/
def referrersAbove (db : Database) : Nat → Account → Option (List AccountId)
  | 0, _ => some []
  | n + 1, account => (db.accounts.find account.referrer).bind fun ref =>
      (referrersAbove db n ref).map (account.referrer :: ·)

/-- The levels of the network reward, with the accounts that may still get one. -/
def payReferrers (staker : AccountId) (amount : Int) :
    List (AccountId × Nat) → Nat → List AccountId → Database →
    Option (Database × List (AccountId × Int))
  | [], _, _, db => some (db, [])
  | (ref, percent) :: rest, level, accountsSet, db =>
    if ref ≠ 0 ∧ (db.headBlockNum < hardforkCore1480BlockNum ∨ ref ∈ accountsSet ∧
      ref ≠ staker) then
      (db.payStakingReward ref amount level percent).bind fun (db, reward) =>
        (payReferrers staker amount rest (level + 1) (accountsSet.filter (· ≠ ref)) db).map fun r =>
          (r.1, (ref, reward) :: r.2)
    else payReferrers staker amount rest (level + 1) accountsSet db

/-! ### The operation -/

/-- `seconds_in_month` -/
def secondsInMonth : Nat := 2592000

/-- A vesting balance by a linear policy, that begins some months from now. -/
def createLinear (db : Database) (owner : AccountId) (amount : Int) (begins duration : Nat) :
    Database :=
  { db with
    vestingBalances := db.vestingBalances.create ⟨owner, .core amount, .linear
      { beginTimestamp := timePointSec db.headBlockTime (begins * secondsInMonth)
        vestingDurationSeconds := duration * secondsInMonth
        beginBalance := amount }⟩ }

/-- The vesting balances of a staking: reward and body apart for three months, together
otherwise. -/
def createStaking (db : Database) (op : PocStakOperation) (reward : Int) : Database :=
  if op.stakingType = 3 then
    (db.createLinear op.account reward 0 3).createLinear op.account op.stakAmount.amount 3 0
  else if op.stakingType = 6 then db.createLinear op.account (reward + op.stakAmount.amount) 6 0
  else db.createLinear op.account (reward + op.stakAmount.amount) 0 12

/-- The reward of the apostles, from the seventh fork on. -/
def payApostolos (db : Database) (amount : Int) : Option (Database × Int) :=
  if hardforkCwd7Time ≤ db.headBlockTime then
    (stakingReward amount db.greatraceParameters.apostolosReward).bind fun reward =>
      (db.accounts.find grapheneApostolosAccount).bind fun _ =>
        (db.depositCashback grapheneApostolosAccount reward false false).map (·, reward)
  else some (db, 0)

/-- The supply grows, unless that leaves the range of `int64_t`. -/
def increaseSupply (db : Database) (increase : Int) : Option Database :=
  (db.assets.find 0).bind fun core =>
    if core.currentSupply + increase < 2 ^ 63 then
      db.modifyCore fun c => { c with currentSupply := c.currentSupply + increase }
    else none

/-- `poc_stak_evaluator::do_apply`, with what was credited. -/
def pocStakIssue (op : PocStakOperation) (db : Database) : Option (Database × StakingIssue) :=
  (db.adjustBalance op.account (-op.stakAmount)).bind fun db =>
    (db.accounts.find op.account).bind fun account =>
      (db.modifyStatistics op.account fun s => { s with hadStaking := true }).bind fun db =>
        (stakingReward op.stakAmount.amount (db.pocPercentOf op.stakingType)).bind fun reward =>
          let db := db.createStaking op reward
          (db.referrersAbove 8 account).bind fun referrers =>
            (payReferrers op.account op.stakAmount.amount
              (referrers.zip db.stakingParameters.pocRef) 1
              referrers db).bind fun (db, referrals) =>
              (stakingReward op.stakAmount.amount db.stakingParameters.pocGcwd).bind fun gcwd =>
                (db.modifyCore fun c => { c with accumulatedFees := c.accumulatedFees + gcwd }).bind
                  fun db =>
                  (db.payApostolos op.stakAmount.amount).bind fun (db, apostolos) =>
                    let issue : StakingIssue := ⟨reward, referrals, gcwd, apostolos⟩
                    (db.increaseSupply issue.total).map (·, issue)

/-- `poc_stak_evaluator::do_apply` -/
def pocStakApply (op : PocStakOperation) (db : Database) : Option Database :=
  (pocStakIssue op db).map Prod.fst

/-- The staking, which the account pays for and authorises. -/
def pocStak (db : Database) (op : PocStakOperation) : Option Database :=
  if op.validate then
    db.applyOperation op.account op.fee (pocStakEvaluate op) (pocStakApply op)
  else none

end Database

end CrowdwizChain
