import CrowdwizChain.Chain.RewardPlan

/-!
# Upgrading the status of an account

`account_status_upgrade_evaluator` of `account_evaluator.cpp`. The fee counts as volume of the
referrer and of the referrers above, leaders are rewarded for it, and all fees of the account are
distributed at once. Then the status runs for a year, or for a year more, and what is left of a
status paid before becomes bonus days. `auto_reset_status` of `db_update.cpp` takes back the
statuses that have expired, after every block.
-/

namespace CrowdwizChain

open Option

/-- `account_status_upgrade_operation` -/
structure AccountStatusUpgradeOperation where
  fee : Asset
  accountToUpgrade : AccountId
  referralStatusType : Nat

/-- `account_status_upgrade_operation::validate` -/
def AccountStatusUpgradeOperation.validate (op : AccountStatusUpgradeOperation) : Bool :=
  0 ≤ op.fee.amount ∧ 0 < op.referralStatusType ∧ op.referralStatusType ≤ 4

/-- The product of two amounts, which throws where it leaves the range of `int64_t`. -/
def shareMul (x y : Int) : Option Int :=
  if -2 ^ 63 ≤ x * y ∧ x * y < 2 ^ 63 then some (x * y) else none

/-- What is left of the fee paid before, `paid_last`, for a year. -/
def Account.paidLastYear (a : Account) (headTime : Nat) : Option Int :=
  let lastDays : Int :=
    ((a.referralStatusExpirationDate : Int) - headTime).tdiv secondsPerDay
  (shareMul (a.referralStatusPaidFee.tdiv 365) lastDays).bind fun paidLast => shareMul paidLast 365

/-- The bonus days for what is left of the status paid before. A division by a fee of zero throws,
and a number of days beyond `int` is counted up to forever. -/
def Account.bonusDays (a : Account) (feeValue : Int) (headTime : Nat) : Option Nat :=
  if headTime < a.referralStatusExpirationDate then
    (a.paidLastYear headTime).bind fun paidLastYear =>
      if feeValue = 0 then none
      else
        let bonusDays := paidLastYear.tdiv feeValue
        if bonusDays < 2 ^ 31 then some bonusDays.toNat else none
  else some 0

/-- The new expiration of a status. -/
def Account.statusExpiration (a : Account) (statusType : Nat) (feeValue : Int) (headTime : Nat) :
    Option Nat :=
  if statusType = a.referralStatusType ∧ headTime < a.referralStatusExpirationDate then
    some (timePointSec a.referralStatusExpirationDate (365 * secondsPerDay))
  else
    (a.bonusDays feeValue headTime).map fun bonus =>
      timePointSec (timePointSec headTime (365 * secondsPerDay)) (bonus * secondsPerDay)

/-- The account after an upgrade. -/
def Account.upgrade (a : Account) (p : ChainParameters) (statusType : Nat) (feeValue : Int)
    (headTime : Nat) : Option Account :=
  (a.statusExpiration statusType feeValue headTime).map fun expiration =>
    { a with
      referralStatusExpirationDate := expiration
      referralStatusType := statusType
      referralStatusPaidFee := feeValue
      referralLevels := p.statusLevels.getD statusType a.referralLevels
      statusDenominator := p.statusDenominator.getD statusType a.statusDenominator }

/-- The account after the end of its status. -/
def Account.resetStatus (a : Account) (p : ChainParameters) : Account :=
  { a with
    referralStatusType := 0
    referralStatusPaidFee := 0
    referralStatusExpirationDate := 0
    referralLevels := p.statusLevels.headD 0
    statusDenominator := p.statusDenominator.headD 0 }

namespace Database

/-- `account_status_upgrade_evaluator::do_evaluate` -/
def accountStatusUpgradeEvaluate (op : AccountStatusUpgradeOperation) (db : Database) : Bool :=
  (db.accounts.find op.accountToUpgrade).any fun a =>
    a.referralStatusType ≤ op.referralStatusType

/-- `account_status_upgrade_evaluator::do_apply` -/
def accountStatusUpgradeApply (op : AccountStatusUpgradeOperation) (db : Database) :
    Option Database :=
  (db.accounts.find op.accountToUpgrade).bind fun account =>
    (db.updatePv op.fee.amount account.referrer).bind fun db =>
      (db.updateNvFrom op.fee.amount account.referrer).bind fun db =>
        (db.processFees op.accountToUpgrade).bind fun db =>
          (db.accounts.find op.accountToUpgrade).bind fun account =>
            (account.upgrade db.parameters op.referralStatusType op.fee.amount
              db.headBlockTime).map fun account =>
              { db with accounts := db.accounts.modify op.accountToUpgrade fun _ => account }

/-- The status upgrade, which the account itself pays for. -/
def accountStatusUpgrade (db : Database) (op : AccountStatusUpgradeOperation) : Option Database :=
  if op.validate then
    db.applyOperation op.accountToUpgrade op.fee (accountStatusUpgradeEvaluate op)
      (accountStatusUpgradeApply op)
  else none

/-- `database::auto_reset_status`. An account that is reset moves to the front of the index, so that
after the first one the loop also meets those that expire with the first second. -/
def autoResetStatus (db : Database) : Database :=
  if db.accounts.rows.entries.any fun e => 1 < e.2.referralStatusExpirationDate ∧
      e.2.referralStatusExpirationDate < db.headBlockTime then
    { db with
      accounts := db.accounts.modifyAll fun a =>
        if 0 < a.referralStatusExpirationDate ∧
          a.referralStatusExpirationDate < db.headBlockTime then
          a.resetStatus db.parameters
        else a }
  else db

/-- The steps of an upgrade: volumes and leaders (`db₁`), the fees (`db₂`), and the account. -/
theorem accountStatusUpgradeApply_eq_some {op : AccountStatusUpgradeOperation} {db db' : Database}
    (h : accountStatusUpgradeApply op db = some db') :
    ∃ db1 db2 t, db.RewardFrame db1 ∧ db1.imbalance = db.imbalance ∧
      db1.processFees op.accountToUpgrade = some db2 ∧ db' = { db2 with accounts := t } := by
  obtain ⟨account, -, h⟩ := bind_eq_some_iff.1 h
  obtain ⟨db0, h0, h⟩ := bind_eq_some_iff.1 h
  obtain ⟨db1, h1, h⟩ := bind_eq_some_iff.1 h
  obtain ⟨db2, h2, h⟩ := bind_eq_some_iff.1 h
  obtain ⟨account', -, h⟩ := bind_eq_some_iff.1 h
  obtain ⟨account'', -, rfl⟩ := map_eq_some_iff.1 h
  obtain ⟨hframe, himb⟩ := updateNv_ledger h1
  exact ⟨db1, db2, _, (rewardFrame_updatePv h0).trans hframe, himb.trans (imbalance_updatePv h0),
    h2, rfl⟩

/-- An upgrade leaves everything balanced, apart from what the journal notes. -/
theorem imbalance_accountStatusUpgrade {db db' : Database} {op : AccountStatusUpgradeOperation}
    (hdb : db.PendingNonneg) (h : db.accountStatusUpgrade op = some db') :
    db'.imbalance = db.imbalance := by
  obtain ⟨-, h⟩ := ite_none_right_eq_some.1 h
  refine imbalance_applyOperation hdb (fun {d d'} hd hap => ?_) h
  obtain ⟨db1, db2, t, hframe, himb, hfees, rfl⟩ := accountStatusUpgradeApply_eq_some hap
  have himb2 := imbalance_processFees (hframe.pendingNonneg hd _) hfees
  exact himb2.trans himb

end Database

end CrowdwizChain
