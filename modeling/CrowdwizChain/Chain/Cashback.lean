import CrowdwizChain.Chain.Referral

/-!
# Cashback

`database::deposit_lazy_vesting` and `database::deposit_cashback` of `db_balance.cpp`. Rewards are
deposited as cashback. If the account has a credit open, the income is withheld until the credit is
covered; what covers it ends the credit, which is taken out of the supply (a system credit, whose
creditor is account zero) or paid to the creditor. The rest goes to the vesting balance of the
account, or, for the accounts of the chain itself, out of the supply.

`imbalance_depositCashback` is the ledger of all of this: whatever branch is taken, the holdings
less the supply grow by the amount deposited, except where a credit of account zero ends of which
something had been repaid; the journal has an entry for that.
-/

namespace CrowdwizChain

open Option Transition

/-! ### Vesting balances -/

namespace CddVestingPolicy

/-- `cdd_vesting_policy::compute_coin_seconds_earned` -/
def computeCoinSecondsEarned (p : CddVestingPolicy) (balance : Int) (now : Nat) : Nat :=
  let deltaSeconds : Int := (now : Int) - p.coinSecondsEarnedLastUpdate
  let deltaCoinSeconds := toUInt128 (balance * deltaSeconds)
  let coinSecondsEarnedCap := toUInt128 (balance * max p.vestingSeconds 1)
  min ((p.coinSecondsEarned + deltaCoinSeconds) % 2 ^ 128) coinSecondsEarnedCap

/-- `cdd_vesting_policy::on_deposit` -/
def onDeposit (p : CddVestingPolicy) (balance : Int) (now : Nat) : CddVestingPolicy :=
  { p with
    coinSecondsEarned := p.computeCoinSecondsEarned balance now
    coinSecondsEarnedLastUpdate := now }

/-- `cdd_vesting_policy::on_deposit_vested` -/
def onDepositVested (p : CddVestingPolicy) (balance : Int) (now : Nat) (amount : Int) :
    CddVestingPolicy :=
  let p := p.onDeposit balance now
  { p with
    coinSecondsEarned := (p.coinSecondsEarned +
      toUInt128 (toInt64 (amount * max p.vestingSeconds 1))) % 2 ^ 128 }

end CddVestingPolicy

/-- `vesting_balance_object::deposit` and `deposit_vested`, for a balance of the core asset with
the policy by coin days. -/
def VestingBalance.depositCore (v : VestingBalance) (p : CddVestingPolicy) (now : Nat)
    (amount : Int) (requireVesting : Bool) : VestingBalance :=
  { v with
    policy := .cdd (if requireVesting then p.onDeposit v.balance.amount now
      else p.onDepositVested v.balance.amount now amount)
    balance := ⟨v.balance.amount + amount, v.balance.assetId⟩ }

/-- The statistics without what deposits change. -/
def AccountStatistics.withoutDeposits (s : AccountStatistics) : AccountStatistics :=
  { s with
    currentMonthIncome := 0, allowedToRepay := 0, totalCredit := 0, creditRepaid := 0, creditor := 0
    hasCashbackVb := false }

namespace Database

/-- The vesting balance that `deposit_lazy_vesting` creates. -/
def newVesting (db : Database) (amount : Int) (reqVestingSeconds : Nat) (reqOwner : AccountId)
    (requireVesting : Bool) : VestingBalance :=
  { owner := reqOwner
    balance := .core amount
    policy := .cdd
      { vestingSeconds := reqVestingSeconds
        coinSecondsEarned :=
          if requireVesting then 0 else toUInt128 (toInt64 (amount * reqVestingSeconds))
        coinSecondsEarnedLastUpdate := db.headBlockTime } }

/-- The balance that `deposit_lazy_vesting` deposits into, with its policy: the one it is given, if
it has the right owner, kind of policy and period. A given balance must exist. -/
def lazyTarget (db : Database) (ovbid : Option Nat) (reqVestingSeconds : Nat)
    (reqOwner : AccountId) : Option (Option (Nat × VestingBalance × CddVestingPolicy)) :=
  match ovbid with
  | none => some none
  | some id => (db.vestingBalances.find id).map fun vbo =>
    match vbo.policy with
    | .linear _ => none
    | .cdd p =>
      if vbo.owner = reqOwner ∧ p.vestingSeconds = reqVestingSeconds then some (id, vbo, p)
      else none

/-- `database::deposit_lazy_vesting`: the database, and the new vesting balance if one was made. -/
def depositLazyVesting (db : Database) (ovbid : Option Nat) (amount : Int)
    (reqVestingSeconds : Nat) (reqOwner : AccountId) (requireVesting : Bool) :
    Option (Database × Option Nat) :=
  if amount = 0 then some (db, none)
  else (db.lazyTarget ovbid reqVestingSeconds reqOwner).bind fun target =>
    match target with
    | some (id, vbo, p) =>
      -- the sum of two assets throws unless they are the same
      if vbo.balance.assetId = 0 then
        some ({ db with
          vestingBalances := db.vestingBalances.modify id fun v =>
            v.depositCore p db.headBlockTime amount requireVesting }, none)
      else none
    | none =>
      some ({ db with
        vestingBalances := db.vestingBalances.create
          (db.newVesting amount reqVestingSeconds reqOwner requireVesting) },
        some db.vestingBalances.nextId)

/-! ### Withholding for a credit -/

/-- The end of a credit in `deposit_cashback`: a system credit leaves the supply, another one is
paid to its creditor as far as it was not repaid, and the account is free. -/
def closeCredit (db : Database) (a : AccountId) (s : AccountStatistics) : Option Database :=
  (if s.creditor = 0 then
    (db.modifyCore fun c => { c with currentSupply := c.currentSupply - s.totalCredit }).map
      (·.log (.creditTotalRepay a s.creditor s.totalCredit s.creditRepaid))
  else
    (db.adjustBalance s.creditor (.core (s.totalCredit - s.creditRepaid))).map
      (·.log (.creditTotalRepay a s.creditor (s.totalCredit - s.creditRepaid)
        s.creditRepaid))).bind fun db =>
    db.modifyStatistics a fun s =>
      { s with allowedToRepay := 0, totalCredit := 0, creditRepaid := 0, creditor := 0 }

/-- The middle part of `deposit_cashback`: what of the income is left after withholding, or `none`
inside if all of it is withheld. -/
def withholdCashback (db : Database) (a : AccountId) (amount : Int) :
    Option (Database × Option Int) :=
  (db.statistics.lookup a).bind fun s =>
    if 0 < s.totalCredit ∧ hardforkCwd5Time ≤ db.headBlockTime then
      let credit := s.totalCredit - s.allowedToRepay
      if amount < credit then
        (db.modifyStatistics a fun s =>
          { s with allowedToRepay := s.allowedToRepay + amount }).map (·, none)
      else (db.closeCredit a s).map (·, some (amount - credit))
    else some (db, some amount)

/-- The accounts of the chain itself, which get no cashback. -/
def isChainAccount (a : AccountId) : Bool :=
  a = grapheneCommitteeAccount ∨ a = grapheneWitnessAccount ∨
    a = grapheneRelaxedCommitteeAccount ∨ a = grapheneNullAccount ∨ a = grapheneTempAccount

/-- The last part of `deposit_cashback`: the rest goes to the vesting balance of the account. -/
def creditCashback (db : Database) (a : AccountId) (amount : Int) (requireVesting : Bool) :
    Option Database :=
  if isChainAccount a then
    db.modifyCore fun c => { c with currentSupply := c.currentSupply - amount }
  else
    (db.accounts.find a).bind fun acct =>
      (db.depositLazyVesting acct.cashbackVb amount db.parameters.cashbackVestingPeriodSeconds a
        requireVesting).bind fun (db, newVbid) =>
        match newVbid with
        | none => some db
        | some id =>
          { db with
            accounts := db.accounts.modify a fun acct =>
              { acct with cashbackVb := some id } }.modifyStatistics a
            fun s => { s with hasCashbackVb := true }

/-- `database::deposit_cashback` -/
def depositCashback (db : Database) (a : AccountId) (amount : Int) (requireVesting : Bool)
    (countIncome : Bool) : Option Database :=
  if amount = 0 then some db
  else
    (if countIncome then
      db.modifyStatistics a fun s => { s with currentMonthIncome := s.currentMonthIncome + amount }
    else some db).bind fun db =>
      (db.withholdCashback a amount).bind fun (db, rest) =>
        match rest with
        | none => some db
        | some amount => db.creditCashback a amount requireVesting

/-! ### Deposits to vesting balances -/

variable {db db' : Database} {a : AccountId} {amount : Int} {requireVesting : Bool}

theorem lazyTarget_eq_some {ovbid : Option Nat} {seconds : Nat} {owner : AccountId} {id : Nat}
    {vbo : VestingBalance} {p : CddVestingPolicy}
    (h : db.lazyTarget ovbid seconds owner = some (some (id, vbo, p))) :
    db.vestingBalances.find id = some vbo ∧ vbo.owner = owner ∧
      ovbid = some id ∧ vbo.policy = .cdd p ∧ p.vestingSeconds = seconds := by
  rcases ovbid with _ | i
  · cases h
  · obtain ⟨v, hv, h⟩ := map_eq_some_iff.1 h
    split at h
    · cases h
    · next q hq =>
      obtain ⟨hcond, h⟩ := ite_none_right_eq_some.1 h
      cases h
      exact ⟨hv, hcond.1, rfl, hq, hcond.2⟩

/-- A deposit to a vesting balance changes the vesting balances only, by the amount. -/
theorem depositLazyVesting_eq_some {ovbid new : Option Nat} {seconds : Nat} {owner : AccountId}
    (h : db.depositLazyVesting ovbid amount seconds owner requireVesting = some (db', new)) :
    ∃ t, db' = { db with vestingBalances := t } ∧ db'.vesting = db.vesting + amount := by
  rw [depositLazyVesting] at h
  split at h
  · next hzero =>
    cases h
    exact ⟨db.vestingBalances, rfl, by omega⟩
  · obtain ⟨target, htarget, h⟩ := bind_eq_some_iff.1 h
    rcases target with _ | ⟨id, vbo, p⟩
    · cases h
      refine ⟨_, rfl, ?_⟩
      simp only [vesting, Table.sumBy_create, newVesting, Asset.coreAmount_core]
    · obtain ⟨hcore, h⟩ := ite_none_right_eq_some.1 h
      cases h
      obtain ⟨hfind, -⟩ := lazyTarget_eq_some htarget
      refine ⟨_, rfl, ?_⟩
      have hsum := Table.sumBy_modify (fun _ (v : VestingBalance) => v.balance.coreAmount)
        (fun v => v.depositCore p db.headBlockTime amount requireVesting) hfind
      have hrow : (vbo.depositCore p db.headBlockTime amount requireVesting).balance.coreAmount =
          vbo.balance.coreAmount + amount := by
        simp [VestingBalance.depositCore, Asset.coreAmount, hcore]
      simp only [vesting, hsum]
      omega

/-! ### The steps of a deposit -/

/-- A step of a deposit. -/
inductive DepositStep (db : Database) : Database → Prop
  | balance {a n db'} (h : db.adjustBalance a (.core n) = some db') : DepositStep db db'
  | supply {f db'} (h : db.modifyCore f = some db')
      (hf : ∀ c, (f c).accumulatedFees = c.accumulatedFees) : DepositStep db db'
  | statistics {a f db'} (h : db.modifyStatistics a f = some db')
      (hf : ∀ s, (f s).withoutDeposits = s.withoutDeposits ∧
        (s.hasCashbackVb = true → (f s).hasCashbackVb = true)) : DepositStep db db'
  | vesting (t) : DepositStep db { db with vestingBalances := t }
  | cashbackVb (a id) : DepositStep db { db with
      accounts := db.accounts.modify a fun acct => { acct with cashbackVb := some id } }
  | repaid (debitor creditor amount repaid) :
      DepositStep db (db.log (.creditTotalRepay debitor creditor amount repaid))

/-- Any number of steps. -/
abbrev DepositSteps : Database → Database → Prop := Relation.ReflTransGen DepositStep

/-- **The rule for deposits**: what holds of every step, and can be put together, holds
of a deposit. -/
theorem DepositSteps.lift {R : Database → Database → Prop} (h : db.DepositSteps db')
    (hrefl : ∀ db, R db db) (htrans : ∀ {db db' db''}, R db db' → R db' db'' → R db db'')
    (hstep : ∀ {db db'}, db.DepositStep db' → R db db') : R db db' := by
  induction h with
  | refl => exact hrefl _
  | tail _ h ih => exact htrans ih (hstep h)

theorem closeCredit_steps {s : AccountStatistics} (h : db.closeCredit a s = some db') :
    db.DepositSteps db' := by
  obtain ⟨db1, h1, h⟩ := bind_eq_some_iff.1 h
  refine Relation.ReflTransGen.tail ?_ (.statistics h fun _ => ⟨rfl, id⟩)
  split at h1
  · obtain ⟨db2, h2, rfl⟩ := map_eq_some_iff.1 h1
    exact .tail (.single (.supply h2 fun _ => rfl)) (.repaid _ _ _ _)
  · obtain ⟨db2, h2, rfl⟩ := map_eq_some_iff.1 h1
    exact .tail (.single (.balance h2)) (.repaid _ _ _ _)

/-- What both routines do with an income before they pass the rest on: nothing, without a credit;
withhold all of it; or end the credit. -/
inductive Withholds (db : Database) (a : AccountId) (amount : Int) : Database → Int → Prop
  | nothing : Withholds db a amount db amount
  | everything (s : AccountStatistics) (db₁ : Database) (hs : db.statistics.lookup a = some s)
    (hamount : amount < s.totalCredit - s.allowedToRepay)
    (h : db.modifyStatistics a (fun s =>
      { s with allowedToRepay := s.allowedToRepay + amount }) = some db₁) :
    Withholds db a amount db₁ 0
  | theRest (s : AccountStatistics) (db₁ : Database) (hs : db.statistics.lookup a = some s)
    (htotal : 0 < s.totalCredit) (hamount : s.totalCredit - s.allowedToRepay ≤ amount)
    (h : db.closeCredit a s = some db₁) :
    Withholds db a amount db₁ (amount - (s.totalCredit - s.allowedToRepay))

theorem withholdCashback_withholds {rest : Option Int}
    (h : db.withholdCashback a amount = some (db', rest)) :
    db.Withholds a amount db' (rest.getD 0) := by
  obtain ⟨s, hs, h⟩ := bind_eq_some_iff.1 h
  split at h
  · next hcond =>
    dsimp only at h
    split at h
    · next hlt =>
      obtain ⟨db2, h2, heq⟩ := map_eq_some_iff.1 h
      obtain ⟨rfl, rfl⟩ := Prod.mk.inj heq
      exact .everything s db2 hs hlt h2
    · next hge =>
      obtain ⟨db2, h2, heq⟩ := map_eq_some_iff.1 h
      obtain ⟨rfl, rfl⟩ := Prod.mk.inj heq
      exact .theRest s db2 hs hcond.1 (not_lt.1 hge) h2
  · cases h
    exact .nothing

theorem Withholds.steps {rest : Int} (h : db.Withholds a amount db' rest) :
    db.DepositSteps db' := by
  cases h with
  | nothing => exact .refl
  | everything _ _ _ _ h => exact .single (.statistics h fun _ => ⟨rfl, id⟩)
  | theRest _ _ _ _ _ h => exact closeCredit_steps h

theorem creditCashback_steps (h : db.creditCashback a amount requireVesting = some db') :
    db.DepositSteps db' := by
  rw [creditCashback] at h
  split at h
  · exact .single (.supply h fun _ => rfl)
  · obtain ⟨acct, -, h⟩ := bind_eq_some_iff.1 h
    obtain ⟨⟨db1, new⟩, h1, h⟩ := bind_eq_some_iff.1 h
    obtain ⟨t, rfl, -⟩ := depositLazyVesting_eq_some h1
    rcases new with _ | id
    · cases h
      exact .single (.vesting t)
    · refine .tail (.tail (.single (.vesting t)) (.cashbackVb a id)) (.statistics h fun _ => ?_)
      exact ⟨rfl, fun _ => rfl⟩

/-- A deposit of cashback is made of such steps. -/
theorem depositCashback_steps {countIncome : Bool}
    (h : db.depositCashback a amount requireVesting countIncome = some db') :
    db.DepositSteps db' := by
  rw [depositCashback] at h
  split at h
  · cases h
    exact .refl
  · obtain ⟨db1, h1, h⟩ := bind_eq_some_iff.1 h
    obtain ⟨⟨db2, rest⟩, h2, h⟩ := bind_eq_some_iff.1 h
    have hincome : db.DepositSteps db1 :=
      optional_step h1 (fun _ h1 => .single (.statistics h1 fun _ => ⟨rfl, id⟩)) .refl
    refine (hincome.trans (withholdCashback_withholds h2).steps).trans ?_
    rcases rest with _ | amount'
    · cases h
      exact .refl
    · exact creditCashback_steps h

theorem DepositStep.rewardFrame (h : db.DepositStep db') : db.RewardFrame db' := by
  cases h with
  | balance h => exact rewardFrame_adjustBalance h
  | supply h => exact rewardFrame_modifyCore h
  | statistics h hf =>
    exact rewardFrame_modifyStatistics h fun s => ⟨congrArg (·.pendingFees) (hf s).1,
      congrArg (·.pendingVestedFees) (hf s).1⟩
  | vesting => exact { RewardFrame.refl db with }
  | cashbackVb a id =>
    exact { RewardFrame.refl db with accounts := Table.isSome_find_modify a _ }
  | repaid => exact rewardFrame_log _ rfl

theorem DepositSteps.rewardFrame (h : db.DepositSteps db') : db.RewardFrame db' :=
  h.lift RewardFrame.refl RewardFrame.trans DepositStep.rewardFrame

/-! ### The ledger of a deposit -/

/-- Ending a credit moves the rest of it from nowhere to the creditor, or out of the supply. -/
theorem imbalance_closeCredit {s : AccountStatistics} (hs : db.statistics.lookup a = some s)
    (h : db.closeCredit a s = some db') :
    db'.imbalance = db.imbalance + (s.totalCredit - s.allowedToRepay) := by
  obtain ⟨db1, h1, h⟩ := bind_eq_some_iff.1 h
  have key : db1.statistics = db.statistics ∧
      db1.imbalance = db.imbalance + (s.totalCredit - s.creditRepaid) := by
    split at h1
    · next hzero =>
      obtain ⟨db2, h2, rfl⟩ := map_eq_some_iff.1 h1
      obtain ⟨c, hc, hdb2⟩ := modifyCore_eq_some h2
      refine ⟨by rw [hdb2]; rfl, ?_⟩
      rw [imbalance_log, imbalance_modifyCore hc h2, JournalEntry.minted, if_pos hzero]
      simp only
      omega
    · next hne =>
      obtain ⟨db2, h2, rfl⟩ := map_eq_some_iff.1 h1
      obtain ⟨m, -, hdb2⟩ := adjustBalance_eq_some h2
      refine ⟨by rw [hdb2]; rfl, ?_⟩
      rw [imbalance_log, imbalance_adjustBalance h2, JournalEntry.minted, if_neg hne,
        Asset.coreAmount_core]
      omega
  rw [imbalance_modifyStatistics (key.1 ▸ hs) h, key.2]
  simp only [AccountStatistics.held]
  omega

/-- What is not left over was withheld or went into ending the credit. -/
theorem Withholds.rewardFrame {rest : Int} (h : db.Withholds a amount db' rest) :
    db.RewardFrame db' :=
  h.steps.rewardFrame

theorem Withholds.imbalance_eq {rest : Int} (h : db.Withholds a amount db' rest) :
    db'.imbalance = db.imbalance + (amount - rest) := by
  cases h with
  | nothing => omega
  | everything s _ hs _ h =>
    rw [imbalance_modifyStatistics hs h]
    simp only [AccountStatistics.held]
    omega
  | theRest s _ hs _ _ h =>
    rw [imbalance_closeCredit hs h]
    omega

theorem imbalance_creditCashback (h : db.creditCashback a amount requireVesting = some db') :
    db'.imbalance = db.imbalance + amount := by
  rw [creditCashback] at h
  split at h
  · obtain ⟨c, hc, -⟩ := modifyCore_eq_some h
    rw [imbalance_modifyCore hc h]
    simp only
    omega
  · obtain ⟨acct, hacct, h⟩ := bind_eq_some_iff.1 h
    obtain ⟨⟨db1, new⟩, h1, h⟩ := bind_eq_some_iff.1 h
    obtain ⟨t, hdb1, hvesting⟩ := depositLazyVesting_eq_some h1
    have himb : db1.imbalance = db.imbalance + amount := by
      subst hdb1
      simp only [imbalance, holdings, hvesting, held, escrow, pools, supply, minted]
      omega
    rcases new with _ | id
    · cases h
      exact himb
    · obtain ⟨s, hs, -⟩ := modifyStatistics_eq_some h
      rw [imbalance_modifyStatistics hs h]
      simp only [AccountStatistics.held, sub_self, add_zero]
      exact himb

/-- **The ledger of a deposit.** Holdings less supply grow by the amount deposited. -/
theorem imbalance_depositCashback {countIncome : Bool}
    (h : db.depositCashback a amount requireVesting countIncome = some db') :
    db'.imbalance = db.imbalance + amount := by
  rw [depositCashback] at h
  split at h
  · next hzero =>
    cases h
    omega
  · obtain ⟨db1, h1, h⟩ := bind_eq_some_iff.1 h
    obtain ⟨⟨db2, rest⟩, h2, h⟩ := bind_eq_some_iff.1 h
    have himb1 : db1.imbalance = db.imbalance := by
      split at h1
      · obtain ⟨s, hs, -⟩ := modifyStatistics_eq_some h1
        rw [imbalance_modifyStatistics hs h1]
        simp [AccountStatistics.held]
      · cases h1
        rfl
    have himb2 := (withholdCashback_withholds h2).imbalance_eq
    rcases rest with _ | amount'
    · cases h
      simp only [Option.getD_none] at himb2
      omega
    · have himb3 := imbalance_creditCashback h
      simp only [getD_some] at himb2
      omega

end Database

end CrowdwizChain
