import CrowdwizChain.Chain.CreditBook
import CrowdwizChain.Chain.Evaluator
import CrowdwizChain.Chain.LinearBonus

/-!
# Credits

The evaluators of `financial_evaluator.cpp` for credits, and `pay_staking_reward` of
`poc_evaluator.cpp`.

An account gets a credit from the system, twice the amount of which it has to earn, or from another
account, whose offer it fills. In both cases its income is withheld until the credit is covered: by
`deposit_cashback`, or, for the rewards of staking, by `pay_staking_reward`, which does the same in
a text of its own. A creditor may have part of what was withheld paid out before the end.
-/

namespace CrowdwizChain

open Option Balances Function

/-! ### Operations -/

/-- `credit_system_get_operation` -/
structure CreditSystemGetOperation where
  fee : Asset
  debitor : AccountId
  creditAmount : Asset

/-- `credit_repay_operation` -/
structure CreditRepayOperation where
  fee : Asset
  debitor : AccountId
  creditor : AccountId
  repayAmount : Asset

/-- `credit_offer_create_operation` -/
structure CreditOfferCreateOperation where
  fee : Asset
  minIncome : Int
  creditor : AccountId
  creditAmount : Asset
  repayAmount : Asset

/-- `credit_offer_cancel_operation` -/
structure CreditOfferCancelOperation where
  fee : Asset
  creditor : AccountId
  creditOffer : Nat

/-- `credit_offer_fill_operation` -/
structure CreditOfferFillOperation where
  fee : Asset
  debitor : AccountId
  creditor : AccountId
  creditOffer : Nat
  creditAmount : Asset

/-- `credit_system_get_operation::validate` -/
def CreditSystemGetOperation.validate (op : CreditSystemGetOperation) : Bool :=
  0 ≤ op.fee.amount ∧ 0 < op.creditAmount.amount

/-- `credit_repay_operation::validate` -/
def CreditRepayOperation.validate (op : CreditRepayOperation) : Bool :=
  0 ≤ op.fee.amount ∧ 0 < op.repayAmount.amount

/-- `credit_offer_create_operation::validate` -/
def CreditOfferCreateOperation.validate (op : CreditOfferCreateOperation) : Bool :=
  0 ≤ op.fee.amount ∧ 0 < op.creditAmount.amount ∧ 0 < op.repayAmount.amount

/-- `credit_offer_cancel_operation::validate` -/
def CreditOfferCancelOperation.validate (op : CreditOfferCancelOperation) : Bool :=
  0 ≤ op.fee.amount

/-- `credit_offer_fill_operation::validate` -/
def CreditOfferFillOperation.validate (op : CreditOfferFillOperation) : Bool :=
  0 ≤ op.fee.amount ∧ 0 < op.creditAmount.amount

/-- The income of the last three full months. -/
def AccountStatistics.threeMonthIncome (s : AccountStatistics) : Int :=
  s.firstMonthIncome + s.secondMonthIncome + s.thirdMonthIncome

/-- A new credit is entered into the statistics. -/
def AccountStatistics.takeCredit (s : AccountStatistics) (total : Int) (creditor : AccountId) :
    AccountStatistics :=
  { s with totalCredit := total, allowedToRepay := 0, creditRepaid := 0, creditor }

namespace Database

/-! ### Credits of the system -/

/-- `credit_system_get_evaluator::do_evaluate` -/
def creditSystemGetEvaluate (op : CreditSystemGetOperation) (db : Database) : Bool :=
  db.headBlockTime ≤ hardforkCore145Time ∧ hardforkCwd5Time ≤ db.headBlockTime ∧
    (db.accounts.find op.debitor).isSome ∧
    (db.statistics.lookup op.debitor).any fun s =>
      s.totalCredit = 0 ∧ op.creditAmount.assetId = 0 ∧ op.creditAmount.amount ≤ s.threeMonthIncome

/-- `credit_system_get_evaluator::do_apply` -/
def creditSystemGetApply (op : CreditSystemGetOperation) (db : Database) : Option Database :=
  (db.modifyCore fun c =>
    { c with currentSupply := c.currentSupply + op.creditAmount.amount }).bind fun db =>
    (db.modifyStatistics op.debitor (·.takeCredit (op.creditAmount.amount * 2) 0)).bind fun db =>
      db.adjustBalance op.debitor op.creditAmount

/-- The operation by which an account gets a credit from the system. -/
def creditSystemGet (db : Database) (op : CreditSystemGetOperation) : Option Database :=
  if op.validate then
    db.applyOperation op.debitor op.fee (creditSystemGetEvaluate op) (creditSystemGetApply op)
  else none

/-! ### Offers -/

/-- `credit_offer_create_evaluator::do_evaluate` -/
def creditOfferCreateEvaluate (op : CreditOfferCreateOperation) (db : Database) : Bool :=
  hardforkCwd5Time ≤ db.headBlockTime ∧ op.creditAmount.assetId = 0 ∧ op.repayAmount.assetId = 0 ∧
    op.creditAmount.amount ≤ op.repayAmount.amount

/-- `credit_offer_create_evaluator::do_apply` -/
def creditOfferCreateApply (op : CreditOfferCreateOperation) (db : Database) : Option Database :=
  some { db with
    creditOffers := db.creditOffers.create
      { creditor := op.creditor
        minIncome := op.minIncome
        creditAmount := op.creditAmount
        repayAmount := op.repayAmount } }

/-- The operation by which a creditor makes an offer. -/
def creditOfferCreate (db : Database) (op : CreditOfferCreateOperation) : Option Database :=
  if op.validate then
    db.applyOperation op.creditor op.fee (creditOfferCreateEvaluate op) (creditOfferCreateApply op)
  else none

/-- `credit_offer_cancel_evaluator::do_evaluate` -/
def creditOfferCancelEvaluate (op : CreditOfferCancelOperation) (db : Database) : Bool :=
  hardforkCwd5Time ≤ db.headBlockTime ∧
    (db.creditOffers.find op.creditOffer).any fun o => o.creditor = op.creditor

/-- `credit_offer_cancel_evaluator::do_apply` -/
def creditOfferCancelApply (op : CreditOfferCancelOperation) (db : Database) : Option Database :=
  (db.creditOffers.find op.creditOffer).map fun _ =>
    { db with creditOffers := db.creditOffers.remove op.creditOffer }

/-- The operation by which a creditor takes an offer back. -/
def creditOfferCancel (db : Database) (op : CreditOfferCancelOperation) : Option Database :=
  if op.validate then
    db.applyOperation op.creditor op.fee (creditOfferCancelEvaluate op) (creditOfferCancelApply op)
  else none

/-- `credit_offer_fill_evaluator::do_evaluate` -/
def creditOfferFillEvaluate (op : CreditOfferFillOperation) (db : Database) : Bool :=
  hardforkCwd5Time ≤ db.headBlockTime ∧ (db.accounts.find op.debitor).isSome ∧
    (db.statistics.lookup op.debitor).any fun s =>
      (db.creditOffers.find op.creditOffer).any fun o =>
        (db.accounts.find o.creditor).isSome ∧ (db.assets.find op.creditAmount.assetId).isSome ∧
          op.creditAmount.amount ≤ db.getBalance o.creditor op.creditAmount.assetId ∧
          s.totalCredit = 0 ∧ op.creditAmount.assetId = 0 ∧ o.minIncome ≤ s.threeMonthIncome ∧
          o.creditAmount = op.creditAmount ∧ o.creditor = op.creditor

/-- `credit_offer_fill_evaluator::do_apply` -/
def creditOfferFillApply (op : CreditOfferFillOperation) (db : Database) : Option Database :=
  (db.creditOffers.find op.creditOffer).bind fun o =>
    (db.modifyStatistics op.debitor (·.takeCredit o.repayAmount.amount o.creditor)).bind fun db =>
      (db.adjustBalance o.creditor (-op.creditAmount)).bind fun db =>
        (db.adjustBalance op.debitor op.creditAmount).map fun db =>
          { db with creditOffers := db.creditOffers.remove op.creditOffer }

/-- The operation by which a debitor takes the credit of an offer. -/
def creditOfferFill (db : Database) (op : CreditOfferFillOperation) : Option Database :=
  if op.validate then
    db.applyOperation op.debitor op.fee (creditOfferFillEvaluate op) (creditOfferFillApply op)
  else none

/-! ### Repaying before the end -/

/-- `credit_repay_evaluator::do_evaluate` -/
def creditRepayEvaluate (op : CreditRepayOperation) (db : Database) : Bool :=
  hardforkCwd5Time ≤ db.headBlockTime ∧ (db.accounts.find op.debitor).isSome ∧
    (db.statistics.lookup op.debitor).any fun s =>
      op.repayAmount.assetId = 0 ∧ op.repayAmount.amount ≤ s.allowedToRepay - s.creditRepaid ∧
        s.creditor ≠ 0 ∧ s.creditor = op.creditor

/-- `credit_repay_evaluator::do_apply` -/
def creditRepayApply (op : CreditRepayOperation) (db : Database) : Option Database :=
  (db.statistics.lookup op.debitor).bind fun s =>
    (db.modifyStatistics op.debitor fun s =>
      { s with creditRepaid := s.creditRepaid + op.repayAmount.amount }).bind fun db =>
      db.adjustBalance s.creditor op.repayAmount

/-- The operation by which a creditor has what was withheld paid out. -/
def creditRepay (db : Database) (op : CreditRepayOperation) : Option Database :=
  if op.validate then
    db.applyOperation op.creditor op.fee (creditRepayEvaluate op) (creditRepayApply op)
  else none

/-! ### Rewards of staking -/

/-- `staking_reward`: computed in 128 bits, read as 64 bits without a sign, which throws where the
high word is not zero, and assigned to an amount, which has a sign. -/
def stakingReward (a : Int) (p : Nat) : Option Int :=
  if a = 0 ∨ p = 0 then some 0
  else if p = graphene100Percent then some a
  else
    let r : Nat := toUInt128 a * p % 2 ^ 128 / graphene100Percent
    if r < 2 ^ 64 then some (toInt64 r) else none

/-- The reward of a referrer at some level, by its status: levels and denominators as the committee
has set them. -/
def stakingRefAmount (params : StakingParameters) (accRef : Account) (stakAmount : Int)
    (level pocRef : Nat) : Option Int :=
  match params.pocStatusLevels[accRef.referralStatusType]?,
    params.pocStatusDenominator[accRef.referralStatusType]? with
  | some levels, some denominator =>
    if level ≤ levels then
      (stakingReward stakAmount pocRef).bind fun amount =>
        if denominator < 100 * graphene1Percent then stakingReward amount denominator
          else some amount
    else some 0
  | _, _ => some 0

/-- The part of `pay_staking_reward` that is about a credit: what of the reward is left. -/
def withholdStaking (db : Database) (a : AccountId) (amount : Int) : Option (Database × Int) :=
  (db.statistics.lookup a).bind fun s =>
    if 0 < s.totalCredit then
      let credit := s.totalCredit - s.allowedToRepay
      if amount < credit then
        (db.modifyStatistics a fun s =>
          { s with allowedToRepay := s.allowedToRepay + amount }).map (·, 0)
      else (db.closeCredit a s).map (·, amount - credit)
    else some (db, amount)

/-- The reward counts for the race, at the first level, and for the income of the month. -/
def countStakingReward (db : Database) (accRef : AccountId) (level : Nat) (amount : Int) :
    Option Database :=
  (if level = 1 then db.countGrReward accRef amount else some db).bind fun db =>
    db.modifyStatistics accRef fun s =>
      { s with currentMonthIncome := s.currentMonthIncome + amount }

/-- `pay_staking_reward`: the database and the reward. The account that stakes is only named in a
virtual operation. -/
def payStakingReward (db : Database) (accRef : AccountId) (stakAmount : Int) (level pocRef : Nat) :
    Option (Database × Int) :=
  (db.accounts.find accRef).bind fun ref =>
    (stakingRefAmount db.stakingParameters ref stakAmount level pocRef).bind fun refAmount =>
      if 0 < refAmount then
        (db.countStakingReward accRef level refAmount).bind fun db =>
          (db.withholdStaking accRef refAmount).bind fun r =>
            (if 0 < r.2 then r.1.adjustBalance accRef (.core r.2) else some r.1).map (·, refAmount)
      else some (db, 0)

/-! ### What the operations do -/

variable {db db' db₁ : Database} {a : AccountId} {amount : Int}

theorem credits_convertAndPayFee (db : Database) (payer : AccountId) (fee : Asset) (coreFee : Int) :
    (db.convertAndPayFee payer fee coreFee).credits = db.credits := by
  refine AList.map_lookup_modify_of_eq ?_ db.statistics payer
  exact fun _ => rfl

theorem credits_modifyStatistics_eq {f : AccountStatistics → AccountStatistics}
    (h : db.modifyStatistics a f = some db') :
    ∃ s, db.statistics.lookup a = some s ∧
    db'.credits = update db.credits a (some (f s).credit) := by
  obtain ⟨s, hs, rfl⟩ := modifyStatistics_eq_some h
  refine ⟨s, hs, (AList.map_lookup_modify AccountStatistics.credit _ a _).trans ?_⟩
  rw [hs]
  rfl

theorem creditSystemGet_eq_some {op : CreditSystemGetOperation}
    (h : db.creditSystemGet op = some db') :
    ∃ c, db.credits op.debitor = some c ∧ c.totalCredit = 0 ∧ 0 < op.creditAmount.amount ∧
      db'.credits = update db.credits op.debitor (some ⟨op.creditAmount.amount * 2, 0, 0, 0⟩) ∧
      db'.creditOffers = db.creditOffers ∧
      db.balances.adjustAll [(op.debitor, op.creditAmount), (op.debitor, -op.fee)] =
      some db'.balances := by
  obtain ⟨hv, coreFee, db3, m, -, hev, hap, hm, rfl⟩ := operation_eq_some h
  simp only [CreditSystemGetOperation.validate, decide_eq_true_eq] at hv
  simp only [creditSystemGetEvaluate, any_eq_true, decide_eq_true_eq] at hev
  obtain ⟨-, -, -, s, hs, htotal, -⟩ := hev
  obtain ⟨db₁, h1, hap⟩ := bind_eq_some_iff.1 hap
  obtain ⟨c, -, rfl⟩ := modifyCore_eq_some h1
  obtain ⟨db2, h2, hap⟩ := bind_eq_some_iff.1 hap
  obtain ⟨s', -, hcredits⟩ := credits_modifyStatistics_eq h2
  obtain ⟨s'', -, rfl⟩ := modifyStatistics_eq_some h2
  obtain ⟨m1, hm1, rfl⟩ := adjustBalance_eq_some hap
  refine ⟨s.credit, credits_apply hs, htotal, hv.2, ?_, rfl, adjustAll_pair hm1 hm⟩
  refine hcredits.trans ?_
  exact congrArg (fun c => update c _ _) (db.credits_convertAndPayFee op.debitor op.fee coreFee)

theorem creditOfferCreate_eq_some {op : CreditOfferCreateOperation}
    (h : db.creditOfferCreate op = some db') :
    0 < op.repayAmount.amount ∧ db'.credits = db.credits ∧ db'.creditOffers = db.creditOffers.create
        ⟨op.creditor, op.minIncome, op.creditAmount, op.repayAmount⟩ ∧
      db.balances.adjustAll [(op.creditor, -op.fee)] = some db'.balances ∧
      (db.accounts.find op.creditor).isSome := by
  obtain ⟨hv, coreFee, db₁, m, hfee, -, hap, hm, rfl⟩ := operation_eq_some h
  cases hap
  simp only [CreditOfferCreateOperation.validate, decide_eq_true_eq] at hv
  refine ⟨hv.2.2, db.credits_convertAndPayFee op.creditor op.fee coreFee, rfl, ?_,
    (prepareFee_eq_some hfee).2.1⟩
  exact adjustAll_concat (adjustAll_nil db.balances) hm

theorem creditOfferCancel_eq_some {op : CreditOfferCancelOperation}
    (h : db.creditOfferCancel op = some db') :
    db'.credits = db.credits ∧ db'.creditOffers = db.creditOffers.remove op.creditOffer ∧
      db.balances.adjustAll [(op.creditor, -op.fee)] = some db'.balances := by
  obtain ⟨-, coreFee, db₁, m, -, -, hap, hm, rfl⟩ := operation_eq_some h
  obtain ⟨o, -, rfl⟩ := map_eq_some_iff.1 hap
  refine ⟨db.credits_convertAndPayFee op.creditor op.fee coreFee, rfl, ?_⟩
  exact adjustAll_concat (adjustAll_nil db.balances) hm

/-- **An accepted fill**: the creditor of the offer pays the credit, and its repay amount is to be
covered by the income of the debitor. -/
theorem creditOfferFill_eq_some {op : CreditOfferFillOperation}
    (h : db.creditOfferFill op = some db') :
    ∃ o c, db.creditOffers.find op.creditOffer = some o ∧ db.credits op.debitor = some c ∧
      c.totalCredit = 0 ∧ (db.accounts.find o.creditor).isSome ∧
      db'.credits = update db.credits op.debitor (some ⟨o.repayAmount.amount, 0, 0, o.creditor⟩) ∧
      db'.creditOffers = db.creditOffers.remove op.creditOffer ∧
      db.balances.adjustAll [(o.creditor, -op.creditAmount), (op.debitor, op.creditAmount),
        (op.debitor, -op.fee)] = some db'.balances := by
  obtain ⟨-, coreFee, db3, m, -, hev, hap, hm, rfl⟩ := operation_eq_some h
  simp only [creditOfferFillEvaluate, any_eq_true, decide_eq_true_eq] at hev
  obtain ⟨-, -, s, hs, o, ho, hcreditor, -, -, htotal, -⟩ := hev
  obtain ⟨o', ho', hap⟩ := bind_eq_some_iff.1 hap
  obtain rfl : o = o' := some.inj (ho.symm.trans ho')
  obtain ⟨db₁, h1, hap⟩ := bind_eq_some_iff.1 hap
  obtain ⟨s', -, hcredits⟩ := credits_modifyStatistics_eq h1
  obtain ⟨s'', -, rfl⟩ := modifyStatistics_eq_some h1
  obtain ⟨db2, h2, hap⟩ := bind_eq_some_iff.1 hap
  obtain ⟨m1, hm1, rfl⟩ := adjustBalance_eq_some h2
  obtain ⟨db3, h3, rfl⟩ := map_eq_some_iff.1 hap
  obtain ⟨m2, hm2, rfl⟩ := adjustBalance_eq_some h3
  refine ⟨o, s.credit, ho, credits_apply hs, htotal, hcreditor, ?_, rfl, ?_⟩
  · refine hcredits.trans ?_
    exact congrArg (fun c => update c _ _) (db.credits_convertAndPayFee op.debitor op.fee coreFee)
  · exact adjustAll_concat (adjustAll_pair hm1 hm2) hm

/-- **An accepted repayment**: the creditor gets some of what was withheld. -/
theorem creditRepay_eq_some {op : CreditRepayOperation} (h : db.creditRepay op = some db') :
    ∃ c, db.credits op.debitor = some c ∧ c.creditor = op.creditor ∧ c.creditor ≠ 0 ∧
      0 < op.repayAmount.amount ∧ op.repayAmount.amount ≤ c.allowedToRepay - c.creditRepaid ∧
      db'.credits = update db.credits op.debitor
        (some { c with creditRepaid := c.creditRepaid + op.repayAmount.amount }) ∧
      db'.creditOffers = db.creditOffers ∧ op.repayAmount.assetId = 0 ∧
      db.balances.adjustAll [(op.creditor, op.repayAmount), (op.creditor, -op.fee)] =
      some db'.balances := by
  obtain ⟨hv, coreFee, db3, m, -, hev, hap, hm, rfl⟩ := operation_eq_some h
  simp only [CreditRepayOperation.validate, decide_eq_true_eq] at hv
  simp only [creditRepayEvaluate, any_eq_true, decide_eq_true_eq] at hev
  obtain ⟨-, -, s, hs, hasset, hle, hne, hcreditor⟩ := hev
  obtain ⟨s1, hs1, hap⟩ := bind_eq_some_iff.1 hap
  -- paying the fee does not touch the credit
  have hcredit : s1.credit = s.credit := by
    have heq := congrFun (db.credits_convertAndPayFee op.creditor op.fee coreFee) op.debitor
    rw [credits_apply hs1, credits_apply hs] at heq
    exact some.inj heq
  obtain ⟨db₁, h1, hap⟩ := bind_eq_some_iff.1 hap
  obtain ⟨s', hs', hcredits⟩ := credits_modifyStatistics_eq h1
  obtain rfl : s1 = s' := some.inj (hs1.symm.trans hs')
  obtain ⟨s'', -, rfl⟩ := modifyStatistics_eq_some h1
  obtain ⟨m1, hm1, rfl⟩ := adjustBalance_eq_some hap
  have hcreditor1 : s1.creditor = op.creditor :=
    (congrArg Credit.creditor hcredit).trans hcreditor
  refine ⟨s.credit, credits_apply hs, hcreditor, hne, hv.2, hle, ?_, rfl, hasset, ?_⟩
  · refine hcredits.trans ?_
    rw [← hcredit]
    exact congrArg (fun c => update c _ _) (db.credits_convertAndPayFee op.creditor op.fee coreFee)
  · rw [hcreditor1] at hm1
    exact adjustAll_pair hm1 hm

/-! ### Withholding -/

theorem withholdStaking_withholds {rest : Int}
    (h : db.withholdStaking a amount = some (db₁, rest)) :
    db.Withholds a amount db₁ rest := by
  obtain ⟨s, hs, h⟩ := bind_eq_some_iff.1 h
  split at h
  · next htotal =>
    dsimp only at h
    split at h
    · next hlt =>
      obtain ⟨db2, h2, heq⟩ := map_eq_some_iff.1 h
      obtain ⟨rfl, rfl⟩ := Prod.mk.inj heq
      exact .everything s db2 hs hlt h2
    · next hge =>
      obtain ⟨db2, h2, heq⟩ := map_eq_some_iff.1 h
      obtain ⟨rfl, rfl⟩ := Prod.mk.inj heq
      exact .theRest s db2 hs htotal (not_lt.1 hge) h2
  · cases h
    exact .nothing

theorem Withholds.everything_credits {s : AccountStatistics} (hs : db.statistics.lookup a = some s)
    (h : db.modifyStatistics a (fun s =>
      { s with allowedToRepay := s.allowedToRepay + amount }) = some db₁) :
    db₁.credits = update db.credits a
      (some { s.credit with allowedToRepay := s.allowedToRepay + amount }) ∧
      db₁.balances = db.balances := by
  obtain ⟨s', hs', hcredits⟩ := credits_modifyStatistics_eq h
  obtain rfl : s = s' := some.inj (hs.symm.trans hs')
  obtain ⟨_, -, rfl⟩ := modifyStatistics_eq_some h
  exact ⟨hcredits, rfl⟩

/-- The end of a credit pays the creditor what was not repaid, unless it is account zero. -/
theorem closeCredit_getBalance {s : AccountStatistics} (h : db.closeCredit a s = some db')
    (b : AccountId) :
    db'.getBalance b 0 = db.getBalance b 0 +
      if s.creditor ≠ 0 ∧ b = s.creditor then s.totalCredit - s.creditRepaid else 0 := by
  obtain ⟨db₁, h1, h⟩ := bind_eq_some_iff.1 h
  obtain ⟨_, -, rfl⟩ := modifyStatistics_eq_some h
  split at h1
  · next hzero =>
    obtain ⟨db2, h2, rfl⟩ := map_eq_some_iff.1 h1
    obtain ⟨c, -, rfl⟩ := modifyCore_eq_some h2
    rw [if_neg fun hc => hc.1 hzero, Int.add_zero]
    rfl
  · next hne =>
    obtain ⟨db2, h2, rfl⟩ := map_eq_some_iff.1 h1
    obtain ⟨m, hm, rfl⟩ := adjustBalance_eq_some h2
    refine (amountOf_adjust hm b 0).trans ?_
    simp only [Asset.assetId_core, Asset.amount_core, getBalance, and_true, ne_eq, hne,
      not_false_eq_true, true_and]

theorem countStakingReward_credits {level : Nat}
    (h : db.countStakingReward a level amount = some db') :
    db'.credits = db.credits ∧ db.RewardFrame db' := by
  obtain ⟨db₁, h1, h⟩ := bind_eq_some_iff.1 h
  have hcount : db₁.credits = db.credits ∧ db.RewardFrame db₁ := by
    split at h1
    · refine ⟨?_, (countGrReward_ledger h1).1⟩
      rcases countGrReward_eq_some h1 with rfl | ⟨db2, t, h2, rfl⟩
      · rfl
      · have hcredits := credits_modifyStatistics h2 fun _ => rfl
        exact hcredits
    · cases h1
      exact ⟨rfl, .refl db⟩
  exact ⟨(credits_modifyStatistics h fun _ => rfl).trans hcount.1,
    hcount.2.trans (rewardFrame_modifyStatistics h fun _ => ⟨rfl, rfl⟩)⟩

end Database

end CrowdwizChain
