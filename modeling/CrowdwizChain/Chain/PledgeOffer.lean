import CrowdwizChain.Chain.Evaluator

/-!
# Pledge offers

The `pledge_offer_*` evaluators of `financial_evaluator.cpp` and the end-of-block sweep
`database::proceed_pledge` of `db_update.cpp`.

An offer is made by the side that would give a credit (`give_create`) or by the side that would
take one against a pledge (`take_create`), and is filled by an account on the other side. The side
that is still open is left at its default in the object, which is account zero; whether the offer
was made by a debitor is read off from its `debitor` not being account zero. A filled offer is
repaid by the debitor, or, when its time is over, the pledge goes to the creditor.
-/

namespace CrowdwizChain

/-! ### Operations -/

/-- `pledge_offer_give_create_operation` -/
structure PledgeOfferGiveCreateOperation where
  fee : Asset
  creditor : AccountId
  pledgeAmount : Asset
  creditAmount : Asset
  repayAmount : Asset
  pledgeDays : Nat

/-- `pledge_offer_take_create_operation` -/
structure PledgeOfferTakeCreateOperation where
  fee : Asset
  debitor : AccountId
  pledgeAmount : Asset
  creditAmount : Asset
  repayAmount : Asset
  pledgeDays : Nat

/-- `pledge_offer_cancel_operation` -/
structure PledgeOfferCancelOperation where
  fee : Asset
  creator : AccountId
  pledgeOffer : Nat

/-- `pledge_offer_fill_operation` -/
structure PledgeOfferFillOperation where
  fee : Asset
  account : AccountId
  debitor : AccountId
  creditor : AccountId
  pledgeAmount : Asset
  creditAmount : Asset
  repayAmount : Asset
  pledgeDays : Nat
  pledgeOffer : Nat

/-- `pledge_offer_repay_operation` -/
structure PledgeOfferRepayOperation where
  fee : Asset
  debitor : AccountId
  creditor : AccountId
  repayAmount : Asset
  pledgeAmount : Asset
  pledgeOffer : Nat

/-- The terms that the `validate` of both create operations and of the fill operation ask for. -/
def pledgeTermsValid (fee creditAmount repayAmount pledgeAmount : Asset) (pledgeDays : Nat) :
    Bool :=
  0 ≤ fee.amount ∧ 0 < creditAmount.amount ∧ 0 < repayAmount.amount ∧ 0 < pledgeAmount.amount ∧
    0 < pledgeDays

/-- `pledge_offer_give_create_operation::validate` -/
def PledgeOfferGiveCreateOperation.validate (op : PledgeOfferGiveCreateOperation) : Bool :=
  pledgeTermsValid op.fee op.creditAmount op.repayAmount op.pledgeAmount op.pledgeDays

/-- `pledge_offer_take_create_operation::validate` -/
def PledgeOfferTakeCreateOperation.validate (op : PledgeOfferTakeCreateOperation) : Bool :=
  pledgeTermsValid op.fee op.creditAmount op.repayAmount op.pledgeAmount op.pledgeDays

/-- `pledge_offer_fill_operation::validate` -/
def PledgeOfferFillOperation.validate (op : PledgeOfferFillOperation) : Bool :=
  pledgeTermsValid op.fee op.creditAmount op.repayAmount op.pledgeAmount op.pledgeDays

/-- `pledge_offer_repay_operation::validate` -/
def PledgeOfferRepayOperation.validate (op : PledgeOfferRepayOperation) : Bool :=
  0 ≤ op.fee.amount ∧ 0 < op.repayAmount.amount

namespace Database

/-! ### Evaluators -/

/-- `pledge_offer_give_create_evaluator` -/
def pledgeOfferGiveCreate (db : Database) (op : PledgeOfferGiveCreateOperation) : Option Database :=
  if op.validate then
    db.applyOperation op.creditor op.fee (fun db => hardforkCwd5Time ≤ db.headBlockTime)
      fun db => some
        { db with
          pledgeOffers := db.pledgeOffers.create
            { creator := op.creditor
              creditor := op.creditor
              pledgeAmount := op.pledgeAmount
              creditAmount := op.creditAmount
              repayAmount := op.repayAmount
              pledgeDays := op.pledgeDays } }
  else none

/-- `pledge_offer_take_create_evaluator` -/
def pledgeOfferTakeCreate (db : Database) (op : PledgeOfferTakeCreateOperation) : Option Database :=
  if op.validate then
    db.applyOperation op.debitor op.fee (fun db => hardforkCwd5Time ≤ db.headBlockTime)
      fun db => some
        { db with
          pledgeOffers := db.pledgeOffers.create
            { creator := op.debitor
              debitor := op.debitor
              pledgeAmount := op.pledgeAmount
              creditAmount := op.creditAmount
              repayAmount := op.repayAmount
              pledgeDays := op.pledgeDays } }
  else none

/-- `pledge_offer_cancel_evaluator::do_evaluate` -/
def pledgeOfferCancelEvaluate (op : PledgeOfferCancelOperation) (db : Database) : Bool :=
  hardforkCwd5Time ≤ db.headBlockTime ∧
    (db.pledgeOffers.find op.pledgeOffer).any fun o => o.creator = op.creator ∧ o.status = 0

/-- `pledge_offer_cancel_evaluator` -/
def pledgeOfferCancel (db : Database) (op : PledgeOfferCancelOperation) : Option Database :=
  db.applyOperation op.creator op.fee (pledgeOfferCancelEvaluate op) fun db =>
    some { db with pledgeOffers := db.pledgeOffers.remove op.pledgeOffer }

/-- The two sides of the fill: the side that made the offer is the one stored, and the account that
fills it is the other. An offer counts as made by the debitor when its debitor is not account
zero. -/
def pledgeOfferFillSides (op : PledgeOfferFillOperation) (o : PledgeOffer) : Bool :=
  if o.debitor ≠ 0 then o.debitor = op.debitor ∧ op.account = op.creditor
  else o.creditor = op.creditor ∧ op.account = op.debitor

/-- `pledge_offer_fill_evaluator::do_evaluate` -/
def pledgeOfferFillEvaluate (op : PledgeOfferFillOperation) (db : Database) : Bool :=
  hardforkCwd5Time ≤ db.headBlockTime ∧
    ((db.accounts.find op.creditor).isSome ∧ (db.accounts.find op.debitor).isSome) ∧
    ((db.assets.find op.creditAmount.assetId).isSome ∧
    (db.assets.find op.pledgeAmount.assetId).isSome) ∧
    (db.pledgeOffers.find op.pledgeOffer).any (fun o =>
      o.status = 0 ∧ o.pledgeAmount = op.pledgeAmount ∧ o.creditAmount = op.creditAmount ∧
        o.repayAmount = op.repayAmount ∧ o.pledgeDays = op.pledgeDays ∧
        pledgeOfferFillSides op o) ∧
    op.creditAmount.amount ≤ db.getBalance op.creditor op.creditAmount.assetId ∧
    op.pledgeAmount.amount ≤ db.getBalance op.debitor op.pledgeAmount.assetId

/-- What the fill writes into the offer. -/
def pledgeOfferFilled (op : PledgeOfferFillOperation) (headTime : Nat) (o : PledgeOffer) :
    PledgeOffer :=
  let o := if o.debitor ≠ 0 then { o with creditor := op.creditor }
    else { o with debitor := op.debitor }
  { o with
    status := 1
    expiration := timePointSec headTime (o.pledgeDays * secondsPerDay) }

/-- `pledge_offer_fill_evaluator::do_apply` -/
def pledgeOfferFillApply (op : PledgeOfferFillOperation) (db : Database) : Option Database :=
  { db with
    pledgeOffers := db.pledgeOffers.modify op.pledgeOffer
      (pledgeOfferFilled op db.headBlockTime) }.adjustBalances
    [(op.creditor, -op.creditAmount), (op.debitor, -op.pledgeAmount), (op.debitor, op.creditAmount)]

/-- The fill operation, which the filling account pays for and authorises. -/
def pledgeOfferFill (db : Database) (op : PledgeOfferFillOperation) : Option Database :=
  if op.validate then
    db.applyOperation op.account op.fee (pledgeOfferFillEvaluate op) (pledgeOfferFillApply op)
  else none

/-- `pledge_offer_repay_evaluator::do_evaluate` -/
def pledgeOfferRepayEvaluate (op : PledgeOfferRepayOperation) (db : Database) : Bool :=
  hardforkCwd5Time ≤ db.headBlockTime ∧ (db.pledgeOffers.find op.pledgeOffer).any (fun o =>
      (db.accounts.find o.debitor).isSome ∧ o.status = 1 ∧ o.pledgeAmount = op.pledgeAmount ∧
        o.repayAmount = op.repayAmount ∧ o.creditor = op.creditor ∧ o.debitor = op.debitor ∧
        op.repayAmount.amount ≤ db.getBalance o.debitor op.repayAmount.assetId) ∧
    (db.assets.find op.repayAmount.assetId).isSome

/-- `pledge_offer_repay_evaluator::do_apply` -/
def pledgeOfferRepayApply (op : PledgeOfferRepayOperation) (db : Database) : Option Database :=
  (db.adjustBalances [(op.debitor, -op.repayAmount), (op.creditor, op.repayAmount),
    (op.debitor, op.pledgeAmount)]).map fun db =>
      { db with pledgeOffers := db.pledgeOffers.remove op.pledgeOffer }

/-- The repay operation, which the debitor pays for and authorises. -/
def pledgeOfferRepay (db : Database) (op : PledgeOfferRepayOperation) : Option Database :=
  if op.validate then
    db.applyOperation op.debitor op.fee (pledgeOfferRepayEvaluate op) (pledgeOfferRepayApply op)
  else none

/-! ### The sweep -/

/-- The condition under which the loop of the sweep gives the pledge to the creditor. -/
def pledgeExpired (headTime : Nat) (o : PledgeOffer) : Bool :=
  o.status = 1 ∧ o.expiration ≤ headTime

/-- `database::proceed_pledge`: the pledges of expired offers go to their creditors, and the offers
are marked, in the order of their expiration; the marked ones are then removed from the back of
the index by status. -/
def proceedPledge (db : Database) : Option Database :=
  (OrderedTable.sweep (pledgeExpired db.headBlockTime)
    (fun o => { o with status := 8, expiration := 0 })
    (fun m _ o => Balances.adjust m o.creditor o.pledgeAmount)
    db.headBlockTime db.pledgeOffers db.balances).map fun (t, m) =>
      { db with
        balances := m
        pledgeOffers := OrderedTable.eraseBack PledgeOffer.status 8 t.rows.length t }

/-! ### What each of them does to the offers and the balances -/

variable {db db' : Database}

/-- The two operations that create an offer differ in the side that the creator takes. -/
theorem createPledgeOffer_eq_some {payer : AccountId} {fee credit repay pledge : Asset}
    {days : Nat} {o : PledgeOffer} (h : (if pledgeTermsValid fee credit repay pledge days then
        db.applyOperation payer fee (fun db => hardforkCwd5Time ≤ db.headBlockTime)
          fun db => some { db with pledgeOffers := db.pledgeOffers.create o }
      else none) = some db') : db'.pledgeOffers = db.pledgeOffers.create o ∧ 0 < pledge.amount ∧
      0 < repay.amount ∧ hardforkCwd5Time ≤ db.headBlockTime ∧
      db'.headBlockTime = db.headBlockTime := by
  obtain ⟨hv, coreFee, db1, m, -, hev, hap, -, rfl⟩ := operation_eq_some h
  cases hap
  simp only [pledgeTermsValid, decide_eq_true_eq] at hv
  exact ⟨rfl, hv.2.2.2.1, hv.2.2.1, of_decide_eq_true hev, rfl⟩

theorem pledgeOfferCancel_eq_some {op : PledgeOfferCancelOperation}
    (h : db.pledgeOfferCancel op = some db') :
    db'.pledgeOffers = db.pledgeOffers.remove op.pledgeOffer ∧
      db'.headBlockTime = db.headBlockTime ∧
      ∃ o, db.pledgeOffers.find op.pledgeOffer = some o ∧ o.status = 0 := by
  obtain ⟨coreFee, db1, m, -, hev, hap, -, rfl⟩ := applyOperation_eq_some h
  cases hap
  simp only [pledgeOfferCancelEvaluate, decide_eq_true_eq, Option.any_eq_true] at hev
  obtain ⟨-, o, ho, -, hstatus⟩ := hev
  exact ⟨rfl, rfl, o, ho, hstatus⟩

theorem pledgeOfferFill_eq_some {op : PledgeOfferFillOperation}
    (h : db.pledgeOfferFill op = some db') :
    op.validate = true ∧ 0 ≤ op.fee.amount ∧
    ∃ o, db.pledgeOffers.find op.pledgeOffer = some o ∧ o.status = 0 ∧
      o.pledgeAmount = op.pledgeAmount ∧ o.creditAmount = op.creditAmount ∧
      pledgeOfferFillSides op o = true ∧
      Balances.adjustAll db.balances [(op.creditor, -op.creditAmount),
          (op.debitor, -op.pledgeAmount),
          (op.debitor, op.creditAmount), (op.account, -op.fee)] = some db'.balances ∧
      db'.pledgeOffers = db.pledgeOffers.modify op.pledgeOffer
      (pledgeOfferFilled op db.headBlockTime) ∧
      o.pledgeDays = op.pledgeDays ∧ hardforkCwd5Time ≤ db.headBlockTime ∧
      db'.headBlockTime = db.headBlockTime := by
  obtain ⟨hv, coreFee, db1, m, hfee, hev, hap, hm, rfl⟩ := operation_eq_some h
  obtain ⟨m1, hm1, rfl⟩ := adjustBalances_eq_some hap
  simp only [pledgeOfferFillEvaluate, decide_eq_true_eq, Option.any_eq_true] at hev
  obtain ⟨htime, -, -, ⟨o, ho, hstatus, hpledge, hcredit, -, hdays, hsides⟩, -, -⟩ := hev
  exact ⟨hv, (prepareFee_eq_some hfee).1, o, ho, hstatus, hpledge, hcredit, hsides,
    Balances.adjustAll_concat hm1 hm, rfl, hdays, htime, rfl⟩

theorem pledgeOfferRepay_eq_some {op : PledgeOfferRepayOperation}
    (h : db.pledgeOfferRepay op = some db') :
    db'.pledgeOffers = db.pledgeOffers.remove op.pledgeOffer := by
  obtain ⟨-, coreFee, db1, m, -, -, hap, -, rfl⟩ := operation_eq_some h
  obtain ⟨db2, hadj, rfl⟩ := Option.map_eq_some_iff.1 hap
  obtain ⟨m1, -, rfl⟩ := adjustBalances_eq_some hadj
  rfl

/-- The sweep makes no offers: what is in the table after it was there before, or was marked. -/
theorem find_proceedPledge (h : db.proceedPledge = some db') {id : Nat} {o : PledgeOffer}
    (ho : db'.pledgeOffers.find id = some o) : db.pledgeOffers.find id = some o ∨ o.status = 8 := by
  obtain ⟨⟨t, m⟩, hsweep, rfl⟩ := Option.map_eq_some_iff.1 h
  rcases OrderedTable.find_sweep hsweep (OrderedTable.find_of_eraseBack ho) with ho | ⟨r, rfl⟩
  · exact .inl ho
  · exact .inr rfl

end Database

end CrowdwizChain
