import CrowdwizChain.Chain.Evaluator

/-!
# P2P orders

The evaluators of `exchange_evaluator.cpp` for orders of the P2P exchange, and the end-of-block
sweep `database::auto_cancel_p2p_orders` of `db_update.cpp`.

A client makes an order on the advertisement of a gateway. One of the two sells core asset to the
other, for a currency outside of the chain: the client, if the order type is `false`, else the
gateway. The seller's side is debited when the order is made, or when the gateway calls it, and from
then on the amount is held by the order. The order ends by a release of the seller, by the decision
of an arbiter, or by a cancellation or a timeout.

A memo is known by its packed size only. Before `HARDFORK_CWD3_TIME` the sweep removes the orders
from the index it is walking along, which has no defined result; that branch is not modelled.
-/

namespace CrowdwizChain

open Option Table List Balances

/-! ### Operations -/

/-- `create_p2p_order_operation` -/
structure CreateP2pOrderOperation where
  fee : Asset
  p2pAdv : Nat
  amount : Asset
  price : Int
  p2pGateway : AccountId
  p2pClient : AccountId
  paymentDetails : Option Nat

/-- `cancel_p2p_order_operation` -/
structure CancelP2pOrderOperation where
  fee : Asset
  p2pGateway : AccountId
  p2pOrder : Nat
  blacklist : Bool

/-- `call_p2p_order_operation` -/
structure CallP2pOrderOperation where
  fee : Asset
  p2pOrder : Nat
  p2pGateway : AccountId
  amount : Asset
  price : Int
  paymentDetails : Nat

/-- `payment_p2p_order_operation` -/
structure PaymentP2pOrderOperation where
  fee : Asset
  p2pOrder : Nat
  payingAccount : AccountId
  fileHash : Option Nat

/-- `release_p2p_order_operation` -/
structure ReleaseP2pOrderOperation where
  fee : Asset
  p2pOrder : Nat
  payingAccount : AccountId
  recievingAccount : AccountId

/-- `open_p2p_dispute_operation` and `reply_p2p_dispute_operation` -/
structure P2pDisputeOperation where
  fee : Asset
  p2pOrder : Nat
  account : AccountId
  arbitr : AccountId
  contactDetails : Nat

/-- `resolve_p2p_dispute_operation` -/
structure ResolveP2pDisputeOperation where
  fee : Asset
  p2pOrder : Nat
  arbitr : AccountId
  winner : AccountId
  looser : AccountId

/-- The packed size of a memo that is accepted. -/
def memoSizeOk (size : Nat) : Bool := 10 ≤ size ∧ size < 1000

/-- `create_p2p_order_operation::validate` -/
def CreateP2pOrderOperation.validate (op : CreateP2pOrderOperation) : Bool :=
  0 ≤ op.fee.amount ∧ 0 < op.amount.amount ∧ 0 < op.price ∧ op.p2pGateway ≠ op.p2pClient ∧
    op.paymentDetails.all memoSizeOk

/-- `cancel_p2p_order_operation::validate` -/
def CancelP2pOrderOperation.validate (op : CancelP2pOrderOperation) : Bool := 0 ≤ op.fee.amount

/-- `call_p2p_order_operation::validate` -/
def CallP2pOrderOperation.validate (op : CallP2pOrderOperation) : Bool :=
  0 ≤ op.fee.amount ∧ 0 < op.amount.amount ∧ 0 < op.price ∧ memoSizeOk op.paymentDetails

/-- `payment_p2p_order_operation::validate` -/
def PaymentP2pOrderOperation.validate (op : PaymentP2pOrderOperation) : Bool :=
  0 ≤ op.fee.amount ∧ op.fileHash.all memoSizeOk

/-- `release_p2p_order_operation::validate` -/
def ReleaseP2pOrderOperation.validate (op : ReleaseP2pOrderOperation) : Bool := 0 ≤ op.fee.amount

/-- `open_p2p_dispute_operation::validate` and `reply_p2p_dispute_operation::validate` -/
def P2pDisputeOperation.validate (op : P2pDisputeOperation) : Bool :=
  0 ≤ op.fee.amount ∧ memoSizeOk op.contactDetails

/-- `resolve_p2p_dispute_operation::validate` -/
def ResolveP2pDisputeOperation.validate (op : ResolveP2pDisputeOperation) : Bool :=
  0 ≤ op.fee.amount ∧ op.winner ≠ op.looser

/-! ### The two sides -/

/-- The side that sells core asset, and funds the order. -/
def P2pOrder.seller (o : P2pOrder) : AccountId := if o.orderType then o.p2pGateway else o.p2pClient

/-- The side that buys it. -/
def P2pOrder.buyer (o : P2pOrder) : AccountId := if o.orderType then o.p2pClient else o.p2pGateway

/-- A block of the given time ends the order: it was not called, or not paid, in time. -/
def P2pOrder.TimesOut (o : P2pOrder) (t : Nat) : Prop :=
  (o.status = 1 ∧ o.timeForApprove < t) ∨ (o.status = 2 ∧ o.timeForReply < t)

instance (o : P2pOrder) (t : Nat) : Decidable (o.TimesOut t) :=
  inferInstanceAs (Decidable (_ ∨ _))

/-- What a timeout pays: the seller is refunded, if it was debited. -/
def P2pOrder.refund (o : P2pOrder) : List (AccountId × Asset) :=
  if o.status = 2 then [(o.seller, o.amount)] else []

/-! ### Ratings -/

namespace AccountStatistics

/-- A deal of the account was cancelled. -/
def cancelDeal (s : AccountStatistics) : AccountStatistics :=
  { s with
    p2pCanceledDeals := s.p2pCanceledDeals + 1
    p2pCurrentMonthRating := s.p2pCurrentMonthRating - 1 }

/-- A deal of the account is complete. -/
def completeDeal (s : AccountStatistics) (volume : Int) : AccountStatistics :=
  { s with
    p2pCompleteDeals := s.p2pCompleteDeals + 1
    p2pCurrentMonthRating := s.p2pCurrentMonthRating + 1
    p2pDealsVolume := s.p2pDealsVolume + volume }

/-- The account lost a dispute. -/
def looseDeal (s : AccountStatistics) : AccountStatistics :=
  { s with
    p2pArbitrageLoose := s.p2pArbitrageLoose + 1
    p2pCurrentMonthRating := s.p2pCurrentMonthRating - 2 }

end AccountStatistics

namespace Database

/-! ### Making an order -/

/-- The orders that a client may have open beside a new one, by the status of its contract. -/
def p2pOrderLimit (db : Database) (client : Account) : Nat :=
  if db.headBlockTime ≤ client.referralStatusExpirationDate then
    match client.referralStatusType with
    | 1 => 2
    | 2 => 3
    | 3 => 4
    | 4 => 5
    | _ => 1
  else 1

/-- The orders of a client. -/
def openOrders (db : Database) (client : AccountId) : List (Nat × P2pOrder) :=
  db.p2pOrders.inOrder.filter fun e => e.2.p2pClient = client

/-- The seller has the amount; a client that sells gives the details of the payment. -/
def sellerCovers (db : Database) (op : CreateP2pOrderOperation) (adv : P2pAdv) : Bool :=
  if adv.advType then op.amount.amount ≤ db.getBalance op.p2pGateway op.amount.assetId
  else op.amount.amount ≤ db.getBalance op.p2pClient op.amount.assetId ∧ op.paymentDetails.isSome

/-- The advertisement accepts the order. -/
def advAccepts (db : Database) (op : CreateP2pOrderOperation) (adv : P2pAdv) (client : Account)
    (clientStats : AccountStatistics) : Bool :=
  adv.status = 1 ∧ adv.p2pGateway = op.p2pGateway ∧ adv.price = op.price ∧ db.sellerCovers op adv ∧
    (0 < adv.minAccountStatus → adv.minAccountStatus ≤ client.referralStatusType ∧
      db.headBlockTime ≤ client.referralStatusExpirationDate) ∧
    adv.minP2pCompleteDeals ≤ clientStats.p2pCompleteDeals ∧
    adv.minCwd ≤ op.amount.amount ∧ op.amount.amount ≤ adv.maxCwd ∧
    op.p2pClient ∉ adv.blackList

/-- `create_p2p_order_evaluator::do_evaluate` -/
def createP2pOrderEvaluate (op : CreateP2pOrderOperation) (db : Database) : Bool :=
  (db.accounts.find op.p2pClient).any fun client =>
    (db.accounts.find op.p2pGateway).isSome ∧
      (db.assets.find op.amount.assetId).any (fun a => a.symbol = "CWD") ∧
      (db.statistics.lookup op.p2pClient).any fun clientStats =>
        clientStats.p2pBanned < db.headBlockTime ∧
          (db.statistics.lookup op.p2pGateway).any (fun s => s.p2pGatewayActive) ∧
          (db.openOrders op.p2pClient).all (fun e => e.2.p2pGateway ≠ op.p2pGateway) ∧
          (db.openOrders op.p2pClient).length < db.p2pOrderLimit client ∧
          (db.p2pAdvs.find op.p2pAdv).any fun adv => db.advAccepts op adv client clientStats

/-- The new order. -/
def newP2pOrder (db : Database) (op : CreateP2pOrderOperation) (adv : P2pAdv) : P2pOrder where
  p2pAdv := op.p2pAdv
  orderType := adv.advType
  amount := op.amount
  price := adv.price
  p2pGateway := adv.p2pGateway
  p2pClient := op.p2pClient
  status := if adv.advType then 1 else 2
  timeForApprove :=
    if adv.advType then timePointSec db.headBlockTime adv.timelimitForApprove else 0
  timeForReply := if adv.advType then 0 else timePointSec db.headBlockTime adv.timelimitForReply

/-- `create_p2p_order_evaluator::do_apply` -/
def createP2pOrderApply (op : CreateP2pOrderOperation) (db : Database) : Option Database :=
  (db.p2pAdvs.find op.p2pAdv).bind fun adv =>
    let db := { db with p2pOrders := db.p2pOrders.create (db.newP2pOrder op adv) }
    if adv.advType then some db else db.adjustBalance op.p2pClient (-op.amount)

/-- The order operation. -/
def createP2pOrder (db : Database) (op : CreateP2pOrderOperation) : Option Database :=
  if op.validate then
    db.applyOperation op.p2pClient op.fee (createP2pOrderEvaluate op) (createP2pOrderApply op)
  else none

/-! ### Cancel, call and payment -/

/-- `cancel_p2p_order_evaluator::do_evaluate` -/
def cancelP2pOrderEvaluate (op : CancelP2pOrderOperation) (db : Database) : Bool :=
  (db.p2pOrders.find op.p2pOrder).any fun o =>
    o.p2pGateway = op.p2pGateway ∧ o.status = if o.orderType then 1 else 2

/-- The client is put on the black list of the advertisement, which must exist. -/
def blacklistClient (db : Database) (o : P2pOrder) : Option Database :=
  (db.p2pAdvs.find o.p2pAdv).map fun _ =>
    { db with
      p2pAdvs := db.p2pAdvs.modify o.p2pAdv fun adv =>
        { adv with blackList := o.p2pClient :: adv.blackList } }

/-- `cancel_p2p_order_evaluator::do_apply` -/
def cancelP2pOrderApply (op : CancelP2pOrderOperation) (db : Database) : Option Database :=
  (db.p2pOrders.find op.p2pOrder).bind fun o =>
    (if op.blacklist then db.blacklistClient o else some db).bind fun db =>
      (db.modifyStatistics o.p2pGateway (·.cancelDeal)).bind fun db =>
        (if o.orderType then some db else db.adjustBalance o.p2pClient o.amount).map fun db =>
          { db with p2pOrders := db.p2pOrders.remove op.p2pOrder }

/-- The cancel operation, of the gateway. -/
def cancelP2pOrder (db : Database) (op : CancelP2pOrderOperation) : Option Database :=
  if op.validate then
    db.applyOperation op.p2pGateway op.fee (cancelP2pOrderEvaluate op) (cancelP2pOrderApply op)
  else none

/-- `call_p2p_order_evaluator::do_evaluate` -/
def callP2pOrderEvaluate (op : CallP2pOrderOperation) (db : Database) : Bool :=
  (db.p2pOrders.find op.p2pOrder).any fun o =>
    o.orderType ∧ o.status = 1 ∧ o.p2pGateway = op.p2pGateway ∧ o.price = op.price ∧
      o.amount = op.amount ∧ (db.accounts.find o.p2pGateway).isSome ∧
      (db.assets.find o.amount.assetId).isSome ∧
      o.amount.amount ≤ db.getBalance o.p2pGateway o.amount.assetId

/-- `call_p2p_order_evaluator::do_apply` -/
def callP2pOrderApply (op : CallP2pOrderOperation) (db : Database) : Option Database :=
  (db.p2pOrders.find op.p2pOrder).bind fun o =>
    (db.p2pAdvs.find o.p2pAdv).bind fun adv =>
      { db with
        p2pOrders := db.p2pOrders.modify op.p2pOrder fun o =>
          { o with
            status := 2
            timeForReply := timePointSec db.headBlockTime adv.timelimitForReply
            timeForApprove := 0 } }.adjustBalance op.p2pGateway (-o.amount)

/-- The call operation, of the gateway. -/
def callP2pOrder (db : Database) (op : CallP2pOrderOperation) : Option Database :=
  if op.validate then
    db.applyOperation op.p2pGateway op.fee (callP2pOrderEvaluate op) (callP2pOrderApply op)
  else none

/-- `payment_p2p_order_evaluator::do_evaluate` -/
def paymentP2pOrderEvaluate (op : PaymentP2pOrderOperation) (db : Database) : Bool :=
  (db.p2pOrders.find op.p2pOrder).any fun o =>
    o.status = 2 ∧ (if o.orderType then o.p2pClient else o.p2pGateway) = op.payingAccount

/-- `payment_p2p_order_evaluator::do_apply` -/
def paymentP2pOrderApply (op : PaymentP2pOrderOperation) (db : Database) : Option Database :=
  (db.p2pOrders.find op.p2pOrder).map fun _ =>
    { db with
      p2pOrders := db.p2pOrders.modify op.p2pOrder fun o =>
        { o with status := 3, timeForReply := 0 } }

/-- The payment operation, of the side that buys. -/
def paymentP2pOrder (db : Database) (op : PaymentP2pOrderOperation) : Option Database :=
  if op.validate then
    db.applyOperation op.payingAccount op.fee (paymentP2pOrderEvaluate op) (paymentP2pOrderApply op)
  else none

/-! ### Release -/

/-- `release_p2p_order_evaluator::do_evaluate` -/
def releaseP2pOrderEvaluate (op : ReleaseP2pOrderOperation) (db : Database) : Bool :=
  (db.p2pOrders.find op.p2pOrder).any fun o =>
    2 ≤ o.status ∧
      if o.orderType then o.p2pClient = op.payingAccount ∧ o.p2pGateway = op.recievingAccount
      else o.p2pGateway = op.payingAccount ∧ o.p2pClient = op.recievingAccount

/-- `release_p2p_order_evaluator::do_apply` -/
def releaseP2pOrderApply (op : ReleaseP2pOrderOperation) (db : Database) : Option Database :=
  (db.p2pOrders.find op.p2pOrder).bind fun o =>
    (db.adjustBalance (if o.orderType then o.p2pClient else o.p2pGateway) o.amount).bind fun db =>
      (db.modifyStatistics o.p2pGateway (·.completeDeal o.amount.amount)).bind fun db =>
        (db.modifyStatistics o.p2pClient (·.completeDeal o.amount.amount)).map fun db =>
          { db with p2pOrders := db.p2pOrders.remove op.p2pOrder }

/-- The release operation; its fee payer, who signs it, is the receiving account. -/
def releaseP2pOrder (db : Database) (op : ReleaseP2pOrderOperation) : Option Database :=
  if op.validate then
    db.applyOperation op.recievingAccount op.fee (releaseP2pOrderEvaluate op)
      (releaseP2pOrderApply op)
  else none

/-! ### Disputes -/

/-- The account whose white list has the arbiters. -/
def adminWhitelist : AccountId := 3334

/-- The account is an arbiter. -/
def isArbitr (db : Database) (arbitr : AccountId) : Bool :=
  (db.accounts.find adminWhitelist).any fun admin => arbitr ∈ admin.whitelistedAccounts

/-- `open_p2p_dispute_evaluator::do_evaluate` -/
def openP2pDisputeEvaluate (op : P2pDisputeOperation) (db : Database) : Bool :=
  (db.p2pOrders.find op.p2pOrder).any fun o =>
    o.status = 3 ∧ (o.p2pGateway = op.account ∨ o.p2pClient = op.account) ∧ db.isArbitr op.arbitr

/-- `open_p2p_dispute_evaluator::do_apply` -/
def openP2pDisputeApply (op : P2pDisputeOperation) (db : Database) : Option Database :=
  (db.p2pOrders.find op.p2pOrder).map fun _ =>
    { db with
      p2pOrders := db.p2pOrders.modify op.p2pOrder fun o =>
        { o with status := 4, arbitrageInitiator := some op.account } }

/-- The operation that opens a dispute. -/
def openP2pDispute (db : Database) (op : P2pDisputeOperation) : Option Database :=
  if op.validate then
    db.applyOperation op.account op.fee (openP2pDisputeEvaluate op) (openP2pDisputeApply op)
  else none

/-- `reply_p2p_dispute_evaluator::do_evaluate` -/
def replyP2pDisputeEvaluate (op : P2pDisputeOperation) (db : Database) : Bool :=
  (db.p2pOrders.find op.p2pOrder).any fun o =>
    o.status = 4 ∧ (o.p2pGateway = op.account ∨ o.p2pClient = op.account) ∧
      (hardforkCwd4Time ≤ db.headBlockTime → o.arbitrageInitiator ≠ some op.account) ∧
      db.isArbitr op.arbitr

/-- `reply_p2p_dispute_evaluator::do_apply` -/
def replyP2pDisputeApply (op : P2pDisputeOperation) (db : Database) : Option Database :=
  (db.p2pOrders.find op.p2pOrder).map fun _ =>
    { db with p2pOrders := db.p2pOrders.modify op.p2pOrder fun o => { o with status := 5 } }

/-- The operation that replies to a dispute. -/
def replyP2pDispute (db : Database) (op : P2pDisputeOperation) : Option Database :=
  if op.validate then
    db.applyOperation op.account op.fee (replyP2pDisputeEvaluate op) (replyP2pDisputeApply op)
  else none

/-- `resolve_p2p_dispute_evaluator::do_evaluate` -/
def resolveP2pDisputeEvaluate (op : ResolveP2pDisputeOperation) (db : Database) : Bool :=
  (db.p2pOrders.find op.p2pOrder).any fun o =>
    (o.status = 4 ∨ o.status = 5) ∧ (o.p2pGateway = op.winner ∨ o.p2pClient = op.winner) ∧
      (o.p2pGateway = op.looser ∨ o.p2pClient = op.looser) ∧ db.isArbitr op.arbitr

/-- `arbitr_comission`, by `cut_fee_exchange`. -/
def p2pArbitrComission (amount : Int) : Int := cutFee amount (1 * graphene1Percent)

/-- `resolve_p2p_dispute_evaluator::do_apply`; both payments are in the core asset. -/
def resolveP2pDisputeApply (op : ResolveP2pDisputeOperation) (db : Database) : Option Database :=
  (db.p2pOrders.find op.p2pOrder).bind fun o =>
    let comission := p2pArbitrComission o.amount.amount
    (db.adjustBalances [(op.arbitr, .core comission),
      (op.winner, .core (o.amount.amount - comission))]).bind fun db =>
      (db.modifyStatistics op.winner (·.completeDeal (o.amount.amount - comission))).bind fun db =>
        (db.modifyStatistics op.looser (·.looseDeal)).map fun db =>
          { db with p2pOrders := db.p2pOrders.remove op.p2pOrder }

/-- The operation of the arbiter. -/
def resolveP2pDispute (db : Database) (op : ResolveP2pDisputeOperation) : Option Database :=
  if op.validate then
    db.applyOperation op.arbitr op.fee (resolveP2pDisputeEvaluate op) (resolveP2pDisputeApply op)
  else none

/-! ### The sweep -/

/-- An order that was not called in time goes. -/
def autocancelP2pOrder (db : Database) (e : Nat × P2pOrder) : Option Database :=
  (db.modifyStatistics e.2.p2pGateway (·.cancelDeal)).map fun db =>
    { db with p2pOrders := db.p2pOrders.remove e.1 }

/-- An order that was not paid in time goes, and the seller is refunded. A client that did not pay
is banned for twelve hours. -/
def autorefundP2pOrder (db : Database) (e : Nat × P2pOrder) : Option Database :=
  if (db.statistics.lookup e.2.p2pClient).isSome ∧ (db.statistics.lookup e.2.p2pGateway).isSome then
    (if e.2.orderType then
      (db.modifyStatistics e.2.p2pClient fun s =>
        { s.cancelDeal with p2pBanned := timePointSec db.headBlockTime (12 * 3600) }).bind fun db =>
        db.adjustBalance e.2.p2pGateway e.2.amount
    else
      (db.modifyStatistics e.2.p2pGateway (·.cancelDeal)).bind fun db =>
        db.adjustBalance e.2.p2pClient e.2.amount).map fun db =>
      { db with p2pOrders := db.p2pOrders.remove e.1 }
  else none

/-- `database::auto_cancel_p2p_orders`, from `HARDFORK_CWD3_TIME` on. -/
def autoCancelP2pOrders (db : Database) : Option Database :=
  if hardforkCwd3Time ≤ db.headBlockTime then
    ((db.p2pOrders.inOrder.filter fun e =>
      e.2.status = 1 ∧ e.2.timeForApprove < db.headBlockTime).foldlM autocancelP2pOrder db).bind
      fun db => (db.p2pOrders.inOrder.filter fun e =>
        e.2.status = 2 ∧ e.2.timeForReply < db.headBlockTime).foldlM autorefundP2pOrder db
  else none

/-! ### What the operations do -/

/-- The symbols of the assets. -/
def assetSymbols (db : Database) : Nat → Option String :=
  fun id => (db.assets.find id).map (·.symbol)

/-- What an operation on an order changes: the orders, the balances, and nothing else of
what an order depends on. -/
structure OrderStep (db db' : Database) (orders : Table P2pOrder) (l : List (AccountId × Asset)) :
    Prop where
  orders : db'.p2pOrders = orders
  balances : adjustAll db.balances l = some db'.balances
  headBlockTime : db'.headBlockTime = db.headBlockTime
  symbols : db'.assetSymbols = db.assetSymbols

variable {db db' : Database} {l : List (AccountId × Asset)} {t : Table P2pOrder}

theorem OrderStep.refl (db : Database) : db.OrderStep db db.p2pOrders [] := ⟨rfl, rfl, rfl, rfl⟩

theorem OrderStep.trans {db'' : Database} {t' : Table P2pOrder} {l' : List (AccountId × Asset)}
    (h : db.OrderStep db' t l) (h' : db'.OrderStep db'' t' l') :
    db.OrderStep db'' t' (l ++ l') := by
  refine ⟨h'.orders, ?_, h'.headBlockTime.trans h.headBlockTime, h'.symbols.trans h.symbols⟩
  rw [adjustAll_append, h.balances]
  exact h'.balances

theorem OrderStep.statistics {d : Database} {a : AccountId}
    {f : AccountStatistics → AccountStatistics}
    (h : db.OrderStep d t l) (hd : d.modifyStatistics a f = some db') : db.OrderStep db' t l := by
  obtain ⟨s, -, rfl⟩ := modifyStatistics_eq_some hd
  exact ⟨h.orders, h.balances, h.headBlockTime, h.symbols⟩

theorem OrderStep.adjusts {d : Database} {l' : List (AccountId × Asset)} (h : db.OrderStep d t l)
    (hd : d.adjustBalances l' = some db') : db.OrderStep db' t (l ++ l') := by
  obtain ⟨m, hm, rfl⟩ := adjustBalances_eq_some hd
  exact ⟨h.orders, by rw [adjustAll_append, h.balances]; exact hm, h.headBlockTime, h.symbols⟩

theorem OrderStep.adjust {d : Database} {a : AccountId} {x : Asset} (h : db.OrderStep d t l)
    (hd : d.adjustBalance a x = some db') : db.OrderStep db' t (l ++ [(a, x)]) := by
  obtain ⟨m, hm, rfl⟩ := adjustBalance_eq_some hd
  exact ⟨h.orders, adjustAll_concat h.balances hm, h.headBlockTime, h.symbols⟩

theorem OrderStep.remove {d : Database} (h : db.OrderStep d db.p2pOrders l) (id : Nat) :
    db.OrderStep { d with p2pOrders := d.p2pOrders.remove id } (db.p2pOrders.remove id) l :=
  ⟨congrArg (·.remove id) h.orders, h.balances, h.headBlockTime, h.symbols⟩

theorem assetSymbols_convertAndPayFee (db : Database) (payer : AccountId) (fee : Asset)
    (coreFee : Int) :
    (db.convertAndPayFee payer fee coreFee).assetSymbols = db.assetSymbols := by
  unfold assetSymbols convertAndPayFee
  split
  · rfl
  · refine map_find_modify_of_eq ?_ db.assets fee.assetId
    exact fun _ => rfl

theorem OrderStep.withFee {db1 : Database} {payer : AccountId} {fee : Asset} (coreFee : Int)
    {m : Balances} (h : (db.convertAndPayFee payer fee coreFee).OrderStep db1 t l)
    (hm : Balances.adjust db1.balances payer (-fee) = some m) :
    db.OrderStep { db1 with balances := m } t (l ++ [(payer, -fee)]) :=
  ⟨h.orders, adjustAll_concat h.balances hm, h.headBlockTime,
    h.symbols.trans (assetSymbols_convertAndPayFee db payer fee coreFee)⟩

/-- A client that sells is debited at once. -/
theorem createP2pOrder_eq_some {op : CreateP2pOrderOperation}
    (h : db.createP2pOrder op = some db') :
    ∃ adv, db.p2pAdvs.find op.p2pAdv = some adv ∧ op.validate = true ∧
      db.assetSymbols op.amount.assetId = some "CWD" ∧
      db.OrderStep db' (db.p2pOrders.create (db.newP2pOrder op adv))
        ((if adv.advType then [] else [(op.p2pClient, -op.amount)]) ++
          [(op.p2pClient, -op.fee)]) := by
  obtain ⟨hv, coreFee, db1, m, -, hev, hap, hm, rfl⟩ := operation_eq_some h
  simp only [createP2pOrderEvaluate, Option.any_eq_true, decide_eq_true_eq] at hev
  obtain ⟨client, -, -, ⟨a, ha, hsymbol⟩, stats, -, -, -, -, -, adv, hadv, -⟩ := hev
  refine ⟨adv, hadv, hv, ?_, ?_⟩
  · rw [assetSymbols, ha, map_some, hsymbol]
  · obtain ⟨adv', hadv', hap⟩ := bind_eq_some_iff.1 hap
    cases hadv.symm.trans hadv'
    refine OrderStep.withFee coreFee ?_ hm
    split at hap
    · next htype =>
      cases hap
      rw [if_pos htype]
      exact ⟨rfl, rfl, rfl, rfl⟩
    · next htype =>
      rw [if_neg htype]
      exact OrderStep.adjust (l := []) (by exact ⟨rfl, rfl, rfl, rfl⟩) hap

/-- A gateway can cancel an order of a client that buys until it is called, and one of a client
that sells until it is paid; then the client gets its amount back. -/
theorem cancelP2pOrder_eq_some {op : CancelP2pOrderOperation}
    (h : db.cancelP2pOrder op = some db') :
    ∃ o, db.p2pOrders.find op.p2pOrder = some o ∧ (o.status = if o.orderType then 1 else 2) ∧
      db.OrderStep db' (db.p2pOrders.remove op.p2pOrder)
        ((if o.orderType then [] else [(o.p2pClient, o.amount)]) ++
          [(op.p2pGateway, -op.fee)]) := by
  obtain ⟨-, coreFee, db1, m, -, hev, hap, hm, rfl⟩ := operation_eq_some h
  simp only [cancelP2pOrderEvaluate, Option.any_eq_true, decide_eq_true_eq] at hev
  obtain ⟨o, ho, -, hstatus⟩ := hev
  refine ⟨o, ho, hstatus, OrderStep.withFee coreFee ?_ hm⟩
  obtain ⟨o', ho', hap⟩ := bind_eq_some_iff.1 hap
  cases ho.symm.trans ho'
  obtain ⟨d1, h1, hap⟩ := bind_eq_some_iff.1 hap
  obtain ⟨d2, h2, hap⟩ := bind_eq_some_iff.1 hap
  obtain ⟨d3, h3, rfl⟩ := map_eq_some_iff.1 hap
  have hstep1 :
      (db.convertAndPayFee op.p2pGateway op.fee coreFee).OrderStep d1 db.p2pOrders [] := by
    split at h1
    · obtain ⟨adv, -, rfl⟩ := map_eq_some_iff.1 h1
      exact ⟨rfl, rfl, rfl, rfl⟩
    · cases h1
      exact .refl _
  have hstep2 := hstep1.statistics h2
  split at h3
  · next htype =>
    cases h3
    rw [if_pos htype]
    exact hstep2.remove op.p2pOrder
  · next htype =>
    rw [if_neg htype]
    exact (hstep2.adjust h3).remove op.p2pOrder

/-- The gateway that sells is debited when it calls. -/
theorem callP2pOrder_eq_some {op : CallP2pOrderOperation} (h : db.callP2pOrder op = some db') :
    ∃ (o : P2pOrder) (adv : P2pAdv), db.p2pOrders.find op.p2pOrder = some o ∧
      db.p2pAdvs.find o.p2pAdv = some adv ∧ o.status = 1 ∧ o.seller = op.p2pGateway ∧
      db.OrderStep db' (db.p2pOrders.modify op.p2pOrder fun o =>
          { o with
            status := 2
            timeForReply := timePointSec db.headBlockTime adv.timelimitForReply
            timeForApprove := 0 })
        ([(op.p2pGateway, -o.amount)] ++ [(op.p2pGateway, -op.fee)]) := by
  obtain ⟨-, coreFee, db1, m, -, hev, hap, hm, rfl⟩ := operation_eq_some h
  simp only [callP2pOrderEvaluate, Option.any_eq_true, decide_eq_true_eq] at hev
  obtain ⟨o, ho, htype, hstatus, hgateway, -⟩ := hev
  obtain ⟨o', ho', hap⟩ := bind_eq_some_iff.1 hap
  cases ho.symm.trans ho'
  obtain ⟨adv, hadv, hap⟩ := bind_eq_some_iff.1 hap
  have hseller : o.seller = op.p2pGateway := by rw [P2pOrder.seller, if_pos htype, hgateway]
  refine ⟨o, adv, ho, hadv, hstatus, hseller, OrderStep.withFee coreFee ?_ hm⟩
  exact OrderStep.adjust (l := []) (by exact ⟨rfl, rfl, rfl, rfl⟩) hap

/-- An operation that only rewrites an order of one status. -/
theorem turnOrder_eq_some {valid : Bool} {payer : AccountId} {fee : Asset} {id n : Nat}
    {P : Database → P2pOrder → Prop} [∀ db o, Decidable (P db o)] {f : P2pOrder → P2pOrder}
    (h : (if valid then db.applyOperation payer fee
        (fun db => (db.p2pOrders.find id).any fun o => o.status = n ∧ P db o)
        (fun db => (db.p2pOrders.find id).map fun _ =>
          { db with p2pOrders := db.p2pOrders.modify id f })
      else none) = some db') :
    ∃ o, db.p2pOrders.find id = some o ∧ o.status = n ∧
      db.OrderStep db' (db.p2pOrders.modify id f) ([] ++ [(payer, -fee)]) := by
  obtain ⟨-, coreFee, db1, m, -, hev, hap, hm, rfl⟩ := operation_eq_some h
  simp only [Option.any_eq_true, decide_eq_true_eq] at hev
  obtain ⟨o, ho, hstatus, -⟩ := hev
  refine ⟨o, ho, hstatus, OrderStep.withFee coreFee ?_ hm⟩
  obtain ⟨o', -, rfl⟩ := map_eq_some_iff.1 hap
  exact ⟨rfl, rfl, rfl, rfl⟩

theorem paymentP2pOrder_eq_some {op : PaymentP2pOrderOperation}
    (h : db.paymentP2pOrder op = some db') :
    ∃ o, db.p2pOrders.find op.p2pOrder = some o ∧ o.status = 2 ∧
      db.OrderStep db' (db.p2pOrders.modify op.p2pOrder fun o =>
        { o with status := 3, timeForReply := 0 }) ([] ++ [(op.payingAccount, -op.fee)]) :=
  turnOrder_eq_some h

theorem releaseP2pOrder_eq_some {op : ReleaseP2pOrderOperation}
    (h : db.releaseP2pOrder op = some db') :
    ∃ o, db.p2pOrders.find op.p2pOrder = some o ∧ 2 ≤ o.status ∧ op.recievingAccount = o.seller ∧
      db.OrderStep db' (db.p2pOrders.remove op.p2pOrder)
        ([(o.buyer, o.amount)] ++ [(op.recievingAccount, -op.fee)]) := by
  obtain ⟨-, coreFee, db1, m, -, hev, hap, hm, rfl⟩ := operation_eq_some h
  simp only [releaseP2pOrderEvaluate, Option.any_eq_true, decide_eq_true_eq] at hev
  obtain ⟨o, ho, hstatus, hsides⟩ := hev
  have hseller : op.recievingAccount = o.seller := by
    unfold P2pOrder.seller
    split at hsides
    · next htype => rw [if_pos htype, hsides.2]
    · next htype => rw [if_neg htype, hsides.2]
  refine ⟨o, ho, hstatus, hseller, OrderStep.withFee coreFee ?_ hm⟩
  obtain ⟨o', ho', hap⟩ := bind_eq_some_iff.1 hap
  cases ho.symm.trans ho'
  obtain ⟨d1, h1, hap⟩ := bind_eq_some_iff.1 hap
  obtain ⟨d2, h2, hap⟩ := bind_eq_some_iff.1 hap
  obtain ⟨d3, h3, rfl⟩ := map_eq_some_iff.1 hap
  exact ((((OrderStep.refl _).adjust h1).statistics h2).statistics h3).remove op.p2pOrder

theorem openP2pDispute_eq_some {op : P2pDisputeOperation} (h : db.openP2pDispute op = some db') :
    ∃ o, db.p2pOrders.find op.p2pOrder = some o ∧ o.status = 3 ∧
      db.OrderStep db' (db.p2pOrders.modify op.p2pOrder fun o =>
        { o with status := 4, arbitrageInitiator := some op.account })
        ([] ++ [(op.account, -op.fee)]) :=
  turnOrder_eq_some h

theorem replyP2pDispute_eq_some {op : P2pDisputeOperation} (h : db.replyP2pDispute op = some db') :
    ∃ o, db.p2pOrders.find op.p2pOrder = some o ∧ o.status = 4 ∧
      db.OrderStep db' (db.p2pOrders.modify op.p2pOrder fun o => { o with status := 5 })
        ([] ++ [(op.account, -op.fee)]) :=
  turnOrder_eq_some h

/-- The arbiter gets one percent, rounded down, and the winner the rest. -/
theorem resolveP2pDispute_eq_some {op : ResolveP2pDisputeOperation}
    (h : db.resolveP2pDispute op = some db') :
    ∃ o, db.p2pOrders.find op.p2pOrder = some o ∧ (o.status = 4 ∨ o.status = 5) ∧
      (o.p2pGateway = op.winner ∨ o.p2pClient = op.winner) ∧ db.isArbitr op.arbitr = true ∧
      db.OrderStep db' (db.p2pOrders.remove op.p2pOrder)
        ([(op.arbitr, .core (p2pArbitrComission o.amount.amount)),
          (op.winner, .core (o.amount.amount - p2pArbitrComission o.amount.amount))] ++
          [(op.arbitr, -op.fee)]) := by
  obtain ⟨-, coreFee, db1, m, -, hev, hap, hm, rfl⟩ := operation_eq_some h
  simp only [resolveP2pDisputeEvaluate, Option.any_eq_true, decide_eq_true_eq] at hev
  obtain ⟨o, ho, hstatus, hwinner, -, harbitr⟩ := hev
  refine ⟨o, ho, hstatus, hwinner, harbitr, OrderStep.withFee coreFee ?_ hm⟩
  obtain ⟨o', ho', hap⟩ := bind_eq_some_iff.1 hap
  cases ho.symm.trans ho'
  obtain ⟨d1, h1, hap⟩ := bind_eq_some_iff.1 hap
  obtain ⟨d2, h2, hap⟩ := bind_eq_some_iff.1 hap
  obtain ⟨d3, h3, rfl⟩ := map_eq_some_iff.1 hap
  exact ((((OrderStep.refl _).adjusts h1).statistics h2).statistics h3).remove op.p2pOrder

/-! ### What the sweep does -/

theorem autocancelP2pOrder_eq_some {e : Nat × P2pOrder} (h : db.autocancelP2pOrder e = some db') :
    db.OrderStep db' (db.p2pOrders.removeAll [e.1]) [] := by
  obtain ⟨d, hd, rfl⟩ := map_eq_some_iff.1 h
  exact ((OrderStep.refl db).statistics hd).remove e.1

theorem autorefundP2pOrder_eq_some {e : Nat × P2pOrder} (h : db.autorefundP2pOrder e = some db') :
    db.OrderStep db' (db.p2pOrders.removeAll [e.1]) [(e.2.seller, e.2.amount)] := by
  obtain ⟨-, h⟩ := ite_none_right_eq_some.1 h
  obtain ⟨d, hd, rfl⟩ := map_eq_some_iff.1 h
  have hstep : db.OrderStep d db.p2pOrders [(e.2.seller, e.2.amount)] := by
    unfold P2pOrder.seller
    split at hd
    · next htype =>
      obtain ⟨d1, h1, h2⟩ := bind_eq_some_iff.1 hd
      rw [if_pos htype]
      exact ((OrderStep.refl db).statistics h1).adjust h2
    · next htype =>
      obtain ⟨d1, h1, h2⟩ := bind_eq_some_iff.1 hd
      rw [if_neg htype]
      exact ((OrderStep.refl db).statistics h1).adjust h2
  exact hstep.remove e.1

/-- A loop that ends one order in every round. -/
theorem orderStep_foldlM {f : Database → Nat × P2pOrder → Option Database}
    (pay : Nat × P2pOrder → List (AccountId × Asset))
    (hf : ∀ {db e db'}, f db e = some db' → OrderStep db db' (db.p2pOrders.removeAll [e.1]) (pay e))
    {l : List (Nat × P2pOrder)} (h : l.foldlM f db = some db') :
    db.OrderStep db' (db.p2pOrders.removeAll (l.map Prod.fst)) (l.flatMap pay) := by
  induction l generalizing db with
  | nil =>
    cases h
    exact ⟨rfl, rfl, rfl, rfl⟩
  | cons e l ih =>
    obtain ⟨d, hd, h⟩ := bind_eq_some_iff.1 h
    have hstep := (hf hd).trans (ih h)
    rw [(hf hd).orders, ← removeAll_append] at hstep
    exact hstep

/-- **The sweep** ends the orders that time out, each once, and no others, and refunds what their
sellers were debited. -/
theorem autoCancelP2pOrders_eq_some (h : db.autoCancelP2pOrders = some db') :
    ∃ l : List (Nat × P2pOrder), (l.map Prod.fst).Nodup ∧
      (∀ e, e ∈ l ↔ db.p2pOrders.find e.1 = some e.2 ∧ e.2.TimesOut db.headBlockTime) ∧
      db.OrderStep db' (db.p2pOrders.removeAll (l.map Prod.fst)) (l.flatMap fun e =>
      e.2.refund) := by
  obtain ⟨-, h⟩ := ite_none_right_eq_some.1 h
  obtain ⟨d, hd, h⟩ := bind_eq_some_iff.1 h
  have hstep1 := orderStep_foldlM (fun _ => []) autocancelP2pOrder_eq_some hd
  have hstep2 := orderStep_foldlM (fun e => [(e.2.seller, e.2.amount)]) autorefundP2pOrder_eq_some h
  have hstep := hstep1.trans hstep2
  rw [hstep1.orders, hstep1.headBlockTime, ← removeAll_append] at hstep
  -- the two lists, and what is in them
  generalize hl1 : (db.p2pOrders.inOrder.filter fun e =>
    e.2.status = 1 ∧ e.2.timeForApprove < db.headBlockTime) = l1 at *
  have hmem1 : ∀ e, e ∈ l1 ↔ db.p2pOrders.find e.1 = some e.2 ∧ e.2.status = 1 ∧
      e.2.timeForApprove < db.headBlockTime := by
    intro e
    rw [← hl1, mem_filter, mem_inOrder, decide_eq_true_eq]
  have hnodup1 : (l1.map Prod.fst).Nodup :=
    nodup_keys_of_sublist (hl1 ▸ filter_sublist)
  generalize hl2 : ((db.p2pOrders.removeAll (l1.map Prod.fst)).inOrder.filter fun e =>
    e.2.status = 2 ∧ e.2.timeForReply < db.headBlockTime) = l2 at *
  have hmem2 : ∀ e, e ∈ l2 ↔ e.1 ∉ l1.map Prod.fst ∧ db.p2pOrders.find e.1 = some e.2 ∧
      e.2.status = 2 ∧ e.2.timeForReply < db.headBlockTime := by
    intro e
    rw [← hl2, mem_filter, mem_inOrder, find_removeAll, decide_eq_true_eq]
    split
    · next hin => simp [hin]
    · next hin => simp [hin]
  have hnodup2 : (l2.map Prod.fst).Nodup :=
    nodup_keys_of_sublist (hl2 ▸ filter_sublist)
  refine ⟨l1 ++ l2, ?_, ?_, ?_⟩
  · rw [map_append]
    refine Nodup.append hnodup1 hnodup2 ?_
    intro id h1 h2
    obtain ⟨e, he, rfl⟩ := mem_map.1 h2
    exact ((hmem2 e).1 he).1 h1
  · intro e
    rw [mem_append, hmem1, hmem2]
    constructor
    · rintro (⟨hfind, hcond⟩ | ⟨-, hfind, hcond⟩)
      · exact ⟨hfind, .inl hcond⟩
      · exact ⟨hfind, .inr hcond⟩
    · rintro ⟨hfind, hcond | hcond⟩
      · exact .inl ⟨hfind, hcond⟩
      · refine .inr ⟨?_, hfind, hcond⟩
        intro hin
        obtain ⟨e', he', hid⟩ := mem_map.1 hin
        obtain ⟨hfind', hone, -⟩ := (hmem1 e').1 he'
        rw [hid, hfind] at hfind'
        have heq := some.inj hfind'
        have htwo := hcond.1
        rw [heq] at htwo
        omega
  · have hpay1 : (l1.flatMap fun e => e.2.refund) = l1.flatMap fun _ => [] := by
      refine flatMap_congr fun e he => ?_
      have hone := ((hmem1 e).1 he).2.1
      rw [P2pOrder.refund, if_neg (by omega)]
    have hpay2 : (l2.flatMap fun e => e.2.refund) = l2.flatMap fun e =>
        [(e.2.seller, e.2.amount)] := by
      refine flatMap_congr fun e he => ?_
      rw [P2pOrder.refund, if_pos ((hmem2 e).1 he).2.2.1]
    rw [map_append, flatMap_append, hpay1, hpay2]
    exact hstep

end Database

end CrowdwizChain
