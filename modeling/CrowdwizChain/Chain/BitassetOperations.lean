import CrowdwizChain.Chain.GlobalSettlement
import CrowdwizChain.Chain.LimitBook

/-!
# The operations on market-issued assets

The evaluators of `market_evaluator.cpp` and `asset_evaluator.cpp` that move debt and collateral,
and what is done with orders, feeds and bids at the end of a block (`clear_expired_orders`,
`update_expired_feeds`) and at maintenance (`process_bitassets`).

The feeds of the publishers are not kept. An operation that changes them comes with the
feed that `update_median_feeds` makes of them, which can be any feed in terms of the
asset and its backing asset.
-/

namespace CrowdwizChain

open Exchange

namespace Market

/-- `evaluator::evaluate` and `evaluator::apply` around an operation on the markets -/
def applyOperation (m : Market) (payer : AccountId) (fee : Asset) (doEvaluate : Market → Bool)
    (doApply : Market → Option Market) : Option Market :=
  (m.db.prepareFee payer fee).bind fun coreFee =>
    if doEvaluate m then
      (doApply { m with db := m.db.convertAndPayFee payer fee coreFee }).bind fun m =>
        (m.db.adjustBalance payer (-fee)).map fun db => { m with db := db }
    else none

end Market

/-! ### `limit_order_cancel` -/

/-- `limit_order_cancel_operation` -/
structure LimitOrderCancelOperation where
  fee : Asset
  feePayingAccount : AccountId
  order : Nat

namespace Market

/-- `limit_order_cancel_evaluator` -/
def limitOrderCancel (m : Market) (op : LimitOrderCancelOperation) : Option Market :=
  m.applyOperation op.feePayingAccount op.fee
    (fun m => (m.limitOrders.find op.order).any fun o => o.seller = op.feePayingAccount)
    fun m => m.cancelLimitOrder op.order false

end Market

/-! ### `call_order_update` -/

/-- `call_order_update_operation` -/
structure CallOrderUpdateOperation where
  fee : Asset
  fundingAccount : AccountId
  deltaCollateral : Asset
  deltaDebt : Asset
  targetCollateralRatio : Option Nat := none

namespace CallOrderUpdateOperation

variable (op : CallOrderUpdateOperation)

/-- `call_order_update_operation::validate` -/
def validate : Bool :=
  op.deltaCollateral.assetId ≠ op.deltaDebt.assetId ∧
    (op.deltaCollateral.amount ≠ 0 ∨ op.deltaDebt.amount ≠ 0)

end CallOrderUpdateOperation

namespace Market

variable (m : Market)

/-- The margin position of an account in an asset. -/
def positionOf (account : AccountId) (x : AssetId) : Option (Nat × CallOrder) :=
  m.callOrders.inOrder.find? fun e => e.2.borrower = account ∧ e.2.debtType = x

/-- `call_order_update_evaluator::do_evaluate` -/
def callOrderUpdateEvaluate (op : CallOrderUpdateOperation) : Bool :=
  (m.bitassets op.deltaDebt.assetId).any fun b =>
    !b.hasSettlement && op.deltaCollateral.assetId = b.options.shortBackingAsset &&
      if b.isPredictionMarket then op.deltaCollateral.amount = op.deltaDebt.amount
      else b.currentFeed.settlementPrice.isSome

/-- The debt and the collateral of an update, in the books. -/
def bookPosition (db : Database) (op : CallOrderUpdateOperation) : Option Database :=
  (if op.deltaDebt.amount ≠ 0 then
      (db.adjustBalance op.fundingAccount op.deltaDebt).bind fun db =>
        (db.assets.find op.deltaDebt.assetId).bind fun d =>
          if 0 ≤ d.currentSupply + op.deltaDebt.amount then
            db.modifyAsset op.deltaDebt.assetId fun d =>
              { d with currentSupply := d.currentSupply + op.deltaDebt.amount }
          else none
    else some db).bind fun db =>
    if op.deltaCollateral.amount ≠ 0 then
      (db.adjustBalance op.fundingAccount (-op.deltaCollateral)).bind fun db =>
        if op.deltaCollateral.assetId = 0 then
          db.modifyStatistics op.fundingAccount (·.outOfOrders (-op.deltaCollateral))
        else some db
    else some db

/-- The position is created, closed or updated. With it is the position's id, if it is still there,
and what it was before, if it was there. -/
def writePosition (op : CallOrderUpdateOperation) (ratio : Nat) :
    Option (Market × Option (Nat × Option CallOrder)) :=
  match m.positionOf op.fundingAccount op.deltaDebt.assetId with
  | none =>
    if 0 < op.deltaCollateral.amount ∧ 0 < op.deltaDebt.amount then
      (Price.callPrice op.deltaDebt op.deltaCollateral ratio).map fun callPrice =>
        ({ m with
            callOrders := m.callOrders.create
              { borrower := op.fundingAccount
                collateral := op.deltaCollateral.amount
                debt := op.deltaDebt.amount
                callPrice := callPrice
                targetCollateralRatio := op.targetCollateralRatio } },
          some (m.callOrders.nextId, none))
    else none
  | some (id, c) =>
    let newCollateral := c.collateral + op.deltaCollateral.amount
    let newDebt := c.debt + op.deltaDebt.amount
    if newDebt = 0 then
      if newCollateral = 0 then some ({ m with callOrders := m.callOrders.remove id }, none)
        else none
    else if 0 < newCollateral ∧ 0 < newDebt then
      (Price.callPrice ⟨newDebt, c.debtType⟩ ⟨newCollateral, c.collateralType⟩ ratio).map
        fun callPrice =>
        ({ m with
            callOrders := m.callOrders.modify id fun c =>
              { c with
                collateral := newCollateral
                debt := newDebt
                callPrice := callPrice
                targetCollateralRatio := op.targetCollateralRatio } },
          some (id, some c))
    else none

/-- Whether a position may stay as it is: its ratio went up with no more debt, or it is
not called. -/
def mayStay (c : CallOrder) (old : Option CallOrder) (feed : Option ValidPrice) : Bool :=
  old.any (fun o => c.debt ≤ o.debt && o.collateralization.lt c.collateralization) ||
    feed.any fun feed => c.callPrice.inv.lt feed

/-- The checks after an update: margin calls are executed, but may not leave anything of the
position, and may not settle the asset. -/
def checkPosition (steps : Nat) (x : AssetId) (b : BitassetData) (id : Nat)
    (old : Option CallOrder) :
    Option Market :=
  if b.isPredictionMarket then some m
  else
    (m.checkCallOrders steps x false).bind fun (m, called) =>
      if called then if (m.callOrders.find id).isSome then none else some m
      else
        (m.callOrders.find id).bind fun c =>
          if mayStay c old b.currentFeed.settlementPrice then some m else none

/-- `call_order_update_evaluator::do_apply` -/
def callOrderUpdateApply (steps : Nat) (op : CallOrderUpdateOperation) : Option Market :=
  (m.bitassets op.deltaDebt.assetId).bind fun b =>
    (bookPosition m.db op).bind fun db =>
      (({ m with db := db } : Market).writePosition op
        b.currentFeed.maintenanceCollateralRatio).bind fun (m, position) =>
        match position with
        | none => some m
        | some (id, old) => m.checkPosition steps op.deltaDebt.assetId b id old

/-- `call_order_update_evaluator` -/
def callOrderUpdate (steps : Nat) (op : CallOrderUpdateOperation) : Option Market :=
  if op.validate then
    m.applyOperation op.fundingAccount op.fee (·.callOrderUpdateEvaluate op)
      (·.callOrderUpdateApply steps op)
  else none

end Market

/-! ### `bid_collateral` -/

/-- `bid_collateral_operation` -/
structure BidCollateralOperation where
  fee : Asset
  bidder : AccountId
  additionalCollateral : Asset
  debtCovered : Asset

/-- `bid_collateral_operation::validate` -/
def BidCollateralOperation.validate (op : BidCollateralOperation) : Bool :=
  op.debtCovered.amount = 0 ∨ 0 < op.debtCovered.amount ∧ 0 < op.additionalCollateral.amount

namespace Market

variable (m : Market)

/-- The bid of an account on an asset. -/
def bidOf (account : AccountId) (x : AssetId) : Option (Nat × CollateralBid) :=
  m.collateralBids.inOrder.find? fun e => e.2.bidder = account ∧ e.2.debtType = x

/-- `bid_collateral_evaluator::do_evaluate` -/
def bidCollateralEvaluate (op : BidCollateralOperation) : Bool :=
  (m.bitassets op.debtCovered.assetId).any fun b =>
    b.hasSettlement && op.additionalCollateral.assetId = b.options.shortBackingAsset &&
      !b.isPredictionMarket &&
      (op.additionalCollateral.amount ≤ 0 ||
        op.additionalCollateral.amount ≤
        m.db.getBalance op.bidder op.additionalCollateral.assetId) &&
      ((m.bidOf op.bidder op.debtCovered.assetId).isSome || 0 < op.debtCovered.amount)

/-- `bid_collateral_evaluator::do_apply` -/
def bidCollateralApply (op : BidCollateralOperation) : Option Market :=
  (match m.bidOf op.bidder op.debtCovered.assetId with
    | none => some m
    | some e => m.cancelBid e.1).bind fun m =>
    if op.debtCovered.amount = 0 then some m
    else if op.additionalCollateral.assetId = op.debtCovered.assetId then none
    else
      (m.db.adjustBalance op.bidder (-op.additionalCollateral)).map fun db =>
        { m with
          db := db
          collateralBids := m.collateralBids.create
            ⟨op.bidder, ⟨op.additionalCollateral, op.debtCovered⟩⟩ }

/-- `bid_collateral_evaluator` -/
def bidCollateral (op : BidCollateralOperation) : Option Market :=
  if op.validate then
    m.applyOperation op.bidder op.fee (·.bidCollateralEvaluate op) (·.bidCollateralApply op)
  else none

end Market

/-! ### `asset_settle` and `asset_global_settle` -/

/-- `asset_settle_operation` -/
structure AssetSettleOperation where
  fee : Asset
  account : AccountId
  amount : Asset

/-- `asset_global_settle_operation` -/
structure AssetGlobalSettleOperation where
  fee : Asset
  issuer : AccountId
  assetToSettle : AssetId
  settlePrice : Price

namespace Market

variable (m : Market)

/-- `asset_settle_evaluator::do_evaluate` -/
def assetSettleEvaluate (op : AssetSettleOperation) : Bool :=
  (m.bitassets op.amount.assetId).any fun b =>
    (b.canForceSettle || b.hasSettlement) &&
      (b.hasSettlement || (!b.isPredictionMarket && b.currentFeed.settlementPrice.isSome)) &&
      op.amount.amount ≤ m.db.getBalance op.account op.amount.assetId

/-- What the holder of a globally settled asset receives, and what is paid for it. All of the
supply is paid with all of the fund. Something that is worth nothing is refused, unless the asset
is of a prediction market. -/
def settleTerms (b : BitassetData) (price : Price) (supply : Int) (amount : Asset) :
    Option (Asset × Asset) :=
  (amount.mul price).bind fun value =>
    if amount.amount = supply then
      if b.settlementFund = 0 ∧ b.isPredictionMarket = false then none
      else some (⟨b.settlementFund, value.assetId⟩, amount)
    else if b.settlementFund < value.amount ∨ value.amount = 0 ∧ b.isPredictionMarket = false then
      none
    else if value.amount = 0 then some (value, amount)
    else (value.multiplyAndRoundUp price).map fun pays => (value, pays)

/-- The payment out of the settlement fund. -/
def settleFromFund (x : AssetId) (account : AccountId) (settled pays : Asset) : Option Market :=
  (m.db.adjustBalance account (-pays)).bind fun db =>
    (if 0 < settled.amount then db.adjustBalance account settled else some db).bind fun db =>
      (db.modifyAsset x fun d =>
        { d with currentSupply := d.currentSupply - pays.amount }).map fun db =>
        ({ m with db := db } : Market).modifyBitasset x
          (fun b =>
            { b with settlementFund := b.settlementFund - if 0 < settled.amount then
              settled.amount else 0 })
          fun _ => ⟨rfl, rfl⟩

/-- `asset_settle_evaluator::do_apply` -/
def assetSettleApply (op : AssetSettleOperation) : Option Market :=
  (m.bitassets op.amount.assetId).bind fun b =>
    match b.settlementPrice with
    | some price =>
      (m.db.assets.find op.amount.assetId).bind fun d =>
        (settleTerms b price d.currentSupply op.amount).bind fun (settled, pays) =>
          m.settleFromFund op.amount.assetId op.account settled pays
    | none =>
      (m.db.adjustBalance op.account (-op.amount)).map fun db =>
        { m with
          db := db
          settlements := m.settlements.create
            { owner := op.account
              balance := op.amount
              settlementDate :=
                timePointSec m.db.headBlockTime b.options.forceSettlementDelaySec } }

/-- `asset_settle_evaluator` -/
def assetSettle (op : AssetSettleOperation) : Option Market :=
  if 0 ≤ op.amount.amount then
    m.applyOperation op.account op.fee (·.assetSettleEvaluate op) (·.assetSettleApply op)
  else none

/-- The order `by_collateral` of the margin positions: the least collateralized, then
the lower id. -/
def lessCollateralized (a b : Nat × CallOrder) : Bool :=
  a.2.collateralization.lt b.2.collateralization ||
    (!b.2.collateralization.lt a.2.collateralization && a.1 < b.1)

/-- The margin position of a market with the least collateral for its debt. -/
def leastCollateralized (backing x : AssetId) : Option (Nat × CallOrder) :=
  Table.firstBy lessCollateralized (m.callsOf backing x)

/-- `asset_global_settle_evaluator::do_evaluate`. The price is not validated, but a product with a
negative amount is too large a number and refused. -/
def assetGlobalSettleEvaluate (op : AssetGlobalSettleOperation) : Bool :=
  (m.bitassets op.assetToSettle).any fun b =>
    b.canGlobalSettle && b.issuer = op.issuer &&
      ((m.db.assets.find op.assetToSettle).any fun d => 0 < d.currentSupply) &&
      !b.hasSettlement && 0 ≤ op.settlePrice.quote.amount &&
      (m.leastCollateralized b.options.shortBackingAsset op.assetToSettle).any fun e =>
        (e.2.getDebt.mul op.settlePrice).any fun value =>
          value.assetId = e.2.collateralType && value.amount ≤ e.2.collateral

/-- `asset_global_settle_evaluator` -/
def assetGlobalSettle (op : AssetGlobalSettleOperation) : Option Market :=
  if op.assetToSettle = op.settlePrice.base.assetId then
    m.applyOperation op.issuer op.fee (·.assetGlobalSettleEvaluate op)
      fun m => m.globallySettleAsset op.assetToSettle op.settlePrice
  else none

/-! ### Feeds -/

/-- `modify` on the options and the current feed of a market-issued asset. A feed is in terms of the
asset and of what backs it. -/
def setFeed (x : AssetId) (options : BitassetOptions) (feed : PriceFeed) : Option Market :=
  if h : feed.settlementPrice.all fun p =>
      p.1.base.assetId = x && p.1.quote.assetId = options.shortBackingAsset then
    some { m with
      bitassets := fun y =>
        if y = x then (m.bitassets y).map fun b =>
          { b with options := options, currentFeed := feed }
        else m.bitassets y
      feed_fits := by
        intro y b p hb hp
        split at hb
        · next heq =>
          obtain ⟨b₀, -, rfl⟩ := Option.map_eq_some_iff.1 hb
          have hfits := Option.all_eq_true _ _ |>.1 h p hp
          rw [Bool.and_eq_true, decide_eq_true_iff, decide_eq_true_iff] at hfits
          exact ⟨hfits.1.trans heq.symm, hfits.2⟩
        · exact m.feed_fits y b p hb hp }
  else none

/-- A feed is put into force, and margin calls are executed if they are to be. -/
def feedThenCalls (steps : Nat) (x : AssetId) (options : BitassetOptions) (feed : PriceFeed)
    (check : Bool) : Option Market :=
  (m.setFeed x options feed).bind fun m =>
    if check then (m.checkCallOrders steps x true).map Prod.fst else some m

/-- Whether the fund of a globally settled asset has become enough to carry the debt. -/
def fundCarries (x : AssetId) (b : BitassetData) (feed : PriceFeed) : Option Bool :=
  match feed.settlementPrice with
  | none => some false
  | some price =>
    (m.db.assets.find x).bind fun d =>
      if d.currentSupply = 0 then some true
      else
        (Price.callPrice ⟨d.currentSupply, x⟩ ⟨b.settlementFund, b.options.shortBackingAsset⟩
          feed.maintenanceCollateralRatio).map fun callPrice => callPrice.inv.lt price

end Market

/-- `asset_publish_feed_operation`, with the feed that comes of it -/
structure AssetPublishFeedOperation where
  fee : Asset
  publisher : AccountId
  assetId : AssetId
  medianFeed : PriceFeed

/-- `asset_update_bitasset_operation`, with the feed that comes of it -/
structure AssetUpdateBitassetOperation where
  fee : Asset
  issuer : AccountId
  assetToUpdate : AssetId
  newOptions : BitassetOptions
  medianFeed : PriceFeed

/-- `asset_update_feed_producers_operation`, with the feed that comes of it -/
structure AssetUpdateFeedProducersOperation where
  fee : Asset
  issuer : AccountId
  assetToUpdate : AssetId
  medianFeed : PriceFeed

namespace Market

variable (m : Market)

/-- `asset_publish_feeds_evaluator::do_apply` -/
def assetPublishFeedApply (steps : Nat) (op : AssetPublishFeedOperation) : Option Market :=
  (m.bitassets op.assetId).bind fun b =>
    (m.setFeed op.assetId b.options op.medianFeed).bind fun m =>
      if b.currentFeed.same op.medianFeed then some m
      else
        (if b.hasSettlement then
            (m.fundCarries op.assetId b op.medianFeed).bind fun carries =>
              if carries then m.reviveBitasset op.assetId else some m
          else some m).bind fun m =>
          (m.checkCallOrders steps op.assetId true).map Prod.fst

/-- `asset_publish_feeds_evaluator` -/
def assetPublishFeed (steps : Nat) (op : AssetPublishFeedOperation) : Option Market :=
  m.applyOperation op.publisher op.fee
    (fun m => (m.bitassets op.assetId).any fun b => !(b.isPredictionMarket && b.hasSettlement))
    (·.assetPublishFeedApply steps op)

/-- `asset_update_bitasset_evaluator`. The backing asset can be changed only as long as there is no
supply. -/
def assetUpdateBitasset (steps : Nat) (op : AssetUpdateBitassetOperation) : Option Market :=
  m.applyOperation op.issuer op.fee
    (fun m => (m.bitassets op.assetToUpdate).any fun b =>
      b.issuer = op.issuer && !b.hasSettlement && op.newOptions.validate &&
        (op.newOptions.shortBackingAsset = b.options.shortBackingAsset ||
          (m.db.assets.find op.assetToUpdate).any (·.currentSupply = 0) &&
            (m.db.assets.find op.newOptions.shortBackingAsset).isSome &&
            op.newOptions.shortBackingAsset ≠ op.assetToUpdate))
    fun m => (m.bitassets op.assetToUpdate).bind fun b =>
      m.feedThenCalls steps op.assetToUpdate op.newOptions op.medianFeed
        (!b.currentFeed.same op.medianFeed)

/-- `asset_update_feed_producers_evaluator` -/
def assetUpdateFeedProducers (steps : Nat) (op : AssetUpdateFeedProducersOperation) :
    Option Market :=
  m.applyOperation op.issuer op.fee
    (fun m => (m.bitassets op.assetToUpdate).any fun b => b.issuer = op.issuer)
    fun m => (m.bitassets op.assetToUpdate).bind fun b =>
      m.feedThenCalls steps op.assetToUpdate b.options op.medianFeed true

/-- `database::update_expired_feeds`, for one of the assets -/
def updateExpiredFeed (steps : Nat) (x : AssetId) (medianFeed : PriceFeed) : Option Market :=
  (m.bitassets x).bind fun b =>
    m.feedThenCalls steps x b.options medianFeed
      (medianFeed.settlementPrice.isSome && !medianFeed.same b.currentFeed)

end Market

/-! ### Assets -/

/-- `asset_create_operation` of a market-issued asset -/
structure AssetCreateOperation where
  fee : Asset
  issuer : AccountId
  symbol : String
  coreExchangeRate : Price
  bitassetOpts : BitassetOptions
  isPredictionMarket : Bool := false
  marketFeeOptions : MarketFeeOptions := {}
  canForceSettle : Bool := true
  canGlobalSettle : Bool := true

/-- `asset_update_operation`: the options of an asset that are looked at here -/
structure AssetUpdateOperation where
  fee : Asset
  issuer : AccountId
  assetToUpdate : AssetId
  newIssuer : Option AccountId := none
  newMarketFeeOptions : MarketFeeOptions := {}
  canForceSettle : Bool := true
  canGlobalSettle : Bool := true

namespace Market

variable (m : Market)

/-- `asset_create_evaluator::do_apply`. Half of the fee is for the fee pool of the new asset. -/
def createBitasset (op : AssetCreateOperation) (coreFee : Int) : Market :=
  let x := m.db.assets.nextId
  { m with
    db := { m.db with
      assets := m.db.assets.create
        { symbol := op.symbol, coreExchangeRate := op.coreExchangeRate, feePool := coreFee / 2 } }
    marketFeeOptions := fun y => if y = x then op.marketFeeOptions else m.marketFeeOptions y
    bitassets := fun y =>
      if y = x then
        some { options := op.bitassetOpts
               currentFeed := {}
               isPredictionMarket := op.isPredictionMarket
               issuer := op.issuer
               canForceSettle := op.canForceSettle
               canGlobalSettle := op.canGlobalSettle }
      else m.bitassets y
    feed_fits := by
      intro y b p hb hp
      split at hb
      · obtain rfl := Option.some.inj hb
        cases hp
      · exact m.feed_fits y b p hb hp }

/-- `asset_create_evaluator`. Only the other half of the fee is paid to the referral program. -/
def assetCreate (op : AssetCreateOperation) : Option Market :=
  (m.db.prepareFee op.issuer op.fee).bind fun coreFee =>
    if op.bitassetOpts.validate ∧ (m.db.assets.find op.bitassetOpts.shortBackingAsset).isSome ∧
        m.db.assets.inOrder.all (·.2.symbol ≠ op.symbol) then
      let db := { m.db.convertAndPayFee op.issuer op.fee coreFee with
        statistics := m.db.statistics.modify op.issuer (·.payFee (coreFee - coreFee / 2)) }
      let created := ({ m with db := db } : Market).createBitasset op coreFee
      (created.db.adjustBalance op.issuer (-op.fee)).map fun db => { created with db := db }
    else none

/-- The settlement orders of an asset, in the order of the index. -/
def settlementsOf (x : AssetId) : List (Nat × ForceSettlement) :=
  (m.settlements.inOrder.filter fun e => e.2.balance.assetId = x).insertionSort fun a b =>
    a.2.settlementDate < b.2.settlementDate ∨ a.2.settlementDate = b.2.settlementDate ∧ a.1 ≤ b.1

/-- `asset_update_evaluator`, of a market-issued asset. If it can no longer be settled, the
settlement orders are cancelled. -/
def assetUpdate (op : AssetUpdateOperation) : Option Market :=
  m.applyOperation op.issuer op.fee
    (fun m => (m.bitassets op.assetToUpdate).any fun b => b.issuer = op.issuer)
    fun m => (m.bitassets op.assetToUpdate).bind fun b =>
      (if op.canForceSettle = false ∧ b.canForceSettle = true then
          ((m.settlementsOf op.assetToUpdate).map Prod.fst).foldlM cancelSettleOrder m
        else some m).map fun m =>
        ({ m with marketFeeOptions := fun y =>
            if y = op.assetToUpdate then op.newMarketFeeOptions else m.marketFeeOptions y } :
          Market).modifyBitasset op.assetToUpdate
          (fun b =>
            { b with
              issuer := op.newIssuer.getD b.issuer
              canForceSettle := op.canForceSettle
              canGlobalSettle := op.canGlobalSettle })
          fun _ => ⟨rfl, rfl⟩

/-! ### The end of a block, and maintenance -/

/-- The expired limit orders, in the order of the index. -/
def expiredLimits : List (Nat × LimitOrder) :=
  (m.limitOrders.inOrder.filter fun e => e.2.expiration ≤ m.db.headBlockTime).insertionSort
    fun a b =>
    a.2.expiration < b.2.expiration ∨ a.2.expiration = b.2.expiration ∧ a.1 ≤ b.1

/-- The first settlement order of an asset that is not before a given one, by the
asset, the date and the id. -/
def settlementFrom (x : AssetId) : Option (Nat × ForceSettlement) :=
  Table.firstBy (fun a b =>
      a.2.balance.assetId < b.2.balance.assetId ||
        (a.2.balance.assetId = b.2.balance.assetId &&
          (a.2.settlementDate < b.2.settlementDate ||
            (a.2.settlementDate = b.2.settlementDate && a.1 < b.1))))
    (m.settlements.inOrder.filter fun e => x ≤ e.2.balance.assetId)

/-- `asset_bitasset_data_object::max_force_settlement_volume` -/
def BitassetData.maxForceSettlementVolume (b : BitassetData) (currentSupply : Int) : Int :=
  if b.options.maximumForceSettlementVolume = 0 then 0
  else if b.options.maximumForceSettlementVolume = graphene100Percent then
    currentSupply + b.forceSettledVolume
  else (currentSupply + b.forceSettledVolume) * b.options.maximumForceSettlementVolume /
    graphene100Percent

/-- A settlement order is matched with the least collateralized positions, until it is finished or
the volume is reached; with it is the settled volume, and whether the asset is finished. -/
def settleLoop (x : AssetId) (b : BitassetData) (order : Nat) (price : Price) (maxVolume : Int) :
    Nat → Int → Market → Option (Market × Int × Bool)
  | 0, _, _ => none
  | steps + 1, settled, m =>
    match m.settlements.find order with
    | none => some (m, settled, false)
    | some s =>
      if maxVolume ≤ settled then some (m, settled, false)
      else
        (m.leastCollateralized b.options.shortBackingAsset x).bind fun e =>
          if s.balance.amount = 0 then
            (m.cancelSettleOrder order).map fun m => (m, settled, false)
          else
            (m.matchSettle e.1 order price (maxVolume - settled)).bind fun (m, newSettled) =>
              if newSettled = 0 then some (m, settled, (m.settlements.find order).isSome)
              else settleLoop x b order price maxVolume steps (settled + newSettled) m

/-- Where the loop over settlement orders is: the asset, its volume and price if they are known, and
whether it is finished. -/
structure SettleCursor where
  currentAsset : AssetId
  maxVolume : Asset := ⟨0, 0⟩
  price : Price := ⟨⟨0, 0⟩, ⟨0, 0⟩⟩
  finished : Bool := false

/-- The loop of `clear_expired_orders` over settlement orders: each round consumes an order, or goes
on to the next asset. -/
def settlementLoop : Nat → SettleCursor → Market → Option Market
  | 0, _, _ => none
  | steps + 1, cursor, m =>
    match m.settlementFrom cursor.currentAsset with
    | none => some m
    | some (order, s) =>
      let x := s.balance.assetId
      let cursor := { cursor with currentAsset := x }
      -- the next asset, if there is one
      let next := fun cursor : SettleCursor =>
        match m.settlementFrom (x + 1) with
        | none => some m
        | some e =>
          settlementLoop steps
            { cursor with currentAsset := e.2.balance.assetId, finished := false } m
      (m.bitassets x).bind fun b =>
        if b.hasSettlement then
          (m.cancelSettleOrder order).bind (settlementLoop steps cursor)
        else if m.db.headBlockTime < s.settlementDate then next cursor
        else
          match b.currentFeed.settlementPrice with
          | none => (m.cancelSettleOrder order).bind (settlementLoop steps cursor)
          | some feed =>
            (m.db.assets.find x).bind fun d =>
              let maxVolume : Asset :=
                if cursor.maxVolume.assetId = x then cursor.maxVolume
                else ⟨BitassetData.maxForceSettlementVolume b d.currentSupply, x⟩
              let cursor := { cursor with maxVolume := maxVolume }
              if maxVolume.amount ≤ b.forceSettledVolume ∨ cursor.finished then
                next cursor
              else
                (if cursor.price.base.assetId = x then some cursor.price
                  else feed.1.divRatio (graphene100Percent - b.options.forceSettlementOffsetPercent)
                    graphene100Percent).bind fun price =>
                  (settleLoop x b order price maxVolume.amount steps b.forceSettledVolume m).bind
                    fun (m, settled, finished) =>
                    settlementLoop steps
                      { cursor with price := price, finished := cursor.finished || finished }
                      (m.modifyBitasset x (fun b => { b with forceSettledVolume := settled })
                        fun _ => ⟨rfl, rfl⟩)

/-- `database::clear_expired_orders` -/
def clearExpiredOrders (steps : Nat) : Option Market :=
  ((m.expiredLimits.map Prod.fst).foldlM (fun m id => cancelLimitOrder m id true) m).bind fun m =>
    settlementLoop steps { currentAsset := 0 } m

/-- An asset of `process_bitassets`. -/
def processBitasset (x : AssetId) : Option Market :=
  let m := m.modifyBitasset x (fun b => { b with forceSettledVolume := 0 }) fun _ => ⟨rfl, rfl⟩
  if (m.bitassets x).any BitassetData.hasSettlement then m.processBids x else some m

/-- `database::process_bitassets` -/
def processBitassets : Option Market := (List.range m.db.assets.nextId).foldlM processBitasset m

end Market

end CrowdwizChain
