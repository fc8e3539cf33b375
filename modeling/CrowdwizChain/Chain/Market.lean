import CrowdwizChain.Chain.Price

/-!
# Orders, and what filling them does

The objects of `market_object.hpp` and the part of `db_market.cpp` that all kinds of matches share:
market fees, the filling of limit orders, margin positions and force settlements, and their
cancellation. The state of the markets is kept beside the chain database, which has the balances,
the statistics and the dynamic data of the assets.

The chain starts after the hardforks that these functions ask for (`HARDFORK_CORE_184_TIME`
and the others of that day), so that only what holds after them is modelled. Virtual
operations are not kept.

An asset is in balances, in fees, in orders and in collateral; a debt is an amount of the asset that
was issued against collateral. `Market.total` is the sum of the former less the latter. What every
function here does to it is told by the amounts that it is given.
-/

namespace CrowdwizChain

open Exchange Option List Database Asset Table Balances Transition

/-! ### Objects -/

/-- `limit_order_object` -/
structure LimitOrder where
  expiration : Nat
  seller : AccountId
  forSale : Int
  sellPrice : ValidPrice
  /-- in the core asset -/
  deferredFee : Int := 0
  deferredPaidFee : Asset := ⟨0, 0⟩
  fee_nonneg : 0 ≤ deferredFee ∧ 0 ≤ deferredPaidFee.amount := by decide

namespace LimitOrder

/-- `sell_asset_id` -/
def sellAssetId (o : LimitOrder) : AssetId := o.sellPrice.1.base.assetId

/-- `receive_asset_id` -/
def receiveAssetId (o : LimitOrder) : AssetId := o.sellPrice.1.quote.assetId

/-- `amount_for_sale` -/
def amountForSale (o : LimitOrder) : Asset := ⟨o.forSale, o.sellAssetId⟩

/-- `amount_to_receive` -/
def amountToReceive (o : LimitOrder) : Option Asset := o.amountForSale.mul o.sellPrice

/-- What is left of an order that was filled in part; its fee is paid then. -/
def rest (o : LimitOrder) (pays : Int) : LimitOrder :=
  { o with
    forSale := o.forSale - pays
    deferredFee := 0
    deferredPaidFee := ⟨0, o.deferredPaidFee.assetId⟩
    fee_nonneg := ⟨le_refl _, le_refl _⟩ }

end LimitOrder

/-- `call_order_object`, a margin position -/
structure CallOrder where
  borrower : AccountId
  collateral : Int
  debt : Int
  callPrice : Price
  targetCollateralRatio : Option Nat := none

namespace CallOrder

/-- `debt_type` -/
def debtType (c : CallOrder) : AssetId := c.callPrice.quote.assetId

/-- `collateral_type` -/
def collateralType (c : CallOrder) : AssetId := c.callPrice.base.assetId

/-- `get_debt` -/
def getDebt (c : CallOrder) : Asset := ⟨c.debt, c.debtType⟩

/-- `get_collateral` -/
def getCollateral (c : CallOrder) : Asset := ⟨c.collateral, c.collateralType⟩

/-- `collateralization` -/
def collateralization (c : CallOrder) : Price := ⟨c.getCollateral, c.getDebt⟩

end CallOrder

/-- `force_settlement_object` -/
structure ForceSettlement where
  owner : AccountId
  balance : Asset
  settlementDate : Nat

/-- `price_feed`, with the bounds of `price_feed::validate`; a settlement price that is
null is none. -/
structure PriceFeed where
  settlementPrice : Option ValidPrice := none
  maintenanceCollateralRatio : Nat := 1750
  maximumShortSqueezeRatio : Nat := 1500
  maintenance_bounds : 1001 ≤ maintenanceCollateralRatio ∧ maintenanceCollateralRatio ≤ 32000 := by
    decide
  squeeze_bounds : 1001 ≤ maximumShortSqueezeRatio ∧ maximumShortSqueezeRatio ≤ 32000 := by decide

/-- `bitasset_options` -/
structure BitassetOptions where
  minimumFeeds : Nat := 1
  forceSettlementDelaySec : Nat := 86400
  forceSettlementOffsetPercent : Nat := 0
  maximumForceSettlementVolume : Nat := 20 * graphene1Percent
  shortBackingAsset : AssetId := 0

/-- `bitasset_options::validate` -/
def BitassetOptions.validate (o : BitassetOptions) : Bool :=
  0 < o.minimumFeeds && o.forceSettlementOffsetPercent ≤ graphene100Percent &&
    o.maximumForceSettlementVolume ≤ graphene100Percent

/-- `asset_bitasset_data_object`, with what its `asset_object` says of the issuer and of
settlements. -/
structure BitassetData where
  options : BitassetOptions
  currentFeed : PriceFeed
  isPredictionMarket : Bool := false
  /-- the price of a global settlement, null before there is one -/
  settlementPrice : Option Price := none
  settlementFund : Int := 0
  forceSettledVolume : Int := 0
  issuer : AccountId := 0
  canForceSettle : Bool := true
  canGlobalSettle : Bool := true

/-- `has_settlement` -/
def BitassetData.hasSettlement (b : BitassetData) : Bool := b.settlementPrice.isSome

/-- `collateral_bid_object` -/
structure CollateralBid where
  bidder : AccountId
  /-- the additional collateral over the debt that is covered -/
  invSwanPrice : Price

/-- The options of an asset that a trade looks at, with the bounds of `asset_options::validate`. -/
structure MarketFeeOptions where
  chargesMarketFees : Bool := false
  marketFeePercent : Nat := 0
  maxMarketFee : Int := 0
  percent_le : marketFeePercent ≤ 10000 := by decide
  max_nonneg : 0 ≤ maxMarketFee := by decide

instance : Inhabited MarketFeeOptions := ⟨{}⟩

/-- The markets, with the chain database. -/
structure Market where
  db : Database
  marketFeeOptions : AssetId → MarketFeeOptions := default
  /-- the fee for cancelling an order, by the current fee schedule -/
  limitOrderCancelFee : Int := 0
  bitassets : AssetId → Option BitassetData := fun _ => none
  limitOrders : Table LimitOrder := .empty
  callOrders : Table CallOrder := .empty
  settlements : Table ForceSettlement := .empty
  collateralBids : Table CollateralBid := .empty
  /-- a feed is published in terms of the asset and of what backs it -/
  feed_fits : ∀ id b p, bitassets id = some b → b.currentFeed.settlementPrice = some p →
    p.1.base.assetId = id ∧ p.1.quote.assetId = b.options.shortBackingAsset := by
      intro _ _ _ h
      cases h

/-- An amount of the core asset is no longer in orders. -/
def AccountStatistics.outOfOrders (s : AccountStatistics) (a : Asset) : AccountStatistics :=
  if a.assetId = 0 then { s with totalCoreInOrders := s.totalCoreInOrders - a.amount } else s

theorem AccountStatistics.held_outOfOrders (s : AccountStatistics) (a : Asset) :
    (s.outOfOrders a).held = s.held + 0 := by
  rw [outOfOrders]
  split
  · exact (add_zero _).symm
  · exact (add_zero _).symm

theorem AccountStatistics.held_payFee (s : AccountStatistics) (fee : Int) :
    (s.payFee fee).held = s.held + fee := by
  simp only [held, payFee]
  omega

namespace Database

/-- `modify` on the dynamic data of an asset, which must exist. -/
def modifyAsset (db : Database) (id : AssetId) (f : AssetObject → AssetObject) : Option Database :=
  (db.assets.find id).map fun _ => { db with assets := db.assets.modify id f }

/-- Fees of an asset are added to its `accumulated_fees`. -/
def accumulateFees (db : Database) (fees : Asset) : Option Database :=
  db.modifyAsset fees.assetId fun d => { d with accumulatedFees := d.accumulatedFees + fees.amount }

/-- What balances and fees have of an asset. -/
def booked (db : Database) (x : AssetId) : Int :=
  Balances.total db.balances x + db.assets.sumBy (fun id d => if id = x then
    d.accumulatedFees else 0) +
    if x = 0 then db.held + db.assets.sumBy (fun _ d => d.feePool) else 0

/-- An amount of an asset is entered into the books. -/
def Enters (db db' : Database) (δ : AssetId → Int) : Prop := ∀ x, db'.booked x = db.booked x + δ x

variable {db db' : Database} {a : AccountId} {id : AssetId} {f : AssetObject → AssetObject}

theorem Enters.refl (db : Database) : Enters db db fun _ => 0 := fun _ => (add_zero _).symm

theorem Enters.of_zero (db : Database) {a : Asset} (h : a.amount = 0) :
    Enters db db a.amountIn := by
  intro x
  rw [amountIn_of_zero h, add_zero]

theorem Enters.trans {db'' : Database} {δ δ' : AssetId → Int} (h : Enters db db' δ)
    (h' : Enters db' db'' δ') : Enters db db'' fun x => δ x + δ' x :=
  fun x => by rw [h' x, h x, add_assoc]

theorem Enters.congr {δ δ' : AssetId → Int} (h : Enters db db' δ) (hδ : ∀ x, δ x = δ' x) :
    Enters db db' δ' :=
  fun x => (h x).trans (congrArg (db.booked x + ·) (hδ x))

/-- The balances gain the amounts of a list. -/
def Gives (db db' : Database) (l : List (AccountId × Asset)) : Prop :=
  ∀ a s, db'.balances.amountOf a s = db.balances.amountOf a s + Balances.given l a s

theorem Gives.trans {db'' : Database} {l l' : List (AccountId × Asset)} (h : Gives db db' l)
    (h' : Gives db' db'' l') : Gives db db'' (l ++ l') := by
  intro a s
  rw [h' a s, h a s]
  simp only [given, map_append, sum_append]
  omega

theorem Gives.of_eq (h : db'.balances = db.balances) : Gives db db' [] :=
  fun _ _ => by simp [h, given]

theorem adjustBalance_credits {d : Asset} (h : db.adjustBalance a d = some db') :
    Gives db db' [(a, d)] := by
  obtain ⟨m, hm, rfl⟩ := adjustBalance_eq_some h
  intro a' s
  simp [amountOf_adjust hm, given]

theorem modifyStatistics_credits {f : AccountStatistics → AccountStatistics}
    (h : db.modifyStatistics a f = some db') : Gives db db' [] := by
  obtain ⟨s, -, rfl⟩ := modifyStatistics_eq_some h
  exact .of_eq rfl

theorem adjustBalance_enters {d : Asset} (h : db.adjustBalance a d = some db') :
    Enters db db' d.amountIn := by
  obtain ⟨m, hm, rfl⟩ := adjustBalance_eq_some h
  intro x
  have htotal := total_adjust hm x
  have hd : d.amountIn x = if x = d.assetId then d.amount else 0 := by
    simp only [amountIn, eq_comm]
  simp only [booked, held, htotal, hd]
  omega

theorem modifyStatistics_enters {f : AccountStatistics → AccountStatistics} {fee : Int}
    (hf : ∀ s, (f s).held = s.held + fee) (h : db.modifyStatistics a f = some db') :
    Enters db db' (core fee).amountIn := by
  obtain ⟨s, hs, rfl⟩ := modifyStatistics_eq_some h
  intro x
  have hsum := AList.sumBy_modify (fun _ s => AccountStatistics.held s) f hs
  rw [hf s] at hsum
  simp only [booked, held, hsum, amountIn, assetId_core, amount_core, eq_comm (a := 0)]
  split <;> omega

/-- What is no longer in orders, or is from now on, is in no book. -/
theorem outOfOrders_enters {x : Asset} {p : Prop} [Decidable p]
    (h : (if p then db.modifyStatistics a (·.outOfOrders x) else some db) = some db') :
    Enters db db' fun _ => 0 := by
  split at h
  · exact (modifyStatistics_enters (fun s => s.held_outOfOrders x) h).congr fun y =>
      amountIn_core_zero y
  · cases h
    exact .refl _

section

variable (h : db.modifyAsset id f = some db')

include h

theorem modifyAsset_eq_some :
    ∃ d, db.assets.find id = some d ∧ db' = { db with assets := db.assets.modify id f } := by
  obtain ⟨d, hd, rfl⟩ := map_eq_some_iff.1 h
  exact ⟨d, hd, rfl⟩

/-- Changes to the dynamic data of an asset: fees, and the fee pool. -/
theorem modifyAsset_enters (fees pool : Int)
    (hfees : ∀ d, (f d).accumulatedFees = d.accumulatedFees + fees)
    (hpool : ∀ d, (f d).feePool = d.feePool + pool) :
    Enters db db' fun x => amountIn ⟨fees, id⟩ x + (core pool).amountIn x := by
  obtain ⟨d, hd, rfl⟩ := modifyAsset_eq_some h
  intro x
  have haccumulated :=
    sumBy_modify (fun id (d : AssetObject) => if id = x then d.accumulatedFees else 0) f hd
  have hpools := sumBy_modify (fun _ (d : AssetObject) => d.feePool) f hd
  rw [hpool d] at hpools
  rw [hfees d] at haccumulated
  simp only [booked, held, haccumulated, hpools, amountIn, assetId_core, amount_core,
    eq_comm (a := 0)]
  split <;> split <;> omega

theorem modifySupply_enters (hfees : ∀ d, (f d).accumulatedFees = d.accumulatedFees)
    (hpool : ∀ d, (f d).feePool = d.feePool) : Enters db db' fun _ => 0 := by
  have henters := modifyAsset_enters h 0 0 (fun d => (hfees d).trans (add_zero _).symm)
    fun d => (hpool d).trans (add_zero _).symm
  refine henters.congr fun x => ?_
  rw [amountIn_core_zero, amountIn_zero, add_zero]

theorem modifyAsset_credits : Gives db db' [] := by
  obtain ⟨d, -, rfl⟩ := modifyAsset_eq_some h
  exact .of_eq rfl

end

theorem accumulateFees_enters {fees : Asset} (h : db.accumulateFees fees = some db') :
    Enters db db' fees.amountIn := by
  have henters := modifyAsset_enters h fees.amount 0 (fun d => rfl) (fun d => (add_zero _).symm)
  refine henters.congr fun x => ?_
  rw [amountIn_core_zero, add_zero]

end Database

namespace Market

variable (m : Market)

/-! ### Fees and payments -/

/-- `database::calculate_market_fee` -/
def calculateMarketFee (trade : Asset) : Asset :=
  let o := m.marketFeeOptions trade.assetId
  if o.chargesMarketFees = false ∨ o.marketFeePercent = 0 then ⟨0, trade.assetId⟩
  else ⟨min (trade.amount * o.marketFeePercent / graphene100Percent) o.maxMarketFee, trade.assetId⟩

/-- `database::pay_market_fees` and `database::pay_order`: what a side of a trade receives, less the
market fee, goes to its account. -/
def payOrder (receiver : AccountId) (receives pays : Asset) : Option Database :=
  let fees := m.calculateMarketFee receives
  (m.db.assets.find receives.assetId).bind fun _ =>
    (if 0 < fees.amount then m.db.accumulateFees fees else some m.db).bind fun db =>
      (db.modifyStatistics receiver (·.outOfOrders pays)).bind fun db =>
        db.adjustBalance receiver ⟨receives.amount - fees.amount, receives.assetId⟩

/-- The fee that was deferred when the order was created is paid with its first fill. -/
def payDeferredFee (db : Database) (o : LimitOrder) : Option Database :=
  (if 0 < o.deferredFee then db.modifyStatistics o.seller (·.payFee o.deferredFee)
    else some db).bind fun db =>
      if 0 < o.deferredPaidFee.amount then db.accumulateFees o.deferredPaidFee else some db

/-- `database::cancel_limit_order`, its part in the books. If a virtual operation is created, which
is for orders that expire or are too small, a fee for it is taken from the deferred one. -/
def refundLimitOrder (o : LimitOrder) (createVirtualOp : Bool) : Option Database :=
  let cancelFee :=
    if createVirtualOp && 0 < o.deferredFee then min m.limitOrderCancelFee o.deferredFee else 0
  -- the part of the originally paid fee, rounded up
  let paidCancelFee :=
    if 0 < cancelFee ∧ o.deferredPaidFee.amount ≠ 0 then
      up o.deferredFee cancelFee o.deferredPaidFee.amount
    else 0
  let coreFee := if 0 < cancelFee then cancelFee else 0
  (if 0 < cancelFee then m.db.modifyStatistics o.seller (·.payFee cancelFee)
    else some m.db).bind fun db =>
    (if paidCancelFee ≠ 0 then db.accumulateFees ⟨paidCancelFee, o.deferredPaidFee.assetId⟩
      else some db).bind fun db =>
      (if o.sellAssetId = 0 then
          db.modifyStatistics o.seller (·.outOfOrders o.amountForSale)
        else some db).bind fun db =>
        (db.adjustBalance o.seller o.amountForSale).bind fun db =>
          if o.deferredPaidFee.amount = 0 then
            db.adjustBalance o.seller (Asset.core (o.deferredFee - coreFee))
          else
            (db.adjustBalance o.seller
              ⟨o.deferredPaidFee.amount - paidCancelFee, o.deferredPaidFee.assetId⟩).bind fun db =>
              db.modifyAsset o.deferredPaidFee.assetId fun d =>
                { d with feePool := d.feePool + (o.deferredFee - coreFee) }

/-- `database::cancel_limit_order` -/
def cancelLimitOrder (id : Nat) (createVirtualOp : Bool) : Option Market :=
  (m.limitOrders.find id).bind fun o =>
    (m.refundLimitOrder o createVirtualOp).map fun db =>
      { m with db := db, limitOrders := m.limitOrders.remove id }

/-- `maybe_cull_small_order`, and whether the order was cancelled -/
def maybeCullSmallOrder (id : Nat) : Option (Market × Bool) :=
  (m.limitOrders.find id).bind fun o =>
    o.amountToReceive.bind fun toReceive =>
      if toReceive.amount = 0 then (m.cancelLimitOrder id true).map fun m => (m, true)
      else some (m, false)

/-! ### Filling orders -/

/-- `database::fill_limit_order`, and whether the order is gone -/
def fillLimitOrder (id : Nat) (pays receives : Asset) (cullIfSmall : Bool) :
    Option (Market × Bool) :=
  (m.limitOrders.find id).bind fun o =>
    if o.sellAssetId = pays.assetId ∧ pays.assetId ≠ receives.assetId then
      (m.payOrder o.seller receives pays).bind fun db =>
        (payDeferredFee db o).bind fun db =>
          if pays = o.amountForSale then
            some ({ m with db := db, limitOrders := m.limitOrders.remove id }, true)
          else
            let filled : Market :=
              { m with
                db := db
                limitOrders := m.limitOrders.modify id (·.rest pays.amount) }
            if cullIfSmall then filled.maybeCullSmallOrder id else some (filled, false)
    else none

/-- `database::fill_call_order`, and whether the position is closed -/
def fillCallOrder (id : Nat) (pays receives : Asset) : Option (Market × Bool) :=
  (m.callOrders.find id).bind fun c =>
    if c.debtType = receives.assetId ∧ c.collateralType = pays.assetId ∧
      pays.amount ≤ c.collateral then
      (m.bitassets receives.assetId).bind fun bitasset =>
        let debt := c.debt - receives.amount
        let collateral := c.collateral - pays.amount
        (m.db.modifyAsset receives.assetId fun d =>
          { d with currentSupply := d.currentSupply - receives.amount }).bind fun db =>
          -- what is taken out of orders: the payment, and the collateral that is freed
          let outOfOrders := pays.amount + if debt = 0 then collateral else 0
          (if debt = 0 then db.adjustBalance c.borrower ⟨collateral, c.collateralType⟩
            else some db).bind fun db =>
            (if pays.assetId = 0 then
                db.modifyStatistics c.borrower (·.outOfOrders ⟨outOfOrders, pays.assetId⟩)
              else some db).bind fun db =>
              if debt = 0 then
                some ({ m with db := db, callOrders := m.callOrders.remove id }, true)
              else
                (Price.callPrice ⟨debt, c.debtType⟩ ⟨collateral, c.collateralType⟩
                  bitasset.currentFeed.maintenanceCollateralRatio).map fun callPrice =>
                  ({ m with
                    db := db
                    callOrders := m.callOrders.modify id fun c =>
                      { c with
                        debt := c.debt - receives.amount
                        collateral := c.collateral - pays.amount
                        callPrice := callPrice } },
                    false)
    else none

end Market

/-! ### Where an asset is -/

/-- What an order holds of an asset. -/
def LimitOrder.holds (o : LimitOrder) (x : AssetId) : Int :=
  o.amountForSale.amountIn x + (Asset.core o.deferredFee).amountIn x + o.deferredPaidFee.amountIn x

/-- What a margin position holds of an asset, less what it owes. -/
def CallOrder.holds (c : CallOrder) (x : AssetId) : Int :=
  c.getCollateral.amountIn x - c.getDebt.amountIn x

namespace Market

/-- All that there is of an asset, less what was issued against collateral. -/
def total (m : Market) (x : AssetId) : Int :=
  m.db.booked x + m.limitOrders.sumBy (fun _ o => o.holds x) +
    m.callOrders.sumBy (fun _ c => c.holds x) + m.settlements.sumBy
      (fun _ s => s.balance.amountIn x)

variable {m : Market}

variable {pays receives : Asset} {db : Database} {o : LimitOrder} {createVirtualOp : Bool}
  {id : Nat} {m' : Market}

theorem calculateMarketFee_spec {trade : Asset} (h : 0 ≤ trade.amount) :
    (m.calculateMarketFee trade).assetId = trade.assetId ∧ 0 ≤ (m.calculateMarketFee trade).amount ∧
      (m.calculateMarketFee trade).amount ≤ trade.amount := by
  have hpercent := (m.marketFeeOptions trade.assetId).percent_le
  have hmax := (m.marketFeeOptions trade.assetId).max_nonneg
  rw [calculateMarketFee]
  split
  · exact ⟨rfl, le_refl _, h⟩
  · have hcut := cutFee_nonneg h (m.marketFeeOptions trade.assetId).marketFeePercent
    have hle := cutFee_le h hpercent
    rw [cutFee_eq] at hcut hle
    refine ⟨rfl, le_min hcut hmax, (min_le_left _ _).trans hle⟩

theorem payOrder_enters {receiver : AccountId} (hnonneg : 0 ≤ receives.amount)
    (h : m.payOrder receiver receives pays = some db) : m.db.Enters db receives.amountIn := by
  obtain ⟨hid, hfee, -⟩ := calculateMarketFee_spec (m := m) hnonneg
  obtain ⟨-, -, h⟩ := bind_eq_some_iff.1 h
  obtain ⟨db1, h1, h⟩ := bind_eq_some_iff.1 h
  obtain ⟨db2, h2, h3⟩ := bind_eq_some_iff.1 h
  have hfees : m.db.Enters db1 (m.calculateMarketFee receives).amountIn := by
    split at h1
    · exact accumulateFees_enters h1
    · next hzero =>
      cases h1
      exact .of_zero _ (by omega)
  have hstats := modifyStatistics_enters (fun s => s.held_outOfOrders pays) h2
  have hall := (hfees.trans hstats).trans (adjustBalance_enters h3)
  refine hall.congr fun x => ?_
  grind [amountIn, core]

/-- What a side of a trade gets, the market fee taken off. -/
def proceeds (m : Market) (receives : Asset) : Asset :=
  ⟨receives.amount - (m.calculateMarketFee receives).amount, receives.assetId⟩

theorem payOrder_credits {receiver : AccountId} (h : m.payOrder receiver receives pays = some db) :
    m.db.Gives db [(receiver, m.proceeds receives)] := by
  obtain ⟨-, -, h⟩ := bind_eq_some_iff.1 h
  obtain ⟨db1, h1, h⟩ := bind_eq_some_iff.1 h
  obtain ⟨db2, h2, h3⟩ := bind_eq_some_iff.1 h
  have hfees : m.db.Gives db1 [] := optional_step h1 (fun _ => modifyAsset_credits) (.of_eq rfl)
  exact (hfees.trans (modifyStatistics_credits h2)).trans (adjustBalance_credits h3)

theorem payDeferredFee_credits {db' : Database} (h : payDeferredFee db o = some db') :
    db.Gives db' [] := by
  obtain ⟨db1, h1, h2⟩ := bind_eq_some_iff.1 h
  have hcore : db.Gives db1 [] := optional_step h1 (fun _ => modifyStatistics_credits) (.of_eq rfl)
  have hpaid : db1.Gives db' [] := optional_step h2 (fun _ => modifyAsset_credits) (.of_eq rfl)
  exact hcore.trans hpaid

theorem payDeferredFee_enters {db' : Database} (h : payDeferredFee db o = some db') :
    db.Enters db' fun x => (core o.deferredFee).amountIn x + o.deferredPaidFee.amountIn x := by
  obtain ⟨hcore, hpaid⟩ := o.fee_nonneg
  obtain ⟨db1, h1, h2⟩ := bind_eq_some_iff.1 h
  have henters1 : db.Enters db1 (core o.deferredFee).amountIn := by
    split at h1
    · exact modifyStatistics_enters (fun s => s.held_payFee o.deferredFee) h1
    · next hzero =>
      cases h1
      exact .of_zero _ (show o.deferredFee = 0 by omega)
  have henters2 : db1.Enters db' o.deferredPaidFee.amountIn := by
    split at h2
    · exact accumulateFees_enters h2
    · next hzero =>
      cases h2
      exact .of_zero _ (by omega)
  exact henters1.trans henters2

/-- A cancelled order gives back what it holds, the fee for it included. -/
theorem refundLimitOrder_enters (h : m.refundLimitOrder o createVirtualOp = some db) :
    m.db.Enters db o.holds := by
  rw [refundLimitOrder] at h
  generalize (if createVirtualOp && 0 < o.deferredFee then min m.limitOrderCancelFee o.deferredFee
    else 0) = cancelFee at h
  generalize hpaidFee : (if 0 < cancelFee ∧ o.deferredPaidFee.amount ≠ 0 then
    up o.deferredFee cancelFee o.deferredPaidFee.amount else 0) = paidCancelFee at h
  generalize hcoreFee : (if 0 < cancelFee then cancelFee else 0) = coreFee at h
  obtain ⟨db1, h1, h⟩ := bind_eq_some_iff.1 h
  obtain ⟨db2, h2, h⟩ := bind_eq_some_iff.1 h
  obtain ⟨db3, h3, h⟩ := bind_eq_some_iff.1 h
  obtain ⟨db4, h4, h⟩ := bind_eq_some_iff.1 h
  have henters1 : m.db.Enters db1 (core coreFee).amountIn := by
    split at h1
    · next hpos =>
      rw [if_pos hpos] at hcoreFee
      rw [← hcoreFee]
      exact modifyStatistics_enters (fun s => s.held_payFee cancelFee) h1
    · next hzero =>
      rw [if_neg hzero] at hcoreFee
      cases h1
      exact .of_zero _ hcoreFee.symm
  have henters2 : db1.Enters db2 (amountIn ⟨paidCancelFee, o.deferredPaidFee.assetId⟩) := by
    split at h2
    · exact accumulateFees_enters h2
    · next hzero =>
      cases h2
      exact .of_zero _ (not_not.1 hzero)
  have henters3 := outOfOrders_enters h3
  have henters4 := ((henters1.trans henters2).trans henters3).trans (adjustBalance_enters h4)
  split at h
  · next hzero =>
    -- the fee was paid in the core asset, and what is left of it is given back
    have hall := henters4.trans (adjustBalance_enters h)
    refine hall.congr fun x => ?_
    grind [amountIn, core, LimitOrder.holds]
  · -- it was paid in another asset, and the fee pool gets back what it gave for it
    obtain ⟨db5, h5, h6⟩ := bind_eq_some_iff.1 h
    have hall := (henters4.trans (adjustBalance_enters h5)).trans
      (modifyAsset_enters h6 0 (o.deferredFee - coreFee) (fun d => (add_zero _).symm) fun d => rfl)
    refine hall.congr fun x => ?_
    grind [amountIn, core, LimitOrder.holds]

/-- An order whose fee is paid already gives back what it has for sale. -/
theorem refundLimitOrder_credits {pays : Int}
    (h : m.refundLimitOrder (o.rest pays) createVirtualOp = some db) :
    m.db.Gives db [(o.seller, (o.rest pays).amountForSale)] := by
  have hfee : (o.rest pays).deferredFee = 0 := rfl
  have hpaid : (o.rest pays).deferredPaidFee.amount = 0 := rfl
  simp only [refundLimitOrder, hfee, hpaid, lt_self_iff_false, decide_false, Bool.and_false,
    Bool.false_eq_true, if_false, false_and, ne_eq, not_true_eq_false, if_true, bind_some] at h
  obtain ⟨db1, h1, h⟩ := bind_eq_some_iff.1 h
  obtain ⟨db2, h2, h3⟩ := bind_eq_some_iff.1 h
  have horders : m.db.Gives db1 [] :=
    optional_step h1 (fun _ => modifyStatistics_credits) (.of_eq rfl)
  have hall := (horders.trans (adjustBalance_credits h2)).trans (adjustBalance_credits h3)
  intro a s
  rw [hall a s]
  simp only [given, nil_append, map_append, map_cons, map_nil,
    sum_append, sum_cons, sum_nil, amount_core, Int.sub_self, ite_self, add_zero]
  rfl

/-! ### What the functions do to the tables -/

theorem total_orders {δ : AssetId → Int} (h : m.db.Enters db δ) (l : Table LimitOrder)
    (c : Table CallOrder) (s : Table ForceSettlement) (x : AssetId) :
    ({ m with db := db, limitOrders := l, callOrders := c, settlements := s } : Market).total x =
      m.total x + δ x + (l.sumBy (fun _ o => o.holds x) - m.limitOrders.sumBy fun _ o =>
        o.holds x) + (c.sumBy (fun _ c => c.holds x) - m.callOrders.sumBy fun _ c => c.holds x) +
        (s.sumBy (fun _ s => s.balance.amountIn x) - m.settlements.sumBy fun _ s =>
          s.balance.amountIn x) := by
  simp only [total, h x]
  omega

theorem cancelLimitOrder_eq_some (h : m.cancelLimitOrder id createVirtualOp = some m') :
    (∃ o db, m.limitOrders.find id = some o ∧ m.refundLimitOrder o createVirtualOp = some db ∧
        m' = { m with db := db, limitOrders := m.limitOrders.remove id }) ∧
      ∀ x, m'.total x = m.total x := by
  obtain ⟨o, ho, h⟩ := bind_eq_some_iff.1 h
  obtain ⟨db, hdb, rfl⟩ := map_eq_some_iff.1 h
  refine ⟨⟨o, db, ho, hdb, rfl⟩, fun x => ?_⟩
  rw [total_orders (refundLimitOrder_enters hdb), sumBy_remove _ ho]
  omega

/-- What filling a limit order does: the order pays and receives; it is gone, or its rest stays. -/
structure FillsLimit (m : Market) (id : Nat) (o : LimitOrder) (pays receives : Asset) (cull : Bool)
    (m' : Market) (gone : Bool) : Prop where
  find : m.limitOrders.find id = some o
  sells : o.sellAssetId = pays.assetId
  frame : ∃ db, m' = { m with
    db := db
    limitOrders := if gone then m.limitOrders.remove id
      else m.limitOrders.modify id (·.rest pays.amount) }
  gone_imp : gone = true → pays = o.amountForSale ∨
    cull = true ∧ ∃ v, (o.rest pays.amount).amountToReceive = some v ∧ v.amount = 0
  stays_imp : gone = false → pays ≠ o.amountForSale ∧
    (cull = true → ∃ v, (o.rest pays.amount).amountToReceive = some v ∧ v.amount ≠ 0)
  credits : m.db.Gives m'.db ((o.seller, m.proceeds receives) ::
    if gone then [(o.seller, (o.rest pays.amount).amountForSale)] else [])
  total : 0 ≤ receives.amount → ∀ x, m'.total x = m.total x + receives.amountIn x - pays.amountIn x

theorem LimitOrder.holds_rest (o : LimitOrder) (h : o.sellAssetId = pays.assetId) (x : AssetId) :
    (o.rest pays.amount).holds x = o.amountForSale.amountIn x - pays.amountIn x := by
  have hrest : (o.rest pays.amount).holds x =
      amountIn ⟨o.forSale - pays.amount, o.sellAssetId⟩ x + (core 0).amountIn x +
        amountIn ⟨0, o.deferredPaidFee.assetId⟩ x := rfl
  rw [hrest, amountIn_core_zero, amountIn_zero]
  simp only [amountIn, LimitOrder.amountForSale, h]
  split <;> omega

/-- What filling a margin position does: it pays out of its collateral and receives of
what it owes. -/
structure FillsCall (m : Market) (id : Nat) (c : CallOrder) (pays receives : Asset) (m' : Market)
    (closed : Bool) : Prop where
  find : m.callOrders.find id = some c
  debtType : c.debtType = receives.assetId
  collateralType : c.collateralType = pays.assetId
  le_collateral : pays.amount ≤ c.collateral
  closed_iff : closed = true ↔ c.debt = receives.amount
  frame : ∃ db callPrice, m' = { m with
    db := db
    callOrders := if closed then m.callOrders.remove id
      else m.callOrders.modify id fun c =>
        { c with
          debt := c.debt - receives.amount
          collateral := c.collateral - pays.amount
          callPrice := callPrice } } ∧
    callPrice.base.assetId = c.collateralType ∧ callPrice.quote.assetId = c.debtType
  total : ∀ x, m'.total x = m.total x + receives.amountIn x - pays.amountIn x

theorem Price.callPrice_assetId {debt collateral : Asset} {ratio : Nat} {p : Price}
    (h : Price.callPrice debt collateral ratio = some p) :
    p.base.assetId = collateral.assetId ∧ p.quote.assetId = debt.assetId := by
  obtain ⟨-, h⟩ := ite_none_left_eq_some.1 h
  cases h
  exact ⟨rfl, rfl⟩

end Market

end CrowdwizChain
