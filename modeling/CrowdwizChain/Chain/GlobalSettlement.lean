import CrowdwizChain.Chain.LimitMatch

/-!
# Black swans, global settlement and revival

The part of `db_market.cpp`, `db_update.cpp` and `db_maint.cpp` that is about a market-issued asset
as a whole. When the least collateralized margin position no longer covers its debt, all positions
are closed at one price, and what they pay is the *settlement fund*, from which the holders of the
asset are paid out. Accounts can *bid* collateral for taking over a part of the debt; the asset is
revived when the bids cover all of it, or when the fund alone has become enough.

A position that is closed takes its debt off the supply, so that a global settlement drives the
supply to zero and has to restore it in the end.

Loops over an index are recursions over the list of its objects in that order; what is filled or
executed is looked up in the state of that moment.
-/

namespace CrowdwizChain

open Exchange

/-- `operator ==` of prices: the same assets, and the same value -/
def Price.same (a b : Price) : Bool :=
  a.base.assetId = b.base.assetId ∧ a.quote.assetId = b.quote.assetId ∧
    b.quote.amount * a.base.amount = a.quote.amount * b.base.amount

/-- `operator ==` of price feeds -/
def PriceFeed.same (a b : PriceFeed) : Bool :=
  (match a.settlementPrice, b.settlementPrice with
    | none, none => true
    | some p, some q => p.1.same q.1
    | _, _ => false) &&
  a.maintenanceCollateralRatio = b.maintenanceCollateralRatio &&
  a.maximumShortSqueezeRatio = b.maximumShortSqueezeRatio

/-- `collateral_bid_object::debt_type` -/
def CollateralBid.debtType (b : CollateralBid) : AssetId := b.invSwanPrice.quote.assetId

/-- The order `by_price` of the bids on an asset: the most collateral for the debt,
then the lower id. -/
def CollateralBid.comesBefore (a b : Nat × CollateralBid) : Bool :=
  b.2.invSwanPrice.lt a.2.invSwanPrice || (!a.2.invSwanPrice.lt b.2.invSwanPrice && a.1 < b.1)

namespace Market

variable (m : Market)

/-- `modify` on the data of a market-issued asset, the feed and the backing asset apart. -/
def modifyBitasset (x : AssetId) (f : BitassetData → BitassetData)
    (hf : ∀ b, (f b).currentFeed = b.currentFeed ∧
      (f b).options.shortBackingAsset = b.options.shortBackingAsset) : Market :=
  { m with
    bitassets := fun y => if y = x then (m.bitassets y).map f else m.bitassets y
    feed_fits := by
      intro y b p hb hp
      split at hb
      · obtain ⟨b₀, hb₀, rfl⟩ := Option.map_eq_some_iff.1 hb
        rw [(hf b₀).1] at hp
        rw [(hf b₀).2]
        exact m.feed_fits y b₀ p hb₀ hp
      · exact m.feed_fits y b p hb hp }

/-! ### Global settlement -/

/-- A margin position is closed at the price of a global settlement, but pays no more
than it has. -/
def settleCall (backing : AssetId) (price : Price) (st : Market × Int) (id : Nat) :
    Option (Market × Int) :=
  (st.1.callOrders.find id).bind fun c =>
    (c.getDebt.multiplyAndRoundUp price).bind fun value =>
      if value.assetId = c.collateralType ∧ c.collateralType = backing then
        let pays := min value.amount c.collateral
        (st.1.fillCallOrder id ⟨pays, backing⟩ c.getDebt).bind fun (m, closed) =>
          if closed then some (m, st.2 + pays) else none
      else none

/-- `database::globally_settle_asset` -/
def globallySettleAsset (x : AssetId) (settlementPrice : Price) : Option Market :=
  (m.bitassets x).bind fun b =>
    if b.hasSettlement then none
    else
      let backing := b.options.shortBackingAsset
      (m.db.assets.find backing).bind fun _ =>
        (m.db.assets.find x).bind fun d =>
          let calls := (m.callsOf backing x).insertionSort fun a b => calledBefore b a = false
          ((calls.map Prod.fst).foldlM (settleCall backing settlementPrice) (m, 0)).bind
            fun (settled, gathered) =>
            if x = backing then none
            else
              -- the supply is as before the positions were closed
              (settled.db.modifyAsset x fun o =>
                { o with currentSupply := d.currentSupply }).map fun db =>
                ({ settled with db := db } : Market).modifyBitasset x
                  (fun b =>
                    { b with
                      settlementPrice := some ⟨⟨d.currentSupply, x⟩, ⟨gathered, backing⟩⟩
                      settlementFund := gathered })
                  fun _ => ⟨rfl, rfl⟩

/-- The margin position that is called first. -/
def firstCall (backing x : AssetId) : Option (Nat × CallOrder) :=
  Table.firstBy calledBefore (m.callsOf backing x)

/-- The best price for the collateral: the one that margin calls are limited to, or that of a limit
order, if it is better. -/
def highestBid (b : BitassetData) (x : AssetId) (feed : ValidPrice) : Price :=
  let squeeze := feed.1.maxShortSqueezePrice b.currentFeed.maximumShortSqueezeRatio
  match Table.firstBy LimitOrder.comesBefore (m.side x b.options.shortBackingAsset) with
  | none => squeeze
  | some e => if e.2.sellPrice.1.lt squeeze then squeeze else e.2.sellPrice.1

/-- `database::check_for_blackswan`, and whether the asset is settled -/
def checkForBlackswan (x : AssetId) (enableBlackSwan : Bool) : Option (Market × Bool) :=
  match m.bitassets x with
  | none => some (m, false)
  | some b =>
    if b.hasSettlement then some (m, true)
    else
      match b.currentFeed.settlementPrice, m.firstCall b.options.shortBackingAsset x with
      | some feed, some e =>
        let swanPrice := e.2.collateralization.inv
        if swanPrice.lt (m.highestBid b x feed) then some (m, false)
        else if enableBlackSwan then
          -- at the feed price if possible
          (m.globallySettleAsset x (if feed.1.lt swanPrice then swanPrice else feed)).map fun m =>
            (m, true)
        else none
      | _, _ => some (m, false)

/-- What a margin call and a limit order exchange: the debt that is covered, and the
collateral that is paid for it. -/
def callTrade (steps : Nat) (c : CallOrder) (o : LimitOrder) (feed : ValidPrice)
    (maintenanceCollateralRatio : Nat) : Option (Asset × Asset) :=
  (c.getMaxDebtToCover steps o.sellPrice feed maintenanceCollateralRatio).bind fun usdToBuy =>
    if o.forSale < usdToBuy then
      (o.amountForSale.mul o.sellPrice).bind fun orderReceives =>
        (orderReceives.multiplyAndRoundUp o.sellPrice).map fun callReceives =>
          (callReceives, orderReceives)
    else
      (Asset.multiplyAndRoundUp ⟨usdToBuy, c.debtType⟩ o.sellPrice).map fun orderReceives =>
        (⟨usdToBuy, c.debtType⟩, orderReceives)

/-- The loop of `check_call_orders` over the limit orders, and whether a margin call
was executed. -/
def callLoop (x : AssetId) (b : BitassetData) (feed : ValidPrice) (enableBlackSwan : Bool) :
    Nat → List Nat → Bool → Market → Option (Market × Bool)
  | 0, _, _, _ => none
  | steps + 1, limits, called, m =>
    (m.checkForBlackswan x enableBlackSwan).bind fun (m, settled) =>
      if settled then some (m, called)
      else
        match m.firstCall b.options.shortBackingAsset x, limits with
        | some (call, c), limit :: rest =>
          -- the feed protects positions above the maintenance ratio
          if c.callPrice.inv.lt feed then some (m, called)
          else
            (m.limitOrders.find limit).bind fun o =>
              (c.getDebt.mul o.sellPrice).bind fun value =>
                if value.assetId ≠ c.collateralType then none
                else if c.collateral < value.amount then
                  if enableBlackSwan then (m.globallySettleAsset x feed).map fun m => (m, true)
                  else none
                else
                  (callTrade steps c o feed b.currentFeed.maintenanceCollateralRatio).bind
                    fun (callReceives, orderReceives) =>
                    (m.fillCallOrder call orderReceives callReceives).bind fun (m, _) =>
                      (m.fillLimitOrder limit callReceives orderReceives true).bind fun (m, gone) =>
                        callLoop x b feed enableBlackSwan steps (if gone then
                          rest else limits) true m
        | _, _ => some (m, called)

/-- `database::check_call_orders`, and whether a margin call was executed -/
def checkCallOrders (steps : Nat) (x : AssetId) (enableBlackSwan : Bool) : Option (Market × Bool) :=
  match m.bitassets x with
  | none => some (m, false)
  | some b =>
    (m.checkForBlackswan x enableBlackSwan).bind fun (m, settled) =>
      if settled ∨ b.isPredictionMarket then some (m, false)
      else
        match b.currentFeed.settlementPrice with
        | none => some (m, false)
        | some feed =>
          let minPrice := feed.1.maxShortSqueezePrice b.currentFeed.maximumShortSqueezeRatio
          let limits := ((m.side x b.options.shortBackingAsset).filter fun e =>
            !e.2.sellPrice.1.lt minPrice).insertionSort fun a b =>
              LimitOrder.comesBefore b a = false
          if limits = [] then some (m, false)
          else callLoop x b feed enableBlackSwan steps (limits.map Prod.fst) false m

/-! ### Bids and revival -/

/-- `database::cancel_bid` -/
def cancelBid (id : Nat) : Option Market :=
  (m.collateralBids.find id).bind fun bid =>
    (m.db.adjustBalance bid.bidder bid.invSwanPrice.base).map fun db =>
      { m with db := db, collateralBids := m.collateralBids.remove id }

/-- The position that a bid becomes. An account has one position of an asset at most. -/
def openBid (bid : CollateralBid) (debtCovered collateralFromFund : Int) (ratio : Nat) :
    Option Market :=
  let collateral : Asset :=
    ⟨bid.invSwanPrice.base.amount + collateralFromFund, bid.invSwanPrice.base.assetId⟩
  (Price.callPrice ⟨debtCovered, bid.debtType⟩ collateral ratio).bind fun callPrice =>
    if m.callOrders.inOrder.any fun e => e.2.borrower = bid.bidder ∧
      e.2.debtType = bid.debtType then
      none
    else
      (if collateral.assetId = 0 then
          m.db.modifyStatistics bid.bidder (·.outOfOrders (-collateral))
        else some m.db).map fun db =>
        { m with
          db := db
          callOrders := m.callOrders.create
            { borrower := bid.bidder
              collateral := collateral.amount
              debt := debtCovered
              callPrice := callPrice } }

/-- `database::execute_bid` -/
def executeBid (id : Nat) (debtCovered collateralFromFund : Int) (ratio : Nat) : Option Market :=
  (m.collateralBids.find id).bind fun bid =>
    (m.openBid bid debtCovered collateralFromFund ratio).map fun m =>
      { m with collateralBids := m.collateralBids.remove id }

/-- The bids on an asset, in the order of the index. -/
def bidsOn (x : AssetId) : List (Nat × CollateralBid) :=
  (m.collateralBids.inOrder.filter fun e => e.2.debtType = x).insertionSort fun a b =>
    CollateralBid.comesBefore b a = false

/-- `database::_cancel_bids_and_revive_mpa` -/
def cancelBidsAndReviveMpa (x : AssetId) : Option Market :=
  (m.bitassets x).bind fun b =>
    if b.hasSettlement ∧ b.isPredictionMarket = false then
      (((m.bidsOn x).map Prod.fst).foldlM cancelBid m).map fun m =>
        m.modifyBitasset x (fun b => { b with settlementPrice := none, settlementFund := 0 })
          fun _ => ⟨rfl, rfl⟩
    else none

/-- `database::revive_bitasset`: the issuer takes over what is left, with what is in the fund. -/
def reviveBitasset (x : AssetId) : Option Market :=
  (m.bitassets x).bind fun b =>
    (m.db.assets.find x).bind fun d =>
      if b.hasSettlement ∧ b.isPredictionMarket = false ∧ b.currentFeed.settlementPrice.isSome then
        (if 0 < d.currentSupply then
            -- a bid of the issuer without collateral, which must be its only one
            if m.collateralBids.inOrder.any fun e => e.2.bidder = b.issuer ∧
              e.2.debtType = x then none
            else
              m.openBid ⟨b.issuer, ⟨⟨0, b.options.shortBackingAsset⟩, ⟨d.currentSupply, x⟩⟩⟩
                d.currentSupply b.settlementFund b.currentFeed.maintenanceCollateralRatio
          else if b.settlementFund = 0 then some m else none).bind fun m =>
          m.cancelBidsAndReviveMpa x
      else none

/-- The debt that a bid covers at most. -/
def CollateralBid.debtIn (bid : CollateralBid) (supply : Int) : Int :=
  min bid.invSwanPrice.quote.amount supply

/-- The first loop of `process_bids`: the bids that cover the supply, if they do. A bid that would
be called at once ends it. -/
def coveringBids (x : AssetId) (settlementPrice : Price) (feed : ValidPrice) (ratio : Nat)
    (supply : Int) : Int → List (Nat × CollateralBid) → Option (Option (List (Nat × CollateralBid)))
  | covered, l =>
    if supply ≤ covered then some (some [])
    else
      match l with
      | [] => some none
      | e :: l =>
        let debt : Asset := ⟨CollateralBid.debtIn e.2 supply, x⟩
        (debt.mul settlementPrice).bind fun fromFund =>
          if fromFund.assetId ≠ e.2.invSwanPrice.base.assetId then none
          else
            (Price.callPrice debt ⟨fromFund.amount + e.2.invSwanPrice.base.amount, fromFund.assetId⟩
              ratio).bind fun callPrice =>
              if !callPrice.inv.lt feed then some none
              else
                (coveringBids x settlementPrice feed ratio supply (covered + debt.amount) l).map
                  (·.map (e :: ·))

/-- A bid of the second loop of `process_bids`, with what is to be covered and what is left of the
fund. The last bid gets what is left of both. -/
def executeCovering (x : AssetId) (settlementPrice : Price) (ratio : Nat) (supply : Int)
    (st : Market × Int × Int) (e : Nat × CollateralBid) : Option (Market × Int × Int) :=
  (Asset.mul ⟨CollateralBid.debtIn e.2 supply, x⟩ settlementPrice).bind fun fromFund =>
    let last := st.2.1 ≤ CollateralBid.debtIn e.2 supply
    let debt := if last then st.2.1 else CollateralBid.debtIn e.2 supply
    let collateral := if last then st.2.2 else fromFund.amount
    (st.1.executeBid e.1 debt collateral ratio).map fun m => (m, st.2.1 - debt, st.2.2 - collateral)

/-- `database::process_bids` -/
def processBids (x : AssetId) : Option Market :=
  (m.bitassets x).bind fun b =>
    match b.settlementPrice, b.currentFeed.settlementPrice with
    | some settlementPrice, some feed =>
      if b.isPredictionMarket then some m
      else
        -- the asset is the other one of the settlement price, which must not be zero
        (Asset.mul ⟨0, b.options.shortBackingAsset⟩ settlementPrice).bind fun toRevive =>
          (m.db.assets.find toRevive.assetId).bind fun d =>
            let ratio := b.currentFeed.maintenanceCollateralRatio
            (coveringBids toRevive.assetId settlementPrice feed ratio d.currentSupply 0
              (m.bidsOn toRevive.assetId)).bind fun bids =>
              match bids with
              | none => some m
              | some bids =>
                (bids.foldlM
                  (executeCovering toRevive.assetId settlementPrice ratio d.currentSupply)
                  (m, d.currentSupply, b.settlementFund)).bind fun st =>
                  if st.2.2 = 0 ∧ st.2.1 = 0 then st.1.cancelBidsAndReviveMpa x else none
    | _, _ => some m

end Market

end CrowdwizChain
