import Mathlib.Algebra.Order.BigOperators.Group.Finset
import CrowdwizChain.Chain.BitassetIssuer
import CrowdwizChain.Chain.CoinExchange

/-!
# Market-issued assets are backed in every state

The market and everything else that happens on the chain, as one system. The steps of the market
(`Market.Step`) are the operations and the end-of-block and maintenance functions of the modules
before. Two operations issue or burn an asset without a look at whether it is market-issued:
`buy_gcwd` asset 1 and `exchange_silver` asset 4 (`Database.Coins`). All others are taken together
in `MarketSystem.Apart`: they pass units of market-issued assets between the balances and whatever
else holds them (vesting balances, escrows, pledges), and neither issue nor burn any;
`MarketSystem.outside` is what those other objects hold.

As long as assets 1 and 4 are left alone while they are market-issued (`MarketSystem.Plain`), an
account never has more of a market-issued asset than its supply. This is what `asset_settle` of a
globally settled asset depends on, so that the invariant (`MarketSystem.Backed`) is of the market
and the balances together.
-/

namespace CrowdwizChain

open Option Database Relation Finset Table

namespace Market

/-! ### The steps of the market -/

/-- **What happens in the market**: an accepted operation, or a function that is called at the end
of a block or at maintenance. -/
inductive Step (m m' : Market) : Prop
  | limitOrderCreate {steps : Nat} {op : LimitOrderCreateOperation}
    (h : m.limitOrderCreate steps op = some m')
  | limitOrderCancel {op : LimitOrderCancelOperation} (h : m.limitOrderCancel op = some m')
  | callOrderUpdate {steps : Nat} {op : CallOrderUpdateOperation}
    (h : m.callOrderUpdate steps op = some m')
  | bidCollateral {op : BidCollateralOperation} (h : m.bidCollateral op = some m')
  | assetSettle {op : AssetSettleOperation} (h : m.assetSettle op = some m')
  | assetGlobalSettle {op : AssetGlobalSettleOperation} (h : m.assetGlobalSettle op = some m')
  | assetPublishFeed {steps : Nat} {op : AssetPublishFeedOperation}
    (h : m.assetPublishFeed steps op = some m')
  | assetUpdateBitasset {steps : Nat} {op : AssetUpdateBitassetOperation}
    (h : m.assetUpdateBitasset steps op = some m')
  | assetUpdateFeedProducers {steps : Nat} {op : AssetUpdateFeedProducersOperation}
    (h : m.assetUpdateFeedProducers steps op = some m')
  | assetCreate {op : AssetCreateOperation} (h : m.assetCreate op = some m')
  | assetUpdate {op : AssetUpdateOperation} (h : m.assetUpdate op = some m')
  /-- the feeds of an asset have expired -/
  | updateExpiredFeed {steps : Nat} {x : AssetId} {medianFeed : PriceFeed}
    (h : m.updateExpiredFeed steps x medianFeed = some m')
  /-- expired orders are cancelled and due settlements are matched -/
  | clearExpiredOrders {steps : Nat} (h : m.clearExpiredOrders steps = some m')
  /-- settlement volumes are reset and collateral bids are processed -/
  | processBitassets (h : m.processBitassets = some m')

variable {m m' : Market}

/-- **Every step carries the market on**, as long as no account has more of a globally settled
asset than its supply. -/
theorem Step.carries (h : m.Step m') (hle : ∀ x b, m.bitassets x = some b → b.hasSettlement = true →
    ∀ a, m.db.getBalance a x ≤ m.db.supplyOf x) : m.Carries m' := by
  cases h with
  | limitOrderCreate h => exact limitOrderCreate_carries h
  | limitOrderCancel h => exact limitOrderCancel_carries h
  | callOrderUpdate h => exact callOrderUpdate_carries h
  | bidCollateral h => exact bidCollateral_carries h
  | @assetSettle op h =>
    refine assetSettle_carries h fun b hb hsettled => ?_
    obtain ⟨-, h⟩ := ite_none_right_eq_some.1 h
    obtain ⟨coreFee, -, h⟩ := bind_eq_some_iff.1 h
    obtain ⟨hev, h⟩ := ite_none_right_eq_some.1 h
    obtain ⟨b', -, hchecks⟩ := (any_eq_true _ _).1 hev
    simp only [Bool.and_eq_true, decide_eq_true_iff] at hchecks
    exact hchecks.2.trans (hle _ b hb hsettled op.account)
  | assetGlobalSettle h => exact assetGlobalSettle_carries h
  | assetPublishFeed h => exact assetPublishFeed_carries h
  | assetUpdateBitasset h => exact assetUpdateBitasset_carries h
  | assetUpdateFeedProducers h => exact assetUpdateFeedProducers_carries h
  | assetCreate h => exact assetCreate_carries h
  | assetUpdate h => exact assetUpdate_carries h
  | updateExpiredFeed h => exact updateExpiredFeed_carries h
  | clearExpiredOrders h => exact clearExpiredOrders_carries h
  | processBitassets h => exact processBitassets_carries h

/-! ### No account has more than there is -/

theorem Sound.funds_nonneg (hm : m.Sound) (y : AssetId) : 0 ≤ m.funds y := by
  refine sum_nonneg fun x _ => ?_
  rcases hb : m.bitassets x with - | b
  · exact le_refl 0
  show 0 ≤ if _ then b.settlementFund else 0
  split
  · rcases hp : b.settlementPrice with - | p
    · rw [(hm.backed x b hb (by rw [BitassetData.hasSettlement, hp]; rfl)).2]
    · exact (hm.settled x b p hb hp).fund_nonneg
  · exact le_refl 0

/-- What orders, positions, bids and funds hold of an asset is not negative. -/
theorem Sound.booked_le_held (hm : m.Sound) (y : AssetId) : m.db.booked y ≤ m.held y := by
  have hamount : ∀ a : Asset, 0 ≤ a.amount → 0 ≤ a.amountIn y := by
    intro a ha
    rw [Asset.amountIn]
    split
    · exact ha
    · exact le_refl 0
  have hlimits : 0 ≤ m.limitOrders.sumBy fun _ o => o.holds y := by
    refine sumBy_nonneg fun i o ho => ?_
    have hsale := hamount o.amountForSale (hm.amounts.limits i o ho)
    have hfee := hamount (Asset.core o.deferredFee) o.fee_nonneg.1
    have hpaid := hamount o.deferredPaidFee o.fee_nonneg.2
    rw [LimitOrder.holds]
    omega
  have hcalls : 0 ≤ m.callOrders.sumBy fun _ c => c.getCollateral.amountIn y :=
    sumBy_nonneg fun i c hc => hamount _ (hm.amounts.calls i c hc).2
  have hsettlements : 0 ≤ m.settlements.sumBy fun _ s => s.balance.amountIn y :=
    sumBy_nonneg fun i s hs => hamount _ (hm.amounts.settlements i s hs)
  have hbidden : 0 ≤ m.bidden y := sumBy_nonneg fun i bid hbid => hamount _ (hm.bids i bid hbid).1
  have hfunds := hm.funds_nonneg y
  rw [held]
  omega

end Market

namespace Database

/-- A balance is part of what is booked, of an asset other than the core asset. -/
theorem getBalance_le_booked {db : Database} (hsolvent : db.Solvent) {x : AssetId} (hx : x ≠ 0)
    (hfees : 0 ≤ db.feesOf x) (a : AccountId) : db.getBalance a x ≤ db.booked x := by
  have hrow : ∀ (k : AccountId × AssetId) b, db.balances.lookup k = some b →
      0 ≤ if k.2 = x then b.balance else 0 := by
    intro k b hb
    split
    · exact hsolvent k b hb
    · exact le_refl 0
  have htotal : db.getBalance a x ≤ Balances.total db.balances x := by
    rw [getBalance, Balances.amountOf]
    rcases hb : db.balances.lookup (a, x) with - | b
    · exact AList.sumBy_nonneg hrow
    · have hle := AList.le_sumBy hrow hb
      rwa [if_pos rfl] at hle
  have haccumulated : 0 ≤ db.assets.sumBy fun id d => if id = x then d.accumulatedFees else 0 := by
    refine sumBy_nonneg fun id d hd => ?_
    split
    · next heq =>
      rwa [feesOf, ← heq, hd] at hfees
    · exact le_refl 0
  rw [booked, if_neg hx]
  omega

end Database

/-! ### The market and everything else -/

/-- The market, with what objects outside of it hold of each asset. -/
structure MarketSystem where
  market : Market
  outside : AssetId → Int

namespace MarketSystem

/-- The market-issued assets, and those that are yet to be created. -/
def Guards (s : MarketSystem) (nextId : Nat) (x : AssetId) : Prop :=
  (s.market.bitassets x).isSome ∨ nextId ≤ x

/-- **Any other operation**, as far as market-issued assets go: none is issued or burnt, and what is
taken from balances and fees is held elsewhere until it is given back. -/
structure Apart (s : MarketSystem) (db : Database) (out : AssetId → Int) : Prop where
  nextId : s.market.db.assets.nextId ≤ db.assets.nextId
  solvent : s.market.db.Solvent → db.Solvent
  supply : ∀ x, s.Guards db.assets.nextId x → db.supplyOf x = s.market.db.supplyOf x
  fees : ∀ x, s.Guards db.assets.nextId x → 0 ≤ s.market.db.feesOf x → 0 ≤ db.feesOf x
  outside : ∀ x, s.Guards db.assets.nextId x → 0 ≤ s.outside x → 0 ≤ out x
  books : ∀ x, s.Guards db.assets.nextId x →
    db.booked x + out x ≤ s.market.db.booked x + s.outside x

/-- The steps of the system, where gold and silver are issued and burnt if `allowed` has it.
Parameters may change along with the rest. -/
inductive Step (allowed : MarketSystem → AssetId → Prop) (s : MarketSystem) : MarketSystem → Prop
  | market {m : Market} (h : s.market.Step m) : Step allowed s ⟨m, s.outside⟩
  | coins {x : AssetId} {db : Database} (hx : allowed s x) (h : s.market.db.Coins db x) :
    Step allowed s ⟨{ s.market with db := db }, s.outside⟩
  | other {db : Database} {out : AssetId → Int} (marketFeeOptions : AssetId → MarketFeeOptions)
    (limitOrderCancelFee : Int) (h : s.Apart db out) :
    Step allowed s ⟨{ s.market with
      db := db
      marketFeeOptions := marketFeeOptions
      limitOrderCancelFee := limitOrderCancelFee }, out⟩

/-- The chain as it is looks at nothing. -/
def Anything (_ : MarketSystem) (_ : AssetId) : Prop := True

/-- The asset is not market-issued. -/
def Plain (s : MarketSystem) (x : AssetId) : Prop := s.market.bitassets x = none

/-- **The invariant.** Nothing exists of a market-issued asset beyond its supply. -/
structure Backed (s : MarketSystem) : Prop where
  sound : s.market.Sound
  solvent : s.market.db.Solvent
  core : s.market.bitassets 0 = none
  coreKnown : 0 < s.market.db.assets.nextId
  fees : ∀ x, s.Guards s.market.db.assets.nextId x → 0 ≤ s.market.db.feesOf x
  outside : ∀ x, s.Guards s.market.db.assets.nextId x → 0 ≤ s.outside x
  bound : ∀ x, s.Guards s.market.db.assets.nextId x → s.market.excess x + s.outside x ≤ 0

variable {s s' : MarketSystem}

theorem Backed.ne_zero (h : s.Backed) {x : AssetId} (hx : s.Guards s.market.db.assets.nextId x) :
    x ≠ 0 := by
  rintro rfl
  rcases hx with hissued | hnew
  · rw [h.core] at hissued
    cases hissued
  · exact absurd h.coreKnown (Nat.not_lt.2 hnew)

theorem Backed.getBalance_le_supplyOf (h : s.Backed) {x : AssetId}
    (hx : (s.market.bitassets x).isSome) (a : AccountId) :
    s.market.db.getBalance a x ≤ s.market.db.supplyOf x := by
  have hbalance := getBalance_le_booked h.solvent (h.ne_zero (.inl hx)) (h.fees x (.inl hx)) a
  have hbooked := h.sound.booked_le_held x
  have hbound := h.bound x (.inl hx)
  have houtside := h.outside x (.inl hx)
  rw [Market.excess] at hbound
  omega

theorem Backed.carries (h : s.Backed) {m : Market} (hstep : s.market.Step m) :
    s.market.Carries m := by
  refine hstep.carries fun x b hb _ a => ?_
  exact h.getBalance_le_supplyOf (by rw [hb]; rfl) a

theorem Backed.market (h : s.Backed) {m : Market} (hstep : s.market.Step m) :
    Backed ⟨m, s.outside⟩ := by
  have hcarries := h.carries hstep
  have hassets := hcarries.assets h.sound
  have htouches := hcarries.touches h.sound
  have hguards : ∀ x, Guards ⟨m, s.outside⟩ m.db.assets.nextId x →
      s.Guards s.market.db.assets.nextId x := by
    rintro x (hissued | hnew)
    · -- an asset that is market-issued now was so before, or was not there
      rcases Nat.lt_or_ge x s.market.db.assets.nextId with hlt | hge
      · refine .inl (isSome_iff_ne_none.2 fun hnone => ?_)
        exact isSome_iff_ne_none.1 hissued (hassets.plain x hlt hnone)
      · exact .inr hge
    · exact .inr (hassets.nextId.trans hnew)
  refine ⟨hcarries.sound h.sound, htouches.solvent h.solvent, hassets.plain 0 h.coreKnown h.core,
    h.coreKnown.trans_le hassets.nextId, fun x hx => ?_, fun x hx => ?_, fun x hx => ?_⟩
  · exact (h.fees x (hguards x hx)).trans (htouches.fees x)
  · exact h.outside x (hguards x hx)
  · show m.excess x + s.outside x ≤ 0
    rw [hcarries.excess h.sound]
    exact h.bound x (hguards x hx)

theorem Backed.other (h : s.Backed) {db : Database} {out : AssetId → Int}
    {marketFeeOptions : AssetId → MarketFeeOptions} {limitOrderCancelFee : Int}
    (ha : s.Apart db out) :
    Backed ⟨{ s.market with
      db := db
      marketFeeOptions := marketFeeOptions
      limitOrderCancelFee := limitOrderCancelFee }, out⟩ := by
  have hold : ∀ x, s.Guards db.assets.nextId x → s.Guards s.market.db.assets.nextId x := by
    rintro x (hissued | hnew)
    · exact .inl hissued
    · exact .inr (ha.nextId.trans hnew)
  have hissued : ∀ x b, s.market.bitassets x = some b → s.Guards db.assets.nextId x := by
    intro x b hb
    exact .inl (by rw [hb]; rfl)
  have hm := h.sound
  refine ⟨⟨⟨hm.amounts.limits, hm.amounts.calls, hm.amounts.settlements⟩, hm.calls, hm.bids,
    fun x b hb => ?_, fun x b hb hopen => ?_, fun x b p hb hp => ?_⟩, ha.solvent h.solvent, h.core,
    h.coreKnown.trans_le ha.nextId, fun x hx => ?_, fun x hx => ?_, fun x hx => ?_⟩
  · exact (hm.known x b hb).trans_le ha.nextId
  · show db.supplyOf x = s.market.owed x ∧ _
    rw [ha.supply x (hissued x b hb)]
    exact hm.backed x b hb hopen
  · show b.SettledAt x p (db.supplyOf x)
    rw [ha.supply x (hissued x b hb)]
    exact hm.settled x b p hb hp
  · exact ha.fees x hx (h.fees x (hold x hx))
  · exact ha.outside x hx (h.outside x (hold x hx))
  · have hbound := h.bound x (hold x hx)
    have hbooks := ha.books x hx
    have hsupply := ha.supply x hx
    -- there is no fund of an asset that is not known
    have hfunds : ∑ z ∈ range db.assets.nextId, (s.market.bitassets z).elim 0 (·.fundIn x) =
        s.market.funds x := by
      refine (sum_subset (range_mono ha.nextId) fun z _ hz => ?_).symm
      rcases hb : s.market.bitassets z with - | b
      · rfl
      · exact absurd (mem_range.2 (hm.known z b hb)) hz
    rw [Market.excess, Market.held] at hbound
    show db.booked x + s.market.limitOrders.sumBy _ + s.market.callOrders.sumBy _ +
      s.market.settlements.sumBy _ + s.market.bidden x +
      ∑ z ∈ range db.assets.nextId, (s.market.bitassets z).elim 0 (·.fundIn x) -
      db.supplyOf x + out x ≤ 0
    omega

/-- Gold and silver that are not market-issued are apart from the assets that are. -/
theorem Backed.coins_apart (h : s.Backed) {x : AssetId} {db : Database} (hx : s.Plain x)
    (hcoins : s.market.db.Coins db x) : s.Apart db s.outside := by
  obtain ⟨hknown, hmints, hbooked⟩ := hcoins.mints
  have hne : ∀ y, s.Guards db.assets.nextId y → y ≠ 0 ∧ y ≠ x := by
    intro y hy
    rw [hmints.nextId] at hy
    refine ⟨h.ne_zero hy, ?_⟩
    rintro rfl
    rcases hy with hissued | hnew
    · exact isSome_iff_ne_none.1 hissued hx
    · exact absurd hknown (Nat.not_lt.2 hnew)
  refine ⟨hmints.nextId.ge, hmints.solvent, fun y hy => ?_, fun y hy hfees => ?_,
    fun _ _ hout => hout, fun y hy => ?_⟩
  · exact hmints.supply y (hne y hy).1 (hne y hy).2
  · exact hfees.trans (hmints.fees y (hne y hy).1 (hne y hy).2)
  · rw [hbooked y (hne y hy).1 (hne y hy).2]

/-- Every step keeps the invariant, if gold and silver are left alone while they are
market-issued. -/
theorem Backed.step (h : s.Backed) (hstep : s.Step Plain s') : s'.Backed := by
  cases hstep with
  | market hmarket => exact h.market hmarket
  | coins hx hcoins => exact h.other (h.coins_apart hx hcoins)
  | other _ _ hapart => exact h.other hapart

/-- So does every run. -/
theorem Backed.reach (h : s.Backed) (hreach : ReflTransGen (Step Plain) s s') : s'.Backed := by
  induction hreach with
  | refl => exact h
  | tail _ hstep ih => exact ih.step hstep

/-- **Market-issued assets are backed in every state**, if no gold is bought while asset 1 is
market-issued and no silver exchanged while asset 4 is. As long as there is no global settlement the
supply is the sum of the debts; when there is one, there is no margin position, and the fund is
empty with the supply. Every step of the market conserves every asset: what balances, fees, orders,
margin positions, bids and funds hold of it beyond its supply is as before, and what they hold of an
asset that is not market-issued is as before. -/
theorem bitassets_backed (h : s.Backed) (hreach : Relation.ReflTransGen (Step Plain) s s') :
    (∀ x b, s'.market.bitassets x = some b →
      (b.hasSettlement = false → s'.market.db.supplyOf x = s'.market.owed x) ∧
      (b.hasSettlement = true → (∀ i c, s'.market.callOrders.find i = some c → c.debtType ≠ x) ∧
        (s'.market.db.supplyOf x = 0 → b.settlementFund = 0))) ∧
    ∀ m, s'.market.Step m →
      (∀ y, m.held y - m.db.supplyOf y = s'.market.held y - s'.market.db.supplyOf y) ∧
      ∀ y, m.bitassets y = none → m.held y = s'.market.held y := by
  have hbacked := h.reach hreach
  have hsound := hbacked.sound
  refine ⟨fun x b hb => ⟨fun hopen => (hsound.backed x b hb hopen).1, fun hsettled => ?_⟩,
    fun m hstep => ?_⟩
  · obtain ⟨p, hp⟩ := isSome_iff_exists.1 hsettled
    exact ⟨hsound.no_call hb hsettled, (hsound.settled x b p hb hp).empty⟩
  · have hcarries := hbacked.carries hstep
    have hexcess := hcarries.excess hsound
    refine ⟨hexcess, fun y hy => ?_⟩
    have hsame := ((hcarries.assets hsound).supply y hy).2
    have heq := hexcess y
    rw [Market.excess, Market.excess] at heq
    omega

/-! ### A run -/

theorem no_feed (id : AssetId) (b : BitassetData) (p : {p : Price // p.Valid}) (h : none = some b) :
    b.currentFeed.settlementPrice = some p →
      p.1.base.assetId = id ∧ p.1.quote.assetId = b.options.shortBackingAsset := by
  cases h

/-- The chain at the start, without markets. -/
def start (time : Nat) (accounts : List Account) (amount : Int) : MarketSystem :=
  ⟨{ db := Database.start time accounts amount, feed_fits := no_feed }, fun _ => 0⟩

theorem sound_of_no_orders (db : Database) : Market.Sound { db := db } := by
  refine ⟨⟨?_, ?_, ?_⟩, ?_, ?_, ?_, ?_, fun _ _ _ hb => ?_⟩
  rotate_right
  · cases hb
  all_goals
    intro i row hrow
    cases hrow

theorem lookup_balances_start {time : Nat} {accounts : List Account} {amount : Int}
    {k : AccountId × AssetId} {b : AccountBalance}
    (h : (Database.start time accounts amount).balances.lookup k = some b) :
    k.2 = 0 ∧ b = ⟨amount, true⟩ := by
  have hb := (AList.lookup_foldl_insert (fun a => (a, 0)) _ _).symm.trans h
  split at hb
  · next hk =>
    obtain ⟨a, -, rfl⟩ := List.mem_map.1 hk
    exact ⟨rfl, (some.inj hb).symm⟩
  · cases hb

theorem backed_start (time : Nat) (accounts : List Account) {amount : Int} (hamount : 0 ≤ amount) :
    (start time accounts amount).Backed := by
  have hnew : ∀ x, (start time accounts amount).Guards 1 x → 1 ≤ x := by
    rintro x (hissued | hnew)
    · cases hissued
    · exact hnew
  have hassets : ∀ x, 1 ≤ x → (start time accounts amount).market.db.assets.find x = none :=
    fun x hx => find_of_nextId_le hx
  refine ⟨sound_of_no_orders _, fun k b hb => ?_, rfl, Nat.one_pos, fun x hx => ?_,
    fun _ _ => le_refl 0,
    fun x hx => ?_⟩
  · obtain ⟨-, rfl⟩ := lookup_balances_start hb
    exact hamount
  · rw [Database.feesOf, hassets x (hnew x hx)]
    exact le_refl 0
  · have hx := hnew x hx
    have htotal : Balances.total (Database.start time accounts amount).balances x = 0 := by
      refine AList.sumBy_eq_zero ?_
      intro k b hb
      have hcore := (lookup_balances_start hb).1
      rw [hcore]
      exact if_neg (Nat.ne_of_lt hx)
    have hfees : (Database.start time accounts amount).assets.sumBy
        (fun id d => if id = x then d.accumulatedFees else 0) = 0 := by
      refine sumBy_eq_zero fun id d hd => if_neg ?_
      rintro rfl
      exact absurd (lt_nextId hd) (Nat.not_lt.2 hx)
    rw [Market.excess, Market.held, supplyOf, hassets x hx, booked,
      if_neg (Nat.ne_of_gt hx)]
    show Balances.total (Database.start time accounts amount).balances x +
      (Database.start time accounts amount).assets.sumBy _ + 0 + 0 + 0 + 0 + 0 +
      ∑ z ∈ range 1, (0 : Int) - 0 + 0 ≤ 0
    rw [htotal, hfees, sum_const_zero]
    exact le_refl 0

/-- Two accounts at the start, at the time from which gold is sold. -/
def twoAccounts : MarketSystem :=
  start hardforkCwd6Time [{ referrer := 0 }, { referrer := 0 }] 3000000000

/-- The second account creates a market-issued asset. -/
def issued : Option Market :=
  twoAccounts.market.assetCreate
    { fee := ⟨0, 0⟩, issuer := 1, symbol := "USD", coreExchangeRate := ⟨⟨1, 1⟩, ⟨1, 0⟩⟩
      bitassetOpts := {}, marketFeeOptions := default }

/-- It is issued against collateral and globally settled. -/
def settled : Option Market :=
  issued.bind fun m => (m.assetPublishFeed 3
    { fee := ⟨0, 0⟩, publisher := 1, assetId := 1
      medianFeed :=
        { settlementPrice := some ⟨⟨⟨1, 1⟩, ⟨1, 0⟩⟩, by decide⟩, maintenanceCollateralRatio := 1800
          maximumShortSqueezeRatio := 1200 } }).bind fun m =>
  (m.callOrderUpdate 3
    { fee := ⟨0, 0⟩, fundingAccount := 0, deltaCollateral := ⟨300, 0⟩, deltaDebt := ⟨100, 1⟩ }).bind
    fun m => m.assetGlobalSettle
    { fee := ⟨0, 0⟩, issuer := 1, assetToSettle := 1, settlePrice := ⟨⟨1, 1⟩, ⟨3, 0⟩⟩ }

theorem reach_of_settled {m : Market} (h : settled = some m)
    (allowed : MarketSystem → AssetId → Prop) :
    ReflTransGen (Step allowed) twoAccounts ⟨m, fun _ => 0⟩ := by
  obtain ⟨m1, h1, h⟩ := bind_eq_some_iff.1 h
  obtain ⟨m2, h2, h⟩ := bind_eq_some_iff.1 h
  obtain ⟨m3, h3, h4⟩ := bind_eq_some_iff.1 h
  refine ReflTransGen.head (.market (.assetCreate h1)) ?_
  refine ReflTransGen.head (.market (.assetPublishFeed h2)) ?_
  refine ReflTransGen.head (.market (.callOrderUpdate h3)) ?_
  exact ReflTransGen.single (.market (.assetGlobalSettle h4))

/-- After a global settlement a holder settles. -/
theorem reach_settled : ∃ s' : MarketSystem, ∃ b, ReflTransGen (Step Plain) twoAccounts s' ∧
    s'.market.bitassets 1 = some b ∧ b.settlementFund = 120 ∧ s'.market.db.supplyOf 1 = 40 ∧
    b.settlementPrice = some ⟨⟨100, 1⟩, ⟨300, 0⟩⟩ := by
  have hrun : settled.bind (fun m =>
      (m.assetSettle { fee := ⟨0, 0⟩, account := 0, amount := ⟨60, 1⟩ }).map fun m =>
      (m.db.supplyOf 1, (m.bitassets 1).map fun b => (b.settlementFund, b.settlementPrice))) =
      some (40, some (120, some ⟨⟨100, 1⟩, ⟨300, 0⟩⟩)) := by
    decide +kernel
  obtain ⟨m, hm, hrun⟩ := bind_eq_some_iff.1 hrun
  obtain ⟨m', hsettle, hrun⟩ := map_eq_some_iff.1 hrun
  obtain ⟨hsupply, hdata⟩ := Prod.mk.inj hrun
  obtain ⟨b, hb, hdata⟩ := map_eq_some_iff.1 hdata
  obtain ⟨hfund, hprice⟩ := Prod.mk.inj hdata
  exact ⟨⟨m', fun _ => 0⟩, b, (reach_of_settled hm Plain).tail (.market (.assetSettle hsettle)), hb,
    hfund, hsupply, hprice⟩

theorem bitassets_backed_settled : ∃ s' : MarketSystem, ∃ b,
    Relation.ReflTransGen (Step Plain) twoAccounts s' ∧
      s'.market.bitassets 1 = some b ∧ b.settlementFund = 120 ∧ s'.market.db.supplyOf 1 = 40 ∧
      ∀ i c, s'.market.callOrders.find i = some c → c.debtType ≠ 1 := by
  obtain ⟨s', b, hreach, hb, hfund, hsupply, hprice⟩ := reach_settled
  obtain ⟨hbacked, -⟩ := bitassets_backed (backed_start hardforkCwd6Time _ (by decide)) hreach
  have hsettled := BitassetData.hasSettlement_eq hprice
  exact ⟨s', b, hreach, hb, hfund, hsupply, ((hbacked 1 b hb).2 hsettled).1⟩

/-- **Gold that is market-issued is not backed**: a unit is bought, and nobody owes it. -/
theorem gold_without_debt : ∃ s' : MarketSystem, ∃ b,
    twoAccounts.Backed ∧ Relation.ReflTransGen (Step Anything) twoAccounts s' ∧
      s'.market.bitassets 1 = some b ∧ b.hasSettlement = false ∧ s'.market.db.supplyOf 1 = 1 ∧
      s'.market.owed 1 = 0 ∧ s'.market.db.getBalance 0 1 = 1 := by
  have hrun : issued.bind (fun m =>
      (m.db.buyGcwd { fee := ⟨0, 0⟩, account := 0, amount := ⟨1300000000, 0⟩ }).map fun db =>
      ((m.bitassets 1).map BitassetData.hasSettlement, db.supplyOf 1, m.owed 1,
        db.getBalance 0 1)) =
      some (some false, 1, 0, 1) := by
    decide +kernel
  obtain ⟨m, hm, hrun⟩ := bind_eq_some_iff.1 hrun
  obtain ⟨db, hdb, hrun⟩ := map_eq_some_iff.1 hrun
  obtain ⟨hopen, hrun⟩ := Prod.mk.inj hrun
  obtain ⟨b, hb, hopen⟩ := map_eq_some_iff.1 hopen
  obtain ⟨hsupply, hrun⟩ := Prod.mk.inj hrun
  obtain ⟨howed, hbalance⟩ := Prod.mk.inj hrun
  refine ⟨⟨{ m with db := db }, fun _ => 0⟩, b, backed_start hardforkCwd6Time _ (by decide),
    ?_, hb, hopen, hsupply, howed, hbalance⟩
  exact (ReflTransGen.single (.market (.assetCreate hm))).tail (.coins trivial (.buyGcwd hdb))

/-- **Nothing exists beyond the supply.** In every state, what balances, fees, orders, positions,
bids and funds hold of a market-issued asset, together with all objects outside of the market, is at
most its supply, and at most what margin positions owe if it is not globally settled. No account
alone has more than that. -/
theorem held_le_supply (h : s.Backed) (hreach : Relation.ReflTransGen (Step Plain) s s')
    {x : AssetId} {b : BitassetData} (hb : s'.market.bitassets x = some b) :
    s'.market.held x + s'.outside x ≤ s'.market.db.supplyOf x ∧
      (b.hasSettlement = false → s'.market.held x + s'.outside x ≤ s'.market.owed x) ∧
      ∀ a, s'.market.db.getBalance a x ≤ s'.market.db.supplyOf x := by
  have hbacked := h.reach hreach
  have hissued : (s'.market.bitassets x).isSome := by
    rw [hb]
    rfl
  have hbound := hbacked.bound x (.inl hissued)
  rw [Market.excess] at hbound
  refine ⟨by omega, fun hopen => ?_, hbacked.getBalance_le_supplyOf hissued⟩
  have howed := (hbacked.sound.backed x b hb hopen).1
  omega

theorem held_le_supply_settled : ∃ s' : MarketSystem,
    Relation.ReflTransGen (Step Plain) twoAccounts s' ∧
    s'.market.db.supplyOf 1 = 40 ∧ s'.market.held 1 + s'.outside 1 ≤ 40 := by
  obtain ⟨s', b, hreach, hb, -, hsupply, -⟩ := reach_settled
  refine ⟨s', hreach, hsupply, ?_⟩
  rw [← hsupply]
  exact (held_le_supply (backed_start hardforkCwd6Time _ (by decide)) hreach hb).1

end MarketSystem

end CrowdwizChain
