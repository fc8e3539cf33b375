import Mathlib.Data.List.Sort
import CrowdwizChain.Chain.MarginCall

/-!
# Matching a new limit order

`database::apply_order` and the two `match` functions that it calls. The new order is the *taker*;
the resting limit orders of the opposite side and the margin calls are its *makers*.

The by-price index has a side of a market in one stretch, the best price first and orders of one
price by their ids. The loops over a stretch of the index are recursions over the list of its
orders; what is matched is always looked up in the state of that moment. `price::max` and
`price::min`, the ends of a stretch, are beyond all prices, since no amount is above
`GRAPHENE_MAX_SHARE_SUPPLY`.

In each match one of the two roundings is in favour of the order that is not used up. `Trade.Fair`
is what comes of it; it is all that is known later of the amounts of a match.
-/

namespace CrowdwizChain

open Exchange

/-! ### The by-price index -/

namespace LimitOrder

/-- The order `by_price` of the limit orders: the better price, then the lower id. -/
def comesBefore (a b : Nat × LimitOrder) : Bool :=
  b.2.sellPrice.1.lt a.2.sellPrice || (!a.2.sellPrice.1.lt b.2.sellPrice && a.1 < b.1)

/-- What the index compares. -/
def priority (e : Nat × LimitOrder) : (Nat ×ₗ Nat ×ₗ ℚ)ᵒᵈ ×ₗ Nat :=
  toLex (OrderDual.toDual e.2.sellPrice.1.rank, e.1)

theorem comesBefore_iff {a b : Nat × LimitOrder} : comesBefore a b = true ↔
    priority a < priority b := by
  have hba := Price.lt_iff_rank b.2.sellPrice.2 a.2.sellPrice.2
  have hab := Price.lt_iff_rank a.2.sellPrice.2 b.2.sellPrice.2
  have hdual : OrderDual.toDual a.2.sellPrice.1.rank < OrderDual.toDual b.2.sellPrice.1.rank ↔
      b.2.sellPrice.1.rank < a.2.sellPrice.1.rank := Iff.rfl
  rw [priority, priority, Prod.Lex.toLex_lt_toLex, hdual, OrderDual.toDual_inj, comesBefore,
    Bool.or_eq_true, Bool.and_eq_true, Bool.not_eq_true', ← Bool.not_eq_true, hba, hab,
    decide_eq_true_iff]
  constructor
  · rintro (hlt | ⟨hge, hid⟩)
    · exact .inl hlt
    · rcases lt_or_eq_of_le (not_lt.1 hge) with hlt | heq
      · exact .inl hlt
      · exact .inr ⟨heq.symm, hid⟩
  · rintro (hlt | ⟨heq, hid⟩)
    · exact .inl hlt
    · exact .inr ⟨heq ▸ lt_irrefl _, hid⟩

/-- An order of the other side that a price crosses: it gives at least what the price asks for. -/
def Faces (k : LimitOrder) (p : ValidPrice) : Prop :=
  k.sellAssetId = p.1.quote.assetId ∧ k.receiveAssetId = p.1.base.assetId ∧
    k.sellPrice.1.lt p.1.inv = false

/-- The value of what an order has for sale, at its own price: the amount of `amount_to_receive`. -/
def worth (o : LimitOrder) :
    Int := down o.sellPrice.1.base.amount o.sellPrice.1.quote.amount o.forSale

theorem amountToReceive_eq_some {o : LimitOrder} {v : Asset} (h : o.amountToReceive = some v) :
    v.amount = o.worth := by
  obtain ⟨rfl, -⟩ := Asset.mulWith_base h
  rfl

end LimitOrder

namespace Market

/-! ### Two orders -/

/-- The bit field that `match` returns: which of the two orders are filled, and thus removed. -/
@[ext]
structure MatchResult where
  taker : Bool
  maker : Bool
deriving DecidableEq

variable (m : Market)

/-- The two fills of `match`, of limit orders. -/
def fillLimits (taker maker : Nat) (takerPays takerReceives : Asset) (cullTaker : Bool) :
    Option (Market × MatchResult) :=
  (m.fillLimitOrder taker takerPays takerReceives cullTaker).bind fun (m, takerGone) =>
    (m.fillLimitOrder maker takerReceives takerPays true).bind fun (m, makerGone) =>
      if takerGone || makerGone then some (m, ⟨takerGone, makerGone⟩) else none

/-- `database::match`, of two limit orders -/
def matchLimit (taker maker : Nat) (matchPrice : Price) : Option (Market × MatchResult) :=
  (m.limitOrders.find taker).bind fun usd =>
    (m.limitOrders.find maker).bind fun core =>
      if usd.receiveAssetId = core.sellAssetId ∧ usd.sellAssetId = core.receiveAssetId ∧
          0 < usd.forSale ∧ 0 < core.forSale then
        (core.amountForSale.mul matchPrice).bind fun value =>
          if usd.forSale ≤ value.amount then
            (usd.amountForSale.mul matchPrice).bind fun usdReceives =>
              -- the rest of a taker can be too small for anything: it is cancelled later
              if usdReceives.amount = 0 then some (m, ⟨true, false⟩)
              else
                (usdReceives.multiplyAndRoundUp matchPrice).bind fun coreReceives =>
                  m.fillLimits taker maker coreReceives usdReceives true
          else
            (value.multiplyAndRoundUp matchPrice).bind fun usdReceives =>
              m.fillLimits taker maker value usdReceives false
      else none

/-- The two fills of `match`, of a limit order and a margin position. -/
def fillCalled (taker maker : Nat) (takerPays takerReceives : Asset) (cullTaker : Bool) :
    Option (Market × MatchResult) :=
  (m.fillLimitOrder taker takerPays takerReceives cullTaker).bind fun (m, takerGone) =>
    (m.fillCallOrder maker takerReceives takerPays).map fun (m, makerGone) =>
      (m, ⟨takerGone, makerGone⟩)

/-- `database::match`, of a limit order and a margin position -/
def matchCall (steps taker maker : Nat) (matchPrice feedPrice : Price)
    (maintenanceCollateralRatio : Nat) : Option (Market × MatchResult) :=
  (m.limitOrders.find taker).bind fun bid =>
    (m.callOrders.find maker).bind fun ask =>
      if bid.sellAssetId = ask.debtType ∧ bid.receiveAssetId = ask.collateralType ∧
          0 < bid.forSale ∧ 0 < ask.debt ∧ 0 < ask.collateral then
        (ask.getMaxDebtToCover steps matchPrice feedPrice maintenanceCollateralRatio).bind
          fun usdToBuy =>
          if bid.forSale < usdToBuy then
            (bid.amountForSale.mul matchPrice).bind fun orderReceives =>
              if orderReceives.amount = 0 then some (m, ⟨true, false⟩)
              else
                (orderReceives.multiplyAndRoundUp matchPrice).bind fun callReceives =>
                  m.fillCalled taker maker callReceives orderReceives true
          else
            (Asset.multiplyAndRoundUp ⟨usdToBuy, ask.debtType⟩ matchPrice).bind fun orderReceives =>
              m.fillCalled taker maker ⟨usdToBuy, ask.debtType⟩ orderReceives false
      else none

/-! ### The loops -/

/-- A loop over resting limit orders, and whether the taker is finished: the loop goes on only if
the maker alone was filled. -/
def matchLimits (taker : Nat) : List (Nat × LimitOrder) → Market → Option (Market × Bool)
  | [], m => some (m, false)
  | e :: l, m =>
    (m.matchLimit taker e.1 e.2.sellPrice).bind fun (m, result) =>
      if result = ⟨false, true⟩ then matchLimits taker l m else some (m, true)

/-- What margin positions are called at: the inverse of the `max_short_squeeze_price`,
with the feed. -/
structure CallTerms where
  matchPrice : Price
  feedPrice : ValidPrice
  maintenanceCollateralRatio : Nat

/-- Whether a new order of a price is to be matched with margin calls, and at which terms. -/
def callTerms (sellPrice : ValidPrice) : Option CallTerms :=
  (m.bitassets sellPrice.1.base.assetId).bind fun bitasset =>
    bitasset.currentFeed.settlementPrice.bind fun feed =>
      if bitasset.options.shortBackingAsset = sellPrice.1.quote.assetId ∧
          bitasset.isPredictionMarket = false ∧ bitasset.hasSettlement = false then
        let matchPrice :=
          (feed.1.maxShortSqueezePrice bitasset.currentFeed.maximumShortSqueezeRatio).inv
        if matchPrice.lt sellPrice.1.inv then none
        else some ⟨matchPrice, feed, bitasset.currentFeed.maintenanceCollateralRatio⟩
      else none

/-- The order `by_price` of the margin positions: the least call price, then the lower id. -/
def calledBefore (a b : Nat × CallOrder) : Bool :=
  a.2.callPrice.lt b.2.callPrice || (!b.2.callPrice.lt a.2.callPrice && a.1 < b.1)

/-- The margin positions of a market, which have borrowed the one asset on the other. -/
def callsOf (collateral debt : AssetId) : List (Nat × CallOrder) :=
  m.callOrders.inOrder.filter fun e => e.2.collateralType = collateral ∧ e.2.debtType = debt

/-- The position with the least call price, if the feed calls it. -/
def dueCall (sellPrice : ValidPrice) (terms : CallTerms) : Option (Nat × CallOrder) :=
  (Table.firstBy calledBefore (m.callsOf sellPrice.1.quote.assetId sellPrice.1.base.assetId)).filter
    fun e => !terms.feedPrice.1.inv.lt e.2.callPrice

/-- The loop over margin calls, and whether the taker is finished. -/
def matchCalls (taker : Nat) (sellPrice : ValidPrice) (terms : CallTerms) :
    Nat → Market → Option (Market × Bool)
  | 0, _ => none
  | steps + 1, m =>
    match m.dueCall sellPrice terms with
    | none => some (m, false)
    | some e =>
      (m.matchCall steps taker e.1 terms.matchPrice terms.feedPrice
        terms.maintenanceCollateralRatio).bind fun (m, result) =>
        if result.taker then some (m, true) else matchCalls taker sellPrice terms steps m

/-- The orders of a side of a market. -/
def side (sells receives : AssetId) : List (Nat × LimitOrder) :=
  m.limitOrders.inOrder.filter fun e => e.2.sellAssetId = sells ∧ e.2.receiveAssetId = receives

/-- The resting orders that a new order of a price can be matched with, in the order of
the index. -/
def makers (sellPrice : ValidPrice) : List (Nat × LimitOrder) :=
  ((m.side sellPrice.1.quote.assetId sellPrice.1.base.assetId).filter fun e =>
    !e.2.sellPrice.1.lt sellPrice.1.inv).insertionSort fun a b =>
      LimitOrder.comesBefore b a = false

/-- The matching loops of `apply_order`, and whether the taker is finished. -/
def matchMakers (steps taker : Nat) (sellPrice : ValidPrice) : Option (Market × Bool) :=
  match m.callTerms sellPrice with
  | none => matchLimits taker (m.makers sellPrice) m
  | some terms =>
    -- limit orders of a better price, then margin calls, then the other limit orders
    let better := fun e : Nat × LimitOrder => terms.matchPrice.lt e.2.sellPrice
    let makers := m.makers sellPrice
    (matchLimits taker (makers.takeWhile better) m).bind fun (m, finished) =>
      if finished then some (m, true)
      else
        (matchCalls taker sellPrice terms steps m).bind fun (m, finished) =>
          if finished then some (m, true) else matchLimits taker (makers.dropWhile better) m

/-- `database::apply_order`, and whether the order is gone -/
def applyOrder (steps id : Nat) : Option (Market × Bool) :=
  (m.limitOrders.find id).bind fun o =>
    -- an order that is not at the front of its side is not matched
    if (m.side o.sellAssetId o.receiveAssetId).any (LimitOrder.comesBefore · (id, o)) then
      some (m, false)
    else
      (m.matchMakers steps id o.sellPrice).bind fun (m, _) =>
        if (m.limitOrders.find id).isSome then m.maybeCullSmallOrder id else some (m, true)

/-! ### What a match is -/

end Market

/-- Who a new order is matched with. -/
inductive Maker where
  | limit (id : Nat)
  | call (id : Nat)

/-- A match of a new order, at a price of the maker's asset in terms of the taker's. -/
structure Trade where
  maker : Maker
  price : Price
  takerPays : Int
  takerReceives : Int

namespace Trade

/-- The amounts that the taker could pay for what it receives: their value covers it. -/
def TakerCovers (t : Trade) : Set Int :=
  { n | t.takerReceives ≤ down t.price.quote.amount t.price.base.amount n }

/-- The amounts that the maker could pay for what it receives. -/
def MakerCovers (t : Trade) : Set Int :=
  { n | t.takerPays ≤ down t.price.base.amount t.price.quote.amount n }

/-- **What is fair in a match.** Nobody pays something for nothing, nor more than there is; no
side pays more than the least amount whose value covers what it receives, and a side that is
filled pays exactly that. -/
structure Fair (t : Trade) (takerHas makerHas : Int) (takerFilled makerFilled : Bool) : Prop where
  nonneg : 0 ≤ t.takerPays ∧ 0 ≤ t.takerReceives
  pays_iff : 0 < t.takerPays ↔ 0 < t.takerReceives
  takerPays_le : t.takerPays ≤ takerHas
  makerPays_le : t.takerReceives ≤ makerHas
  taker_least : t.takerPays ∈ lowerBounds t.TakerCovers
  maker_least : t.takerReceives ∈ lowerBounds t.MakerCovers
  filled : takerFilled = true ∧ IsLeast t.TakerCovers t.takerPays ∨
    makerFilled = true ∧ IsLeast t.MakerCovers t.takerReceives

variable {t : Trade}

/-- The taker is filled: it pays the least amount for the value of what it has. -/
theorem fair_of_taker (hp : t.price.Valid) {takerHas makerHas : Int}
    (hreceives : t.takerReceives = down t.price.quote.amount t.price.base.amount takerHas)
    (hpays : t.takerPays = up t.price.base.amount t.price.quote.amount t.takerReceives)
    (hpos : 0 < t.takerReceives) (hmaker : t.takerReceives ≤ makerHas) (makerFilled : Bool) :
    t.Fair takerHas makerHas true makerFilled := by
  obtain ⟨hb, hq, -⟩ := hp
  have hpaid := up_pos hb hq hpos
  have hleast : IsLeast t.TakerCovers t.takerPays := by
    refine ⟨?_, fun n hn => ?_⟩
    · show t.takerReceives ≤ _
      rw [hpays]
      exact le_down_up hq hb
    · rw [hpays]
      exact (up_le_iff hq hb).2 hn
  refine ⟨⟨by omega, hpos.le⟩, ⟨fun _ => hpos, fun _ => by omega⟩, ?_, hmaker, hleast.2,
    fun n hn => ?_, .inl ⟨rfl, hleast⟩⟩
  · rw [hpays, hreceives]
    exact up_down_le hq hb
  · -- the maker receives the value of what it pays, rounded up
    have hworth : t.takerReceives * t.price.quote.amount ≤ t.takerPays * t.price.base.amount := by
      rw [hpays]
      exact (up_le_iff_mul hb).1 (le_refl _)
    exact le_of_mul_le_mul_right (hworth.trans ((le_down_iff hb).1 hn)) hq

/-- The maker is filled: it pays the least amount for what the taker pays. -/
theorem fair_of_maker (hp : t.price.Valid) {takerHas makerHas : Int} (hpays : 0 ≤ t.takerPays)
    (hreceives : t.takerReceives = up t.price.quote.amount t.price.base.amount t.takerPays)
    (htaker : t.takerPays ≤ takerHas) (hmaker : t.takerReceives ≤ makerHas) (takerFilled : Bool) :
    t.Fair takerHas makerHas takerFilled true := by
  obtain ⟨hb, hq, -⟩ := hp
  have hleast : IsLeast t.MakerCovers t.takerReceives := by
    refine ⟨?_, fun n hn => ?_⟩
    · show t.takerPays ≤ _
      rw [hreceives]
      exact le_down_up hb hq
    · rw [hreceives]
      exact (up_le_iff hb hq).2 hn
  have hworth : t.takerPays * t.price.base.amount ≤ t.takerReceives * t.price.quote.amount := by
    rw [hreceives]
    exact (up_le_iff_mul hq).1 (le_refl _)
  refine ⟨⟨hpays, ?_⟩, ⟨fun hpos => ?_, fun hpos => ?_⟩, htaker, hmaker, fun n hn => ?_, hleast.2,
    .inr ⟨rfl, hleast⟩⟩
  · rw [hreceives]
    exact up_nonneg hq hb.le hpays
  · rw [hreceives]
    exact up_pos hq hb hpos
  · rcases hpays.lt_or_eq with hlt | hzero
    · exact hlt
    · rw [hreceives, ← hzero, up_zero hq] at hpos
      exact absurd hpos (lt_irrefl _)
  · exact le_of_mul_le_mul_right (hworth.trans ((le_down_iff hq).1 hn)) hb

end Trade

namespace Market

/-- **A match of a new order**, as fills of the two sides. It is with the best maker of that
moment: a limit order that comes before the others of its side, unless a margin call is due that
is not worse, or the margin position with the least call price, if no limit order is better. The
price is the maker's. -/
inductive TradeStep (taker : Nat) : Market → Trade → Market → Prop
  | limit {m m₁ m' : Market} {o k : LimitOrder} {id : Nat} {x y : Int}
    {cull takerGone makerGone : Bool} (hface : k.Faces o.sellPrice)
    (hfirst : ∀ i k', m.limitOrders.find i = some k' → k'.Faces o.sellPrice →
      LimitOrder.comesBefore (i, k') (id, k) = false)
    (hcalls : ∀ terms, m.callTerms o.sellPrice = some terms →
      terms.matchPrice.lt k.sellPrice = true ∨ m.dueCall o.sellPrice terms = none)
    (htaker : m.FillsLimit taker o ⟨x, o.sellAssetId⟩ ⟨y, o.receiveAssetId⟩ cull m₁ takerGone)
    (hmaker : m₁.FillsLimit id k ⟨y, k.sellAssetId⟩ ⟨x, k.receiveAssetId⟩ true m' makerGone)
    (hfair : Trade.Fair ⟨.limit id, k.sellPrice, x, y⟩ o.forSale k.forSale takerGone makerGone) :
    TradeStep taker m ⟨.limit id, k.sellPrice, x, y⟩ m'
  | call {m m₁ m' : Market} {o : LimitOrder} {c : CallOrder} {terms : CallTerms}
    {id : Nat} {x y : Int} {cull takerGone closed : Bool}
    (hterms : m.callTerms o.sellPrice = some terms)
    (hdue : m.dueCall o.sellPrice terms = some (id, c))
    (hfirst : ∀ i k, m.limitOrders.find i = some k → k.Faces o.sellPrice →
      terms.matchPrice.lt k.sellPrice = false)
    (htaker : m.FillsLimit taker o ⟨x, o.sellAssetId⟩ ⟨y, o.receiveAssetId⟩ cull m₁ takerGone)
    (hmaker : m₁.FillsCall id c ⟨y, c.collateralType⟩ ⟨x, c.debtType⟩ m' closed)
    (hdebt : x ≤ c.debt)
    -- a position with a target ratio is filled when it has bought enough for that
    (hfair : Trade.Fair ⟨.call id, terms.matchPrice, x, y⟩ o.forSale c.collateral takerGone true) :
    TradeStep taker m ⟨.call id, terms.matchPrice, x, y⟩ m'

/-- The matches of a new order, one after the other. -/
inductive Trades (taker : Nat) : Market → List Trade → Market → Prop
  | nil {m : Market} : Trades taker m [] m
  | cons {m m₁ m' : Market} {t : Trade} {ts : List Trade} (h : TradeStep taker m t m₁)
    (hs : Trades taker m₁ ts m') : Trades taker m (t :: ts) m'

variable {m m' : Market} {taker : Nat}

theorem Trades.append {m1 : Market} {ts ts' : List Trade} (h : Trades taker m ts m1)
    (h' : Trades taker m1 ts' m') : Trades taker m (ts ++ ts') m' := by
  induction h with
  | nil => exact h'
  | cons hstep _ ih => exact .cons hstep (ih h')

/-- **Nothing is lost in a match**, apart from the debt that is retired. -/
theorem TradeStep.total_eq {t : Trade} (h : TradeStep taker m t m') (x : AssetId) :
    m'.total x = m.total x := by
  cases h with
  | limit hface _ _ htaker hmaker hfair =>
    rw [hmaker.total hfair.nonneg.1, htaker.total hfair.nonneg.2, hface.1, hface.2.1]
    simp only [LimitOrder.sellAssetId, LimitOrder.receiveAssetId]
    omega
  | call hterms hdue _ htaker hmaker _ hfair =>
    have hmem := Table.mem_of_firstBy (Option.eq_some_of_filter_eq_some hdue)
    have htypes := of_decide_eq_true (List.mem_filter.1 hmem).2
    rw [hmaker.total, htaker.total hfair.nonneg.2, htypes.1, htypes.2]
    simp only [LimitOrder.sellAssetId, LimitOrder.receiveAssetId]
    omega

theorem Trades.total_eq {ts : List Trade} (h : Trades taker m ts m') (x : AssetId) :
    m'.total x = m.total x := by
  induction h with
  | nil => rfl
  | cons hstep _ ih => rw [ih, hstep.total_eq]

end Market

end CrowdwizChain
