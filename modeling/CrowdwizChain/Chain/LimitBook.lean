import CrowdwizChain.Chain.LimitFacing

/-!
# The limit order book

A market's book is in order (`Market.Book`) if no two opposite limit orders cross and every resting
order asks for at least one unit. `limit_order_create` keeps it in order.

An order that is not at the front of its side is not matched at all. This is sound only because the
book was in order: what the new order crosses, the orders before it would have crossed already.

The fee of a new order is deferred: it is kept with the order until the first fill, and
given back if there is none.
-/

namespace CrowdwizChain

open Exchange Option Asset Table Database

/-! ### `limit_order_create` -/

/-- `limit_order_create_operation` -/
structure LimitOrderCreateOperation where
  fee : Asset
  seller : AccountId
  amountToSell : Asset
  minToReceive : Asset
  expiration : Nat
  fillOrKill : Bool := false

namespace LimitOrderCreateOperation

variable (op : LimitOrderCreateOperation)

/-- `limit_order_create_operation::validate` -/
def Validate : Prop :=
  op.amountToSell.assetId ≠ op.minToReceive.assetId ∧ 0 ≤ op.fee.amount ∧
    0 < op.amountToSell.amount ∧ 0 < op.minToReceive.amount

instance : Decidable op.Validate := inferInstanceAs (Decidable (_ ∧ _ ∧ _ ∧ _))

/-- `limit_order_create_operation::get_price` -/
def getPrice (h : op.Validate) : ValidPrice :=
  ⟨⟨op.amountToSell, op.minToReceive⟩, h.2.2.1, h.2.2.2, h.1⟩

/-- The order that is created, with its deferred fee. -/
def order (h : op.Validate) (coreFee : Int) (hfee : 0 ≤ coreFee) : LimitOrder where
  expiration := op.expiration
  seller := op.seller
  forSale := op.amountToSell.amount
  sellPrice := op.getPrice h
  deferredFee := coreFee
  deferredPaidFee := if op.fee.assetId = 0 then ⟨0, 0⟩ else op.fee
  fee_nonneg := ⟨hfee, by
    split
    · exact le_refl _
    · exact h.2.1⟩

theorem holds_order (h : op.Validate) {coreFee : Int} (hfee : 0 ≤ coreFee) (x : AssetId) :
    (op.order h coreFee hfee).holds x = op.amountToSell.amountIn x + (core coreFee).amountIn x +
      if op.fee.assetId = 0 then 0 else op.fee.amountIn x := by
  show _ + _ + amountIn (if op.fee.assetId = 0 then ⟨0, 0⟩ else op.fee) x = _
  split
  · rw [amountIn_zero]
    rfl
  · rfl

end LimitOrderCreateOperation

namespace Market

/-- `limit_order_create_evaluator` up to the creation of the order. A fee in another asset is paid
by that asset's fee pool. -/
def placeOrder (m : Market) (op : LimitOrderCreateOperation) : Option Market :=
  if h : op.Validate then
    (m.db.prepareFee op.seller op.fee).bind fun coreFee =>
      if hfee : 0 ≤ coreFee ∧ m.db.headBlockTime ≤ op.expiration ∧
          (m.db.assets.find op.amountToSell.assetId).isSome ∧
          (m.db.assets.find op.minToReceive.assetId).isSome ∧
          op.amountToSell.amount ≤ m.db.getBalance op.seller op.amountToSell.assetId then
        (if op.fee.assetId = 0 then some m.db
          else m.db.modifyAsset op.fee.assetId fun d =>
            { d with feePool := d.feePool - coreFee }).bind fun db =>
          (db.modifyStatistics op.seller (·.outOfOrders (-op.amountToSell))).bind fun db =>
            (db.adjustBalance op.seller (-op.amountToSell)).map fun db =>
              { m with
                db := db
                limitOrders := m.limitOrders.create (op.order h coreFee hfee.1) }
      else none
  else none

/-- `limit_order_create` -/
def limitOrderCreate (m : Market) (steps : Nat) (op : LimitOrderCreateOperation) : Option Market :=
  (m.placeOrder op).bind fun placed =>
    (placed.applyOrder steps m.limitOrders.nextId).bind fun (applied, filled) =>
      if op.fillOrKill = false ∨ filled = true then
        (applied.db.adjustBalance op.seller (-op.fee)).map fun db => { applied with db := db }
      else none

variable {m m' : Market}

/-- **A new order is in the book**, and what it holds was paid for, but for the fee, which is taken
last. -/
theorem placeOrder_eq_some {op : LimitOrderCreateOperation} {placed : Market}
    (h : m.placeOrder op = some placed) : ∃ hvalid coreFee hfee db, placed = { m with
        db := db
        limitOrders := m.limitOrders.create (op.order hvalid coreFee hfee) } ∧
      (∀ x, placed.total x = m.total x + op.fee.amountIn x) ∧ m.Squared placed := by
  rw [placeOrder] at h
  split at h
  · next hvalid =>
    obtain ⟨coreFee, hprepare, h⟩ := bind_eq_some_iff.1 h
    obtain ⟨-, -, -, -, hcore, -⟩ := prepareFee_eq_some hprepare
    split at h
    · next hchecks =>
      obtain ⟨db1, h1, h⟩ := bind_eq_some_iff.1 h
      obtain ⟨db2, h2, h⟩ := bind_eq_some_iff.1 h
      obtain ⟨db3, h3, rfl⟩ := map_eq_some_iff.1 h
      have hpool : m.db.Silent db1 := by
        split at h1
        · cases h1
          exact .refl _
        · exact modifyAsset_silent h1 (fun _ => rfl) fun _ => le_refl _
      refine ⟨hvalid, coreFee, hchecks.1, db3, rfl, fun x => ?_, squared_limitOrders
        ((hpool.trans (modifyStatistics_silent h2)).trans (adjustBalance_silent h3)) _⟩
      have hstats := modifyStatistics_enters (fun s => s.held_outOfOrders _) h2
      have hsale := adjustBalance_enters h3
      split at h1
      · next hzero =>
        cases h1
        rw [total_orders (hstats.trans hsale), sumBy_create, op.holds_order, if_pos hzero,
          hcore hzero, amountIn_core_zero]
        have hfee : (core op.fee.amount).amountIn x = op.fee.amountIn x := by
          rw [amountIn, amountIn, hzero]
          rfl
        rw [hfee, amountIn_neg]
        omega
      · next hother =>
        have hpool := modifyAsset_enters h1 0 (-coreFee) (fun d => (add_zero _).symm) fun d => rfl
        rw [total_orders ((hpool.trans hstats).trans hsale), sumBy_create, op.holds_order,
          if_neg hother, amountIn_core_zero, amountIn_zero,
          amountIn_neg]
        have hneg : (core (-coreFee)).amountIn x = -(core coreFee).amountIn x :=
          amountIn_neg (core coreFee) x
        omega
    · cases h
  · cases h

/-! ### A book in order -/

/-- **The book of a market is in order**: every order asks for at least one unit, and no two orders
cross. -/
structure Book (m : Market) (x y : AssetId) : Prop where
  worth : ∀ i o, m.limitOrders.find i = some o →
    (o.sellAssetId = x ∧ o.receiveAssetId = y ∨ o.sellAssetId = y ∧ o.receiveAssetId = x) →
    1 ≤ o.worth
  apart : ∀ i j o k, m.limitOrders.find i = some o → m.limitOrders.find j = some k →
    o.sellAssetId = x → o.receiveAssetId = y → ¬k.Faces o.sellPrice

end Market

namespace LimitOrder

theorem Faces.symm {o k : LimitOrder} (h : k.Faces o.sellPrice) : o.Faces k.sellPrice := by
  have hcross := Market.cross_of_not_lt h.1 h.2.1 h.2.2
  refine ⟨h.2.1.symm, h.1.symm, ?_⟩
  have hbase : o.sellPrice.1.base.assetId = k.sellPrice.1.inv.base.assetId := h.2.1.symm
  have hquote : o.sellPrice.1.quote.assetId = k.sellPrice.1.inv.quote.assetId := h.1.symm
  rw [Price.lt, if_neg (not_not.2 hbase), if_neg (not_not.2 hquote), decide_eq_false_iff_not,
    not_lt]
  show o.sellPrice.1.quote.amount * k.sellPrice.1.quote.amount ≤
    k.sellPrice.1.base.amount * o.sellPrice.1.base.amount
  exact hcross

/-- What an order crosses, an order that comes before it on its side crosses too. -/
theorem Faces.of_comesBefore {e e' : Nat × LimitOrder} {k : LimitOrder} (h : k.Faces e'.2.sellPrice)
    (hsells : e.2.sellAssetId = e'.2.sellAssetId)
    (hreceives : e.2.receiveAssetId = e'.2.receiveAssetId)
    (hbefore : comesBefore e e' = true) : k.Faces e.2.sellPrice := by
  have hrank : e'.2.sellPrice.1.rank ≤ e.2.sellPrice.1.rank := by
    have hlex := comesBefore_iff.1 hbefore
    rw [priority, priority, Prod.Lex.toLex_lt_toLex] at hlex
    rcases hlex with hlt | ⟨heq, -⟩
    · exact (OrderDual.toDual_lt_toDual.1 hlt).le
    · exact (OrderDual.toDual_inj.1 heq).ge
  -- seen from the other order, whose inverse price is fixed, a higher price is less easily too low
  have hinv : k.sellPrice.1.inv.Valid :=
    ⟨k.sellPrice.2.2.1, k.sellPrice.2.1, Ne.symm k.sellPrice.2.2.2⟩
  refine Faces.symm ⟨hsells.trans h.symm.1, hreceives.trans h.symm.2.1, ?_⟩
  have hnot := h.symm.2.2
  rw [← Bool.not_eq_true, Price.lt_iff_rank e'.2.sellPrice.2 hinv, not_lt] at hnot
  rw [← Bool.not_eq_true, Price.lt_iff_rank e.2.sellPrice.2 hinv, not_lt]
  exact hnot.trans hrank

end LimitOrder

namespace Market

variable {m m' : Market} {o : LimitOrder} {x y : AssetId}

theorem Book.symm (h : m.Book x y) : m.Book y x where
  worth i o ho hmarket := h.worth i o ho hmarket.symm
  apart i j o k ho hk hsells hreceives hface :=
    h.apart j i k o hk ho (hface.1.trans hreceives) (hface.2.1.trans hsells) hface.symm

/-- What is left of a book in order, with a new order that crosses nothing, is in order. -/
theorem Book.of_shrinks {m1 : Market} {id : Nat} (h : m.Book x y)
    (hsame : ∀ i, i ≠ id → m1.limitOrders.find i = m.limitOrders.find i)
    (hshrinks : Shrinks id m1 m') (hnew : ∀ o, m'.limitOrders.find id = some o →
      (o.sellAssetId = x ∧ o.receiveAssetId = y ∨ o.sellAssetId = y ∧ o.receiveAssetId = x) →
        1 ≤ o.worth ∧ ∀ i k, m'.limitOrders.find i = some k → ¬k.Faces o.sellPrice) :
        m'.Book x y := by
  -- an order other than the new one was there before, at the same price
  have hold : ∀ i k', i ≠ id → m'.limitOrders.find i = some k' →
      ∃ k, m.limitOrders.find i = some k ∧ k'.sellPrice = k.sellPrice ∧
      (k' = k ∨ 0 < k'.worth) := by
    intro i k' hi hk'
    obtain ⟨k, hk, hrest⟩ := hshrinks i k' hi hk'
    rw [hsame i hi] at hk
    exact ⟨k, hk, hrest⟩
  constructor
  · intro i o ho hmarket
    by_cases hi : i = id
    · subst hi
      exact (hnew o ho hmarket).1
    · obtain ⟨k, hk, -, rfl | hpos⟩ := hold i o hi ho
      · exact h.worth i o hk hmarket
      · exact hpos
  · intro i j o k ho hk hsells hreceives hface
    by_cases hi : i = id
    · subst hi
      exact (hnew o ho (.inl ⟨hsells, hreceives⟩)).2 j k hk hface
    · by_cases hj : j = id
      · subst hj
        exact (hnew k hk (.inr ⟨hface.1.trans hreceives, hface.2.1.trans hsells⟩)).2 i o
          ho hface.symm
      · obtain ⟨o0, ho0, hprice, -⟩ := hold i o hi ho
        obtain ⟨k0, hk0, hprice', -⟩ := hold j k hj hk
        refine h.apart i j o0 k0 ho0 hk0 ?_ ?_ ?_
        · rw [LimitOrder.sellAssetId, ← hprice]
          exact hsells
        · rw [LimitOrder.receiveAssetId, ← hprice]
          exact hreceives
        · rw [LimitOrder.Faces, LimitOrder.sellAssetId, LimitOrder.receiveAssetId,
            ← hprice, ← hprice']
          exact hface

/-! ### `apply_order` -/

/-- **What `apply_order` does.** The matches come first; then the order is cancelled if there is too
little left of it. Either the order was not at the front of its side, or no order is left that it
crosses. -/
theorem applyOrder_eq_some {steps id : Nat} {filled : Bool} (ho : m.limitOrders.find id = some o)
    (hforSale : 0 ≤ o.forSale) (h : m.applyOrder steps id = some (m', filled)) :
    (∃ ts m2, Trades id m ts m2 ∧ (m' = m2 ∨ m2.cancelLimitOrder id true = some m')) ∧
      m.Squared m' ∧ Shrinks id m m' ∧ Keeps id o.sellPrice m' ∧
      ((m' = m ∧ ∃ e, m.limitOrders.find e.1 = some e.2 ∧ e.2.sellAssetId = o.sellAssetId ∧
          e.2.receiveAssetId = o.receiveAssetId ∧ LimitOrder.comesBefore e (id, o) = true) ∨
        ∀ o', m'.limitOrders.find id = some o' →
          1 ≤ o'.worth ∧ ∀ i k, m'.limitOrders.find i = some k → ¬k.Faces o.sellPrice) := by
  rw [applyOrder, ho, bind_some] at h
  split at h
  · next hbehind =>
    cases h
    obtain ⟨e, he, hbefore⟩ := List.any_eq_true.1 hbehind
    obtain ⟨hrow, hside⟩ := List.mem_filter.1 he
    refine ⟨⟨[], _, .nil, .inl rfl⟩, .refl _, .refl _ _, fun o' ho' => ?_, .inl ⟨rfl, e,
      mem_inOrder.1 hrow, (of_decide_eq_true hside).1, (of_decide_eq_true hside).2, hbefore⟩⟩
    cases ho.symm.trans ho'
    exact ⟨rfl, hforSale⟩
  · obtain ⟨⟨m2, finished⟩, hmatch, h⟩ := bind_eq_some_iff.1 h
    have houtcome := matchMakers_outcome ho hforSale hmatch
    obtain ⟨ts, hts⟩ := houtcome.trades
    dsimp only at h
    split at h
    · obtain ⟨o2, ho2, h⟩ := bind_eq_some_iff.1 h
      obtain ⟨v, hv, h⟩ := bind_eq_some_iff.1 h
      split at h
      · -- there is too little left
        obtain ⟨m3, hcancel, h⟩ := map_eq_some_iff.1 h
        cases h
        have hsquared := houtcome.squared.trans (cancelLimitOrder_squared hcancel)
        obtain ⟨⟨-, db, -, -, rfl⟩, -⟩ := cancelLimitOrder_eq_some hcancel
        have hgone : ∀ o', (m2.limitOrders.remove id).find id ≠ some o' := by
          intro o' ho'
          rw [find_remove_self] at ho'
          cases ho'
        refine ⟨⟨ts, m2, hts, .inr hcancel⟩, hsquared, fun i k' hi hk' => ?_,
          fun o' ho' => absurd ho' (hgone o'), .inr fun o' ho' => absurd ho' (hgone o')⟩
        exact houtcome.shrinks i k' hi ((find_remove_ne hi).symm.trans hk')
      · next hnonzero =>
        obtain ⟨rfl, -⟩ := Prod.mk.inj (some.inj h)
        rw [LimitOrder.amountToReceive_eq_some hv] at hnonzero
        have hgoes : finished = false := by
          by_contra hfinished
          exact hnonzero (houtcome.ends (Bool.eq_true_of_not_eq_false hfinished) o2 ho2)
        refine ⟨⟨ts, m2, hts, .inl rfl⟩, houtcome.squared, houtcome.shrinks, houtcome.keeps,
          .inr fun o' ho' => ?_⟩
        obtain rfl := some.inj (ho2.symm.trans ho')
        have hnonneg : 0 ≤ o2.worth :=
          down_nonneg o2.sellPrice.2.1 o2.sellPrice.2.2.1.le (houtcome.keeps o2 ho2).2
        refine ⟨by omega, fun i k hk hface => ?_⟩
        have hmem := (houtcome.facing hgoes).all i k hk hface
        cases hmem
    · next hgone =>
      obtain ⟨rfl, -⟩ := Prod.mk.inj (some.inj h)
      refine ⟨⟨ts, m2, hts, .inl rfl⟩, houtcome.squared, houtcome.shrinks, houtcome.keeps,
        .inr fun o' ho' => ?_⟩
      rw [ho'] at hgone
      exact absurd rfl hgone

/-! ### The theorem -/

theorem worth_order {op : LimitOrderCreateOperation} (h : op.Validate) {coreFee : Int}
    (hfee : 0 ≤ coreFee) : (op.order h coreFee hfee).worth = op.minToReceive.amount :=
  down_self h.2.2.1

/-- **A new order keeps every book in order.** It is matched with the best maker at each moment, at
the maker's price, and in each match fairly (`TradeStep`); then it is cancelled if there is too
little left of it, and its fee is taken. Apart from retired debt, nothing is lost of any asset. -/
theorem limit_order_create_keeps_book (steps : Nat) (op : LimitOrderCreateOperation)
    (h : m.limitOrderCreate steps op = some m') :
    (∀ x y, m.Book x y → m'.Book x y) ∧
        (∃ placed ts matched applied db, m.placeOrder op = some placed ∧
        Trades m.limitOrders.nextId placed ts matched ∧
        (applied = matched ∨ matched.cancelLimitOrder m.limitOrders.nextId true = some applied) ∧
        applied.db.adjustBalance op.seller (-op.fee) = some db ∧ m' = { applied with db := db }) ∧
      ∀ x, m'.total x = m.total x := by
  obtain ⟨placed, hplaced, h⟩ := bind_eq_some_iff.1 h
  obtain ⟨⟨applied, filled⟩, happly, h⟩ := bind_eq_some_iff.1 h
  obtain ⟨-, h⟩ := ite_none_right_eq_some.1 h
  obtain ⟨db, hdb, rfl⟩ := map_eq_some_iff.1 h
  obtain ⟨hvalid, coreFee, hfee, db0, rfl, htotal, -⟩ := placeOrder_eq_some hplaced
  have hrow : (m.limitOrders.create (op.order hvalid coreFee hfee)).find m.limitOrders.nextId =
      some (op.order hvalid coreFee hfee) := find_create_self _
  obtain ⟨⟨ts, matched, htrades, hend⟩, -, hshrinks, hkeeps, hbook⟩ :=
    applyOrder_eq_some hrow hvalid.2.2.1.le happly
  refine ⟨fun x y hxy => ?_, ⟨_, ts, matched, applied, db, hplaced, htrades, hend, hdb, rfl⟩,
    fun x => ?_⟩
  · refine hxy.of_shrinks (fun i hi => find_create_ne _ hi) hshrinks ?_
    intro o ho hmarket
    have hprice := (hkeeps o ho).1
    rcases hbook with ⟨rfl, e, he, hsells, hreceives, hbefore⟩ | hfront
    · -- the order was not at the front: the one before it would have crossed what it crosses
      obtain rfl : op.order hvalid coreFee hfee = o := some.inj (hrow.symm.trans ho)
      refine ⟨?_, fun i k hk hface => ?_⟩
      · rw [worth_order]
        exact hvalid.2.2.2
      · have hold : ∀ j, j ≠ m.limitOrders.nextId →
            (m.limitOrders.create (op.order hvalid coreFee hfee)).find j = m.limitOrders.find j :=
          fun j hj => find_create_ne _ hj
        have hne : e.1 ≠ m.limitOrders.nextId := by
          intro heq
          rw [heq, hrow] at he
          have hself : e = (m.limitOrders.nextId, op.order hvalid coreFee hfee) :=
            Prod.ext heq (some.inj he).symm
          rw [hself, LimitOrder.comesBefore_iff] at hbefore
          exact lt_irrefl _ hbefore
        have hne' : i ≠ m.limitOrders.nextId := by
          rintro rfl
          cases hrow.symm.trans hk
          exact hvalid.1 hface.1
        have hcross := hface.of_comesBefore hsells hreceives hbefore
        rw [show _ = _ from hold e.1 hne] at he
        rw [show _ = _ from hold i hne'] at hk
        rcases hmarket with ⟨hx, hy⟩ | ⟨hy, hx⟩
        · exact hxy.apart e.1 i e.2 k he hk (hsells.trans hx) (hreceives.trans hy) hcross
        · exact hxy.symm.apart e.1 i e.2 k he hk (hsells.trans hy) (hreceives.trans hx) hcross
    · rw [hprice]
      exact hfront o ho
  · have happlied : applied.total x = matched.total x := by
      rcases hend with rfl | hcancel
      · rfl
      · exact (cancelLimitOrder_eq_some hcancel).2 x
    have hpaid := adjustBalance_enters hdb
    have hlast :
        ({ applied with db := db } : Market).total x = applied.total x + (-op.fee).amountIn x := by
      simp only [Market.total, hpaid x]
      omega
    rw [hlast, happlied, htrades.total_eq, htotal, amountIn_neg]
    omega

/-- A market in which two core units and a half are worth one unit of the other asset, with one
resting order. -/
def oneMaker : Market where
  db :=
    let db := start 0 [{ referrer := 0 }, { referrer := 0 }] 1000
    { db with
      assets := db.assets.create { symbol := "USD", coreExchangeRate := ⟨⟨1, 1⟩, ⟨1, 0⟩⟩ }
      balances := db.balances.insert (1, 1) ⟨10, true⟩ }
  limitOrders := Table.empty.create
    { expiration := 100, seller := 0, forSale := 3, sellPrice := ⟨⟨⟨5, 0⟩, ⟨2, 1⟩⟩, by decide⟩ }

theorem book_oneMaker : oneMaker.Book 0 1 := by
  have hrow : ∀ i o, oneMaker.limitOrders.find i = some o → o.sellAssetId = 0 ∧ 1 ≤ o.worth := by
    intro i o ho
    rw [oneMaker, find_create] at ho
    split at ho
    · cases ho
      decide
    · cases ho
  constructor
  · intro i o ho _
    exact (hrow i o ho).2
  · intro i j o k ho hk _ hreceives hface
    have hsells := (hrow j k hk).1.symm.trans (hface.1.trans hreceives)
    exact absurd hsells (by decide)

/-- A new order that fills the resting one, and rests with what is left of it. -/
theorem limit_order_create_keeps_book_rests :
    ∃ m', oneMaker.limitOrderCreate 5 ⟨⟨0, 0⟩, 1, ⟨4, 1⟩, ⟨8, 0⟩, 100, false⟩ = some m' ∧
      m'.limitOrders.find 0 = none ∧ (m'.limitOrders.find 1).map (·.forSale) = some 3 ∧
      m'.Book 0 1 ∧ ∀ x, m'.total x = oneMaker.total x := by
  refine ⟨_, (some_get (by decide)).symm, by decide, by decide, ?_⟩
  obtain ⟨hbooks, -, htotal⟩ := limit_order_create_keeps_book (m := oneMaker) 5
    ⟨⟨0, 0⟩, 1, ⟨4, 1⟩, ⟨8, 0⟩, 100, false⟩ (some_get _).symm
  exact ⟨hbooks 0 1 book_oneMaker, htotal⟩

/-- **Both orders of a match can be filled, but only one of them exactly.** The taker pays one unit
for the two that it is worth. The maker pays these two, and the third is refunded, since it is worth
nothing. Both orders are gone; but the two units that the maker has paid are worth nothing either,
and the least amount that is worth the unit that it received is three. -/
theorem match_fills_maker_below_least : oneMaker.Book 0 1 ∧
      ∃ m', oneMaker.limitOrderCreate 5 ⟨⟨0, 0⟩, 1, ⟨1, 1⟩, ⟨2, 0⟩, 100, false⟩ = some m' ∧
        m'.limitOrders.find 0 = none ∧ m'.limitOrders.find 1 = none ∧
        m'.db.balances.amountOf 0 1 = oneMaker.db.balances.amountOf 0 1 + 1 ∧
        m'.db.balances.amountOf 0 0 = oneMaker.db.balances.amountOf 0 0 + (3 - 2) ∧
        m'.db.balances.amountOf 1 0 = oneMaker.db.balances.amountOf 1 0 + 2 ∧
        ¬IsLeast { n | 1 ≤ down 5 2 n } 2 := by
  refine ⟨book_oneMaker, _, (some_get (by decide)).symm, by decide, by decide, by decide,
    by decide, by decide, fun hleast => ?_⟩
  exact absurd hleast.1 (by decide)

end Market

end CrowdwizChain
