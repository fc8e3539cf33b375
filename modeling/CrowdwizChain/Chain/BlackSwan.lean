import CrowdwizChain.Chain.BitassetBooks

/-!
# Margin calls and black swans keep an asset backed

A global settlement closes the margin positions of an asset one by one, each of which takes
its debt off the supply; what they pay is gathered, and the supply is restored in the end.
What has to be seen is that every position is closed, that what is gathered is what the
positions lose, and that the fund is worth the supply at the settlement price, which is an
equation by the choice of that price.

Margin calls are fills, or end in a global settlement.
-/

namespace CrowdwizChain

open Exchange Option List Asset

namespace Market

variable {m m' : Market}

/-! ### Global settlement -/

/-- Positions are closed, and what they pay is gathered. -/
structure Gathers (backing x : AssetId) (ids : List Nat) (m m' : Market) (gathered : Int) :
    Prop where
  limitOrders : m'.limitOrders = m.limitOrders
  settlements : m'.settlements = m.settlements
  worth : ∀ y, m'.total y + m'.owed y + Asset.amountIn ⟨gathered, backing⟩ y = m.total y + m.owed y
  owed : ∀ y, y ≠ x → m'.owed y = m.owed y
  rows : ∀ i c, m'.callOrders.find i = some c → m.callOrders.find i = some c
  closed : ∀ i ∈ ids, m'.callOrders.find i = none
  nonneg : 0 ≤ gathered

variable {backing x : AssetId} {g g' : Int} {price : Price} {c : CallOrder} {enable : Bool}
    {steps : Nat}

theorem Gathers.trans {ids ids' : List Nat} {m'' : Market} (h : Gathers backing x ids m m' g)
    (h' : Gathers backing x ids' m' m'' g') : Gathers backing x (ids ++ ids') m m'' (g + g') where
  limitOrders := h'.limitOrders.trans h.limitOrders
  settlements := h'.settlements.trans h.settlements
  worth y := by
    rw [← h.worth y, ← h'.worth y]
    simp only [amountIn]
    split <;> omega
  owed y hy := (h'.owed y hy).trans (h.owed y hy)
  rows i c hc := h.rows i c (h'.rows i c hc)
  closed i hi := by
    rcases mem_append.1 hi with hi | hi
    · by_contra hsome
      obtain ⟨c, hc⟩ := Option.ne_none_iff_exists'.1 hsome
      have hc' := h'.rows i c hc
      rw [h.closed i hi] at hc'
      cases hc'
    · exact h'.closed i hi
  nonneg := Int.add_nonneg h.nonneg h'.nonneg

theorem settleCall_squared {st st' : Market × Int} {id : Nat}
    (h : settleCall backing price st id = some st') : st.1.Squared st'.1 := by
  obtain ⟨c, -, h⟩ := bind_eq_some_iff.1 h
  obtain ⟨value, -, h⟩ := bind_eq_some_iff.1 h
  split at h
  · obtain ⟨⟨m1, closed⟩, hfill, h⟩ := bind_eq_some_iff.1 h
    dsimp only at h
    split at h
    · cases h
      obtain ⟨-, -, hsquared⟩ := fillCallOrder_eq_some hfill
      exact hsquared
    · cases h
  · cases h

theorem settleCall_gathers {m m' : Market} {id : Nat}
    (hprice : price.base.assetId = x ∧ 0 ≤ price.quote.amount)
    (hcall : ∀ c, m.callOrders.find id = some c → c.debtType = x ∧ 0 < c.debt ∧ 0 ≤ c.collateral)
    (h : settleCall backing price (m, g) id = some (m', g')) :
    Gathers backing x [id] m m' (g' - g) := by
  obtain ⟨c, hc, h⟩ := bind_eq_some_iff.1 h
  dsimp only at hc h
  obtain ⟨hx, hdebt, hcollateral⟩ := hcall c hc
  obtain ⟨value, hvalue, h⟩ := bind_eq_some_iff.1 h
  obtain ⟨-, h⟩ := ite_none_right_eq_some.1 h
  obtain ⟨⟨m1, closed⟩, hfill, h⟩ := bind_eq_some_iff.1 h
  obtain ⟨hclosed, h⟩ := ite_none_right_eq_some.1 h
  obtain ⟨rfl, rfl⟩ := Prod.mk.inj (some.inj h)
  obtain ⟨c', hfills, -⟩ := fillCallOrder_eq_some hfill
  have hgone : m1.callOrders = m.callOrders.remove id ∧ m1.settlements = m.settlements := by
    obtain ⟨db, callPrice, rfl, -⟩ := hfills.frame
    exact ⟨if_pos hclosed, rfl⟩
  have hpays : 0 ≤ min value.amount c.collateral := by
    have hasset : c.getDebt = ⟨c.debt, price.base.assetId⟩ := by
      rw [hprice.1, ← hx]
      rfl
    rw [hasset] at hvalue
    obtain ⟨rfl, hbase, -⟩ := mulWith_base hvalue
    exact le_min (up_nonneg hbase hprice.2 hdebt.le) hcollateral
  refine ⟨hfills.limitOrders_eq, hgone.2, fun y => ?_, fun y hy => ?_, fun i k hk => ?_,
    fun i hi => ?_, by omega⟩
  · rw [hfills.total y, hfills.owed_eq y, add_sub_cancel_left]
    omega
  · have hzero : c.getDebt.amountIn y = 0 :=
      if_neg (show c.debtType ≠ y by rw [hx]; exact Ne.symm hy)
    rw [hfills.owed_eq y, hzero]
    omega
  · rw [hgone.1, Table.find_remove] at hk
    obtain ⟨-, hk⟩ := ite_none_left_eq_some.1 hk
    exact hk
  · obtain rfl := mem_singleton.1 hi
    rw [hgone.1, Table.find_remove_self]

theorem settleCalls_gathers {ids : List Nat} {m m' : Market}
    (hprice : price.base.assetId = x ∧ 0 ≤ price.quote.amount)
    (hcalls : ∀ i ∈ ids, ∀ c, m.callOrders.find i = some c → c.debtType = x ∧ 0 < c.debt ∧
    0 ≤ c.collateral) (h : ids.foldlM (settleCall backing price) (m, g) = some (m', g')) :
    Gathers backing x ids m m' (g' - g) := by
  induction ids generalizing m g with
  | nil =>
    cases h
    refine ⟨rfl, rfl, fun y => ?_, fun _ _ => rfl, fun _ _ hc => hc, by simp, by omega⟩
    rw [sub_self, amountIn_zero, add_zero]
  | cons id ids ih =>
    obtain ⟨⟨m1, g1⟩, hfirst, h⟩ := bind_eq_some_iff.1 h
    have hgathers := settleCall_gathers hprice (hcalls id mem_cons_self) hfirst
    have hrest := ih (fun i hi c hc =>
      hcalls i (mem_cons_of_mem id hi) c (hgathers.rows i c hc)) h
    have hsum : g1 - g + (g' - g1) = g' - g := by omega
    exact hsum ▸ hgathers.trans hrest

/-- The parts of a global settlement. -/
structure GloballySettles (m : Market) (x : AssetId) (price : Price) (b : BitassetData)
    (settled : Market) (gathered : Int) (db : Database) (m' : Market) : Prop where
  find : m.bitassets x = some b
  unsettled : b.hasSettlement = false
  ne : x ≠ b.options.shortBackingAsset
  fold : (((m.callsOf b.options.shortBackingAsset x).insertionSort fun a b =>
    calledBefore b a = false).map Prod.fst).foldlM (settleCall b.options.shortBackingAsset price)
      (m, 0) = some (settled, gathered)
  squared : m.Squared settled
  notes : settled.db.Notes db (Asset.amountIn ⟨m.db.supplyOf x - settled.db.supplyOf x, x⟩)
  enters : settled.db.Enters db fun _ => 0
  eq : m' = ({ settled with db := db } : Market).modifyBitasset x (fun b' => { b' with
      settlementPrice := some ⟨⟨m.db.supplyOf x, x⟩, ⟨gathered, b.options.shortBackingAsset⟩⟩
      settlementFund := gathered }) fun _ => ⟨rfl, rfl⟩

theorem globallySettleAsset_eq_some (h : m.globallySettleAsset x price = some m') :
    ∃ b settled gathered db, m.GloballySettles x price b settled gathered db m' := by
  obtain ⟨b, hb, h⟩ := bind_eq_some_iff.1 h
  split at h
  · cases h
  next hopen =>
  obtain ⟨-, -, h⟩ := bind_eq_some_iff.1 h
  obtain ⟨d, hd, h⟩ := bind_eq_some_iff.1 h
  obtain ⟨⟨settled, gathered⟩, hfold, h⟩ := bind_eq_some_iff.1 h
  dsimp only at h
  split at h
  · cases h
  next hne =>
  obtain ⟨db, hdb, rfl⟩ := map_eq_some_iff.1 h
  have hsupply := Database.supplyOf_eq hd
  have hsquared : m.Squared settled :=
    Transition.foldlM_rel (R := fun st st' : Market × Int => st.1.Squared st'.1) (fun _ => .refl _)
      (fun h h' => h.trans h') settleCall_squared hfold
  have hnotes := Database.modifyAsset_notes (n := d.currentSupply - settled.db.supplyOf x) hdb
    (fun o ho => by
      rw [Database.supplyOf_eq ho]
      exact (add_sub_cancel _ _).symm) fun _ => le_refl _
  have henters := Database.modifySupply_enters hdb (fun _ => rfl) fun _ => rfl
  refine ⟨b, settled, gathered, db, hb, by simpa using hopen, hne, hfold, hsquared, ?_, henters, ?_⟩
  · rw [hsupply]
    exact hnotes
  · rw [hsupply]

section GlobalSettlement

variable {x : AssetId} {price : Price} {b : BitassetData} {settled : Market} {gathered : Int}
  {db : Database}

variable (h : m.GloballySettles x price b settled gathered db m')

include h

theorem GloballySettles.touches : m.db.Touches m'.db := by
  rw [h.eq]
  exact h.squared.touches.trans h.notes.touches

variable (hm : m.Sound) (hprice : price.base.assetId = x ∧ 0 ≤ price.quote.amount)

include hm hprice

theorem GloballySettles.gathers :
    Gathers b.options.shortBackingAsset x (((m.callsOf b.options.shortBackingAsset x).insertionSort
      fun a b => calledBefore b a = false).map Prod.fst) m settled gathered := by
  have hgathers := settleCalls_gathers hprice (fun i hi c hc => ?_) h.fold
  · rwa [sub_zero] at hgathers
  · obtain ⟨⟨j, c'⟩, he, rfl⟩ := List.mem_map.1 hi
    obtain ⟨hfind, hassets⟩ := mem_filter.1 ((mem_insertionSort _).1 he)
    rw [Table.mem_inOrder, hc] at hfind
    obtain rfl := some.inj hfind
    exact ⟨(of_decide_eq_true hassets).2, hm.amounts.calls j c hc⟩

theorem GloballySettles.debtType_ne {i : Nat} {c : CallOrder}
    (hc : settled.callOrders.find i = some c) : c.debtType ≠ x := by
  intro hx
  have hgathers := h.gathers hm hprice
  have hc0 := hgathers.rows i c hc
  obtain ⟨b', hb', hcollateral, -⟩ := hm.calls i c hc0
  rw [hx, h.find] at hb'
  cases hb'
  have hmem : i ∈ ((m.callsOf b.options.shortBackingAsset x).insertionSort
      fun a b => calledBefore b a = false).map Prod.fst := by
    refine List.mem_map.2 ⟨(i, c), (mem_insertionSort _).2 (mem_filter.2 ⟨?_, ?_⟩), rfl⟩
    · exact Table.mem_inOrder.2 hc0
    · exact decide_eq_true ⟨hcollateral, hx⟩
  rw [hgathers.closed i hmem] at hc
  cases hc

theorem GloballySettles.supplyOf_eq (y : AssetId) : m'.db.supplyOf y = m.db.supplyOf y := by
  have hnotes := h.notes.supply y
  have hdb : m'.db = db := by rw [h.eq]; rfl
  rw [hdb, hnotes, amountIn]
  by_cases hy : x = y
  · subst hy
    rw [if_pos rfl]
    exact add_sub_cancel _ _
  · have hgap := h.squared.supply y
    have howed := (h.gathers hm hprice).owed y (Ne.symm hy)
    rw [supplyGap, supplyGap, howed] at hgap
    rw [if_neg hy]
    omega

theorem GloballySettles.replaces : Replaces x b { b with
      settlementPrice := some ⟨⟨m.db.supplyOf x, x⟩, ⟨gathered, b.options.shortBackingAsset⟩⟩
      settlementFund := gathered } m m' := by
  refine replaces_modifyBitasset h.eq h.find h.squared.bitassets
    (h.notes.nextId.trans h.squared.nextId)
    fun {y} _ => ?_
  have hsupply := h.supplyOf_eq hm hprice y
  rwa [h.eq] at hsupply

theorem GloballySettles.sound (hsupply : 0 < m.db.supplyOf x) : m'.Sound := by
  have hgathers := h.gathers hm hprice
  have hlimits : m'.limitOrders = m.limitOrders := by rw [h.eq]; exact hgathers.limitOrders
  have hsettlements : m'.settlements = m.settlements := by rw [h.eq]; exact hgathers.settlements
  have hcalls : m'.callOrders = settled.callOrders := by rw [h.eq]; rfl
  have hbids : m'.collateralBids = m.collateralBids := by rw [h.eq]; exact h.squared.bids
  have hrows : ∀ i c, m'.callOrders.find i = some c → m.callOrders.find i = some c := fun i c hc =>
    hgathers.rows i c (hcalls ▸ hc)
  refine (h.replaces hm hprice).sound hm ⟨hlimits ▸ hm.amounts.limits, fun i c hc => ?_,
    hsettlements ▸ hm.amounts.settlements⟩ (fun hy => ?_) (fun i c hc => .inl ⟨hrows i c hc, ?_⟩)
    (fun i bid hbid => ⟨hbids ▸ hbid, fun _ hsettled => ?_⟩)
    (fun hopen => by cases hopen) fun p hp => ?_
  · exact hm.amounts.calls i c (hrows i c hc)
  · rw [owed, hcalls]
    exact hgathers.owed _ hy
  · exact h.debtType_ne hm hprice (hcalls ▸ hc)
  · cases h.unsettled.symm.trans hsettled
  · cases hp
    rw [h.supplyOf_eq hm hprice]
    exact ⟨rfl, rfl, h.ne, hsupply, hgathers.nonneg, hsupply.le, (mul_comm _ _).le,
      fun hzero => absurd hzero (by omega)⟩

theorem GloballySettles.excess_eq (y : AssetId) : m'.excess y = m.excess y := by
  have hgathers := h.gathers hm hprice
  have hworth := hgathers.worth y
  have hfund : b.fundIn y = 0 := by
    rw [BitassetData.fundIn, (hm.backed x b h.find h.unsettled).2, ite_self]
  have hbitassets : ({ settled with db := db } : Market).bitassets x = some b := by
    rw [h.squared.bitassets, h.find]
  have hnext : db.assets.nextId = m.db.assets.nextId := h.notes.nextId.trans h.squared.nextId
  have hfunds : m'.funds y = m.funds y + amountIn ⟨gathered, b.options.shortBackingAsset⟩ y := by
    rw [h.eq, funds_modifyBitasset hbitassets
      (show x < db.assets.nextId from hnext ▸ hm.known x b h.find), hfund, sub_zero]
    show ∑ z ∈ Finset.range db.assets.nextId, (settled.bitassets z).elim 0 (·.fundIn y) + _ = _
    rw [hnext, h.squared.bitassets]
    rfl
  have hbidden : m'.bidden y = m.bidden y := by
    rw [bidden, bidden, h.eq]
    show settled.collateralBids.sumBy _ = _
    rw [h.squared.bids]
  have htotal : m'.total y = settled.total y := by
    rw [h.eq]
    show ({ settled with db := db } : Market).total y = _
    rw [total_db h.enters, add_zero]
  have howed : m'.owed y = settled.owed y := by rw [h.eq]; rfl
  rw [excess, excess, held_eq, held_eq, h.supplyOf_eq hm hprice, hfunds, hbidden, htotal, howed]
  omega

end GlobalSettlement

/-- **A global settlement** is a step of the market, if there is any supply. -/
theorem globallySettleAsset_carries (h : m.globallySettleAsset x price = some m')
    (hok : m.Sound → (price.base.assetId = x ∧ 0 ≤ price.quote.amount) ∧ 0 < m.db.supplyOf x) :
    m.Carries m' := by
  obtain ⟨b, settled, gathered, db, hsettles⟩ := globallySettleAsset_eq_some h
  exact ⟨fun _ => hsettles.touches, fun hm => hsettles.sound hm (hok hm).1 (hok hm).2,
    fun hm => hsettles.excess_eq hm (hok hm).1,
      fun hm => (hsettles.replaces hm (hok hm).1).keepsAssets⟩

/-! ### Margin calls -/

theorem Sound.supply_pos (hm : m.Sound) {i : Nat} (hc : m.callOrders.find i = some c) :
    0 < m.db.supplyOf c.debtType := by
  obtain ⟨b, hb, -, hopen⟩ := hm.calls i c hc
  have hpos := (hm.amounts.calls i c hc).1
  have hle := hm.amounts.debt_le_owed hc
  rw [(hm.backed _ b hb hopen).1]
  omega

theorem firstCall_eq_some {e : Nat × CallOrder} (h : m.firstCall backing x = some e) :
    m.callOrders.find e.1 = some e.2 ∧ e.2.collateralType = backing ∧ e.2.debtType = x := by
  obtain ⟨hmem, hassets⟩ := mem_filter.1 (Table.mem_of_firstBy h)
  exact ⟨Table.mem_inOrder.1 hmem, of_decide_eq_true hassets⟩

/-- The check settles the asset globally, or leaves everything alone. -/
theorem checkForBlackswan_carries {settled : Bool}
    (h : m.checkForBlackswan x enable = some (m', settled)) : m.Carries m' := by
  rw [checkForBlackswan] at h
  split at h
  · cases h
    exact .refl m
  · next b hb =>
    split at h
    · cases h
      exact .refl m
    · split at h
      · next feed e hfeed he =>
        obtain ⟨hc, -, hdebt⟩ := firstCall_eq_some he
        dsimp only at h
        split at h
        · cases h
          exact .refl m
        · split at h
          · obtain ⟨m1, hsettle, h⟩ := map_eq_some_iff.1 h
            cases h
            refine globallySettleAsset_carries hsettle fun hm => ⟨?_, hdebt ▸ hm.supply_pos hc⟩
            split
            · -- the price at which the first position just covers its debt
              exact ⟨hdebt, (hm.amounts.calls _ _ hc).2⟩
            · exact ⟨(m.feed_fits x b feed hb hfeed).1, feed.2.2.1.le⟩
          · cases h
      · cases h
        exact .refl m

theorem callTrade_spec {o : LimitOrder} {feed : ValidPrice} {ratio : Nat}
    {callReceives orderReceives : Asset} (hdebt : 0 ≤ c.debt) (hsale : 0 ≤ o.forSale)
    (h : callTrade steps c o feed ratio = some (callReceives, orderReceives)) :
    callReceives.amount ≤ c.debt ∧ callReceives.amount ≤ o.forSale ∧ 0 ≤ orderReceives.amount := by
  obtain ⟨usdToBuy, husd, h⟩ := bind_eq_some_iff.1 h
  obtain ⟨hnonneg, hle⟩ := CallOrder.getMaxDebtToCover_mem o.sellPrice.2 hdebt husd
  obtain ⟨hbase, hquote, hne⟩ := o.sellPrice.2
  split at h
  · next hless =>
    obtain ⟨received, hreceived, h⟩ := bind_eq_some_iff.1 h
    obtain ⟨covered, hcovered, h⟩ := map_eq_some_iff.1 h
    cases h
    obtain ⟨rfl, -⟩ := mulWith_base hreceived
    obtain ⟨rfl, -⟩ := mulWith_quote hne hcovered
    have hround : up o.sellPrice.1.quote.amount o.sellPrice.1.base.amount
        (down o.sellPrice.1.base.amount o.sellPrice.1.quote.amount o.forSale) ≤ o.forSale :=
      up_down_le hbase hquote
    dsimp only
    exact ⟨by omega, hround, down_nonneg hbase hquote.le hsale⟩
  · next hless =>
    obtain ⟨received, hreceived, h⟩ := map_eq_some_iff.1 h
    cases h
    exact ⟨hle, by dsimp only; omega,
      CallOrder.mulWith_nonneg (fun hb hq hk => up_nonneg hb hq hk) o.sellPrice.2 hnonneg hreceived⟩

theorem callFills_carries {call limit : Nat} {o : LimitOrder} {m1 : Market}
    {callReceives orderReceives : Asset} {closed gone : Bool} (hc : m.callOrders.find call = some c)
    (ho : m.limitOrders.find limit = some o)
    (hspec : m.Amounts → callReceives.amount ≤ c.debt ∧ callReceives.amount ≤ o.forSale ∧
      0 ≤ orderReceives.amount)
    (hcall : m.fillCallOrder call orderReceives callReceives = some (m1, closed))
    (hlimit : m1.fillLimitOrder limit callReceives orderReceives true = some (m', gone)) :
    m.Carries m' := by
  obtain ⟨c', hfillsCall, hsquared⟩ := fillCallOrder_eq_some hcall
  obtain ⟨o', hfillsLimit, hsquared'⟩ := fillLimitOrder_eq_some hlimit
  have hc' := hfillsCall.find
  have ho' := hfillsLimit.find
  rw [hc] at hc'
  rw [hfillsCall.limitOrders_eq, ho] at ho'
  cases hc'
  cases ho'
  refine (hsquared.trans hsquared').carries (fun hm => ?_) fun hm y => ?_
  · exact hfillsLimit.amounts (hspec hm).2.1 (hfillsCall.amounts (hspec hm).1 hm)
  · rw [hfillsLimit.total (hspec hm).2.2, hfillsCall.total]
    omega

/-- The loop of margin calls, by induction over its rounds. -/
theorem callLoop_carries {b : BitassetData} {feed : ValidPrice} (hfeed : feed.1.base.assetId = x)
    {called result : Bool} {limits : List Nat}
    (h : callLoop x b feed enable steps limits called m = some (m', result)) : m.Carries m' := by
  induction steps generalizing m limits called with
  | zero => cases h
  | succ steps ih =>
    obtain ⟨⟨m1, settled⟩, hswan, h⟩ := bind_eq_some_iff.1 h
    refine (checkForBlackswan_carries hswan).trans ?_
    dsimp only at h
    split at h
    · cases h
      exact .refl _
    rcases hfirst : m1.firstCall b.options.shortBackingAsset x with - | ⟨call, c⟩
    · rw [hfirst] at h
      cases h
      exact .refl _
    rw [hfirst] at h
    obtain ⟨hc, -, hdebt⟩ := firstCall_eq_some hfirst
    cases limits with
    | nil =>
      cases h
      exact .refl _
    | cons limit rest =>
      dsimp only at h
      split at h
      · cases h
        exact .refl _
      obtain ⟨o, ho, h⟩ := bind_eq_some_iff.1 h
      obtain ⟨value, -, h⟩ := bind_eq_some_iff.1 h
      split at h
      · cases h
      split at h
      · split at h
        · obtain ⟨m2, hsettle, h⟩ := map_eq_some_iff.1 h
          cases h
          exact globallySettleAsset_carries hsettle fun hm =>
            ⟨⟨hfeed, feed.2.2.1.le⟩, hdebt ▸ hm.supply_pos hc⟩
        · cases h
      obtain ⟨⟨callReceives, orderReceives⟩, htrade, h⟩ := bind_eq_some_iff.1 h
      obtain ⟨⟨m2, closed⟩, hcall, h⟩ := bind_eq_some_iff.1 h
      obtain ⟨⟨m3, gone⟩, hlimit, h⟩ := bind_eq_some_iff.1 h
      refine (callFills_carries hc ho (fun hm => ?_) hcall hlimit).trans (ih h)
      exact callTrade_spec (hm.calls call c hc).1.le (hm.limits limit o ho) htrade

/-- **Margin calls** are steps of the market, also if they end in a global settlement. -/
theorem checkCallOrders_carries {called : Bool}
    (h : m.checkCallOrders steps x enable = some (m', called)) : m.Carries m' := by
  rw [checkCallOrders] at h
  split at h
  · cases h
    exact .refl m
  · next b hb =>
    obtain ⟨⟨m1, settled⟩, hswan, h⟩ := bind_eq_some_iff.1 h
    refine (checkForBlackswan_carries hswan).trans ?_
    dsimp only at h
    split at h
    · cases h
      exact .refl _
    split at h
    · cases h
      exact .refl _
    · next feed hfeed =>
      split at h
      · cases h
        exact .refl _
      · exact callLoop_carries (m.feed_fits x b feed hb hfeed).1 h

end Market

end CrowdwizChain
