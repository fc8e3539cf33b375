import CrowdwizChain.Chain.BlackSwan

/-!
# Bids, and the revival of a globally settled asset

A revival turns the supply of a globally settled asset into the debt of new margin
positions, and the settlement fund into their collateral. `Market.Revives` is how far it has
come: what of the supply has been covered, and what of the fund has been spent. When all of
both is, the asset is backed again.

`process_bids` goes twice over the bids. The first loop finds the bids that cover the supply, each
at its full amount; the second one executes them and gives what is left of the debt and of the fund
to the last. The fund is enough for that, since what a bid gets of it is rounded down.
-/

namespace CrowdwizChain

open Exchange Option List Asset Database Table

namespace Market

variable {m m' m'' : Market}

/-! ### Bids -/

variable {covered debt fromFund supply : Int} {id ratio : Nat} {x : AssetId} {bid : CollateralBid}
  {p : Price}

theorem carries_bids {db : Database} {t : Table CollateralBid} {δ : AssetId → Int}
    (hsilent : m.db.Silent db) (henters : m.db.Enters db δ)
    (hsum : ∀ y, t.sumBy (fun _ b => b.invSwanPrice.base.amountIn y) = m.bidden y - δ y)
    (hrows : m.Sound → ∀ i bid, t.find i = some bid → 0 ≤ bid.invSwanPrice.base.amount ∧
      0 < bid.invSwanPrice.quote.amount ∧ ∃ b, m.bitassets bid.debtType = some b ∧
        bid.invSwanPrice.base.assetId = b.options.shortBackingAsset ∧ b.hasSettlement = true) :
    m.Carries { m with db := db, collateralBids := t } where
  touches _ := hsilent.touches
  sound hm := by
    have hamounts := hm.amounts
    have hbooks :=
      (squared_db hsilent).sound ⟨hamounts.limits, hamounts.calls, hamounts.settlements⟩ hm
    exact ⟨⟨hamounts.limits, hamounts.calls, hamounts.settlements⟩, hm.calls, hrows hm,
      hbooks.known, hbooks.backed, hbooks.settled⟩
  excess hm y := by
    have hentered := excess_db hsilent henters y
    have hbids := hsum y
    rw [excess_eq] at hentered ⊢
    change _ + m.bidden y + _ - _ = _ at hentered
    show total { m with db := db } y + _ + funds { m with db := db } y -
      supplyGap { m with db := db } y = _
    rw [bidden, hbids]
    omega
  assets hm := ⟨hsilent.nextId.ge, fun _ _ hy => hy, ((squared_db hsilent).keepsAssets hm).supply⟩

theorem cancelBid_eq_some (h : m.cancelBid id = some m') :
    ∃ bid db, m.collateralBids.find id = some bid ∧
      m.db.adjustBalance bid.bidder bid.invSwanPrice.base = some db ∧
      m' = { m with db := db, collateralBids := m.collateralBids.remove id } := by
  obtain ⟨bid, hbid, h⟩ := bind_eq_some_iff.1 h
  obtain ⟨db, hdb, rfl⟩ := map_eq_some_iff.1 h
  exact ⟨bid, db, hbid, hdb, rfl⟩

theorem cancelBid_carries (h : m.cancelBid id = some m') : m.Carries m' := by
  obtain ⟨bid, db, hbid, hdb, rfl⟩ := cancelBid_eq_some h
  refine carries_bids (adjustBalance_silent hdb) (adjustBalance_enters hdb)
    (fun y => sumBy_remove _ hbid) fun hm i bid' hbid' => ?_
  exact hm.bids i bid' (find_of_remove hbid')

/-! ### Progress of a revival -/

/-- New positions of an asset: what of its supply they cover, and what of its fund is
spent on them. -/
structure Revives (x backing : AssetId) (m m' : Market) (covered spent : Int) : Prop where
  touches : m.db.Touches m'.db
  nextId : m'.db.assets.nextId = m.db.assets.nextId
  supply : ∀ y, m'.db.supplyOf y = m.db.supplyOf y
  limitOrders : m'.limitOrders = m.limitOrders
  settlements : m'.settlements = m.settlements
  bitassets : m'.bitassets = m.bitassets
  calls : ∀ i c, m'.callOrders.find i = some c → m.callOrders.find i = some c ∨
    c.debtType = x ∧ c.collateralType = backing ∧ 0 < c.debt ∧ 0 ≤ c.collateral
  bids : ∀ i bid, m'.collateralBids.find i = some bid → m.collateralBids.find i = some bid
  owed : ∀ y, m'.owed y = m.owed y + Asset.amountIn ⟨covered, x⟩ y
  worth : ∀ y, m'.total y + m'.owed y + m'.bidden y =
    m.total y + m.owed y + m.bidden y + Asset.amountIn ⟨spent, backing⟩ y

theorem Revives.refl (x backing : AssetId) (m : Market) : Revives x backing m m 0 0 where
  touches := .refl m.db
  nextId := rfl
  supply _ := rfl
  limitOrders := rfl
  settlements := rfl
  bitassets := rfl
  calls _ _ hc := .inl hc
  bids _ _ hbid := hbid
  owed y := by rw [amountIn_zero, add_zero]
  worth y := by rw [amountIn_zero, add_zero]

variable {backing : AssetId}

theorem Revives.trans {covered' spent spent' : Int}
    (h : Revives x backing m m' covered spent) (h' : Revives x backing m' m'' covered' spent') :
    Revives x backing m m'' (covered + covered') (spent + spent') where
  touches := h.touches.trans h'.touches
  nextId := h'.nextId.trans h.nextId
  supply y := (h'.supply y).trans (h.supply y)
  limitOrders := h'.limitOrders.trans h.limitOrders
  settlements := h'.settlements.trans h.settlements
  bitassets := h'.bitassets.trans h.bitassets
  calls i c hc := by
    rcases h'.calls i c hc with hold | hnew
    · exact h.calls i c hold
    · exact .inr hnew
  bids i bid hbid := h.bids i bid (h'.bids i bid hbid)
  owed y := by
    rw [h'.owed, h.owed]
    simp only [amountIn]
    split <;> omega
  worth y := by
    rw [h'.worth, h.worth]
    simp only [amountIn]
    split <;> omega

theorem cancelBid_revives (x backing : AssetId) (h : m.cancelBid id = some m') :
    Revives x backing m m' 0 0 := by
  obtain ⟨bid, db, hbid, hdb, rfl⟩ := cancelBid_eq_some h
  have hsilent := adjustBalance_silent hdb
  refine ⟨hsilent.touches, hsilent.nextId, fun y => (hsilent.supply y).trans (add_zero _), rfl, rfl,
    rfl, fun i c hc => .inl hc,
    fun i bid' hbid' => ?_, fun y => ?_, fun y => ?_⟩
  · exact find_of_remove hbid'
  · rw [amountIn_zero, add_zero]
    rfl
  · have hbidden : (m.collateralBids.remove id).sumBy (fun _ b => b.invSwanPrice.base.amountIn y) =
        m.bidden y - bid.invSwanPrice.base.amountIn y := sumBy_remove _ hbid
    have htotal : Market.total { m with db := db, collateralBids := m.collateralBids.remove id } y =
        m.total y + bid.invSwanPrice.base.amountIn y := total_db (adjustBalance_enters hdb) y
    rw [amountIn_zero, htotal]
    show _ + m.owed y + (m.collateralBids.remove id).sumBy _ = _
    omega

/-! ### New positions -/

section

variable (h : m.openBid bid debt fromFund ratio = some m')

include h

theorem openBid_eq_some : ∃ db callPrice, m' = { m with
        db := db
        callOrders := m.callOrders.create
          { borrower := bid.bidder
            collateral := bid.invSwanPrice.base.amount + fromFund
            debt := debt
            callPrice := callPrice } } ∧
      callPrice.base.assetId = bid.invSwanPrice.base.assetId ∧
      callPrice.quote.assetId = bid.debtType ∧
      m.db.Silent db ∧ m.db.Enters db fun _ => 0 := by
  obtain ⟨callPrice, hprice, h⟩ := bind_eq_some_iff.1 h
  obtain ⟨hbase, hquote⟩ := Price.callPrice_assetId hprice
  split at h
  · cases h
  obtain ⟨db, hdb, rfl⟩ := map_eq_some_iff.1 h
  refine ⟨db, callPrice, rfl, hbase, hquote, ?_, outOfOrders_enters hdb⟩
  exact optionalStatistics_silent hdb

theorem openBid_revives (hdebt : 0 < debt)
    (hcollateral : 0 ≤ bid.invSwanPrice.base.amount + fromFund) :
    Revives bid.debtType bid.invSwanPrice.base.assetId m m' debt
      (bid.invSwanPrice.base.amount + fromFund) := by
  obtain ⟨db, callPrice, rfl, hbase, hquote, hsilent, henters⟩ := openBid_eq_some h
  have howed : ∀ y, Market.owed { m with
      db := db
      callOrders := m.callOrders.create
        { borrower := bid.bidder
          collateral := bid.invSwanPrice.base.amount + fromFund
          debt := debt
          callPrice := callPrice } } y = m.owed y + amountIn ⟨debt, bid.debtType⟩ y := by
    intro y
    rw [← hquote]
    exact sumBy_create _ _
  refine ⟨hsilent.touches, hsilent.nextId, fun y => (hsilent.supply y).trans (add_zero _),
    rfl, rfl, rfl,
    fun i c hc => ?_, fun _ _ hbid => hbid, howed, fun y => ?_⟩
  · rcases find_create_cases hc with ⟨-, rfl⟩ | hc
    · exact .inr ⟨hquote, hbase, hdebt, hcollateral⟩
    · exact .inl hc
  · have hholds : CallOrder.holds
        { borrower := bid.bidder
          collateral := bid.invSwanPrice.base.amount + fromFund
          debt := debt
          callPrice := callPrice } y =
        amountIn ⟨bid.invSwanPrice.base.amount + fromFund, bid.invSwanPrice.base.assetId⟩ y -
          amountIn ⟨debt, bid.debtType⟩ y := by
      rw [← hbase, ← hquote]
      rfl
    rw [howed, total_orders henters, sumBy_create, hholds]
    show _ + m.bidden y = _
    omega

end

theorem executeBid_revives (hbid : m.collateralBids.find id = some bid)
    (h : m.executeBid id debt fromFund ratio = some m') (hdebt : 0 < debt)
    (hcollateral : 0 ≤ bid.invSwanPrice.base.amount + fromFund) :
    Revives bid.debtType bid.invSwanPrice.base.assetId m m' debt fromFund := by
  obtain ⟨bid', hbid', h⟩ := bind_eq_some_iff.1 h
  cases hbid.symm.trans hbid'
  obtain ⟨m1, hopen, rfl⟩ := map_eq_some_iff.1 h
  have hrevives := openBid_revives hopen hdebt hcollateral
  have hsame : m1.collateralBids = m.collateralBids := by
    obtain ⟨db, callPrice, rfl, -⟩ := openBid_eq_some hopen
    rfl
  refine { hrevives with bids := fun i bid' hbid' => ?_, worth := fun y => ?_ }
  · exact hrevives.bids i bid' (find_of_remove hbid')
  · have hworth := hrevives.worth y
    have hbidden : (m1.collateralBids.remove id).sumBy (fun _ b => b.invSwanPrice.base.amountIn y) =
        m1.bidden y - bid.invSwanPrice.base.amountIn y :=
      sumBy_remove _ (by rw [hsame]; exact hbid)
    show m1.total y + m1.owed y + (m1.collateralBids.remove id).sumBy _ = _
    rw [hbidden]
    simp only [amountIn] at hworth ⊢
    by_cases hy : bid.invSwanPrice.base.assetId = y
    · simp only [if_pos hy] at hworth ⊢
      omega
    · simp only [if_neg hy] at hworth ⊢
      omega

/-! ### The end of a revival -/

theorem cancelBids_removeAll {ids : List Nat} (h : ids.foldlM cancelBid m = some m') :
    m'.collateralBids = m.collateralBids.removeAll ids := by
  induction ids generalizing m with
  | nil =>
    cases h
    rfl
  | cons id ids ih =>
    obtain ⟨m1, h1, h⟩ := bind_eq_some_iff.1 h
    obtain ⟨bid, db, -, -, rfl⟩ := cancelBid_eq_some h1
    exact ih h

variable {b : BitassetData}

/-- **A revival is complete** when all of the supply is covered and all of the fund is spent. -/
theorem Revives.complete (hm : m.Sound) (hb : m.bitassets x = some b)
    (hp : b.settlementPrice = some p)
    (h : Revives x b.options.shortBackingAsset m m' (m.db.supplyOf x) b.settlementFund)
    (hcancel : m'.cancelBidsAndReviveMpa x = some m'') :
    m.Carries m'' := by
  have hsettled := BitassetData.hasSettlement_eq hp
  obtain ⟨b', hb', hcancel⟩ := bind_eq_some_iff.1 hcancel
  split at hcancel
  swap
  · cases hcancel
  obtain ⟨m1, hfold, heq⟩ := map_eq_some_iff.1 hcancel
  have hcancelled :=
    Transition.foldlM_rel (R := fun m m' => Revives x b.options.shortBackingAsset m m' 0 0)
    (Revives.refl _ _) (fun h h' => h.trans h') (cancelBid_revives _ _) hfold
  have hall := h.trans hcancelled
  rw [add_zero, add_zero] at hall
  have hnone := hm.no_call hb hsettled
  -- no bid on the asset is left
  have hbids : ∀ i bid, m1.collateralBids.find i = some bid → bid.debtType ≠ x := by
    rintro i bid hbid rfl
    have hold := hcancelled.bids i bid hbid
    have hmem : i ∈ (m'.bidsOn bid.debtType).map Prod.fst := by
      refine List.mem_map.2 ⟨(i, bid), (mem_insertionSort _).2 (mem_filter.2 ⟨?_, ?_⟩), rfl⟩
      · exact mem_inOrder.2 hold
      · exact decide_eq_true rfl
    rw [cancelBids_removeAll hfold, find_removeAll, if_pos hmem] at hbid
    cases hbid
  have hb1 : m1.bitassets x = some b := by rw [hall.bitassets, hb]
  have hreplaces := replaces_modifyBitasset heq.symm hb hall.bitassets hall.nextId fun {y} _ =>
    hall.supply y
  subst heq
  refine ⟨fun _ => hall.touches,
    fun _ => hreplaces.sound hm ⟨hall.limitOrders ▸ hm.amounts.limits, fun i c hc => ?_,
    hall.settlements ▸ hm.amounts.settlements⟩ (fun {y} hy => ?_) (fun i c hc => ?_)
    (fun i bid hbid => ?_)
    (fun _ => ⟨?_, rfl⟩) (by simp), fun _ y => ?_, fun _ => hreplaces.keepsAssets⟩
  · rcases hall.calls i c hc with hold | ⟨-, -, hnew⟩
    · exact hm.amounts.calls i c hold
    · exact hnew
  · show m1.owed y = _
    rw [hall.owed, amountIn, if_neg (Ne.symm hy), add_zero]
  · rcases hall.calls i c hc with hold | ⟨hdebt, hcollateral, -⟩
    · exact .inl ⟨hold, hnone i c hold⟩
    · exact .inr ⟨hdebt, hcollateral, rfl⟩
  · exact ⟨hall.bids i bid hbid, fun heq => absurd heq (hbids i bid hbid)⟩
  · show m1.db.supplyOf x = m1.owed x
    rw [hall.supply, hall.owed, owed_eq_zero hnone, zero_add, amountIn, if_pos rfl]
  · have hfunds : m1.funds y = m.funds y := funds_congr hall.nextId hall.bitassets
    have hfund : b.fundIn y = amountIn ⟨b.settlementFund, b.options.shortBackingAsset⟩ y := rfl
    have hzero :
        BitassetData.fundIn { b with settlementPrice := none, settlementFund := 0 } y = 0 :=
      ite_self _
    have hworth := hall.worth y
    rw [excess, excess, held_eq, held_eq, funds_modifyBitasset hb1
      (hall.nextId.symm ▸ hm.known x b hb), hfunds, hfund, hzero]
    show m1.total y + m1.owed y + m1.bidden y + _ - m1.db.supplyOf y = _
    rw [hall.supply]
    omega

/-- **The issuer takes over** what is left of a globally settled asset. -/
theorem reviveBitasset_carries (h : m.reviveBitasset x = some m') : m.Carries m' := by
  obtain ⟨b, hb, h⟩ := bind_eq_some_iff.1 h
  obtain ⟨d, hd, h⟩ := bind_eq_some_iff.1 h
  have hsupply := supplyOf_eq hd
  split at h
  swap
  · cases h
  next hcheck =>
  obtain ⟨p, hp⟩ := isSome_iff_exists.1 hcheck.1
  obtain ⟨m1, htake, hrevive⟩ := bind_eq_some_iff.1 h
  refine .of_sound fun hm => ?_
  split at htake
  · next hpos =>
    split at htake
    · cases htake
    have hfund := (hm.settled x b p hb hp).fund_nonneg
    have hopened := openBid_revives htake hpos (by dsimp only; omega)
    rw [zero_add, ← hsupply] at hopened
    exact hopened.complete hm hb hp hrevive
  · next hnone =>
    split at htake
    swap
    · cases htake
    next hempty =>
    cases htake
    have hnonneg := (hm.settled x b p hb hp).supply_nonneg
    have hzero : m.db.supplyOf x = 0 := by omega
    refine Revives.complete hm hb hp ?_ hrevive
    rw [hzero, hempty]
    exact .refl _ _ m

/-! ### The bids of `process_bids` -/

variable {e : Nat × CollateralBid} {st st' : Market × Int × Int}

variable {feed : ValidPrice}

theorem coveringBids_of_le (h : supply ≤ covered) (l : List (Nat × CollateralBid)) :
    coveringBids x p feed ratio supply covered l = some (some []) := by
  cases l <;> rw [coveringBids, if_pos h]

theorem Sound.mem_bidsOn (hm : m.Sound) (hb : m.bitassets x = some b) (he : e ∈ m.bidsOn x) :
    m.collateralBids.find e.1 = some e.2 ∧ e.2.debtType = x ∧
      e.2.invSwanPrice.base.assetId = b.options.shortBackingAsset ∧
      0 ≤ e.2.invSwanPrice.base.amount ∧ 0 < e.2.invSwanPrice.quote.amount := by
  obtain ⟨hin, hasset⟩ := mem_filter.1 ((mem_insertionSort _).1 he)
  have hfind := mem_inOrder.1 hin
  have hasset : e.2.debtType = x := of_decide_eq_true hasset
  obtain ⟨hbase, hquote, b', hb', hbacking, -⟩ := hm.bids e.1 e.2 hfind
  rw [hasset, hb] at hb'
  cases hb'
  exact ⟨hfind, hasset, hbacking, hbase, hquote⟩

variable {l bids : List (Nat × CollateralBid)}

/-- **A bid that the first loop has chosen** takes over some debt, and not less than nothing of the
fund. What is still to be covered is what the first loop has not counted yet, what is left of the
fund is worth it, and nothing is left of it at the end. -/
theorem executeCovering_eq_some (hbase : p.base.assetId = x ∧ 0 < p.base.amount)
    (hquote : 0 ≤ p.quote.amount) (hl : ∀ e ∈ l, 0 < e.2.invSwanPrice.quote.amount)
    (hle : st.2.1 ≤ supply) (hworth : st.2.1 * p.quote.amount ≤ st.2.2 * p.base.amount)
    (hcovering : coveringBids x p feed ratio supply (supply - st.2.1) l = some (some (e :: bids)))
    (h : executeCovering x p ratio supply st e = some st') :
    ∃ l' debt fromFund, l = e :: l' ∧ st.1.executeBid e.1 debt fromFund ratio = some st'.1 ∧
      st'.2 = (st.2.1 - debt, st.2.2 - fromFund) ∧ 0 < debt ∧ 0 ≤ fromFund ∧
      st'.2.1 * p.quote.amount ≤ st'.2.2 * p.base.amount ∧ (0 < st'.2.1 ∨ st'.2 = (0, 0)) ∧
      coveringBids x p feed ratio supply (supply - st'.2.1) l' = some (some bids) := by
  obtain ⟨m, toCover, remaining⟩ := st
  cases l with
  | nil =>
    rw [coveringBids] at hcovering
    split at hcovering <;> cases hcovering
  | cons e' l =>
    rw [coveringBids] at hcovering
    split at hcovering
    · cases hcovering
    next hmore =>
    obtain ⟨fromFund, hfromFund, hcovering⟩ := bind_eq_some_iff.1 hcovering
    split at hcovering
    · cases hcovering
    obtain ⟨callPrice, -, hcovering⟩ := bind_eq_some_iff.1 hcovering
    split at hcovering
    · cases hcovering
    obtain ⟨found, hfound, hcovering⟩ := map_eq_some_iff.1 hcovering
    obtain ⟨bids', rfl, hbids⟩ := map_eq_some_iff.1 hcovering
    cases hbids
    obtain ⟨fromFund', hfromFund', hexecute⟩ := bind_eq_some_iff.1 h
    cases hfromFund.symm.trans hfromFund'
    obtain ⟨m1, hbid, rfl⟩ := map_eq_some_iff.1 hexecute
    dsimp only at hbid hfound hmore hle hworth ⊢
    have hdebt : 0 < CollateralBid.debtIn e.2 supply := lt_min (hl e mem_cons_self) (by omega)
    by_cases hlast : toCover ≤ CollateralBid.debtIn e.2 supply
    · -- the last bid takes what is left, and there is no other
      simp only [if_pos hlast] at hbid ⊢
      have hremaining : 0 ≤ remaining := by
        have hnonneg := (Int.mul_nonneg (show 0 ≤ toCover by omega) hquote).trans hworth
        exact nonneg_of_mul_nonneg_left hnonneg hbase.2
      rw [coveringBids_of_le (by omega)] at hfound
      cases hfound
      refine ⟨l, toCover, remaining, rfl, hbid, rfl, by omega, hremaining, ?_, .inr ?_,
        coveringBids_of_le (by omega) l⟩
      · rw [sub_self, sub_self, zero_mul, zero_mul]
      · rw [sub_self, sub_self]
    · simp only [if_neg hlast] at hbid ⊢
      rw [← hbase.1] at hfromFund
      obtain ⟨rfl, -⟩ := mulWith_base hfromFund
      have hround := (le_down_iff (q := p.quote.amount) hbase.2).1
        (le_refl (down p.base.amount p.quote.amount (CollateralBid.debtIn e.2 supply)))
      refine ⟨l, _, _, rfl, hbid, rfl, hdebt, down_nonneg hbase.2 hquote hdebt.le, ?_,
        .inl (by omega), ?_⟩
      · rw [Int.sub_mul, Int.sub_mul]
        dsimp only
        omega
      · rw [← hfound]
        congr 1
        omega

/-- **The bids that cover the supply are executed.** -/
theorem executeCovering_revives (st : Market × Int × Int)
    {st' : Market × Int × Int} (hbase : p.base.assetId = x ∧ 0 < p.base.amount)
    (hquote : 0 ≤ p.quote.amount)
    (hl : ∀ e ∈ l, e.2.debtType = x ∧ e.2.invSwanPrice.base.assetId = backing ∧
      0 ≤ e.2.invSwanPrice.base.amount ∧ 0 < e.2.invSwanPrice.quote.amount)
    (hrows : ∀ e ∈ l, ∀ bid, st.1.collateralBids.find e.1 = some bid → bid = e.2)
    (hle : st.2.1 ≤ supply) (hworth : st.2.1 * p.quote.amount ≤ st.2.2 * p.base.amount)
    (hcovering : coveringBids x p feed ratio supply (supply - st.2.1) l = some (some bids))
    (h : bids.foldlM (executeCovering x p ratio supply) st = some st') :
    Revives x backing st.1 st'.1 (st.2.1 - st'.2.1) (st.2.2 - st'.2.2) := by
  induction bids generalizing st l with
  | nil =>
    cases h
    rw [sub_self, sub_self]
    exact .refl x backing _
  | cons e bids ih =>
    obtain ⟨⟨m1, toCover, remaining⟩, hexecute, h⟩ := bind_eq_some_iff.1 h
    obtain ⟨l', debt, fromFund, rfl, hbid, hst, hdebt, hfund, hworth1, -, hcovering1⟩ :=
      executeCovering_eq_some hbase hquote (fun e he => (hl e he).2.2.2) hle hworth
        hcovering hexecute
    cases hst
    obtain ⟨rfl, rfl, hbidBase, hbidQuote⟩ := hl e mem_cons_self
    obtain ⟨bid, hfind, -⟩ := bind_eq_some_iff.1 hbid
    obtain rfl := hrows e mem_cons_self bid hfind
    have hfirst := executeBid_revives hfind hbid hdebt (by omega)
    have hall := hfirst.trans (ih _ (fun e' he' => hl e' (mem_cons_of_mem e he'))
      (fun e' he' bid' hbid' => hrows e' (mem_cons_of_mem e he') bid' (hfirst.bids _ _ hbid'))
      (show st.2.1 - debt ≤ supply by omega) hworth1 hcovering1 h)
    rwa [show ∀ a b c : Int, a + (b - a - c) = b - c by intro a b c; omega,
      show ∀ a b c : Int, a + (b - a - c) = b - c by intro a b c; omega] at hall

/-- **Bids are executed** if they cover the supply of a globally settled asset. -/
theorem processBids_carries (h : m.processBids x = some m') : m.Carries m' := by
  obtain ⟨b, hb, h⟩ := bind_eq_some_iff.1 h
  split at h
  swap
  · cases h
    exact .refl m
  next p feed hp hfeed =>
  split at h
  · cases h
    exact .refl m
  obtain ⟨toRevive, hrevive, h⟩ := bind_eq_some_iff.1 h
  obtain ⟨d, hd, h⟩ := bind_eq_some_iff.1 h
  obtain ⟨bids, hcovering, h⟩ := bind_eq_some_iff.1 h
  cases bids with
  | none =>
    cases h
    exact .refl m
  | some bids =>
    obtain ⟨⟨m1, toCover, remaining⟩, hfold, hend⟩ := bind_eq_some_iff.1 h
    split at hend
    swap
    · cases hend
    next hdone =>
    obtain ⟨rfl, rfl⟩ := hdone
    refine .of_sound fun hm => ?_
    have hsettled := hm.settled x b p hb hp
    rw [← hsettled.quote] at hrevive
    obtain ⟨rfl, -⟩ := mulWith_quote hsettled.ne hrevive
    rw [hsettled.base] at hd hcovering hfold
    have hsupply := supplyOf_eq hd
    have hcovered := hsettled.covered
    rw [hsupply] at hcovered
    have hall := executeCovering_revives (m, d.currentSupply, b.settlementFund)
      ⟨hsettled.base, hsettled.base_pos⟩ hsettled.quote_nonneg (fun e he => (hm.mem_bidsOn hb he).2)
      (fun e he bid hbid => ?_) le_rfl hcovered ((sub_self d.currentSupply).symm ▸ hcovering) hfold
    · rw [sub_zero, sub_zero, ← hsupply] at hall
      exact hall.complete hm hb hp hend
    · rw [(hm.mem_bidsOn hb he).1] at hbid
      exact (some.inj hbid).symm

end Market

end CrowdwizChain
