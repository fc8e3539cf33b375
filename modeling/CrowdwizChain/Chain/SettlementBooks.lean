import CrowdwizChain.Chain.BitassetRevival

/-!
# Settlement orders, the end of a block and maintenance

A settlement order holds its amount until it is filled with collateral of the least collateralized
position. What the position pays is rounded down, and what it receives for that is rounded up again;
it is not more than what the match started with, so that the order has it.

The loop of `clear_expired_orders` keeps the price of the asset that it is at. The price that it
starts with is no price at all, and a match at it would be refused (`Price.ValidIfUsed`).
-/

namespace CrowdwizChain

open Exchange Option Asset Database

/-- Amounts can be multiplied with the price only if it is valid. -/
def Price.ValidIfUsed (p : Price) : Prop := ∀ a v : Asset, a.mul p = some v → p.Valid

theorem Price.validIfUsed_default : Price.ValidIfUsed ⟨⟨0, 0⟩, ⟨0, 0⟩⟩ := by
  intro a v h
  rw [mul, mulWith] at h
  split at h <;> cases h

theorem Price.mulRatio_valid {p np : Price} {num den : Nat} (h : p.mulRatio num den = some np) :
    np.Valid := by
  obtain ⟨hp, h⟩ := ite_none_right_eq_some.1 h
  split at h
  · cases h
    exact hp.1
  · obtain ⟨hvalid, heq⟩ := ite_none_right_eq_some.1 h
    exact some.inj heq ▸ hvalid

namespace Market

variable {m m' : Market}

/-! ### The data of market-issued assets -/

/-- The data of an asset change, but not what is settled; and what backs it changes only as long as
there is nothing to back. -/
structure SameBacking (m : Market) (y : AssetId) (b b' : BitassetData) : Prop where
  settlementPrice : b'.settlementPrice = b.settlementPrice
  settlementFund : b'.settlementFund = b.settlementFund
  backing : b'.options.shortBackingAsset = b.options.shortBackingAsset ∨
    b.hasSettlement = false ∧ m.db.supplyOf y = 0

variable {id steps : Nat} {b : BitassetData} {x : AssetId}

theorem SameBacking.refl (m : Market) (y : AssetId) (b : BitassetData) : m.SameBacking y b b :=
  ⟨rfl, rfl, .inl rfl⟩

theorem SameBacking.backing_eq {y : AssetId} {b' : BitassetData} (h : m.SameBacking y b b')
    (hsettled : b.hasSettlement = true) :
    b'.options.shortBackingAsset = b.options.shortBackingAsset := by
  rcases h.backing with heq | ⟨hopen, -⟩
  · exact heq
  · rw [hsettled] at hopen
    cases hopen

theorem SameBacking.hasSettlement {y : AssetId} {b' : BitassetData} (h : m.SameBacking y b b') :
    b'.hasSettlement = b.hasSettlement := by
  rw [BitassetData.hasSettlement, BitassetData.hasSettlement, h.settlementPrice]

/-- **Changes to the data of market-issued assets** are steps of the market, as long as they
keep what backs them. -/
theorem carries_bitassets (hbitassets : ∀ y b, m.bitassets y = some b →
      ∃ b', m'.bitassets y = some b' ∧ m.SameBacking y b b')
    (hnone : ∀ y, m.bitassets y = none → m'.bitassets y = none) (hdb : m'.db = m.db)
    (hlimits : m'.limitOrders = m.limitOrders) (hcalls : m'.callOrders = m.callOrders)
    (hsettlements : m'.settlements = m.settlements) (hbids : m'.collateralBids = m.collateralBids) :
    m.Carries m' := by
  have hback : ∀ y b', m'.bitassets y = some b' → ∃ b, m.bitassets y = some b ∧
      m.SameBacking y b b' := by
    intro y b' hb'
    cases hb : m.bitassets y with
    | none => rw [hnone y hb] at hb'; cases hb'
    | some b =>
      obtain ⟨b'', hb'', hsame⟩ := hbitassets y b hb
      cases hb'.symm.trans hb''
      exact ⟨b, rfl, hsame⟩
  refine ⟨fun _ => by rw [hdb]; exact .refl _, fun hm => ?_, fun hm y => ?_,
    fun _ => ⟨by rw [hdb], fun y _ => hnone y, fun y hy => ?_⟩⟩
  · refine ⟨⟨fun i o ho => ?_, fun i c hc => ?_, fun i s hs => ?_⟩, fun i c hc => ?_,
      fun i bid hbid => ?_, fun y b' hb' => ?_, fun y b' hb' hopen => ?_, fun y b' p hb' hp => ?_⟩
    · exact hm.amounts.limits i o (hlimits ▸ ho)
    · exact hm.amounts.calls i c (hcalls ▸ hc)
    · exact hm.amounts.settlements i s (hsettlements ▸ hs)
    · rw [hcalls] at hc
      obtain ⟨b, hb, hcollateral, hopen⟩ := hm.calls i c hc
      obtain ⟨b', hb', hsame⟩ := hbitassets _ b hb
      refine ⟨b', hb', ?_, hsame.hasSettlement.trans hopen⟩
      rcases hsame.backing with heq | ⟨-, hzero⟩
      · rw [heq, hcollateral]
      · have hpos := hm.supply_pos hc
        omega
    · rw [hbids] at hbid
      obtain ⟨hbase, hquote, b, hb, hbacking, hsettled⟩ := hm.bids i bid hbid
      obtain ⟨b', hb', hsame⟩ := hbitassets _ b hb
      exact ⟨hbase, hquote, b', hb', hbacking.trans (hsame.backing_eq hsettled).symm,
        hsame.hasSettlement.trans hsettled⟩
    · rw [hdb]
      obtain ⟨b, hb, -⟩ := hback y b' hb'
      exact hm.known y b hb
    · obtain ⟨b, hb, hsame⟩ := hback y b' hb'
      rw [hsame.hasSettlement] at hopen
      rw [hdb, owed, hcalls, hsame.settlementFund]
      exact hm.backed y b hb hopen
    · obtain ⟨b, hb, hsame⟩ := hback y b' hb'
      rw [hsame.settlementPrice] at hp
      have hsettled := hm.settled y b p hb hp
      have hbacking := hsame.backing_eq (BitassetData.hasSettlement_eq hp)
      rw [hdb]
      exact { hsettled with
        quote := hsettled.quote.trans hbacking.symm
        covered := by rw [hsame.settlementFund]; exact hsettled.covered
        empty := by rw [hsame.settlementFund]; exact hsettled.empty }
  · have hfunds : m'.funds y = m.funds y := by
      rw [funds, funds, hdb]
      refine Finset.sum_congr rfl fun z _ => ?_
      cases hb : m.bitassets z with
      | none => rw [hnone z hb]
      | some b =>
        obtain ⟨b', hb', hsame⟩ := hbitassets z b hb
        rw [hb']
        show b'.fundIn y = b.fundIn y
        rw [BitassetData.fundIn, BitassetData.fundIn, hsame.settlementFund]
        rcases hsame.backing with heq | ⟨hopen, -⟩
        · rw [heq]
        · rw [(hm.backed z b hb hopen).2, ite_self, ite_self]
    rw [excess, excess, held, held, hfunds, bidden, bidden, hdb, hlimits, hcalls,
      hsettlements, hbids]
  · refine ⟨?_, by rw [hdb]⟩
    cases hb : m.bitassets y with
    | none => rfl
    | some b =>
      obtain ⟨b', hb', -⟩ := hbitassets y b hb
      rw [hy] at hb'
      cases hb'

theorem modifyBitasset_carries {f : BitassetData → BitassetData}
    {hf : ∀ b, (f b).currentFeed = b.currentFeed ∧
      (f b).options.shortBackingAsset = b.options.shortBackingAsset}
    (hsame : ∀ b, (f b).settlementPrice = b.settlementPrice ∧
    (f b).settlementFund = b.settlementFund) :
    m.Carries (m.modifyBitasset x f hf) := by
  refine carries_bitassets (fun y b hb => ?_) (fun y hb => ?_) rfl rfl rfl rfl rfl
  · by_cases hy : y = x
    · subst hy
      exact ⟨f b, modifyBitasset_self hb, (hsame b).1, (hsame b).2, .inl (hf b).2⟩
    · exact ⟨b, (modifyBitasset_ne hy).trans hb, .refl m y b⟩
  · show (if y = x then (m.bitassets y).map f else m.bitassets y) = none
    rw [hb]
    exact ite_self _

/-! ### Settlement orders -/

theorem cancelSettleOrder_carries (h : m.cancelSettleOrder id = some m') : m.Carries m' := by
  obtain ⟨s, hs, h⟩ := bind_eq_some_iff.1 h
  obtain ⟨db, hdb, rfl⟩ := map_eq_some_iff.1 h
  refine (squared_settlements (adjustBalance_silent hdb) _).carries
    (fun hm => ⟨hm.limits, hm.calls, fun i s' hs' => ?_⟩) fun _ y => ?_
  · exact hm.settlements i s' (Table.find_of_remove hs')
  · rw [total_orders (adjustBalance_enters hdb), Table.sumBy_remove _ hs]
    omega

/-- A settlement order that is filled pays what it holds, and receives, less the market fee. -/
theorem fillSettleOrder_books {s : ForceSettlement} {pays receives : Asset} {gone : Bool}
    (hs : m.settlements.find id = some s) (hasset : pays.assetId = s.balance.assetId)
    (hle : pays.amount ≤ s.balance.amount) (hreceives : 0 ≤ receives.amount)
    (h : m.fillSettleOrder id pays receives = some (m', gone)) :
    m.Squared m' ∧ (m.Amounts → m'.Amounts) ∧
      ∀ y, m'.total y = m.total y + receives.amountIn y - pays.amountIn y := by
  obtain ⟨s', hs', h⟩ := bind_eq_some_iff.1 h
  cases hs.symm.trans hs'
  obtain ⟨-, -, h⟩ := bind_eq_some_iff.1 h
  obtain ⟨db1, h1, h⟩ := bind_eq_some_iff.1 h
  obtain ⟨db2, h2, h⟩ := map_eq_some_iff.1 h
  obtain ⟨hid, hfee, -⟩ := calculateMarketFee_spec (m := m) hreceives
  have hfees : m.db.Silent db1 ∧ m.db.Enters db1 (m.calculateMarketFee receives).amountIn := by
    split at h1
    · next hpos => exact ⟨accumulateFees_silent h1 hpos.le, accumulateFees_enters h1⟩
    · next hzero =>
      cases h1
      exact ⟨.refl _, .of_zero _ (by omega)⟩
  have hsilent := hfees.1.trans (adjustBalance_silent h2)
  have hall := hfees.2.trans (adjustBalance_enters h2)
  split at h
  · next hless =>
    cases h
    refine ⟨squared_settlements hsilent _, fun hm => ⟨hm.limits, hm.calls, fun i s' hs' => ?_⟩,
      fun y => ?_⟩
    · rcases Table.find_modify_cases hs' hs with ⟨rfl, rfl⟩ | hs'
      · show 0 ≤ s.balance.amount - pays.amount
        omega
      · exact hm.settlements i s' hs'
    · rw [total_orders hall, Table.sumBy_modify _ _ hs]
      simp only [amountIn, hid, hasset]
      split <;> split <;> omega
  · next hless =>
    cases h
    refine ⟨squared_settlements hsilent _, fun hm => ⟨hm.limits, hm.calls, fun i s' hs' => ?_⟩,
      fun y => ?_⟩
    · exact hm.settlements i s' (Table.find_of_remove hs')
    · have hall' : pays.amount = s.balance.amount := by omega
      rw [total_orders hall, Table.sumBy_remove _ hs]
      simp only [amountIn, hid, hasset, hall']
      split <;> split <;> omega

theorem settleFills_carries {call settle : Nat} {c : CallOrder} {s : ForceSettlement}
    {callPays callReceives : Asset} {cull : Bool} {n : Int}
    (h : m.settleFills call settle callPays callReceives cull = some (m', n))
    (hc : m.callOrders.find call = some c) (hs : m.settlements.find settle = some s)
    (hasset : callReceives.assetId = s.balance.assetId)
    (hspec : callReceives.amount ≤ c.debt ∧ callReceives.amount ≤ s.balance.amount ∧
      0 ≤ callPays.amount) : m.Carries m' := by
  obtain ⟨⟨m1, closed⟩, hcall, h⟩ := bind_eq_some_iff.1 h
  obtain ⟨⟨m2, gone⟩, hsettle, h⟩ := bind_eq_some_iff.1 h
  dsimp only at hsettle h
  obtain ⟨c', hfills, hsquared⟩ := fillCallOrder_eq_some hcall
  cases hc.symm.trans hfills.find
  have hs1 : m1.settlements.find settle = some s := by
    obtain ⟨db, callPrice, rfl, -⟩ := hfills.frame
    exact hs
  obtain ⟨hsquared', hamounts, htotal⟩ :=
    fillSettleOrder_books hs1 hasset hspec.2.1 hspec.2.2 hsettle
  have hcarries : m.Carries m2 := by
    refine (hsquared.trans hsquared').carries (fun hm => hamounts (hfills.amounts hspec.1 hm))
      fun hm y => ?_
    rw [htotal, hfills.total]
    omega
  split at h
  · obtain ⟨m3, hcancel, h⟩ := map_eq_some_iff.1 h
    cases h
    exact hcarries.trans (cancelSettleOrder_carries hcancel)
  · cases h
    exact hcarries

/-- An amount that is exchanged and back is not more, and of the same asset. -/
theorem Asset.mul_round_trip {p : Price} (hp : p.Valid) {a v w : Asset} (hv : a.mul p = some v)
    (hw : v.multiplyAndRoundUp p = some w) : w.assetId = a.assetId ∧ w.amount ≤ a.amount := by
  obtain ⟨n, id⟩ := a
  by_cases hbase : id = p.base.assetId
  · subst hbase
    obtain ⟨rfl, -⟩ := mulWith_base hv
    obtain ⟨rfl, -⟩ := mulWith_quote hp.2.2 hw
    exact ⟨rfl, up_down_le hp.1 hp.2.1⟩
  · by_cases hquote : id = p.quote.assetId
    · subst hquote
      obtain ⟨rfl, -⟩ := mulWith_quote hp.2.2 hv
      obtain ⟨rfl, -⟩ := mulWith_base hw
      exact ⟨rfl, up_down_le hp.2.1 hp.1⟩
    · rw [mul, mulWith, if_neg hbase, if_neg hquote] at hv
      cases hv

/-- **A settlement order and a margin position are matched.** -/
theorem matchSettle_carries {call settle : Nat} {price : Price} {maxSettlement n : Int}
    (hprice : price.ValidIfUsed) (hmax : 0 ≤ maxSettlement)
    (h : m.matchSettle call settle price maxSettlement = some (m', n)) : m.Carries m' := by
  obtain ⟨c, hc, h⟩ := bind_eq_some_iff.1 h
  obtain ⟨s, hs, h⟩ := bind_eq_some_iff.1 h
  split at h
  swap
  · cases h
  next hcheck =>
  obtain ⟨hasset, hdebt, -, hbalance⟩ := hcheck
  obtain ⟨callPays, hpays, h⟩ := bind_eq_some_iff.1 h
  have hvalid := hprice _ _ hpays
  have hreceives : 0 ≤ min (min s.balance.amount maxSettlement) c.debt :=
    le_min (le_min hbalance.le hmax) hdebt.le
  have hledebt : min (min s.balance.amount maxSettlement) c.debt ≤ c.debt := min_le_right _ _
  have hlebalance : min (min s.balance.amount maxSettlement) c.debt ≤ s.balance.amount :=
    (min_le_left _ _).trans (min_le_left _ _)
  split at h
  · split at h
    · exact settleFills_carries h hc hs hasset ⟨hledebt, hlebalance, show (0 : Int) ≤ 1 by decide⟩
    · split at h
      · obtain ⟨m1, hcancel, h⟩ := map_eq_some_iff.1 h
        cases h
        exact cancelSettleOrder_carries hcancel
      · cases h
        exact .refl _
  · split at h
    · obtain ⟨rounded, hrounded, h⟩ := bind_eq_some_iff.1 h
      exact settleFills_carries h hc hs hasset ⟨hledebt, hlebalance,
        CallOrder.mulWith_nonneg up_nonneg hvalid hreceives hrounded⟩
    · obtain ⟨received, hreceived, h⟩ := bind_eq_some_iff.1 h
      obtain ⟨hid, hle⟩ := Asset.mul_round_trip hvalid hpays hreceived
      exact settleFills_carries h hc hs (hid.trans hasset) ⟨hle.trans hledebt, hle.trans hlebalance,
        CallOrder.mulWith_nonneg down_nonneg hvalid hreceives hpays⟩

/-- One settlement order, matched until it or the volume is used up. -/
theorem settleLoop_carries {order : Nat} {price : Price} (hprice : price.ValidIfUsed)
    {maxVolume : Int} {settled settled' : Int} {finished : Bool}
    (h : settleLoop x b order price maxVolume steps settled m = some (m', settled', finished)) :
    m.Carries m' := by
  induction steps generalizing m settled with
  | zero => cases h
  | succ steps ih =>
    rw [settleLoop] at h
    split at h
    · cases h
      exact .refl _
    split at h
    · cases h
      exact .refl _
    obtain ⟨e, -, h⟩ := bind_eq_some_iff.1 h
    split at h
    · obtain ⟨m1, hcancel, h⟩ := map_eq_some_iff.1 h
      cases h
      exact cancelSettleOrder_carries hcancel
    obtain ⟨⟨m1, newSettled⟩, hmatch, h⟩ := bind_eq_some_iff.1 h
    refine (matchSettle_carries hprice (by omega) hmatch).trans ?_
    dsimp only at h
    split at h
    · cases h
      exact .refl _
    · exact ih h

/-! ### The end of a block -/

/-- All settlement orders that are due, by induction over the rounds. -/
theorem settlementLoop_carries {cursor : SettleCursor} (h : settlementLoop steps cursor m = some m')
    (hcursor : cursor.price.ValidIfUsed) : m.Carries m' := by
  induction steps generalizing m cursor with
  | zero => cases h
  | succ steps ih =>
    rw [settlementLoop] at h
    split at h
    · cases h
      exact .refl _
    next order s hfrom =>
    obtain ⟨b, -, h⟩ := bind_eq_some_iff.1 h
    split at h
    · obtain ⟨m1, hcancel, h⟩ := bind_eq_some_iff.1 h
      exact (cancelSettleOrder_carries hcancel).trans (ih h hcursor)
    split at h
    · -- the next asset
      split at h
      · cases h
        exact .refl _
      · exact ih h hcursor
    split at h
    · obtain ⟨m1, hcancel, h⟩ := bind_eq_some_iff.1 h
      exact (cancelSettleOrder_carries hcancel).trans (ih h hcursor)
    next feed _ =>
    obtain ⟨d, -, h⟩ := bind_eq_some_iff.1 h
    dsimp only at h
    generalize (if cursor.maxVolume.assetId = s.balance.assetId then cursor.maxVolume else _) =
      maxVolume at h
    split at h
    · -- the next asset
      split at h
      · cases h
        exact .refl _
      · exact ih h hcursor
    obtain ⟨price, hprice, h⟩ := bind_eq_some_iff.1 h
    have hvalid : price.ValidIfUsed := by
      split at hprice
      · cases hprice
        exact hcursor
      · exact fun _ _ _ => Price.mulRatio_valid hprice
    obtain ⟨⟨m1, settled, finished⟩, hloop, h⟩ := bind_eq_some_iff.1 h
    have hvolume : m1.Carries (m1.modifyBitasset s.balance.assetId
        (fun b => { b with forceSettledVolume := settled }) fun _ => ⟨rfl, rfl⟩) :=
      modifyBitasset_carries fun _ => ⟨rfl, rfl⟩
    exact (settleLoop_carries hvalid hloop).trans (hvolume.trans (ih h hvalid))

/-- **The end of a block**: expired orders are cancelled, and settlement orders are due. -/
theorem clearExpiredOrders_carries (h : m.clearExpiredOrders steps = some m') : m.Carries m' := by
  obtain ⟨m1, hfold, h⟩ := bind_eq_some_iff.1 h
  refine (Transition.foldlM_rel (R := Carries) Carries.refl Carries.trans
    (fun h => cancelLimitOrder_carries h) hfold).trans ?_
  exact settlementLoop_carries h Price.validIfUsed_default

/-! ### Maintenance -/

theorem processBitasset_carries (h : m.processBitasset x = some m') : m.Carries m' := by
  have hvolume : m.Carries (m.modifyBitasset x (fun b => { b with forceSettledVolume := 0 })
      fun _ => ⟨rfl, rfl⟩) := modifyBitasset_carries fun _ => ⟨rfl, rfl⟩
  refine hvolume.trans ?_
  rw [processBitasset] at h
  split at h
  · exact processBids_carries h
  · cases h
    exact .refl _

theorem processBitassets_carries (h : m.processBitassets = some m') : m.Carries m' :=
  Transition.foldlM_rel (R := Carries) Carries.refl Carries.trans
    (fun h => processBitasset_carries h) h

end Market

end CrowdwizChain
