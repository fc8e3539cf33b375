import Mathlib.Algebra.BigOperators.Intervals
import CrowdwizChain.Chain.BitassetOperations

/-!
# What backs a market-issued asset

A market-issued asset is *backed* (`Market.Sound`): as long as it is not globally settled, its
supply is the sum of the debts of its margin positions; when it is, there is no such position, and
what is left of the supply can be paid out of the settlement fund. `Market.excess` is what there is
of an asset, in whatever kind of object, beyond its supply.

The functions of the market keep a market sound and every excess as it is (`Market.Carries`). Here
this is shown for fills.
-/

namespace CrowdwizChain

open Exchange Option Table Finset

/-- What the settlement fund of an asset has of another. -/
def BitassetData.fundIn (b : BitassetData) (y : AssetId) : Int :=
  if b.options.shortBackingAsset = y then b.settlementFund else 0

theorem BitassetData.hasSettlement_eq {b : BitassetData} {p : Price}
    (h : b.settlementPrice = some p) :
    b.hasSettlement = true := by
  rw [hasSettlement, h]
  rfl

/-- A global settlement that can be paid out: the price is in terms of the asset and what backs it,
and the fund is worth the supply at this price. -/
structure BitassetData.SettledAt (b : BitassetData) (x : AssetId) (p : Price) (supply : Int) :
    Prop where
  base : p.base.assetId = x
  quote : p.quote.assetId = b.options.shortBackingAsset
  ne : p.base.assetId ≠ p.quote.assetId
  base_pos : 0 < p.base.amount
  quote_nonneg : 0 ≤ p.quote.amount
  supply_nonneg : 0 ≤ supply
  covered : supply * p.quote.amount ≤ b.settlementFund * p.base.amount
  empty : supply = 0 → b.settlementFund = 0

theorem BitassetData.SettledAt.fund_nonneg {b : BitassetData} {x : AssetId} {p : Price}
    {supply : Int} (h : b.SettledAt x p supply) : 0 ≤ b.settlementFund := by
  have hworth := (Int.mul_nonneg h.supply_nonneg h.quote_nonneg).trans h.covered
  exact nonneg_of_mul_nonneg_left hworth h.base_pos

namespace Market

/-! ### All that there is of an asset -/

/-- What collateral bids hold of an asset. -/
def bidden (m : Market) (y : AssetId) : Int :=
  m.collateralBids.sumBy fun _ b => b.invSwanPrice.base.amountIn y

/-- What settlement funds hold of an asset. -/
def funds (m : Market) (y : AssetId) : Int :=
  ∑ x ∈ Finset.range m.db.assets.nextId, (m.bitassets x).elim 0 (·.fundIn y)

/-- What balances, fees, limit orders, margin positions, settlement orders, collateral bids and
settlement funds hold of an asset. -/
def held (m : Market) (y : AssetId) : Int :=
  m.db.booked y + m.limitOrders.sumBy (fun _ o => o.holds y) +
    m.callOrders.sumBy (fun _ c => c.getCollateral.amountIn y) +
    m.settlements.sumBy (fun _ s => s.balance.amountIn y) + m.bidden y + m.funds y

/-- What there is of an asset beyond its supply. -/
def excess (m : Market) (y : AssetId) : Int := m.held y - m.db.supplyOf y

variable {pays receives : Asset} {id : Nat} {c : CallOrder} {x : AssetId} {m'' : Market}
    {closed : Bool}

theorem held_eq (m : Market) (y : AssetId) :
    m.held y = m.total y + m.owed y + m.bidden y + m.funds y := by
  simp only [held, total, owed, CallOrder.holds, sumBy_sub]
  omega

theorem excess_eq (m : Market) (y : AssetId) :
    m.excess y = m.total y + m.bidden y + m.funds y - m.supplyGap y := by
  rw [excess, held_eq, supplyGap]
  omega

/-! ### Sound markets -/

/-- The amounts of orders are not negative, and there is a debt to every margin position. -/
structure Amounts (m : Market) : Prop where
  limits : ∀ i o, m.limitOrders.find i = some o → 0 ≤ o.forSale
  calls : ∀ i c, m.callOrders.find i = some c → 0 < c.debt ∧ 0 ≤ c.collateral
  settlements : ∀ i s, m.settlements.find i = some s → 0 ≤ s.balance.amount

/-- **The market-issued assets are backed.** -/
structure Sound (m : Market) : Prop where
  amounts : m.Amounts
  calls : ∀ i c, m.callOrders.find i = some c → ∃ b, m.bitassets c.debtType = some b ∧
    c.collateralType = b.options.shortBackingAsset ∧ b.hasSettlement = false
  bids : ∀ i bid, m.collateralBids.find i = some bid → 0 ≤ bid.invSwanPrice.base.amount ∧
    0 < bid.invSwanPrice.quote.amount ∧ ∃ b, m.bitassets bid.debtType = some b ∧
      bid.invSwanPrice.base.assetId = b.options.shortBackingAsset ∧ b.hasSettlement = true
  known : ∀ x b, m.bitassets x = some b → x < m.db.assets.nextId
  backed : ∀ x b, m.bitassets x = some b → b.hasSettlement = false →
    m.db.supplyOf x = m.owed x ∧ b.settlementFund = 0
  settled : ∀ x b p, m.bitassets x = some b → b.settlementPrice = some p →
    b.SettledAt x p (m.db.supplyOf x)

variable {m m' : Market}

theorem owed_eq_zero (h : ∀ i c, m.callOrders.find i = some c → c.debtType ≠ x) : m.owed x = 0 :=
  sumBy_eq_zero fun i c hc => if_neg (h i c hc)

theorem Sound.no_call (h : m.Sound) {b : BitassetData} (hb : m.bitassets x = some b)
    (hsettled : b.hasSettlement = true) (i : Nat) (c : CallOrder)
    (hc : m.callOrders.find i = some c) :
    c.debtType ≠ x := by
  rintro rfl
  obtain ⟨b', hb', -, hopen⟩ := h.calls i c hc
  cases hb.symm.trans hb'
  rw [hsettled] at hopen
  cases hopen

theorem Amounts.debt_le_owed (h : m.Amounts) {i : Nat} (hc : m.callOrders.find i = some c) :
    c.debt ≤ m.owed c.debtType := by
  have hle : c.getDebt.amountIn c.debtType ≤ m.owed c.debtType := by
    refine le_sumBy (fun i' c' hc' => ?_) hc
    have hpos := (h.calls i' c' hc').1
    show 0 ≤ if c'.debtType = c.debtType then c'.debt else 0
    split <;> omega
  rwa [Asset.amountIn, if_pos (show c.getDebt.assetId = c.debtType from rfl)] at hle

/-! ### Steps -/

/-- Assets are only added. The others stay market-issued or not, and the supply of one that is not
market-issued does not change. -/
structure KeepsAssets (m m' : Market) : Prop where
  nextId : m.db.assets.nextId ≤ m'.db.assets.nextId
  plain : ∀ y, y < m.db.assets.nextId → m.bitassets y = none → m'.bitassets y = none
  supply : ∀ y, m'.bitassets y = none → m.bitassets y = none ∧ m'.db.supplyOf y = m.db.supplyOf y

theorem KeepsAssets.refl (m : Market) : m.KeepsAssets m :=
  ⟨le_refl _, fun _ _ hy => hy, fun _ hy => ⟨hy, rfl⟩⟩

theorem KeepsAssets.trans (h : m.KeepsAssets m') (h' : m'.KeepsAssets m'') : m.KeepsAssets m'' where
  nextId := h.nextId.trans h'.nextId
  plain y hlt hy := h'.plain y (hlt.trans_le h.nextId) (h.plain y hlt hy)
  supply y hy := by
    obtain ⟨hy', heq'⟩ := h'.supply y hy
    obtain ⟨hy, heq⟩ := h.supply y hy'
    exact ⟨hy, heq'.trans heq⟩

/-- **A step of the market** from a sound state: it is sound afterwards, the excess of every asset
is as before, and so are the supplies of assets that are not market-issued. -/
structure Carries (m m' : Market) : Prop where
  touches : m.Sound → m.db.Touches m'.db
  sound : m.Sound → m'.Sound
  excess : m.Sound → ∀ y, m'.excess y = m.excess y
  assets : m.Sound → m.KeepsAssets m'

theorem Carries.refl (m : Market) : m.Carries m :=
  ⟨fun _ => .refl m.db, fun h => h, fun _ _ => rfl, fun _ => .refl m⟩

theorem Carries.of_sound (h : m.Sound → m.Carries m') : m.Carries m' :=
  ⟨fun hm => (h hm).touches hm, fun hm => (h hm).sound hm, fun hm => (h hm).excess hm,
    fun hm => (h hm).assets hm⟩

theorem Carries.trans (h : m.Carries m') (h' : m'.Carries m'') : m.Carries m'' where
  touches hm := (h.touches hm).trans (h'.touches (h.sound hm))
  sound hm := h'.sound (h.sound hm)
  excess hm y := (h'.excess (h.sound hm) y).trans (h.excess hm y)
  assets hm := (h.assets hm).trans (h'.assets (h.sound hm))

theorem Squared.supplyOf_eq (h : m.Squared m') (hm : m.Sound) {b : BitassetData}
    (hb : m.bitassets x = some b) (hsettled : b.hasSettlement = true) :
    m'.db.supplyOf x = m.db.supplyOf x := by
  have hgap := h.supply x
  have hno : m.owed x = 0 := owed_eq_zero (hm.no_call hb hsettled)
  have hno' : m'.owed x = 0 := by
    refine owed_eq_zero fun i c' hc' => ?_
    obtain ⟨c, hc, hdebt, -⟩ := h.calls i c' hc'
    rw [hdebt]
    exact hm.no_call hb hsettled i c hc
  rw [supplyGap, supplyGap, hno, hno'] at hgap
  omega

theorem Sound.owed_eq_zero (h : m.Sound) {y : AssetId} (hy : m.bitassets y = none) :
    m.owed y = 0 := by
  refine Market.owed_eq_zero ?_
  rintro i c hc rfl
  obtain ⟨b, hb, -⟩ := h.calls i c hc
  rw [hy] at hb
  cases hb

theorem Squared.keepsAssets (h : m.Squared m') (hm : m.Sound) : m.KeepsAssets m' := by
  refine ⟨h.nextId.ge, fun y _ hy => (congrFun h.bitassets y).trans hy, fun y hy => ?_⟩
  rw [h.bitassets] at hy
  have hgap := h.supply y
  have hno' : m'.owed y = 0 := by
    refine Market.owed_eq_zero ?_
    rintro i c' hc' rfl
    obtain ⟨c, hc, hdebt, -⟩ := h.calls i c' hc'
    obtain ⟨b, hb, -⟩ := hm.calls i c hc
    rw [← hdebt, hy] at hb
    cases hb
  rw [supplyGap, supplyGap, hm.owed_eq_zero hy, hno'] at hgap
  exact ⟨hy, by omega⟩

theorem Squared.sound (h : m.Squared m') (hamounts : m'.Amounts) (hm : m.Sound) : m'.Sound where
  amounts := hamounts
  calls i c' hc' := by
    obtain ⟨c, hc, hdebt, hcollateral⟩ := h.calls i c' hc'
    rw [h.bitassets, hdebt, hcollateral]
    exact hm.calls i c hc
  bids i bid hbid := by
    rw [h.bids] at hbid
    rw [h.bitassets]
    exact hm.bids i bid hbid
  known x b hb := by
    rw [h.nextId]
    exact hm.known x b (h.bitassets ▸ hb)
  backed x b hb hopen := by
    obtain ⟨hsupply, hfund⟩ := hm.backed x b (h.bitassets ▸ hb) hopen
    have hgap := h.supply x
    rw [supplyGap, supplyGap] at hgap
    exact ⟨by omega, hfund⟩
  settled x b p hb hp := by
    rw [h.bitassets] at hb
    rw [h.supplyOf_eq hm hb (BitassetData.hasSettlement_eq hp)]
    exact hm.settled x b p hb hp

theorem funds_congr (hnext : m'.db.assets.nextId = m.db.assets.nextId)
    (hbitassets : m'.bitassets = m.bitassets) {y : AssetId} : m'.funds y = m.funds y := by
  rw [funds, funds, hnext, hbitassets]

theorem Squared.excess_eq {y : AssetId} {n : Int} (h : m.Squared m')
    (htotal : m'.total y = m.total y + n) :
    m'.excess y = m.excess y + n := by
  have hbidden : m'.bidden y = m.bidden y := by rw [bidden, bidden, h.bids]
  rw [Market.excess_eq, Market.excess_eq, htotal, h.supply, hbidden,
    funds_congr h.nextId h.bitassets]
  omega

theorem Squared.carries (h : m.Squared m') (hamounts : m.Amounts → m'.Amounts)
    (htotal : m.Amounts → ∀ y, m'.total y = m.total y) : m.Carries m' where
  touches _ := h.touches
  sound hm := h.sound (hamounts hm.amounts) hm
  excess hm y := (h.excess_eq ((htotal hm.amounts y).trans (add_zero _).symm)).trans (add_zero _)
  assets hm := h.keepsAssets hm

section

variable {db : Database} {δ ε : AssetId → Int}

theorem total_db (h : m.db.Enters db δ) (y : AssetId) :
    ({ m with db := db } : Market).total y = m.total y + δ y := by
  simp only [total, h y]
  omega

theorem excess_db (hsilent : m.db.Silent db) (henters : m.db.Enters db δ) (y : AssetId) :
    ({ m with db := db } : Market).excess y = m.excess y + δ y :=
  (squared_db hsilent).excess_eq (total_db henters y)

theorem sound_db (hsilent : m.db.Silent db) (hm : m.Sound) : ({ m with db := db } : Market).Sound :=
  (squared_db hsilent).sound ⟨hm.amounts.limits, hm.amounts.calls, hm.amounts.settlements⟩ hm

/-- **A step between an entry and its counterpart** is one of the market. -/
theorem Squared.carries_between (h : m.Squared m') (hamounts : m.Amounts → m'.Amounts)
    (htotal : ∀ y, m'.total y = m.total y + δ y) (hstep : m'.Carries m'')
    (hsilent : m''.db.Silent db)
    (henters : m''.db.Enters db ε) (hback : ∀ y, δ y + ε y = 0) :
    m.Carries { m'' with db := db } := by
  refine .of_sound fun hm => ?_
  have hm' := h.sound (hamounts hm.amounts) hm
  have hm'' := hstep.sound hm'
  have hsquared := squared_db hsilent
  refine ⟨fun _ => (h.touches.trans (hstep.touches hm')).trans hsquared.touches,
    fun _ => sound_db hsilent hm'', fun _ y => ?_,
    fun _ => ((h.keepsAssets hm).trans (hstep.assets hm')).trans (hsquared.keepsAssets hm'')⟩
  have hzero := hback y
  rw [excess_db hsilent henters, hstep.excess hm', h.excess_eq (htotal y)]
  omega

end

/-! ### Fills -/

theorem FillsLimit.amounts {o : LimitOrder} {cull gone : Bool}
    (h : m.FillsLimit id o pays receives cull m' gone) (hle : pays.amount ≤ o.forSale)
    (hm : m.Amounts) : m'.Amounts where
  limits i k hk := by
    by_cases hi : i = id
    · subst hi
      rw [h.find_self] at hk
      split at hk
      · cases hk
      · cases hk
        show 0 ≤ o.forSale - pays.amount
        omega
    · rw [h.find_ne hi] at hk
      exact hm.limits i k hk
  calls i c hc := by
    rw [h.callOrders_eq] at hc
    exact hm.calls i c hc
  settlements := by
    obtain ⟨db, rfl⟩ := h.frame
    exact hm.settlements

section

variable (h : m.FillsCall id c pays receives m' closed)

include h

theorem FillsCall.limitOrders_eq : m'.limitOrders = m.limitOrders := by
  obtain ⟨db, callPrice, rfl, -⟩ := h.frame
  rfl

theorem FillsCall.amounts (hle : receives.amount ≤ c.debt) (hm : m.Amounts) : m'.Amounts where
  limits i o ho := by
    rw [h.limitOrders_eq] at ho
    exact hm.limits i o ho
  calls i c' hc' := by
    obtain ⟨db, callPrice, rfl, -⟩ := h.frame
    cases closed with
    | true =>
      exact hm.calls i c' (find_of_remove hc')
    | false =>
      rw [if_neg Bool.false_ne_true, find_modify] at hc'
      split at hc'
      · next heq =>
        rw [h.find] at hc'
        cases hc'
        have hopen : c.debt ≠ receives.amount := fun heq => absurd (h.closed_iff.2 heq) (by decide)
        have hpays := h.le_collateral
        exact ⟨show 0 < c.debt - receives.amount by omega,
          show 0 ≤ c.collateral - pays.amount by omega⟩
      · exact hm.calls i c' hc'
  settlements := by
    obtain ⟨db, callPrice, rfl, -⟩ := h.frame
    exact hm.settlements

theorem FillsCall.owed_eq (y : AssetId) : m'.owed y = m.owed y - receives.amountIn y := by
  obtain ⟨db, callPrice, rfl, -, hquote⟩ := h.frame
  show sumBy _ (fun _ (c : CallOrder) => c.getDebt.amountIn y) = m.callOrders.sumBy _ - _
  cases hclosed : closed with
  | true =>
    have hall := h.closed_iff.1 hclosed
    have hdebt : c.getDebt.amountIn y = receives.amountIn y := by
      rw [Asset.amountIn, Asset.amountIn, ← h.debtType, ← hall]
      rfl
    rw [if_pos rfl, sumBy_remove _ h.find, hdebt]
  | false =>
    have hnew : Asset.amountIn (CallOrder.getDebt { c with
        debt := c.debt - receives.amount
        collateral := c.collateral - pays.amount
        callPrice := callPrice }) y = Asset.amountIn ⟨c.debt - receives.amount, c.debtType⟩ y := by
      rw [← hquote]
      rfl
    rw [if_neg Bool.false_ne_true, sumBy_modify _ _ h.find, hnew, CallOrder.getDebt, h.debtType]
    simp only [Asset.amountIn]
    split <;> omega

end

theorem TradeStep.amounts {taker : Nat} {t : Trade} (h : TradeStep taker m t m') (hm : m.Amounts) :
    m'.Amounts := by
  cases h with
  | limit _ _ _ htaker hmaker hfair =>
    exact hmaker.amounts hfair.makerPays_le (htaker.amounts hfair.takerPays_le hm)
  | call _ _ _ htaker hmaker hdebt hfair =>
    exact hmaker.amounts hdebt (htaker.amounts hfair.takerPays_le hm)

theorem Trades.amounts {taker : Nat} {ts : List Trade} (h : Trades taker m ts m') (hm : m.Amounts) :
    m'.Amounts := by
  induction h with
  | nil => exact hm
  | cons hstep _ ih => exact ih (hstep.amounts hm)

theorem cancelLimitOrder_amounts {createVirtualOp : Bool}
    (h : m.cancelLimitOrder id createVirtualOp = some m') (hm : m.Amounts) : m'.Amounts := by
  obtain ⟨⟨o, db, -, -, rfl⟩, -⟩ := cancelLimitOrder_eq_some h
  exact ⟨fun i k hk => hm.limits i k (find_of_remove hk), hm.calls, hm.settlements⟩

theorem cancelLimitOrder_carries {createVirtualOp : Bool}
    (h : m.cancelLimitOrder id createVirtualOp = some m') : m.Carries m' :=
  (cancelLimitOrder_squared h).carries (cancelLimitOrder_amounts h) fun _ =>
    (cancelLimitOrder_eq_some h).2

/-- A new order that is matched carries the market on. -/
theorem applyOrder_carries {steps : Nat} {filled : Bool}
    (h : m.applyOrder steps id = some (m', filled)) :
    m.Carries m' := by
  obtain ⟨o, ho, -⟩ := bind_eq_some_iff.1 h
  refine .of_sound fun hm => ?_
  obtain ⟨⟨ts, m2, htrades, hend⟩, hsquared, -⟩ :=
    applyOrder_eq_some ho (hm.amounts.limits id o ho) h
  refine hsquared.carries (fun hm => ?_) fun hm => ?_
  · rcases hend with rfl | hcancel
    · exact htrades.amounts hm
    · exact cancelLimitOrder_amounts hcancel (htrades.amounts hm)
  · rcases hend with rfl | hcancel
    · exact htrades.total_eq
    · exact fun y => ((cancelLimitOrder_eq_some hcancel).2 y).trans (htrades.total_eq y)

/-! ### The data of a market-issued asset -/

section ModifyBitasset

variable {x y : AssetId} {f : BitassetData → BitassetData}
  {hf : ∀ b, (f b).currentFeed = b.currentFeed ∧
    (f b).options.shortBackingAsset = b.options.shortBackingAsset}

theorem modifyBitasset_self {b : BitassetData} (hb : m.bitassets x = some b) :
    (m.modifyBitasset x f hf).bitassets x = some (f b) := by
  show (if x = x then (m.bitassets x).map f else m.bitassets x) = _
  rw [if_pos rfl, hb]
  rfl

theorem modifyBitasset_ne (h : y ≠ x) : (m.modifyBitasset x f hf).bitassets y = m.bitassets y :=
  if_neg h

theorem funds_modifyBitasset {b : BitassetData} (hb : m.bitassets x = some b)
    (hx : x < m.db.assets.nextId) :
    (m.modifyBitasset x f hf).funds y = m.funds y + ((f b).fundIn y - b.fundIn y) := by
  have hmem := mem_range.2 hx
  have hrest : ∑ z ∈ (range m.db.assets.nextId).erase x,
      ((m.modifyBitasset x f hf).bitassets z).elim 0 (·.fundIn y) =
        ∑ z ∈ (range m.db.assets.nextId).erase x, (m.bitassets z).elim 0 (·.fundIn y) := by
    refine sum_congr rfl fun z hz => ?_
    rw [modifyBitasset_ne (ne_of_mem_erase hz)]
  show ∑ z ∈ range m.db.assets.nextId, _ = _
  rw [funds, ← add_sum_erase _ _ hmem, ← add_sum_erase _ _ hmem, hrest, modifyBitasset_self hb, hb]
  simp only [elim_some]
  omega

/-- Of the data and the supplies of market-issued assets, only those of one asset are changed. -/
structure Replaces (x : AssetId) (b b' : BitassetData) (m m' : Market) : Prop where
  nextId : m'.db.assets.nextId = m.db.assets.nextId
  find : m.bitassets x = some b
  find' : m'.bitassets x = some b'
  bitassets : ∀ {y}, y ≠ x → m'.bitassets y = m.bitassets y
  supply : ∀ {y}, y ≠ x → m'.db.supplyOf y = m.db.supplyOf y

variable {b b' : BitassetData}

theorem replaces_modifyBitasset (h : m'' = m'.modifyBitasset x f hf) (hb : m.bitassets x = some b)
    (hbitassets : m'.bitassets = m.bitassets) (hnext : m'.db.assets.nextId = m.db.assets.nextId)
    (hsupply : ∀ {y}, y ≠ x → m'.db.supplyOf y = m.db.supplyOf y) : Replaces x b (f b) m m'' := by
  subst h
  exact ⟨hnext, hb, modifyBitasset_self (hbitassets ▸ hb),
    fun hy => (modifyBitasset_ne hy).trans (congrFun hbitassets _), hsupply⟩

theorem Replaces.keepsAssets (h : Replaces x b b' m m') : m.KeepsAssets m' := by
  refine ⟨h.nextId.ge, fun y _ hy => ?_, fun y hy => ?_⟩
  · have hne : y ≠ x := by
      rintro rfl
      cases h.find.symm.trans hy
    rw [h.bitassets hne, hy]
  · have hne : y ≠ x := by
      rintro rfl
      cases h.find'.symm.trans hy
    exact ⟨(h.bitassets hne).symm.trans hy, h.supply hne⟩

theorem Replaces.sound (h : Replaces x b b' m m') (hm : m.Sound) (hamounts : m'.Amounts)
    (howed : ∀ {y}, y ≠ x → m'.owed y = m.owed y)
    (hcalls : ∀ i c, m'.callOrders.find i = some c → m.callOrders.find i = some c ∧ c.debtType ≠ x ∨
      c.debtType = x ∧ c.collateralType = b'.options.shortBackingAsset ∧ b'.hasSettlement = false)
    (hbids : ∀ i bid, m'.collateralBids.find i = some bid → m.collateralBids.find i = some bid ∧
      (bid.debtType = x → b.hasSettlement = true →
        b'.options.shortBackingAsset = b.options.shortBackingAsset ∧ b'.hasSettlement = true))
    (hbacked : b'.hasSettlement = false → m'.db.supplyOf x = m'.owed x ∧ b'.settlementFund = 0)
    (hsettled : ∀ p, b'.settlementPrice = some p → b'.SettledAt x p (m'.db.supplyOf x)) :
    m'.Sound := by
  refine ⟨hamounts, fun i c hc => ?_, fun i bid hbid => ?_, fun y b1 hb1 => ?_,
    fun y b1 hb1 hopen => ?_,
    fun y b1 p hb1 hp => ?_⟩
  · rcases hcalls i c hc with ⟨hold, hne⟩ | ⟨hdebt, hnew⟩
    · rw [h.bitassets hne]
      exact hm.calls i c hold
    · exact ⟨b', hdebt ▸ h.find', hnew⟩
  · obtain ⟨hold, hself⟩ := hbids i bid hbid
    obtain ⟨hbase, hquote, b1, hb1, hbacking, hsettled1⟩ := hm.bids i bid hold
    by_cases hy : bid.debtType = x
    · rw [hy, h.find] at hb1
      cases hb1
      obtain ⟨hsame, hsettled'⟩ := hself hy hsettled1
      exact ⟨hbase, hquote, b', hy ▸ h.find', hbacking.trans hsame.symm, hsettled'⟩
    · exact ⟨hbase, hquote, b1, (h.bitassets hy).trans hb1, hbacking, hsettled1⟩
  · rw [h.nextId]
    by_cases hy : y = x
    · exact hy ▸ hm.known x b h.find
    · exact hm.known y b1 (h.bitassets hy ▸ hb1)
  · by_cases hy : y = x
    · subst hy
      cases h.find'.symm.trans hb1
      exact hbacked hopen
    · rw [h.supply hy, howed hy]
      exact hm.backed y b1 (h.bitassets hy ▸ hb1) hopen
  · by_cases hy : y = x
    · subst hy
      cases h.find'.symm.trans hb1
      exact hsettled p hp
    · rw [h.supply hy]
      exact hm.settled y b1 p (h.bitassets hy ▸ hb1) hp

end ModifyBitasset

end Market

end CrowdwizChain
