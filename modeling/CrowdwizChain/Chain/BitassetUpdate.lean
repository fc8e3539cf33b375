import CrowdwizChain.Chain.SettlementBooks

/-!
# The operations on market-issued assets keep them backed

Every operation of `BitassetOperations` is a step of the market. The fee of an operation is entered
into the books first and taken from the payer last; in between, everything is off by it.

A position can be updated only in the collateral of the day, and it is the collateral that it was
opened with: what backs an asset is changed only while there is no supply, and then there is no
position. The one operation that needs a condition is `asset_settle` of a globally settled asset. It
does not look whether there is that much of a supply; it pays as long as the fund is worth it.
-/

namespace CrowdwizChain

open Exchange Option Asset Database Table

namespace Database

variable {db : Database} {payer : AccountId} {fee : Asset} {coreFee : Int}

variable (h : db.prepareFee payer fee = some coreFee)

include h

/-- A fee that was prepared is converted, and a part of it is paid: `n` is entered into the pending
fees of the payer. -/
theorem convertFee_eq (n : Int) :
    ∃ db1, db.modifyStatistics payer (·.payFee n) = some db1 ∧ (if fee.assetId = 0 then some db1
        else db1.modifyAsset fee.assetId fun d =>
          { d with
            accumulatedFees := d.accumulatedFees + fee.amount
            feePool := d.feePool - coreFee }) =
        some { db.convertAndPayFee payer fee coreFee with
          statistics := db.statistics.modify payer (·.payFee n) } := by
  obtain ⟨-, -, hstats, hasset, -⟩ := prepareFee_eq_some h
  obtain ⟨s, hs⟩ := isSome_iff_exists.1 hstats
  obtain ⟨d, hd⟩ := isSome_iff_exists.1 hasset
  refine ⟨{ db with statistics := db.statistics.modify payer (·.payFee n) }, ?_, ?_⟩
  · rw [modifyStatistics, hs]
    rfl
  · rw [convertAndPayFee]
    split
    · rfl
    · rw [modifyAsset]
      rw [hd]
      rfl

theorem convertFee_silent (n : Int) : db.Silent { db.convertAndPayFee payer fee coreFee with
      statistics := db.statistics.modify payer (·.payFee n) } := by
  obtain ⟨hnonneg, -⟩ := prepareFee_eq_some h
  obtain ⟨db1, hstats, hasset⟩ := convertFee_eq h n
  refine (modifyStatistics_silent hstats).trans ?_
  split at hasset
  · rw [← some.inj hasset]
    exact .refl _
  · exact modifyAsset_silent hasset (fun _ => rfl) fun d =>
      show d.accumulatedFees ≤ d.accumulatedFees + _ by omega

theorem convertFee_enters (n : Int) : db.Enters { db.convertAndPayFee payer fee coreFee with
      statistics := db.statistics.modify payer (·.payFee n) }
      fun y => fee.amountIn y + (core (n - coreFee)).amountIn y := by
  obtain ⟨-, -, -, -, hcore, -⟩ := prepareFee_eq_some h
  obtain ⟨db1, hstats, hasset⟩ := convertFee_eq h n
  have henters := modifyStatistics_enters (fun s => s.held_payFee n) hstats
  split at hasset
  · next hzero =>
    rw [← some.inj hasset]
    refine henters.congr fun y => ?_
    rw [hcore hzero]
    grind [amountIn, core]
  · have hall :=
      henters.trans (modifyAsset_enters hasset fee.amount (-coreFee) (fun _ => rfl) fun _ => rfl)
    refine hall.congr fun y => ?_
    grind [amountIn, core]

theorem convertAndPayFee_silent :
    db.Silent (db.convertAndPayFee payer fee coreFee) := convertFee_silent h coreFee

theorem convertAndPayFee_enters :
    db.Enters (db.convertAndPayFee payer fee coreFee) fee.amountIn := by
  refine (convertFee_enters h coreFee).congr fun y => ?_
  rw [sub_self, amountIn_core_zero, add_zero]

end Database

namespace Market

variable {m m' : Market}

/-! ### The frame of an operation -/

/-- **An operation is a step of the market** if its part in between is. -/
theorem applyOperation_carries {payer : AccountId} {fee : Asset} {ev : Market → Bool}
    {ap : Market → Option Market} (h : m.applyOperation payer fee ev ap = some m')
    (hap : ∀ db m1, m.db.Silent db → ev m = true → ap { m with db := db } = some m1 →
      Carries { m with db := db } m1) : m.Carries m' := by
  obtain ⟨coreFee, hfee, h⟩ := bind_eq_some_iff.1 h
  split at h
  swap
  · cases h
  next hev =>
  obtain ⟨m1, hm1, h⟩ := bind_eq_some_iff.1 h
  obtain ⟨db, hdb, rfl⟩ := map_eq_some_iff.1 h
  have hsilent := convertAndPayFee_silent hfee
  refine (squared_db hsilent).carries_between (fun hm => ⟨hm.limits, hm.calls, hm.settlements⟩)
    (total_db (convertAndPayFee_enters hfee)) (hap _ m1 hsilent hev hm1) (adjustBalance_silent hdb)
    (adjustBalance_enters hdb) fun y => ?_
  rw [amountIn_neg]
  exact add_neg_cancel _

/-! ### Limit orders -/

theorem limitOrderCancel_carries {op : LimitOrderCancelOperation}
    (h : m.limitOrderCancel op = some m') : m.Carries m' :=
  applyOperation_carries h fun _ _ _ _ hcancel => cancelLimitOrder_carries hcancel

/-- What the seller pays is in the order, or traded for something else. -/
theorem limitOrderCreate_carries {steps : Nat} {op : LimitOrderCreateOperation}
    (h : m.limitOrderCreate steps op = some m') : m.Carries m' := by
  obtain ⟨placed, hplace, h⟩ := bind_eq_some_iff.1 h
  obtain ⟨⟨applied, filled⟩, happly, h⟩ := bind_eq_some_iff.1 h
  dsimp only at h
  split at h
  swap
  · cases h
  obtain ⟨db, hdb, rfl⟩ := map_eq_some_iff.1 h
  obtain ⟨hvalid, coreFee, hfee, db1, hplaced, htotal, hsquared⟩ := placeOrder_eq_some hplace
  refine hsquared.carries_between (fun hm => ?_) htotal (applyOrder_carries happly)
    (adjustBalance_silent hdb) (adjustBalance_enters hdb) fun y => ?_
  · rw [hplaced]
    refine ⟨fun i o ho => ?_, hm.calls, hm.settlements⟩
    rcases find_create_cases ho with ⟨-, rfl⟩ | ho
    · exact hvalid.2.2.1.le
    · exact hm.limits i o ho
  · rw [amountIn_neg]
    exact add_neg_cancel _

end Market

/-! ### Positions -/

/-- A weight of margin positions that is additive in the collateral and in the debt. -/
structure CallOrder.Additive (w : CallOrder → Int) (backing x : AssetId)
    (F : Int → Int → Int) : Prop where
  eq : ∀ c : CallOrder, c.collateralType = backing → c.debtType = x → w c = F c.collateral c.debt
  add : ∀ p q p' q', F (p + p') (q + q') = F p q + F p' q'

namespace Market

variable {m m' : Market}

variable {op : CallOrderUpdateOperation}

theorem positionOf_eq_some {account : AccountId} {x : AssetId} {e : Nat × CallOrder}
    (h : m.positionOf account x = some e) :
    m.callOrders.find e.1 = some e.2 ∧ e.2.borrower = account ∧ e.2.debtType = x := by
  have hassets := List.find?_some h
  exact ⟨mem_inOrder.1 (List.mem_of_find?_eq_some h), of_decide_eq_true hassets⟩

/-- What the update of a position writes: every additive weight gains that of the update, and the
position is of the assets of the update. -/
structure Writes (op : CallOrderUpdateOperation) (m m' : Market) : Prop where
  frame : ∃ t, m' = { m with callOrders := t }
  sum : ∀ {w : CallOrder → Int} {F : Int → Int → Int}, CallOrder.Additive w
    op.deltaCollateral.assetId op.deltaDebt.assetId F → m'.callOrders.sumBy (fun _ c => w c) =
      m.callOrders.sumBy (fun _ c => w c) + F op.deltaCollateral.amount op.deltaDebt.amount
  rows : ∀ i c, m'.callOrders.find i = some c → m.callOrders.find i = some c ∨
    c.debtType = op.deltaDebt.assetId ∧ c.collateralType = op.deltaCollateral.assetId ∧
      0 < c.debt ∧ 0 ≤ c.collateral

variable {position : Option (Nat × Option CallOrder)}

theorem writePosition_writes {ratio : Nat} (h : m.writePosition op ratio = some (m', position))
    (hbacking : ∀ i c, m.callOrders.find i = some c → c.debtType = op.deltaDebt.assetId →
      c.collateralType = op.deltaCollateral.assetId) : m.Writes op m' := by
  rw [writePosition] at h
  split at h
  · obtain ⟨hpos, h⟩ := ite_none_right_eq_some.1 h
    obtain ⟨callPrice, hprice, h⟩ := map_eq_some_iff.1 h
    cases h
    obtain ⟨hbase, hquote⟩ := Price.callPrice_assetId hprice
    refine ⟨⟨_, rfl⟩, fun hadditive => ?_, fun i c hc => ?_⟩
    · have hnew := hadditive.eq
        { borrower := op.fundingAccount
          collateral := op.deltaCollateral.amount
          debt := op.deltaDebt.amount
          callPrice := callPrice
          targetCollateralRatio := op.targetCollateralRatio } hbase hquote
      rw [sumBy_create, hnew]
    · rcases find_create_cases hc with ⟨-, rfl⟩ | hc
      · exact .inr ⟨hquote, hbase, hpos.2, hpos.1.le⟩
      · exact .inl hc
  · next id c hposition =>
    obtain ⟨hc, -, hdebt⟩ := positionOf_eq_some hposition
    dsimp only at hc hdebt h
    have hcollateral := hbacking id c hc hdebt
    split at h
    · next hclosed =>
      obtain ⟨hempty, h⟩ := ite_none_right_eq_some.1 h
      cases h
      refine ⟨⟨_, rfl⟩, fun {w F} hadditive => ?_, fun i c' hc' => ?_⟩
      · -- the position and the update cancel out
        have hcancel :=
          hadditive.add c.collateral c.debt op.deltaCollateral.amount op.deltaDebt.amount
        have hzero := hadditive.add 0 0 0 0
        rw [hclosed, hempty] at hcancel
        rw [sumBy_remove _ hc, hadditive.eq c hcollateral hdebt]
        simp only [add_zero] at hzero
        omega
      · rw [find_remove] at hc'
        obtain ⟨-, hc'⟩ := ite_none_left_eq_some.1 hc'
        exact .inl hc'
    · obtain ⟨hpos, h⟩ := ite_none_right_eq_some.1 h
      obtain ⟨callPrice, hprice, h⟩ := map_eq_some_iff.1 h
      cases h
      obtain ⟨hbase, hquote⟩ := Price.callPrice_assetId hprice
      refine ⟨⟨_, rfl⟩, fun {w F} hadditive => ?_, fun i c' hc' => ?_⟩
      · have hnew := hadditive.eq
          { c with
            collateral := c.collateral + op.deltaCollateral.amount
            debt := c.debt + op.deltaDebt.amount
            callPrice := callPrice
            targetCollateralRatio := op.targetCollateralRatio } (hbase.trans hcollateral)
          (hquote.trans hdebt)
        rw [hadditive.add] at hnew
        rw [sumBy_modify _ _ hc, hadditive.eq c hcollateral hdebt, hnew]
        omega
      · rcases find_modify_cases hc' hc with ⟨rfl, rfl⟩ | hc'
        · exact .inr ⟨hquote.trans hdebt, hbase.trans hcollateral, hpos.2, hpos.1.le⟩
        · exact .inl hc'

theorem bookPosition_books {db db' : Database} (h : bookPosition db op = some db') :
    db.Notes db' op.deltaDebt.amountIn ∧
      db.Enters db' fun y => op.deltaDebt.amountIn y - op.deltaCollateral.amountIn y := by
  obtain ⟨db1, hdebt, hcollateral⟩ := bind_eq_some_iff.1 h
  have hissued : db.Notes db1 op.deltaDebt.amountIn ∧ db.Enters db1 op.deltaDebt.amountIn := by
    split at hdebt
    · obtain ⟨db2, hbalance, hdebt⟩ := bind_eq_some_iff.1 hdebt
      obtain ⟨d, -, hdebt⟩ := bind_eq_some_iff.1 hdebt
      split at hdebt
      swap
      · cases hdebt
      have hsupply := modifyAsset_notes (n := op.deltaDebt.amount) hdebt (fun _ _ => rfl) fun _ =>
        le_refl _
      have henters := modifySupply_enters hdebt (fun _ => rfl) fun _ => rfl
      exact ⟨(adjustBalance_silent hbalance).notes hsupply,
        ((adjustBalance_enters hbalance).trans henters).congr fun y => add_zero _⟩
    · next hzero =>
      cases hdebt
      have hnone := amountIn_of_zero (not_not.1 hzero)
      exact ⟨(Notes.refl _).congr fun y => (hnone y).symm, .of_zero _ (not_not.1 hzero)⟩
  split at hcollateral
  · obtain ⟨db2, hbalance, hcollateral⟩ := bind_eq_some_iff.1 hcollateral
    have hpaid := (hissued.1.silent (adjustBalance_silent hbalance))
    have henters := hissued.2.trans (adjustBalance_enters hbalance)
    have hopened := outOfOrders_enters hcollateral
    have hsilent := optionalStatistics_silent hcollateral
    refine ⟨hpaid.silent hsilent, (henters.trans hopened).congr fun y => ?_⟩
    rw [amountIn_neg]
    omega
  · next hzero =>
    cases hcollateral
    have hnone := amountIn_of_zero (not_not.1 hzero)
    refine ⟨hissued.1, hissued.2.congr fun y => ?_⟩
    rw [hnone y, sub_zero]

/-- **A position is updated**: what is issued is owed, and what is taken is its collateral. -/
theorem updatePosition_carries {b : BitassetData} {db : Database} {ratio : Nat}
    (hb : m.bitassets op.deltaDebt.assetId = some b) (hopen : b.hasSettlement = false)
    (hbacking : op.deltaCollateral.assetId = b.options.shortBackingAsset)
    (hbook : bookPosition m.db op = some db)
    (hwrite : ({ m with db := db } : Market).writePosition op ratio = some (m', position)) :
    m.Carries m' := by
  obtain ⟨hnotes, henters⟩ := bookPosition_books hbook
  refine .of_sound fun hm => ?_
  have hwrites : Writes op { m with db := db } m' := by
    refine writePosition_writes hwrite fun i c hc hdebt => ?_
    obtain ⟨b', hb', hcollateral, -⟩ := hm.calls i c hc
    rw [hdebt, hb] at hb'
    cases hb'
    rw [hcollateral, hbacking]
  -- the two sums over the positions
  have howed : ∀ y, m'.owed y = m.owed y + op.deltaDebt.amountIn y := by
    intro y
    refine hwrites.sum (F := fun _ q => amountIn ⟨q, op.deltaDebt.assetId⟩ y)
      ⟨fun c _ hdebt => ?_, fun p q p' q' => ?_⟩
    · rw [CallOrder.getDebt, hdebt]
    · simp only [amountIn]
      split <;> omega
  have hholds : ∀ y, m'.callOrders.sumBy (fun _ c => c.holds y) =
      m.callOrders.sumBy (fun _ c => c.holds y) +
        (op.deltaCollateral.amountIn y - op.deltaDebt.amountIn y) := by
    intro y
    refine hwrites.sum (F := fun p q => amountIn ⟨p, op.deltaCollateral.assetId⟩ y -
      amountIn ⟨q, op.deltaDebt.assetId⟩ y) ⟨fun c hcollateral hdebt => ?_, fun p q p' q' => ?_⟩
    · rw [CallOrder.holds, CallOrder.getDebt, CallOrder.getCollateral, hdebt, hcollateral]
    · simp only [amountIn]
      split <;> split <;> omega
  obtain ⟨hdb, hlimits, hbitassets, hbids, hsettlements⟩ :
      m'.db = db ∧ m'.limitOrders = m.limitOrders ∧
      m'.bitassets = m.bitassets ∧ m'.collateralBids = m.collateralBids ∧
      m'.settlements = m.settlements := by
    obtain ⟨t, rfl⟩ := hwrites.frame
    exact ⟨rfl, rfl, rfl, rfl, rfl⟩
  have hreplaces : Replaces op.deltaDebt.assetId b b m m' := by
    refine ⟨by rw [hdb, hnotes.nextId], hb, hbitassets ▸ hb, fun _ => congrFun hbitassets _,
      fun hy => ?_⟩
    rw [hdb, hnotes.supply, amountIn, if_neg (Ne.symm hy), add_zero]
  refine ⟨fun _ => ?_, fun _ => ?_, fun _ y => ?_, fun _ => ?_⟩
  · exact hdb ▸ hnotes.touches
  · refine hreplaces.sound hm ⟨hlimits ▸ hm.amounts.limits, fun i c hc => ?_,
      hsettlements ▸ hm.amounts.settlements⟩ (fun {y} hy => ?_) (fun i c hc => ?_)
      (fun i bid hbid => ⟨hbids ▸ hbid, fun _ hsettled => ⟨rfl, hsettled⟩⟩)
      (fun _ => ?_) fun p hp => ?_
    · rcases hwrites.rows i c hc with hold | ⟨-, -, hnew⟩
      · exact hm.amounts.calls i c hold
      · exact hnew
    · rw [howed, amountIn, if_neg (Ne.symm hy), add_zero]
    · rcases hwrites.rows i c hc with hold | ⟨hdebt, hcollateral, -⟩
      · by_cases hx : c.debtType = op.deltaDebt.assetId
        · obtain ⟨b', hb', hassets⟩ := hm.calls i c hold
          cases (hx ▸ hb).symm.trans hb'
          exact .inr ⟨hx, hassets⟩
        · exact .inl ⟨hold, hx⟩
      · exact .inr ⟨hdebt, hcollateral.trans hbacking, hopen⟩
    · obtain ⟨hsupply, hfund⟩ := hm.backed _ b hb hopen
      rw [hdb, hnotes.supply, howed, hsupply]
      exact ⟨rfl, hfund⟩
    · rw [BitassetData.hasSettlement, hp] at hopen
      cases hopen
  · have htotal : m'.total y = m.total y := by
      simp only [total, hdb, hlimits, hsettlements, hholds, henters y]
      omega
    have hgap : m'.supplyGap y = m.supplyGap y := by
      rw [supplyGap, supplyGap, hdb, hnotes.supply, howed]
      omega
    have hfunds : m'.funds y = m.funds y := funds_congr (hdb ▸ hnotes.nextId) hbitassets
    have hbidden : m'.bidden y = m.bidden y := by rw [bidden, bidden, hbids]
    rw [excess_eq, excess_eq, htotal, hgap, hfunds, hbidden]
  · exact hreplaces.keepsAssets

theorem checkPosition_carries {steps : Nat} {x : AssetId} {b : BitassetData} {id : Nat}
    {old : Option CallOrder} (h : m.checkPosition steps x b id old = some m') : m.Carries m' := by
  rw [checkPosition] at h
  split at h
  · cases h
    exact .refl _
  obtain ⟨⟨m1, called⟩, hcheck, h⟩ := bind_eq_some_iff.1 h
  refine (checkCallOrders_carries hcheck).trans ?_
  dsimp only at h
  split at h
  · split at h
    · cases h
    · cases h
      exact .refl _
  · obtain ⟨c, -, h⟩ := bind_eq_some_iff.1 h
    split at h
    · cases h
      exact .refl _
    · cases h

/-- The whole update: the position, its margin call and the check of it. -/
theorem callOrderUpdate_carries {steps : Nat} (h : m.callOrderUpdate steps op = some m') :
    m.Carries m' := by
  obtain ⟨-, h⟩ := ite_none_right_eq_some.1 h
  refine applyOperation_carries h fun db m1 hsilent hev hap => ?_
  obtain ⟨b, hb, hap⟩ := bind_eq_some_iff.1 hap
  obtain ⟨db1, hbook, hap⟩ := bind_eq_some_iff.1 hap
  obtain ⟨⟨m2, position⟩, hwrite, hap⟩ := bind_eq_some_iff.1 hap
  have hb0 : m.bitassets op.deltaDebt.assetId = some b := hb
  rw [callOrderUpdateEvaluate, hb0, any_some, Bool.and_eq_true, Bool.and_eq_true,
    decide_eq_true_iff, Bool.not_eq_true'] at hev
  refine (updatePosition_carries hb hev.1.1 hev.1.2 hbook hwrite).trans ?_
  cases position with
  | none =>
    cases hap
    exact .refl _
  | some p => exact checkPosition_carries hap

end Market

end CrowdwizChain
