import CrowdwizChain.Chain.ForceSettlement

/-!
# The supplies beside the margin positions

`current_supply` of a market-issued asset is kept by hand beside the margin positions whose debts it
sums up. `Database.Notes` is what a function enters into the supplies, and `Market.Squared` is that
they are as far from the debts as before. Every fill and every cancellation is of this kind,
whatever the amounts are.
-/

namespace CrowdwizChain

open Exchange Option Database Asset Table Transition

namespace Database

/-- `current_supply` of an asset. -/
def supplyOf (db : Database) (x : AssetId) : Int :=
  (db.assets.find x).elim 0 AssetObject.currentSupply

theorem supplyOf_eq {db : Database} {x : AssetId} {d : AssetObject}
    (h : db.assets.find x = some d) :
    db.supplyOf x = d.currentSupply := by rw [supplyOf, h, elim_some]

/-- `accumulated_fees` of an asset. -/
def feesOf (db : Database) (x : AssetId) : Int :=
  (db.assets.find x).elim 0 AssetObject.accumulatedFees

/-- No balance is negative. -/
def Solvent (db : Database) : Prop := ∀ k b, db.balances.lookup k = some b → 0 ≤ b.balance

variable {db db' db'' : Database} {a : AccountId} {ς : AssetId → Int}

/-- No balance becomes negative, and fees are only added to. -/
structure Touches (db db' : Database) : Prop where
  solvent : db.Solvent → db'.Solvent
  fees : ∀ x, db.feesOf x ≤ db'.feesOf x

theorem Touches.of_eq (hbalances : db'.balances = db.balances)
    (hfees : ∀ x, db.feesOf x ≤ db'.feesOf x) :
    Touches db db' := ⟨fun h k b hb => h k b (hbalances ▸ hb), hfees⟩

theorem Touches.refl (db : Database) : Touches db db := .of_eq rfl fun _ => le_refl _

theorem Touches.trans (h : Touches db db') (h' : Touches db' db'') : Touches db db'' :=
  ⟨fun hdb => h'.solvent (h.solvent hdb), fun x => (h.fees x).trans (h'.fees x)⟩

/-- `ς` is entered into the supplies. -/
structure Notes (db db' : Database) (ς : AssetId → Int) : Prop where
  touches : Touches db db'
  supply : ∀ x, db'.supplyOf x = db.supplyOf x + ς x
  nextId : db'.assets.nextId = db.assets.nextId

theorem Notes.refl (db : Database) : Notes db db fun _ => 0 :=
  ⟨.refl db, fun _ => (add_zero _).symm, rfl⟩

theorem Notes.congr {ς' : AssetId → Int} (h : Notes db db' ς) (hς : ∀ x, ς x = ς' x) :
    Notes db db' ς' where
  touches := h.touches
  supply x := by rw [h.supply, hς]
  nextId := h.nextId

/-- Nothing but balances and other books of the accounts is entered into. -/
abbrev Silent (db db' : Database) : Prop := Notes db db' fun _ => 0

theorem Silent.notes (h : Silent db db') (h' : Notes db' db'' ς) : Notes db db'' ς where
  touches := h.touches.trans h'.touches
  supply x := by rw [h'.supply, h.supply, add_zero]
  nextId := h'.nextId.trans h.nextId

theorem Notes.silent (h : Notes db db' ς) (h' : Silent db' db'') : Notes db db'' ς where
  touches := h.touches.trans h'.touches
  supply x := by rw [h'.supply, h.supply, add_zero]
  nextId := h'.nextId.trans h.nextId

theorem Silent.trans (h : Silent db db') (h' : Silent db' db'') : Silent db db'' := h.notes h'

theorem adjustBalance_touches {d : Asset} (h : db.adjustBalance a d = some db') :
    Touches db db' := by
  obtain ⟨m, hm, rfl⟩ := adjustBalance_eq_some h
  rcases Balances.adjust_cases hm with ⟨-, rfl⟩ | ⟨b, rfl, -, hnew, -, hcovered⟩
  · exact .of_eq rfl fun _ => le_refl _
  · refine ⟨fun hdb k b' hb' => ?_, fun _ => le_refl _⟩
    by_cases hkey : k = (a, d.assetId)
    · subst hkey
      cases (AList.lookup_insert _).symm.trans hb'
      have hold : 0 ≤ Balances.amountOf db.balances a d.assetId := by
        rw [Balances.amountOf]
        cases hrow : db.balances.lookup (a, d.assetId) with
        | none => exact le_refl _
        | some b0 => exact hdb _ b0 hrow
      omega
    · rw [AList.lookup_insert_ne hkey] at hb'
      exact hdb k b' hb'

theorem adjustBalance_silent {d : Asset} (h : db.adjustBalance a d = some db') : Silent db db' := by
  have htouches := adjustBalance_touches h
  obtain ⟨m, -, rfl⟩ := adjustBalance_eq_some h
  exact ⟨htouches, fun _ => (add_zero _).symm, rfl⟩

variable {f : AccountStatistics → AccountStatistics}

theorem modifyStatistics_silent (h : db.modifyStatistics a f = some db') : Silent db db' := by
  obtain ⟨s, -, rfl⟩ := modifyStatistics_eq_some h
  exact ⟨.of_eq rfl fun _ => le_refl _, fun _ => (add_zero _).symm, rfl⟩

theorem optionalStatistics_silent {p : Prop} [Decidable p]
    (h : (if p then db.modifyStatistics a f else some db) = some db') : Silent db db' :=
  optional_step h (fun _ => modifyStatistics_silent) (.refl _)

theorem modifyAsset_notes {x : AssetId} {f : AssetObject → AssetObject} {n : Int}
    (h : db.modifyAsset x f = some db')
    (hf : ∀ d, db.assets.find x = some d → (f d).currentSupply = d.currentSupply + n)
    (hfees : ∀ d, d.accumulatedFees ≤ (f d).accumulatedFees) :
    Notes db db' (amountIn ⟨n, x⟩) := by
  obtain ⟨d, hd, rfl⟩ := modifyAsset_eq_some h
  refine ⟨.of_eq rfl fun y => ?_, fun y => ?_, rfl⟩
  · simp only [feesOf, find_modify]
    by_cases heq : y = x
    · subst heq
      rw [if_pos rfl, hd]
      exact hfees d
    · rw [if_neg heq]
  · simp only [supplyOf, find_modify, amountIn]
    by_cases heq : y = x
    · subst heq
      rw [if_pos rfl, if_pos rfl, hd]
      exact hf d hd
    · rw [if_neg heq, if_neg (Ne.symm heq)]
      exact (add_zero _).symm

theorem modifyAsset_silent {x : AssetId} {f : AssetObject → AssetObject}
    (h : db.modifyAsset x f = some db') (hf : ∀ d, (f d).currentSupply = d.currentSupply)
    (hfees : ∀ d, d.accumulatedFees ≤ (f d).accumulatedFees) : Silent db db' :=
  (modifyAsset_notes (n := 0) h (fun d _ => (hf d).trans (add_zero _).symm) hfees).congr
    (amountIn_zero x)

theorem accumulateFees_silent {fees : Asset} (h : db.accumulateFees fees = some db')
    (hnonneg : 0 ≤ fees.amount) : Silent db db' :=
  modifyAsset_silent h (fun _ => rfl) fun d => show d.accumulatedFees ≤ d.accumulatedFees + _ by
    omega

end Database

namespace Market

/-- The debts of the margin positions, by asset. -/
def owed (m : Market) (x : AssetId) : Int := m.callOrders.sumBy fun _ c => c.getDebt.amountIn x

/-- How far the supply of an asset is from the sum of the debts. -/
def supplyGap (m : Market) (x : AssetId) : Int := m.db.supplyOf x - m.owed x

/-- **The supplies are as far from the debts as before**, and nothing else is changed than books,
orders, and the amounts of margin positions. -/
structure Squared (m m' : Market) : Prop where
  touches : m.db.Touches m'.db
  nextId : m'.db.assets.nextId = m.db.assets.nextId
  supply : ∀ x, m'.supplyGap x = m.supplyGap x
  bitassets : m'.bitassets = m.bitassets
  bids : m'.collateralBids = m.collateralBids
  calls : ∀ i c', m'.callOrders.find i = some c' → ∃ c, m.callOrders.find i = some c ∧
    c'.debtType = c.debtType ∧ c'.collateralType = c.collateralType

variable {id : Nat} {pays receives : Asset} {cull gone : Bool} {db : Database}

theorem Squared.refl (m : Market) : m.Squared m :=
  ⟨.refl _, rfl, fun _ => rfl, rfl, rfl, fun _ c hc => ⟨c, hc, rfl, rfl⟩⟩

theorem Squared.trans {m m' m'' : Market} (h : m.Squared m') (h' : m'.Squared m'') :
    m.Squared m'' where
  touches := h.touches.trans h'.touches
  nextId := h'.nextId.trans h.nextId
  supply x := (h'.supply x).trans (h.supply x)
  bitassets := h'.bitassets.trans h.bitassets
  bids := h'.bids.trans h.bids
  calls i c'' hc'' := by
    obtain ⟨c', hc', hdebt', hcollateral'⟩ := h'.calls i c'' hc''
    obtain ⟨c, hc, hdebt, hcollateral⟩ := h.calls i c' hc'
    exact ⟨c, hc, hdebt'.trans hdebt, hcollateral'.trans hcollateral⟩

variable {m m' : Market}

/-- Limit orders change in any way, and margin positions by what is entered. -/
theorem Squared.of_notes {l : Table LimitOrder} {t : Table CallOrder} {ς : AssetId → Int}
    (h : m.db.Notes db ς)
    (howed : ∀ x, t.sumBy (fun _ c => c.getDebt.amountIn x) = m.owed x + ς x)
    (hcalls : ∀ i c', t.find i = some c' → ∃ c, m.callOrders.find i = some c ∧
      c'.debtType = c.debtType ∧ c'.collateralType = c.collateralType) :
    m.Squared { m with db := db, limitOrders := l, callOrders := t } where
  touches := h.touches
  nextId := h.nextId
  supply x := by
    show db.supplyOf x - t.sumBy _ = m.db.supplyOf x - m.owed x
    rw [howed, h.supply]
    omega
  bitassets := rfl
  bids := rfl
  calls := hcalls

theorem squared_limitOrders (h : m.db.Silent db) (t : Table LimitOrder) :
    m.Squared { m with db := db, limitOrders := t } :=
  .of_notes h (fun _ => (add_zero _).symm) fun _ c hc => ⟨c, hc, rfl, rfl⟩

theorem squared_db (h : m.db.Silent db) : m.Squared { m with db := db } := squared_limitOrders h _

/-! ### Limit orders -/

theorem payOrder_silent {receiver : AccountId} (h : m.payOrder receiver receives pays = some db) :
    m.db.Silent db := by
  obtain ⟨-, -, h⟩ := bind_eq_some_iff.1 h
  obtain ⟨db1, h1, h⟩ := bind_eq_some_iff.1 h
  obtain ⟨db2, h2, h3⟩ := bind_eq_some_iff.1 h
  have hfees : m.db.Silent db1 :=
    optional_step h1 (fun hpos h1 => accumulateFees_silent h1 hpos.le) (.refl _)
  exact (hfees.trans (modifyStatistics_silent h2)).trans (adjustBalance_silent h3)

theorem payDeferredFee_silent {db' : Database} {o : LimitOrder}
    (h : payDeferredFee db o = some db') :
    db.Silent db' := by
  obtain ⟨db1, h1, h2⟩ := bind_eq_some_iff.1 h
  have hcore := optionalStatistics_silent h1
  have hpaid : db1.Silent db' :=
    optional_step h2 (fun hpos h2 => accumulateFees_silent h2 hpos.le) (.refl _)
  exact hcore.trans hpaid

theorem refundLimitOrder_silent {o : LimitOrder} {createVirtualOp : Bool}
    (h : m.refundLimitOrder o createVirtualOp = some db) : m.db.Silent db := by
  rw [refundLimitOrder] at h
  generalize hcancel : (if createVirtualOp && 0 < o.deferredFee then
    min m.limitOrderCancelFee o.deferredFee else 0) = cancelFee at h
  have hpaidFee : 0 ≤ if 0 < cancelFee ∧ o.deferredPaidFee.amount ≠ 0 then
      up o.deferredFee cancelFee o.deferredPaidFee.amount else 0 := by
    split
    · next hpos =>
      split at hcancel
      · next hfee =>
        rw [Bool.and_eq_true, decide_eq_true_iff] at hfee
        exact up_nonneg hfee.2 hpos.1.le o.fee_nonneg.2
      · omega
    · exact le_refl _
  generalize (if 0 < cancelFee ∧ o.deferredPaidFee.amount ≠ 0 then
    up o.deferredFee cancelFee o.deferredPaidFee.amount else 0) = paidCancelFee at h hpaidFee
  obtain ⟨db1, h1, h⟩ := bind_eq_some_iff.1 h
  obtain ⟨db2, h2, h⟩ := bind_eq_some_iff.1 h
  obtain ⟨db3, h3, h⟩ := bind_eq_some_iff.1 h
  obtain ⟨db4, h4, h⟩ := bind_eq_some_iff.1 h
  have hfee := optionalStatistics_silent h1
  have hpaid : db1.Silent db2 :=
    optional_step h2 (fun _ h2 => accumulateFees_silent h2 hpaidFee) (.refl _)
  have horders := optionalStatistics_silent h3
  have hback : db4.Silent db := by
    split at h
    · exact adjustBalance_silent h
    · obtain ⟨db5, h5, h6⟩ := bind_eq_some_iff.1 h
      exact (adjustBalance_silent h5).trans (modifyAsset_silent h6 (fun _ => rfl) fun _ =>
        le_refl _)
  exact (((hfee.trans hpaid).trans horders).trans (adjustBalance_silent h4)).trans hback

theorem cancelLimitOrder_squared {createVirtualOp : Bool}
    (h : m.cancelLimitOrder id createVirtualOp = some m') : m.Squared m' := by
  obtain ⟨⟨o, db, ho, hrefund, rfl⟩, -⟩ := cancelLimitOrder_eq_some h
  exact squared_limitOrders (refundLimitOrder_silent hrefund) _

/-- **A limit order that is filled** leaves the supplies squared, whatever it pays and receives. -/
theorem fillLimitOrder_eq_some (h : m.fillLimitOrder id pays receives cull = some (m', gone)) :
    ∃ o, m.FillsLimit id o pays receives cull m' gone ∧ m.Squared m' := by
  obtain ⟨o, ho, h⟩ := bind_eq_some_iff.1 h
  refine ⟨o, ?_⟩
  obtain ⟨hassets, h⟩ := ite_none_right_eq_some.1 h
  obtain ⟨db1, hpay, h⟩ := bind_eq_some_iff.1 h
  obtain ⟨db2, hfee, h⟩ := bind_eq_some_iff.1 h
  have henters : 0 ≤ receives.amount → m.db.Enters db2 fun x =>
      receives.amountIn x + ((core o.deferredFee).amountIn x + o.deferredPaidFee.amountIn x) :=
    fun hnonneg => (payOrder_enters hnonneg hpay).trans (payDeferredFee_enters hfee)
  have hcredits : m.db.Gives db2 [(o.seller, m.proceeds receives)] :=
    (payOrder_credits hpay).trans (payDeferredFee_credits hfee)
  have hsilent := (payOrder_silent hpay).trans (payDeferredFee_silent hfee)
  split at h
  · next heq =>
    cases h
    refine ⟨⟨ho, hassets.1, ⟨db2, rfl⟩, fun _ => .inl heq, by simp, fun a s => ?_,
      fun hnonneg x => ?_⟩, squared_limitOrders hsilent _⟩
    · -- nothing is left to give back
      rw [hcredits a s]
      simp [Balances.given, LimitOrder.amountForSale, LimitOrder.rest, heq]
    · rw [total_orders (henters hnonneg), sumBy_remove _ ho, heq]
      simp only [LimitOrder.holds]
      omega
  · next hne =>
    -- the order with its rest
    have htotal : 0 ≤ receives.amount → ∀ x, Market.total { m with
        db := db2, limitOrders := m.limitOrders.modify id (·.rest pays.amount) } x =
          m.total x + receives.amountIn x - pays.amountIn x := by
      intro hnonneg x
      rw [total_orders (henters hnonneg), sumBy_modify _ _ ho, LimitOrder.holds_rest o hassets.1]
      simp only [LimitOrder.holds]
      omega
    have hsquared : m.Squared { m with
        db := db2, limitOrders := m.limitOrders.modify id (·.rest pays.amount) } :=
      squared_limitOrders hsilent _
    split at h
    · next hcull =>
      obtain ⟨o', ho', h⟩ := bind_eq_some_iff.1 h
      rw [find_modify_self, ho] at ho'
      obtain rfl : o.rest pays.amount = o' := some.inj ho'
      obtain ⟨v, hv, hresult⟩ := bind_eq_some_iff.1 h
      split at hresult
      · next hzero =>
        obtain ⟨m1, hcancel, hresult⟩ := map_eq_some_iff.1 hresult
        cases hresult
        have hsquared := hsquared.trans (cancelLimitOrder_squared hcancel)
        obtain ⟨⟨o', db3, ho', hrefund, rfl⟩, hsame⟩ := cancelLimitOrder_eq_some hcancel
        rw [find_modify_self, ho] at ho'
        obtain rfl : o.rest pays.amount = o' := some.inj ho'
        refine ⟨⟨ho, hassets.1, ⟨db3, ?_⟩, fun _ => .inr ⟨hcull, v, hv, hzero⟩, by simp,
          hcredits.trans (refundLimitOrder_credits hrefund),
          fun hnonneg x => (hsame x).trans (htotal hnonneg x)⟩, hsquared⟩
        rw [remove_modify]
        rfl
      · next hnonzero =>
        cases hresult
        exact ⟨⟨ho, hassets.1, ⟨db2, rfl⟩, by simp, fun _ => ⟨hne, fun _ => ⟨v, hv, hnonzero⟩⟩,
          hcredits, htotal⟩, hsquared⟩
    · next hcull =>
      cases h
      exact ⟨⟨ho, hassets.1, ⟨db2, rfl⟩, by simp, fun _ => ⟨hne, fun hc => absurd hc hcull⟩,
        hcredits, htotal⟩, hsquared⟩

/-! ### Margin positions and settlement orders -/

/-- **A margin position that is filled** leaves the supplies squared. -/
theorem fillCallOrder_eq_some {closed : Bool}
    (h : m.fillCallOrder id pays receives = some (m', closed)) :
    ∃ c, m.FillsCall id c pays receives m' closed ∧ m.Squared m' := by
  obtain ⟨c, hc, h⟩ := bind_eq_some_iff.1 h
  refine ⟨c, ?_⟩
  obtain ⟨⟨hdebt, hcollateral, hle⟩, h⟩ := ite_none_right_eq_some.1 h
  obtain ⟨bitasset, -, h⟩ := bind_eq_some_iff.1 h
  obtain ⟨db1, h1, h⟩ := bind_eq_some_iff.1 h
  obtain ⟨db2, h2, h⟩ := bind_eq_some_iff.1 h
  obtain ⟨db3, h3, h⟩ := bind_eq_some_iff.1 h
  -- the supply is not in the books, and the statistics only say what is in orders
  have henters1 := modifySupply_enters h1 (fun _ => rfl) fun _ => rfl
  have henters3 := outOfOrders_enters h3
  have hsupply := modifyAsset_notes (n := -receives.amount) h1
    (fun d _ => show _ - _ = _ + -_ by omega) fun _ => le_refl _
  have hfreed : db1.Silent db2 := optional_step h2 (fun _ => adjustBalance_silent) (.refl _)
  have horders := optionalStatistics_silent h3
  have hnotes := (hsupply.silent hfreed).silent horders
  by_cases hclosed : c.debt - receives.amount = 0
  · rw [if_pos hclosed] at h h2
    cases h
    have henters := (henters1.trans (adjustBalance_enters h2)).trans henters3
    refine ⟨⟨hc, hdebt, hcollateral, hle, ⟨fun _ => by omega, fun _ => rfl⟩,
      ⟨db3, c.callPrice, rfl, rfl, rfl⟩, fun x => ?_⟩,
      Squared.of_notes hnotes (fun x => ?_) fun i c' hc' => ?_⟩
    · rw [total_orders henters, sumBy_remove _ hc]
      simp only [CallOrder.holds, CallOrder.getCollateral, CallOrder.getDebt, hdebt,
        hcollateral, amountIn]
      split <;> split <;> omega
    · rw [owed, sumBy_remove _ hc, CallOrder.getDebt, hdebt]
      simp only [amountIn]
      split <;> omega
    · exact ⟨c', (find_of_remove hc'), rfl, rfl⟩
  · rw [if_neg hclosed] at h h2
    obtain ⟨callPrice, hprice, h⟩ := map_eq_some_iff.1 h
    cases h
    cases h2
    have henters := henters1.trans henters3
    obtain ⟨hbase, hquote⟩ := Price.callPrice_assetId hprice
    refine ⟨⟨hc, hdebt, hcollateral, hle, ⟨by simp, fun heq => absurd heq (by omega)⟩,
      ⟨db3, callPrice, rfl, hbase, hquote⟩, fun x => ?_⟩,
      Squared.of_notes hnotes (fun x => ?_) fun i c' hc' => ?_⟩
    · rw [total_orders henters, sumBy_modify _ _ hc]
      simp only [CallOrder.holds, CallOrder.getCollateral, CallOrder.getDebt, CallOrder.debtType,
        CallOrder.collateralType, hbase, hquote] at hdebt hcollateral ⊢
      simp only [amountIn, hdebt, hcollateral]
      split <;> split <;> omega
    · rw [owed, sumBy_modify _ _ hc]
      simp only [CallOrder.getDebt, CallOrder.debtType, hquote] at hdebt ⊢
      simp only [amountIn, hdebt]
      split <;> omega
    · rcases find_modify_cases hc' hc with ⟨rfl, rfl⟩ | hc'
      · exact ⟨c, hc, hquote, hbase⟩
      · exact ⟨c', hc', rfl, rfl⟩

theorem squared_settlements (h : m.db.Silent db) (t : Table ForceSettlement) :
    m.Squared { m with db := db, settlements := t } :=
  ⟨h.touches, h.nextId, (squared_db h).supply, rfl, rfl, fun _ c hc => ⟨c, hc, rfl, rfl⟩⟩

end Market

end CrowdwizChain
