import CrowdwizChain.Chain.BitassetUpdate

/-!
# Bids, settlements, and what issuers and publishers do

The other operations on market-issued assets. `asset_settle` of a globally settled asset pays out of
the fund; what is taken off the supply for it is the least amount that is worth as much, so that the
fund stays worth the supply. All of the supply is paid with all of the fund, rounding included. This
is where the amount must not be more than the supply: such an amount can take the supply to zero or
below it and leave something in the fund.
-/

namespace CrowdwizChain

open Exchange Option Database Asset Table Transition

namespace Market

variable {m m' : Market}

/-! ### `bid_collateral` -/

variable {x : AssetId} {pays settled : Asset} {steps : Nat} {feed : PriceFeed}

/-- A bid moves collateral from the balance into the bid. -/
theorem bidCollateral_carries {op : BidCollateralOperation} (h : m.bidCollateral op = some m') :
    m.Carries m' := by
  obtain ⟨hvalid, h⟩ := ite_none_right_eq_some.1 h
  refine applyOperation_carries h fun db m1 hsilent hev hap => ?_
  obtain ⟨m2, hcancel, hap⟩ := bind_eq_some_iff.1 hap
  have hcancelled : Carries { m with db := db } m2 ∧ m2.bitassets = m.bitassets := by
    split at hcancel
    · cases hcancel
      exact ⟨.refl _, rfl⟩
    · refine ⟨cancelBid_carries hcancel, ?_⟩
      obtain ⟨bid, db', -, -, rfl⟩ := cancelBid_eq_some hcancel
      rfl
  refine hcancelled.1.trans ?_
  split at hap
  · cases hap
    exact .refl _
  next hdebt =>
  split at hap
  · cases hap
  obtain ⟨db', hdb', rfl⟩ := map_eq_some_iff.1 hap
  obtain ⟨b, hb, hchecks⟩ := (any_eq_true _ _).1 hev
  simp only [Bool.and_eq_true, decide_eq_true_iff] at hchecks
  obtain ⟨⟨⟨⟨hsettled, hbacking⟩, -⟩, -⟩, -⟩ := hchecks
  refine carries_bids (adjustBalance_silent hdb') (adjustBalance_enters hdb')
    (fun y => ?_) fun hm i bid hbid => ?_
  · rw [sumBy_create, amountIn_neg, sub_neg_eq_add]
    rfl
  · rcases find_create_cases hbid with ⟨-, rfl⟩ | hbid
    · have hamounts := of_decide_eq_true hvalid
      rw [hcancelled.2]
      exact ⟨by dsimp only; omega, by dsimp only; omega, b, hb, hbacking, hsettled⟩
    · exact hm.bids i bid hbid

/-! ### `asset_settle` -/

/-- **The fund stays worth the supply**, if the amount is one of the supply. -/
theorem settleTerms_spec {b : BitassetData} {p : Price} {supply : Int} {amount : Asset}
    (hb : b.SettledAt x p supply) (hasset : amount.assetId = x) (hamount : 0 ≤ amount.amount)
    (hle : amount.amount ≤ supply) (h : settleTerms b p supply amount = some (settled, pays)) :
    settled.assetId = b.options.shortBackingAsset ∧ pays.assetId = x ∧ 0 ≤ settled.amount ∧
      BitassetData.SettledAt { b with settlementFund := b.settlementFund - settled.amount } x p
        (supply - pays.amount) := by
  obtain ⟨value, hvalue, h⟩ := bind_eq_some_iff.1 h
  obtain ⟨n, id⟩ := amount
  dsimp only at hasset hamount hle h
  obtain rfl := hasset.trans hb.base.symm
  obtain ⟨rfl, -⟩ := mulWith_base hvalue
  split at h
  · next hall =>
    split at h
    · cases h
    cases h
    refine ⟨hb.quote, hb.base, hb.fund_nonneg, { hb with
      supply_nonneg := ?_, covered := ?_, empty := fun _ => sub_self _ }⟩
    · dsimp only
      omega
    · rw [hall, sub_self, sub_self, zero_mul, zero_mul]
  next hpart =>
  have hcovered := hb.covered
  split at h
  · cases h
  split at h
  · next hzero =>
    -- in a prediction market something can be worth nothing
    cases h
    have hless : (supply - n) * p.quote.amount ≤ supply * p.quote.amount :=
      Int.mul_le_mul_of_nonneg_right (by omega) hb.quote_nonneg
    refine ⟨hb.quote, hb.base, hzero.ge, { hb with
      supply_nonneg := ?_, covered := ?_, empty := fun hempty => ?_ }⟩
    · dsimp only
      omega
    · rw [hzero, sub_zero]
      exact hless.trans hcovered
    · dsimp only at hempty
      omega
  · next hvalued hsome =>
    obtain ⟨rounded, hrounded, h⟩ := map_eq_some_iff.1 h
    cases h
    obtain ⟨rfl, hquote, -⟩ := mulWith_quote hb.ne hrounded
    have hround := up_down_le (x := n) hb.base_pos hquote
    have hworth := (up_le_iff_mul (k := down p.base.amount p.quote.amount n) (q := p.base.amount)
      hquote).1 (le_refl _)
    have hnonneg := down_nonneg hb.base_pos hquote.le hamount
    refine ⟨hb.quote, hb.base, hnonneg, { hb with
      supply_nonneg := ?_, covered := ?_, empty := fun hempty => ?_ }⟩
    · dsimp only
      omega
    · dsimp only
      rw [Int.sub_mul, Int.sub_mul]
      omega
    · dsimp only at hempty
      omega

theorem settleFromFund_books {account : AccountId}
    (h : m.settleFromFund x account settled pays = some m') :
    ∃ db, m' = ({ m with db := db } : Market).modifyBitasset x (fun b =>
        { b with settlementFund := b.settlementFund - if 0 < settled.amount then
          settled.amount else 0 })
        (fun _ => ⟨rfl, rfl⟩) ∧
      m.db.Notes db (amountIn ⟨-pays.amount, x⟩) ∧
      m.db.Enters db fun y => (if 0 < settled.amount then settled.amountIn y else 0) -
      pays.amountIn y := by
  obtain ⟨db1, hpays, h⟩ := bind_eq_some_iff.1 h
  obtain ⟨db2, hsettled, h⟩ := bind_eq_some_iff.1 h
  obtain ⟨db, hsupply, rfl⟩ := map_eq_some_iff.1 h
  have hnotes := modifyAsset_notes (n := -pays.amount) hsupply
    (fun d _ => show _ - _ = _ + -_ by omega) fun _ => le_refl _
  have henters := modifySupply_enters hsupply (fun _ => rfl) fun _ => rfl
  have hpaid := adjustBalance_enters hpays
  refine ⟨db, rfl, ?_⟩
  split at hsettled
  · next hpos =>
    have hreceived := adjustBalance_enters hsettled
    refine ⟨((adjustBalance_silent hpays).trans (adjustBalance_silent hsettled)).notes hnotes,
      ((hpaid.trans hreceived).trans henters).congr fun y => ?_⟩
    rw [amountIn_neg, if_pos hpos]
    omega
  · next hnone =>
    cases hsettled
    refine ⟨(adjustBalance_silent hpays).notes hnotes, (hpaid.trans henters).congr fun y => ?_⟩
    rw [amountIn_neg, if_neg hnone]
    omega

/-- What is settled from the fund is worth what leaves the supply. -/
theorem settleFromFund_carries {account : AccountId} {b : BitassetData} {p : Price}
    (hb : m.bitassets x = some b) (hp : b.settlementPrice = some p)
    (hspec : m.Sound → settled.assetId = b.options.shortBackingAsset ∧ pays.assetId = x ∧
      0 ≤ settled.amount ∧ BitassetData.SettledAt
        { b with settlementFund := b.settlementFund - settled.amount } x p
        (m.db.supplyOf x - pays.amount)) (h : m.settleFromFund x account settled pays = some m') :
    m.Carries m' := by
  obtain ⟨db, heq, hnotes, henters⟩ := settleFromFund_books h
  have hsettled := BitassetData.hasSettlement_eq hp
  refine .of_sound fun hm => ?_
  obtain ⟨hbacking, hpays, hnonneg, hrest⟩ := hspec hm
  have hamount : (if 0 < settled.amount then settled.amount else 0) = settled.amount := by
    split <;> omega
  have hself : ({ m with db := db } : Market).bitassets x = some b := hb
  have hreplaces := replaces_modifyBitasset heq hb rfl hnotes.nextId fun {y} hy =>
    (hnotes.supply y).trans (by rw [amountIn, if_neg (Ne.symm hy), add_zero])
  subst heq
  refine ⟨fun _ => hnotes.touches, fun _ => ?_, fun _ y => ?_, fun _ => hreplaces.keepsAssets⟩
  · refine hreplaces.sound hm ⟨hm.amounts.limits, hm.amounts.calls, hm.amounts.settlements⟩
      (fun _ => rfl) (fun i c hc => .inl ⟨hc, hm.no_call hb hsettled i c hc⟩)
      (fun i bid hbid => ⟨hbid, fun _ hsettled => ⟨rfl, hsettled⟩⟩)
      (fun hopen => by cases hsettled.symm.trans hopen) fun p' hp' => ?_
    cases hp.symm.trans hp'
    show BitassetData.SettledAt _ x p (db.supplyOf x)
    rw [hnotes.supply, amountIn, if_pos rfl, ← sub_eq_add_neg, hamount]
    exact hrest
  · have hfunds : ({ m with db := db } : Market).funds y = m.funds y := by
      show ∑ z ∈ Finset.range db.assets.nextId, _ = _
      rw [hnotes.nextId]
      rfl
    have htotal := total_db henters y
    rw [excess, excess, held_eq, held_eq, funds_modifyBitasset hself
      (show x < db.assets.nextId from hnotes.nextId.symm ▸ hm.known x b hb), hfunds]
    show ({ m with db := db } : Market).total y + m.owed y + m.bidden y + _ - db.supplyOf y = _
    rw [htotal, hnotes.supply]
    simp only [BitassetData.fundIn, amountIn, hbacking, hpays, hamount]
    split <;> split <;> split <;> omega

/-- **`asset_settle`**, of an amount that is one of the supply if the asset is globally settled -/
theorem assetSettle_carries {op : AssetSettleOperation} (h : m.assetSettle op = some m')
    (hle : ∀ b, m.bitassets op.amount.assetId = some b → b.hasSettlement = true →
      op.amount.amount ≤ m.db.supplyOf op.amount.assetId) : m.Carries m' := by
  obtain ⟨hnonneg, h⟩ := ite_none_right_eq_some.1 h
  refine applyOperation_carries h fun db m1 hsilent hev hap => ?_
  obtain ⟨b, hb, hap⟩ := bind_eq_some_iff.1 hap
  split at hap
  · next p hp =>
    obtain ⟨d, hd, hap⟩ := bind_eq_some_iff.1 hap
    obtain ⟨⟨settled, pays⟩, hterms, hap⟩ := bind_eq_some_iff.1 hap
    have hsupply : db.supplyOf op.amount.assetId = d.currentSupply := supplyOf_eq hd
    have hsame := hsilent.supply op.amount.assetId
    have hbound := hle b hb (BitassetData.hasSettlement_eq hp)
    refine settleFromFund_carries hb hp (fun hm => ?_) hap
    rw [← hsupply] at hterms
    exact settleTerms_spec (hm.settled _ b p hb hp) rfl hnonneg
      (show _ ≤ db.supplyOf _ by omega) hterms
  · obtain ⟨db', hdb', rfl⟩ := map_eq_some_iff.1 hap
    refine (squared_settlements (adjustBalance_silent hdb') _).carries
      (fun hm => ⟨hm.limits, hm.calls, fun i s hs => ?_⟩) fun _ y => ?_
    · rcases find_create_cases hs with ⟨-, rfl⟩ | hs
      · exact hnonneg
      · exact hm.settlements i s hs
    rw [total_orders (adjustBalance_enters hdb'), sumBy_create, amountIn_neg]
    dsimp only
    omega

/-! ### Global settlement by the issuer -/

theorem assetGlobalSettle_carries {op : AssetGlobalSettleOperation}
    (h : m.assetGlobalSettle op = some m') : m.Carries m' := by
  obtain ⟨hasset, h⟩ := ite_none_right_eq_some.1 h
  refine applyOperation_carries h fun db m1 hsilent hev hap => ?_
  obtain ⟨b, hb, hchecks⟩ := (any_eq_true _ _).1 hev
  simp only [Bool.and_eq_true, decide_eq_true_iff] at hchecks
  obtain ⟨⟨⟨⟨-, hsome⟩, -⟩, hquote⟩, -⟩ := hchecks
  obtain ⟨d, hd, hpos⟩ := (any_eq_true _ _).1 hsome
  refine globallySettleAsset_carries hap fun _ => ⟨⟨hasset.symm, hquote⟩, ?_⟩
  rw [hsilent.supply, add_zero, supplyOf_eq hd]
  exact of_decide_eq_true hpos

/-! ### Feeds -/

theorem setFeed_carries {options : BitassetOptions} (h : m.setFeed x options feed = some m')
    (hbacking : ∀ b, m.bitassets x = some b →
        options.shortBackingAsset = b.options.shortBackingAsset ∨
        b.hasSettlement = false ∧ m.db.supplyOf x = 0) : m.Carries m' := by
  rw [setFeed] at h
  split at h
  swap
  · cases h
  cases h
  refine carries_bitassets (fun y b hb => ?_) (fun y hb => ?_) rfl rfl rfl rfl rfl
  · by_cases hy : y = x
    · subst hy
      refine ⟨{ b with options := options, currentFeed := feed }, ?_, rfl, rfl, hbacking b hb⟩
      show (if y = y then (m.bitassets y).map _ else _) = _
      rw [if_pos rfl, hb]
      rfl
    · exact ⟨b, (if_neg hy).trans hb, .refl m y b⟩
  · show (if y = x then (m.bitassets y).map _ else m.bitassets y) = none
    rw [hb]
    exact ite_self _

theorem feedThenCalls_carries {options : BitassetOptions} {check : Bool}
    (h : m.feedThenCalls steps x options feed check = some m')
      (hbacking : ∀ b, m.bitassets x = some b →
      options.shortBackingAsset = b.options.shortBackingAsset ∨
        b.hasSettlement = false ∧ m.db.supplyOf x = 0) : m.Carries m' := by
  obtain ⟨m1, hset, h⟩ := bind_eq_some_iff.1 h
  refine (setFeed_carries hset hbacking).trans ?_
  split at h
  · obtain ⟨⟨m2, called⟩, hcheck, rfl⟩ := map_eq_some_iff.1 h
    exact checkCallOrders_carries hcheck
  · cases h
    exact .refl _

/-- A feed may revive the asset, or call and settle its positions. -/
theorem assetPublishFeed_carries {op : AssetPublishFeedOperation}
    (h : m.assetPublishFeed steps op = some m') : m.Carries m' := by
  refine applyOperation_carries h fun db m1 _ _ hap => ?_
  obtain ⟨b, hb, hap⟩ := bind_eq_some_iff.1 hap
  obtain ⟨m2, hset, hap⟩ := bind_eq_some_iff.1 hap
  refine (setFeed_carries hset fun b' hb' => .inl ?_).trans ?_
  · rw [some.inj (hb.symm.trans hb')]
  split at hap
  · cases hap
    exact .refl _
  obtain ⟨m3, hrevive, hap⟩ := bind_eq_some_iff.1 hap
  obtain ⟨⟨m4, called⟩, hcheck, rfl⟩ := map_eq_some_iff.1 hap
  refine Carries.trans ?_ (checkCallOrders_carries hcheck)
  split at hrevive
  · obtain ⟨carries, -, hrevive⟩ := bind_eq_some_iff.1 hrevive
    exact optional_step hrevive (fun _ => reviveBitasset_carries) (.refl _)
  · cases hrevive
    exact .refl _

/-- What backs an asset is changed only as long as there is no supply. -/
theorem assetUpdateBitasset_carries {op : AssetUpdateBitassetOperation}
    (h : m.assetUpdateBitasset steps op = some m') : m.Carries m' := by
  refine applyOperation_carries h fun db m1 hsilent hev hap => ?_
  obtain ⟨b0, hb0, hchecks⟩ := (any_eq_true _ _).1 hev
  obtain ⟨b1, -, hap⟩ := bind_eq_some_iff.1 hap
  refine feedThenCalls_carries hap fun b hb => ?_
  cases hb0.symm.trans hb
  simp only [Bool.and_eq_true, Bool.or_eq_true, Bool.not_eq_true', decide_eq_true_iff] at hchecks
  obtain ⟨⟨⟨-, hopen⟩, -⟩, hsame | ⟨⟨hempty, -⟩, -⟩⟩ := hchecks
  · exact .inl hsame
  · obtain ⟨d, hd, hzero⟩ := (any_eq_true _ _).1 hempty
    refine .inr ⟨hopen, ?_⟩
    rw [hsilent.supply, add_zero, supplyOf_eq hd]
    exact of_decide_eq_true hzero

theorem assetUpdateFeedProducers_carries {op : AssetUpdateFeedProducersOperation}
    (h : m.assetUpdateFeedProducers steps op = some m') : m.Carries m' := by
  refine applyOperation_carries h fun db m1 _ _ hap => ?_
  obtain ⟨b, hb, hap⟩ := bind_eq_some_iff.1 hap
  refine feedThenCalls_carries hap fun b' hb' => .inl ?_
  rw [some.inj (hb.symm.trans hb')]

theorem updateExpiredFeed_carries (h : m.updateExpiredFeed steps x feed = some m') :
    m.Carries m' := by
  obtain ⟨b, hb, h⟩ := bind_eq_some_iff.1 h
  refine feedThenCalls_carries h fun b' hb' => .inl ?_
  rw [some.inj (hb.symm.trans hb')]

/-! ### Assets -/

theorem assetUpdate_carries {op : AssetUpdateOperation} (h : m.assetUpdate op = some m') :
    m.Carries m' := by
  refine applyOperation_carries h fun db m1 _ _ hap => ?_
  obtain ⟨b, -, hap⟩ := bind_eq_some_iff.1 hap
  obtain ⟨m2, hcancel, rfl⟩ := map_eq_some_iff.1 hap
  have hcancelled : Carries { m with db := db } m2 :=
    optional_step hcancel (fun _ => Transition.foldlM_rel (R := Carries) Carries.refl Carries.trans
        (fun h => cancelSettleOrder_carries h)) (.refl _)
  have hoptions : m2.Carries { m2 with marketFeeOptions := fun y =>
      if y = op.assetToUpdate then op.newMarketFeeOptions else m2.marketFeeOptions y } :=
    carries_bitassets (fun y b hb => ⟨b, hb, .refl m2 y b⟩) (fun _ hb => hb) rfl rfl rfl rfl rfl
  exact hcancelled.trans (hoptions.trans (modifyBitasset_carries fun _ => ⟨rfl, rfl⟩))

section AssetCreate

variable {op : AssetCreateOperation} {coreFee : Int}

theorem elim_find_create {ρ : Type} {t : Table ρ} {r : ρ} (f : ρ → Int) (hr : f r = 0) (y : Nat) :
    ((t.create r).find y).elim 0 f = (t.find y).elim 0 f := by
  rw [find_create]
  split
  · next heq =>
    rw [heq, find_nextId]
    exact hr
  · rfl

theorem supplyOf_createBitasset (m : Market) (op : AssetCreateOperation) (coreFee : Int)
    (y : AssetId) :
    (m.createBitasset op coreFee).db.supplyOf y = m.db.supplyOf y :=
  elim_find_create AssetObject.currentSupply rfl y

theorem createBitasset_sound (hm : m.Sound) : (m.createBitasset op coreFee).Sound := by
  have hother : ∀ y b, m.bitassets y = some b →
      (m.createBitasset op coreFee).bitassets y = some b := by
    intro y b hb
    exact (if_neg (Nat.ne_of_lt (hm.known y b hb))).trans hb
  have hcases : ∀ y b, (m.createBitasset op coreFee).bitassets y = some b →
      y = m.db.assets.nextId ∧ b.settlementPrice = none ∧ b.settlementFund = 0 ∨
      m.bitassets y = some b := by
    intro y b hb
    by_cases hy : y = m.db.assets.nextId
    · cases (if_pos hy).symm.trans hb
      exact .inl ⟨hy, rfl, rfl⟩
    · exact .inr ((if_neg hy).symm.trans hb)
  refine ⟨⟨hm.amounts.limits, hm.amounts.calls, hm.amounts.settlements⟩, fun i c hc => ?_,
    fun i bid hbid => ?_, fun y b hb => ?_, fun y b hb hopen => ?_, fun y b p hb hp => ?_⟩
  · obtain ⟨b, hb, hrest⟩ := hm.calls i c hc
    exact ⟨b, hother _ b hb, hrest⟩
  · obtain ⟨hbase, hquote, b, hb, hrest⟩ := hm.bids i bid hbid
    exact ⟨hbase, hquote, b, hother _ b hb, hrest⟩
  · show y < m.db.assets.nextId + 1
    rcases hcases y b hb with ⟨rfl, -⟩ | hb
    · exact Nat.lt_succ_self _
    · exact Nat.lt_succ_of_lt (hm.known y b hb)
  · rw [supplyOf_createBitasset]
    rcases hcases y b hb with ⟨rfl, -, hfund⟩ | hb
    · -- nothing is owed of an asset that was not there
      have hno : m.owed m.db.assets.nextId = 0 := by
        refine owed_eq_zero fun i c hc heq => ?_
        obtain ⟨b', hb', -⟩ := hm.calls i c hc
        exact Nat.ne_of_lt (hm.known _ b' hb') heq
      refine ⟨?_, hfund⟩
      show m.db.supplyOf _ = m.owed _
      rw [hno, supplyOf, find_nextId]
      rfl
    · exact hm.backed y b hb hopen
  · rw [supplyOf_createBitasset]
    rcases hcases y b hb with ⟨-, hnone, -⟩ | hb
    · rw [hnone] at hp
      cases hp
    · exact hm.settled y b p hb hp

theorem excess_createBitasset (m : Market) (op : AssetCreateOperation) (coreFee : Int)
    (y : AssetId) :
    (m.createBitasset op coreFee).excess y = m.excess y + (core (coreFee / 2)).amountIn y := by
  have hbooked : (m.createBitasset op coreFee).db.booked y =
      m.db.booked y + (core (coreFee / 2)).amountIn y := by
    simp only [createBitasset, Database.booked, Database.held, sumBy_create, amountIn,
      assetId_core, amount_core, eq_comm (a := 0)]
    split <;> split <;> omega
  have hfunds : (m.createBitasset op coreFee).funds y = m.funds y := by
    show ∑ z ∈ Finset.range (m.db.assets.nextId + 1), _ = _
    rw [Finset.sum_range_succ]
    have hnew :
        ((m.createBitasset op coreFee).bitassets m.db.assets.nextId).elim 0 (·.fundIn y) = 0 := by
      simp only [createBitasset, if_true, elim_some, BitassetData.fundIn, ite_self]
    rw [hnew, add_zero]
    refine Finset.sum_congr rfl fun z hz => ?_
    have hne : z ≠ m.db.assets.nextId := by
      have hlt := Finset.mem_range.1 hz
      omega
    simp only [createBitasset, if_neg hne]
  rw [excess, excess, held, held, supplyOf_createBitasset, hbooked, hfunds]
  show _ + m.limitOrders.sumBy _ + m.callOrders.sumBy _ + m.settlements.sumBy _ + m.bidden y + _ -
    _ = _
  omega

/-- A new asset has no supply, and nothing backs it. -/
theorem assetCreate_carries (h : m.assetCreate op = some m') : m.Carries m' := by
  obtain ⟨coreFee, hfee, h⟩ := bind_eq_some_iff.1 h
  split at h
  swap
  · cases h
  obtain ⟨db, hdb, rfl⟩ := map_eq_some_iff.1 h
  have hsilent := convertFee_silent hfee (coreFee - coreFee / 2)
  have henters := convertFee_enters hfee (coreFee - coreFee / 2)
  generalize ({ m.db.convertAndPayFee op.issuer op.fee coreFee with
    statistics := m.db.statistics.modify op.issuer (·.payFee (coreFee - coreFee / 2)) } :
      Database) = db0 at *
  have hsilent' := adjustBalance_silent hdb
  have hcreated : db0.Touches (({ m with db := db0 } : Market).createBitasset op coreFee).db :=
    .of_eq rfl fun y => (elim_find_create AssetObject.accumulatedFees rfl y).ge
  have hnext : db.assets.nextId = m.db.assets.nextId + 1 :=
    hsilent'.nextId.trans (congrArg (· + 1) hsilent.nextId)
  refine ⟨fun hm => ?_, fun hm => ?_, fun hm y => ?_,
    fun hm => ⟨?_, fun y hlt hy => ?_, fun y hy => ?_⟩⟩
  · exact (hsilent.touches.trans hcreated).trans hsilent'.touches
  · exact sound_db hsilent' (createBitasset_sound (sound_db hsilent hm))
  · rw [excess_db hsilent' (adjustBalance_enters hdb),
      excess_createBitasset, excess_db hsilent henters, amountIn_neg]
    grind [amountIn, core]
  · show m.db.assets.nextId ≤ db.assets.nextId
    omega
  · exact (if_neg (Nat.ne_of_lt (hsilent.nextId.symm ▸ hlt))).trans hy
  · have hne : y ≠ db0.assets.nextId := by
      rintro rfl
      cases (if_pos rfl).symm.trans hy
    refine ⟨(if_neg hne).symm.trans hy, ?_⟩
    rw [hsilent'.supply, add_zero, supplyOf_createBitasset, hsilent.supply, add_zero]

end AssetCreate

end Market

end CrowdwizChain
