import CrowdwizChain.Chain.BitassetBacking

/-!
# The settlement fund covers everyone

A global settlement fixes a price: the supply at that moment for the collateral that was gathered.
From then on every holder is paid out of the fund at this price, rounded down, and gives up what
that is worth, rounded up, so the fund stays worth the supply (`BitassetData.SettledAt.covered`).

`database::process_bids` gives the fund away to bidders. Its first loop chooses the bids that cover
the supply; its second loop, which executes them, has nothing left of either when it comes to the
end of the list (`Market.executeCovering_run`), since a share rounded down is worth no more than
the debt that goes with it.
-/

namespace CrowdwizChain

open Option List Exchange

namespace Market

variable {m m' : Market} {x : AssetId} {p : Price} {b : BitassetData} {ratio : Nat} {supply : Int}

/-! ### The price of a settlement -/

/-- **The price of a global settlement** is the supply for the fund. -/
theorem settlementPrice_of_globallySettles {price : Price}
    (h : m.globallySettleAsset x price = some m') :
    ∃ b, m'.bitassets x = some b ∧ b.settlementPrice =
      some ⟨⟨m'.db.supplyOf x, x⟩, ⟨b.settlementFund, b.options.shortBackingAsset⟩⟩ := by
  obtain ⟨b, settled, gathered, db, hsettles⟩ := globallySettleAsset_eq_some h
  have hsupply : m'.db.supplyOf x = m.db.supplyOf x := by
    rw [hsettles.eq]
    show db.supplyOf x = _
    rw [hsettles.notes.supply, Asset.amountIn, if_pos rfl, add_sub_cancel]
  refine ⟨_, (congrArg (bitassets · x) hsettles.eq).trans (modifyBitasset_self (b := b) ?_),
    by rw [hsupply]⟩
  rw [hsettles.squared.bitassets, hsettles.find]

/-- A holder who settles leaves the price alone. -/
theorem settlementPrice_of_assetSettle {op : AssetSettleOperation} (h : m.assetSettle op = some m')
    (hb : m.bitassets x = some b) :
    ∃ b', m'.bitassets x = some b' ∧ b'.settlementPrice = b.settlementPrice := by
  rw [assetSettle] at h
  split at h
  swap
  · cases h
  obtain ⟨coreFee, -, h⟩ := bind_eq_some_iff.1 h
  split at h
  swap
  · cases h
  obtain ⟨m1, hap, h⟩ := bind_eq_some_iff.1 h
  obtain ⟨db, -, rfl⟩ := map_eq_some_iff.1 h
  show ∃ b', m1.bitassets x = some b' ∧ _
  obtain ⟨b0, hb0, hap⟩ := bind_eq_some_iff.1 hap
  split at hap
  · obtain ⟨d, -, hap⟩ := bind_eq_some_iff.1 hap
    obtain ⟨⟨settled, pays⟩, -, hap⟩ := bind_eq_some_iff.1 hap
    obtain ⟨db1, rfl, -⟩ := settleFromFund_books hap
    by_cases hx : x = op.amount.assetId
    · subst hx
      exact ⟨_, modifyBitasset_self (b := b) hb, rfl⟩
    · rw [modifyBitasset_ne hx]
      exact ⟨b, hb, rfl⟩
  · obtain ⟨db1, -, rfl⟩ := map_eq_some_iff.1 hap
    exact ⟨b, hb, rfl⟩

/-- What a part of the supply is worth is in the fund. -/
theorem value_le_settlementFund {amount value : Asset} (hb : b.SettledAt x p supply)
    (hasset : amount.assetId = x) (hle : amount.amount ≤ supply) (h : amount.mul p = some value) :
    value.amount ≤ b.settlementFund := by
  obtain ⟨n, id⟩ := amount
  obtain rfl := hasset.trans hb.base.symm
  obtain ⟨rfl, -⟩ := Asset.mulWith_base h
  have hround := (le_down_iff (q := p.quote.amount) hb.base_pos).1
    (le_refl (down p.base.amount p.quote.amount n))
  have hworth : n * p.quote.amount ≤ supply * p.quote.amount :=
    Int.mul_le_mul_of_nonneg_right hle hb.quote_nonneg
  exact le_of_mul_le_mul_right (hround.trans (hworth.trans hb.covered)) hb.base_pos

/-! ### The two loops over the bids -/

/-- **The second loop keeps up with the first**: after some of the chosen bids, the
others still cover the rest, what is left of the fund is worth it, and if there is no
rest then nothing is left. -/
theorem executeCovering_run {feed : ValidPrice} (st : Market × Int × Int) {st' : Market × Int × Int}
    {l chosen rest : List (Nat × CollateralBid)} (hbase : p.base.assetId = x ∧ 0 < p.base.amount)
    (hquote : 0 ≤ p.quote.amount) (hl : ∀ e ∈ l, 0 < e.2.invSwanPrice.quote.amount)
    (hle : st.2.1 ≤ supply)
    (hworth : st.2.1 * p.quote.amount ≤ st.2.2 * p.base.amount) (hend : 0 < st.2.1 ∨ st.2 = (0, 0))
    (hcovering : coveringBids x p feed ratio supply (supply - st.2.1) l =
    some (some (chosen ++ rest)))
    (h : chosen.foldlM (executeCovering x p ratio supply) st = some st') :
    ∃ l', (∀ e ∈ l', 0 < e.2.invSwanPrice.quote.amount) ∧ st'.2.1 ≤ supply ∧
      st'.2.1 * p.quote.amount ≤ st'.2.2 * p.base.amount ∧ (0 < st'.2.1 ∨ st'.2 = (0, 0)) ∧
      coveringBids x p feed ratio supply (supply - st'.2.1) l' = some (some rest) := by
  induction chosen generalizing st l with
  | nil =>
    cases h
    exact ⟨l, hl, hle, hworth, hend, hcovering⟩
  | cons e chosen ih =>
    obtain ⟨st1, hexecute, h⟩ := bind_eq_some_iff.1 h
    obtain ⟨l', debt, fromFund, rfl, -, hst, hdebt, -, hworth1, hend1, hcovering1⟩ :=
      executeCovering_eq_some hbase hquote hl hle hworth hcovering hexecute
    refine ih _ (fun e' he' => hl e' (mem_cons_of_mem e he')) ?_ hworth1 hend1 hcovering1 h
    rw [hst]
    omega

/-- The second loop of `process_bids` gives each of the chosen bids a part of the fund that is not
negative, and has given away all of the fund and of the debt at the end. -/
def GivesFundAway (m : Market) (x : AssetId) (p : Price) (fund : Int) (ratio : Nat)
    (bids : List (Nat × CollateralBid)) : Prop :=
  (∀ chosen e rest st st', bids = chosen ++ e :: rest →
    chosen.foldlM (executeCovering x p ratio (m.db.supplyOf x)) (m, m.db.supplyOf x, fund) =
    some st → executeCovering x p ratio (m.db.supplyOf x) st e = some st' → 0 ≤ st.2.2 - st'.2.2) ∧
  ∀ st, bids.foldlM (executeCovering x p ratio (m.db.supplyOf x)) (m, m.db.supplyOf x, fund) =
    some st → st.2.2 = 0 ∧ st.2.1 = 0

theorem le_of_coveringBids_nil {feed : ValidPrice} {covered : Int} {l : List (Nat × CollateralBid)}
    (h : coveringBids x p feed ratio supply covered l = some (some [])) : supply ≤ covered := by
  by_contra hmore
  cases l with
  | nil =>
    rw [coveringBids, if_neg hmore] at h
    cases h
  | cons e l =>
    rw [coveringBids, if_neg hmore] at h
    obtain ⟨fromFund, -, h⟩ := bind_eq_some_iff.1 h
    split at h
    · cases h
    obtain ⟨callPrice, -, h⟩ := bind_eq_some_iff.1 h
    split at h
    · cases h
    obtain ⟨found, -, h⟩ := map_eq_some_iff.1 h
    obtain ⟨bids, -, h⟩ := map_eq_some_iff.1 h
    cases h

end Market

namespace MarketSystem

variable {s s' t : MarketSystem}

/-- A holder settles. -/
inductive Settles (s : MarketSystem) : MarketSystem → Prop
  | assetSettle {op : AssetSettleOperation} {m : Market} (h : s.market.assetSettle op = some m) :
    Settles s ⟨m, s.outside⟩

/-- **The settlement fund covers everyone**, if no gold is bought while asset 1 is market-issued and
no silver exchanged while asset 4 is. In every state, a global settlement fixes the price of the
supply for the fund, and however holders settle after it, the price stays and the fund is worth the
supply, so what is paid out is in the fund. Whenever the bids cover the supply, the fund is given
away to them with the debt. -/
theorem settlement_fund_covers (h : s.Backed) (hreach : Relation.ReflTransGen (Step Plain) s s') :
    (∀ x price m, s'.market.globallySettleAsset x price = some m → ∃ b, m.bitassets x = some b ∧
      b.settlementPrice = some ⟨⟨m.db.supplyOf x, x⟩,
      ⟨b.settlementFund, b.options.shortBackingAsset⟩⟩) ∧
    ∀ x b₀ p t, s'.market.bitassets x = some b₀ → b₀.settlementPrice = some p →
      Relation.ReflTransGen Settles s' t → ∃ b, t.market.bitassets x = some b ∧
        b.settlementPrice = some p ∧
        t.market.db.supplyOf x * p.quote.amount ≤ b.settlementFund * p.base.amount ∧
        (∀ a (amount value : Asset), amount.assetId = x →
          amount.amount ≤ t.market.db.getBalance a x → amount.mul p = some value →
          value.amount ≤ b.settlementFund) ∧
        ∀ feed ratio bids, Market.coveringBids x p feed ratio (t.market.db.supplyOf x) 0
            (t.market.bidsOn x) = some (some bids) →
          t.market.GivesFundAway x p b.settlementFund ratio bids := by
  refine ⟨fun x price m hm => Market.settlementPrice_of_globallySettles hm, ?_⟩
  intro x b₀ p t hb0 hp0 hsettles
  obtain ⟨hbacked, b, hb, hp⟩ : t.Backed ∧ ∃ b, t.market.bitassets x = some b ∧
      b.settlementPrice = some p := by
    induction hsettles with
    | refl => exact ⟨h.reach hreach, b₀, hb0, hp0⟩
    | tail _ hstep ih =>
      obtain ⟨hbacked, b, hb, hp⟩ := ih
      obtain ⟨hsettle⟩ := hstep
      obtain ⟨b', hb', hp'⟩ := Market.settlementPrice_of_assetSettle hsettle hb
      exact ⟨hbacked.market (.assetSettle hsettle), b', hb', hp'.trans hp⟩
  have hsettled := hbacked.sound.settled x b p hb hp
  refine ⟨b, hb, hp, hsettled.covered, fun a amount value hasset hle hvalue => ?_,
    fun feed ratio bids hcovering => ?_⟩
  · have hsupply := hbacked.getBalance_le_supplyOf (by rw [hb]; rfl) a
    exact Market.value_le_settlementFund hsettled hasset (hle.trans hsupply) hvalue
  have hbase := And.intro hsettled.base hsettled.base_pos
  have hquote : ∀ e ∈ t.market.bidsOn x, 0 < e.2.invSwanPrice.quote.amount :=
    fun e he => (hbacked.sound.mem_bidsOn hb he).2.2.2.2
  have hend : 0 < t.market.db.supplyOf x ∨ (t.market.db.supplyOf x, b.settlementFund) = (0, 0) := by
    rcases hsettled.supply_nonneg.lt_or_eq with hpos | hzero
    · exact .inl hpos
    · exact .inr (by rw [hsettled.empty hzero.symm, ← hzero])
  rw [← sub_self (t.market.db.supplyOf x)] at hcovering
  constructor
  · rintro chosen e rest st st' rfl hfold hexecute
    obtain ⟨l, hl, hle, hworth, -, hcovering⟩ :=
      Market.executeCovering_run (t.market, _, b.settlementFund)
      hbase hsettled.quote_nonneg hquote le_rfl hsettled.covered hend hcovering hfold
    obtain ⟨-, debt, fromFund, -, -, hst, -, hfund, -⟩ :=
      Market.executeCovering_eq_some hbase hsettled.quote_nonneg hl hle hworth hcovering hexecute
    rw [hst, sub_sub_cancel]
    exact hfund
  · intro st hfold
    obtain ⟨l, -, -, -, hend, hcovering⟩ :=
      Market.executeCovering_run (t.market, _, b.settlementFund)
      hbase hsettled.quote_nonneg hquote le_rfl hsettled.covered hend
      (show _ = some (some (bids ++ [])) by rwa [append_nil]) hfold
    have hle := Market.le_of_coveringBids_nil hcovering
    rcases hend with hpos | hdone
    · omega
    · rw [hdone]
      exact ⟨rfl, rfl⟩

theorem settlement_fund_covers_settled : ∃ s' : MarketSystem, ∃ b,
    Relation.ReflTransGen (Step Plain) twoAccounts s' ∧ s'.market.bitassets 1 = some b ∧
      s'.market.db.supplyOf 1 * 300 ≤ b.settlementFund * 100 := by
  obtain ⟨s', b, hreach, hb, -, -, hprice⟩ := reach_settled
  obtain ⟨-, hcovers⟩ := settlement_fund_covers (backed_start hardforkCwd6Time _ (by decide)) hreach
  obtain ⟨b', hb', -, hworth, -⟩ := hcovers 1 b _ s' hb hprice .refl
  exact ⟨s', b', hreach, hb', hworth⟩

/-- Two units of gold are bought after its settlement, and two bids cover all of it. -/
def revived : Option Market :=
  settled.bind fun m => (m.db.buyGcwd
    { fee := ⟨0, 0⟩, account := 1, amount := ⟨1300000000, 0⟩ }).bind fun db => (db.buyGcwd
    { fee := ⟨0, 0⟩, account := 1, amount := ⟨1301000000, 0⟩ }).bind fun db =>
  (({ m with db := db } : Market).bidCollateral
    { fee := ⟨0, 0⟩, bidder := 0, additionalCollateral := ⟨303, 0⟩, debtCovered := ⟨101, 1⟩ }).bind
    fun m => m.bidCollateral
    { fee := ⟨0, 0⟩, bidder := 1, additionalCollateral := ⟨50, 0⟩, debtCovered := ⟨50, 1⟩ }

theorem reach_of_revived {m : Market} (h : revived = some m) :
    Relation.ReflTransGen (Step Anything) twoAccounts ⟨m, fun _ => 0⟩ := by
  obtain ⟨m1, h1, h⟩ := bind_eq_some_iff.1 h
  obtain ⟨db2, h2, h⟩ := bind_eq_some_iff.1 h
  obtain ⟨db3, h3, h⟩ := bind_eq_some_iff.1 h
  obtain ⟨m4, h4, h5⟩ := bind_eq_some_iff.1 h
  have hgold := (reach_of_settled h1 Anything).tail (.coins trivial (.buyGcwd h2))
  refine ((hgold.tail (.coins trivial (.buyGcwd h3))).tail (.market (.bidCollateral h4))).tail ?_
  exact .market (.bidCollateral h5)

/-- **Gold that is bought after its settlement is not covered.** The first bid gets more than there
is in the fund, and the second one has to make up for it. -/
theorem settlement_fund_overdrawn : ∃ s' : MarketSystem, ∃ b feed bids,
    twoAccounts.Backed ∧ Relation.ReflTransGen (Step Anything) twoAccounts s' ∧
      s'.market.bitassets 1 = some b ∧ b.settlementPrice = some ⟨⟨100, 1⟩, ⟨300, 0⟩⟩ ∧
      b.settlementFund = 300 ∧ s'.market.db.supplyOf 1 = 102 ∧
      b.currentFeed.settlementPrice = some feed ∧
      Market.coveringBids 1 ⟨⟨100, 1⟩, ⟨300, 0⟩⟩ feed b.currentFeed.maintenanceCollateralRatio 102 0
        (s'.market.bidsOn 1) = some (some bids) ∧
      ¬s'.market.GivesFundAway 1 ⟨⟨100, 1⟩, ⟨300, 0⟩⟩ 300 b.currentFeed.maintenanceCollateralRatio
        bids := by
  have hrun : revived.bind (fun m => (m.bitassets 1).bind fun b =>
      b.currentFeed.settlementPrice.bind fun feed =>
      let ratio := b.currentFeed.maintenanceCollateralRatio
      (Market.coveringBids 1 ⟨⟨100, 1⟩, ⟨300, 0⟩⟩ feed ratio 102 0 (m.bidsOn 1)).bind fun bids =>
      match bids with
        | none | some [] | some [_] => none
        | some (e :: e' :: _) =>
          (Market.executeCovering 1 ⟨⟨100, 1⟩, ⟨300, 0⟩⟩ ratio 102 (m, 102, 300) e).bind fun st =>
          (Market.executeCovering 1 ⟨⟨100, 1⟩, ⟨300, 0⟩⟩ ratio 102 st e').map fun st' =>
            (m.db.supplyOf 1, b.settlementPrice, b.settlementFund, st.2.2, st'.2.2)) =
      some (102, some ⟨⟨100, 1⟩, ⟨300, 0⟩⟩, 300, -3, 0) := by
    decide +kernel
  obtain ⟨m, hm, hrun⟩ := bind_eq_some_iff.1 hrun
  obtain ⟨b, hb, hrun⟩ := bind_eq_some_iff.1 hrun
  obtain ⟨feed, hfeed, hrun⟩ := bind_eq_some_iff.1 hrun
  obtain ⟨bids, hcovering, hrun⟩ := bind_eq_some_iff.1 hrun
  rcases bids with _ | _ | ⟨e, _ | ⟨e', rest⟩⟩
  · cases hrun
  · cases hrun
  · cases hrun
  obtain ⟨st, hst, hrun⟩ := bind_eq_some_iff.1 hrun
  obtain ⟨st', hst', hrun⟩ := map_eq_some_iff.1 hrun
  simp only [Prod.mk.injEq] at hrun
  obtain ⟨hsupply, hprice, hfund, hfirst, hlast⟩ := hrun
  refine ⟨⟨m, fun _ => 0⟩, b, feed, _, backed_start hardforkCwd6Time _ (by decide),
    reach_of_revived hm, hb, hprice, hfund, hsupply, hfeed, hcovering, fun hgives => ?_⟩
  rw [Market.GivesFundAway, hsupply] at hgives
  have hnonneg := hgives.1 [e] e' rest st st' rfl (by simpa using hst) hst'
  omega

end MarketSystem

end CrowdwizChain
