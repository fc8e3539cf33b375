import CrowdwizChain.Chain.Holdings

/-!
# The frame of every evaluator

`evaluator::evaluate` and `evaluator::apply` of `evaluator.hpp`: the fee is prepared, the operation
is evaluated, the fee is converted and entered into the payer's pending fees, the operation is
applied, and last the fee is taken from the payer's balance. An operation gives its own two parts,
`do_evaluate` and `do_apply`.

Two checks of `prepare_fee` and `evaluate` are left out, so that the model accepts more than the
chain does: that the fee reaches the amount of the fee schedule, and that the payer may hold the
asset of the fee (whitelists and blacklists).
-/

namespace CrowdwizChain

open Option

namespace Database

/-- An amount times a ratio of two amounts, in `uint128_t`, rounded down. -/
def mulRatio (amount : Int) (numerator denominator : Asset) : Option Asset :=
  if 0 < denominator.amount then
    let result := toUInt128 amount * toUInt128 numerator.amount % 2 ^ 128 / denominator.amount.toNat
    if result ≤ grapheneMaxShareSupply then some ⟨result, numerator.assetId⟩ else none
  else none

/-- `asset * price` -/
def mulPrice (a : Asset) (p : Price) : Option Asset :=
  if a.assetId = p.base.assetId then mulRatio a.amount p.quote p.base
  else if a.assetId = p.quote.assetId then mulRatio a.amount p.base p.quote
  else none

/-- `generic_evaluator::prepare_fee`: the fee in the core asset, if it can be paid. -/
def prepareFee (db : Database) (payer : AccountId) (fee : Asset) : Option Int :=
  if 0 ≤ fee.amount ∧ (db.accounts.find payer).isSome ∧ (db.statistics.lookup payer).isSome then
    (db.assets.find fee.assetId).bind fun asset =>
      if fee.assetId = 0 then some fee.amount
      else (mulPrice fee asset.coreExchangeRate).bind fun pool =>
        if pool.assetId = 0 ∧ pool.amount ≤ asset.feePool then some pool.amount else none
  else none

/-- `generic_evaluator::convert_fee` and `pay_fee`: a fee in another asset is exchanged with the
fee pool of that asset, and the core fee is added to the payer's pending fees. -/
def convertAndPayFee (db : Database) (payer : AccountId) (fee : Asset) (coreFee : Int) : Database :=
  { db with
    assets :=
      if fee.assetId = 0 then db.assets
      else db.assets.modify fee.assetId fun d =>
        { d with
          accumulatedFees := d.accumulatedFees + fee.amount
          feePool := d.feePool - coreFee }
    statistics := db.statistics.modify payer (·.payFee coreFee) }

/-- `evaluator::evaluate` and `evaluator::apply` around the two parts of an operation. -/
def applyOperation (db : Database) (payer : AccountId) (fee : Asset)
    (doEvaluate : Database → Bool) (doApply : Database → Option Database) : Option Database :=
  (db.prepareFee payer fee).bind fun coreFee =>
    if doEvaluate db then
      (doApply (db.convertAndPayFee payer fee coreFee)).bind fun db' =>
        db'.adjustBalance payer (-fee)
    else none

variable {db : Database} {payer : AccountId} {fee : Asset} {coreFee : Int} {ap : Database →
  Option Database} {ev : Database → Bool}

theorem applyOperation_eq_some {db' : Database} (h : db.applyOperation payer fee ev ap = some db') :
    ∃ coreFee db1 m, db.prepareFee payer fee = some coreFee ∧ ev db = true ∧
      ap (db.convertAndPayFee payer fee coreFee) = some db1 ∧
      Balances.adjust db1.balances payer (-fee) = some m ∧ db' = { db1 with balances := m } := by
  obtain ⟨coreFee, hfee, h⟩ := bind_eq_some_iff.1 h
  split at h
  · next hev =>
    obtain ⟨db1, hap, h⟩ := bind_eq_some_iff.1 h
    obtain ⟨m, hm, rfl⟩ := adjustBalance_eq_some h
    exact ⟨coreFee, db1, m, hfee, hev, hap, hm, rfl⟩
  · cases h

theorem operation_eq_some {c : Prop} [Decidable c] {db' : Database}
    (h : (if c then db.applyOperation payer fee ev ap else none) = some db') :
    c ∧ ∃ coreFee db1 m, db.prepareFee payer fee = some coreFee ∧ ev db = true ∧
      ap (db.convertAndPayFee payer fee coreFee) = some db1 ∧
      Balances.adjust db1.balances payer (-fee) = some m ∧ db' = { db1 with balances := m } :=
  (ite_none_right_eq_some.1 h).imp_right applyOperation_eq_some

theorem mulPrice_nonneg {a b : Asset} {p : Price} (h : mulPrice a p = some b) : 0 ≤ b.amount := by
  have hratio : ∀ {n : Int} {x y : Asset}, mulRatio n x y = some b → 0 ≤ b.amount := by
    intro n x y h
    rw [mulRatio] at h
    split at h
    · dsimp only at h
      split at h
      · cases h
        exact Int.natCast_nonneg _
      · cases h
    · cases h
  rw [mulPrice] at h
  split at h
  · exact hratio h
  · split at h
    · exact hratio h
    · cases h

/-- The fee is not negative, its payer has an account and statistics, its asset exists, and in the
core asset the core fee is the fee. -/
theorem prepareFee_eq_some (h : db.prepareFee payer fee = some coreFee) :
    0 ≤ fee.amount ∧ (db.accounts.find payer).isSome ∧ (db.statistics.lookup payer).isSome ∧
      (db.assets.find fee.assetId).isSome ∧ (fee.assetId = 0 → coreFee = fee.amount) ∧
      0 ≤ coreFee := by
  obtain ⟨hcond, h⟩ := ite_none_right_eq_some.1 h
  obtain ⟨asset, hasset, h⟩ := bind_eq_some_iff.1 h
  refine ⟨hcond.1, hcond.2.1, hcond.2.2, by simp [hasset], ?_⟩
  split at h
  · cases h
    exact ⟨fun _ => rfl, hcond.1⟩
  · next hne =>
    obtain ⟨pool, hpool, h⟩ := bind_eq_some_iff.1 h
    obtain ⟨-, h⟩ := ite_none_right_eq_some.1 h
    cases h
    exact ⟨fun hzero => absurd hzero hne, mulPrice_nonneg hpool⟩

/-! ### The ledger of a fee -/

/-- The fee is pending, and was not yet taken from the payer. -/
theorem imbalance_convertAndPayFee (h : db.prepareFee payer fee = some coreFee) :
    (db.convertAndPayFee payer fee coreFee).imbalance = db.imbalance + fee.coreAmount := by
  obtain ⟨-, -, hstats, hasset, hcore, -⟩ := prepareFee_eq_some h
  obtain ⟨s, hs⟩ := isSome_iff_exists.1 hstats
  obtain ⟨c, hc⟩ := isSome_iff_exists.1 hasset
  have hheld := AList.sumBy_modify (fun _ s => AccountStatistics.held s) (·.payFee coreFee) hs
  have hfee : (s.payFee coreFee).held = s.held + coreFee := by
    simp only [AccountStatistics.held, AccountStatistics.payFee]
    omega
  rcases eq_or_ne fee.assetId 0 with hzero | hne
  · have hfee := hcore hzero
    simp only [convertAndPayFee, imbalance, holdings, vesting, held, escrow, pools, supply, minted,
      hzero, if_true, hheld, Asset.coreAmount]
    omega
  · -- the fee pool of the other asset pays
    have hpools := Table.sumBy_modify
      (fun id (a : AssetObject) => (if id = 0 then a.accumulatedFees else 0) + a.feePool)
      (fun d => { d with
        accumulatedFees := d.accumulatedFees + fee.amount
        feePool := d.feePool - coreFee }) hc
    have hsupply :=
      Table.sumBy_modify (fun id (a : AssetObject) => if id = 0 then a.currentSupply else 0)
      (fun d => { d with
        accumulatedFees := d.accumulatedFees + fee.amount
        feePool := d.feePool - coreFee }) hc
    simp only [convertAndPayFee, imbalance, holdings, vesting, held, escrow, pools, supply, minted,
      hne, if_false, hheld, Asset.coreAmount, hpools, hsupply]
    omega

theorem pendingNonneg_convertAndPayFee (hdb : db.PendingNonneg)
    (h : db.prepareFee payer fee = some coreFee) :
    (db.convertAndPayFee payer fee coreFee).PendingNonneg := by
  obtain ⟨-, -, hstats, -, -, hcoreFee⟩ := prepareFee_eq_some h
  obtain ⟨s, hs⟩ := isSome_iff_exists.1 hstats
  have hmod : db.modifyStatistics payer (·.payFee coreFee) =
      some { db with statistics := db.statistics.modify payer (·.payFee coreFee) } := by
    simp [modifyStatistics, hs]
  intro a fees vested ha
  refine pendingNonneg_modifyStatistics hdb hmod (fun s hfees hvested => ⟨hfees, ?_⟩) a
    fees vested ha
  simp only [AccountStatistics.payFee]
  omega

/-- **The ledger of an operation**: if the operation itself leaves everything balanced, so does the
operation with its fee. -/
theorem imbalance_applyOperation {db' : Database} (hdb : db.PendingNonneg)
    (hap : ∀ {d d' : Database}, d.PendingNonneg → ap d = some d' → d'.imbalance = d.imbalance)
    (h : db.applyOperation payer fee ev ap = some db') : db'.imbalance = db.imbalance := by
  obtain ⟨coreFee, db1, m, hfee, -, hdb1, hm, rfl⟩ := applyOperation_eq_some h
  have himb1 := hap (pendingNonneg_convertAndPayFee hdb hfee) hdb1
  have himb2 := imbalance_convertAndPayFee hfee
  have hadj : db1.adjustBalance payer (-fee) = some { db1 with balances := m } := by
    rw [adjustBalance, hm]
    rfl
  rw [imbalance_adjustBalance hadj, Asset.coreAmount_neg]
  omega

end Database

end CrowdwizChain
