import Mathlib.Data.Prod.Lex
import CrowdwizChain.Lib.Exchange
import CrowdwizChain.Chain.Evaluator

/-!
# Prices

`asset.cpp`: an amount times a price, rounded down or up, the comparison of prices, a price times a
ratio, and the prices that margin positions are called at.

Amounts and the two amounts of a price are `int64_t` in the source and are multiplied in 128
bits, so that there is no overflow; a result above `GRAPHENE_MAX_SHARE_SUPPLY` is refused. A
ratio is a `boost::rational`, in lowest terms. Where a result has too large terms, the source
halves both until they fit.
-/

namespace CrowdwizChain

open Exchange Asset

/-- `GRAPHENE_COLLATERAL_RATIO_DENOM` -/
def grapheneCollateralRatioDenom : Nat := 1000

namespace Price

/-- `operator ~` -/
def inv (p : Price) : Price := ⟨p.quote, p.base⟩

/-- `operator <`: by the two assets, then by value. -/
def lt (a b : Price) : Bool :=
  if a.base.assetId ≠ b.base.assetId then a.base.assetId < b.base.assetId
  else if a.quote.assetId ≠ b.quote.assetId then a.quote.assetId < b.quote.assetId
  else b.quote.amount * a.base.amount < a.quote.amount * b.base.amount

/-- `price::validate` -/
def Valid (p : Price) : Prop :=
  0 < p.base.amount ∧ 0 < p.quote.amount ∧ p.base.assetId ≠ p.quote.assetId

instance (p : Price) : Decidable p.Valid := inferInstanceAs (Decidable (_ ∧ _ ∧ _))

end Price

/-- A `price` that passes `price::validate`. -/
abbrev ValidPrice := { p : Price // p.Valid }

/-- What `operator <` compares: the assets, then the value. -/
def Price.rank (p : Price) : Nat ×ₗ Nat ×ₗ ℚ :=
  toLex (p.base.assetId, toLex (p.quote.assetId, (p.base.amount / p.quote.amount : ℚ)))

variable {r : Nat × Nat} {p : Price} {n : Int} {c : Asset}

/-- **The comparison of valid prices is a linear order.** -/
theorem Price.lt_iff_rank {a b : Price} (ha : a.Valid) (hb : b.Valid) :
    a.lt b = true ↔ a.rank < b.rank := by
  have hvalue : ((a.base.amount / a.quote.amount : ℚ) < b.base.amount / b.quote.amount) ↔
      b.quote.amount * a.base.amount < a.quote.amount * b.base.amount := by
    rw [div_lt_div_iff₀ (by exact_mod_cast ha.2.1) (by exact_mod_cast hb.2.1)]
    norm_cast
    rw [mul_comm a.base.amount, mul_comm b.base.amount]
  rw [rank, rank, Prod.Lex.toLex_lt_toLex, Prod.Lex.toLex_lt_toLex, hvalue, lt]
  grind

/-! ### An amount times a price -/

/-- The result of `asset * price` if it is not too large. -/
def Asset.upTo (amount : Int) (id : AssetId) : Option Asset :=
  if amount ≤ grapheneMaxShareSupply then some ⟨amount, id⟩ else none

/-- An amount times a price, by one of the roundings. -/
def Asset.mulWith (round : Int → Int → Int → Int) (a : Asset) (p : Price) : Option Asset :=
  if a.assetId = p.base.assetId then
    if 0 < p.base.amount then
      upTo (round p.base.amount p.quote.amount a.amount) p.quote.assetId
    else none
  else if a.assetId = p.quote.assetId then
    if 0 < p.quote.amount then
      upTo (round p.quote.amount p.base.amount a.amount) p.base.assetId
    else none
  else none

/-- `asset * price` -/
def Asset.mul : Asset → Price → Option Asset := mulWith down

/-- `asset::multiply_and_round_up` -/
def Asset.multiplyAndRoundUp : Asset → Price → Option Asset := mulWith up

theorem Asset.upTo_eq_some {id : AssetId} (h : upTo n id = some c) :
    c = ⟨n, id⟩ ∧ n ≤ grapheneMaxShareSupply := by
  rw [upTo] at h
  split at h
  · next hle => exact ⟨(Option.some.inj h).symm, hle⟩
  · cases h

theorem Asset.mulWith_base {round : Int → Int → Int → Int}
    (h : mulWith round ⟨n, p.base.assetId⟩ p = some c) :
    c = ⟨round p.base.amount p.quote.amount n, p.quote.assetId⟩ ∧ 0 < p.base.amount ∧
      c.amount ≤ grapheneMaxShareSupply := by
  rw [mulWith, if_pos rfl] at h
  split at h
  · next hpos =>
    obtain ⟨rfl, hle⟩ := upTo_eq_some h
    exact ⟨rfl, hpos, hle⟩
  · cases h

theorem Asset.mulWith_quote {round : Int → Int → Int → Int} (hne : p.base.assetId ≠ p.quote.assetId)
    (h : mulWith round ⟨n, p.quote.assetId⟩ p = some c) :
    c = ⟨round p.quote.amount p.base.amount n, p.base.assetId⟩ ∧ 0 < p.quote.amount ∧
      c.amount ≤ grapheneMaxShareSupply := by
  rw [mulWith, if_neg (Ne.symm hne), if_pos rfl] at h
  split at h
  · next hpos =>
    obtain ⟨rfl, hle⟩ := upTo_eq_some h
    exact ⟨rfl, hpos, hle⟩
  · cases h

/-! ### Ratios with terms that fit -/

/-- A fraction in lowest terms. -/
def lowestTerms (r : Nat × Nat) : Nat × Nat := (r.1 / r.1.gcd r.2, r.2 / r.1.gcd r.2)

/-- Both terms are halved, by one of the roundings, until they fit. -/
def shrink (half : Nat → Nat) : Nat → Nat × Nat → Nat × Nat
  | 0, r => r
  | steps + 1, r =>
    if grapheneMaxShareSupply < r.1 ∨ grapheneMaxShareSupply < r.2 then
      shrink half steps (lowestTerms (half r.1, half r.2))
    else r

/-- Steps that are enough for the terms to fit. -/
def shrinkSteps (r : Nat × Nat) : Nat := r.1.log2 + r.2.log2 + 1

/-- `price::call_price`, `none` if there is no collateral: the collateral over the debt times the
ratio. -/
def Price.callPrice (debt collateral : Asset) (collateralRatio : Nat) : Option Price :=
  if collateral.amount = 0 then none
  else
    let r := lowestTerms (debt.amount.toNat * collateralRatio,
      collateral.amount.toNat * grapheneCollateralRatioDenom)
    let cp := shrink (fun n => n / 2 + 1) (shrinkSteps r) r
    some ⟨⟨cp.2, collateral.assetId⟩, ⟨cp.1, debt.assetId⟩⟩

/-- `price_feed::max_short_squeeze_price`, from the settlement price and the ratio -/
def Price.maxShortSqueezePrice (p : Price) (maximumShortSqueezeRatio : Nat) : Price :=
  let r := lowestTerms (p.base.amount.toNat * grapheneCollateralRatioDenom,
    p.quote.amount.toNat * maximumShortSqueezeRatio)
  let cp := shrink (fun n => n / 2 + n % 2) (shrinkSteps r) r
  ⟨⟨cp.1, p.base.assetId⟩, ⟨cp.2, p.quote.assetId⟩⟩

theorem lowestTerms_pos (h1 : 0 < r.1) (h2 : 0 < r.2) : 0 < (lowestTerms r).1 ∧
    0 < (lowestTerms r).2 :=
  ⟨Nat.div_pos (Nat.le_of_dvd h1 (Nat.gcd_dvd_left _ _)) (Nat.gcd_pos_of_pos_left _ h1),
    Nat.div_pos (Nat.le_of_dvd h2 (Nat.gcd_dvd_right _ _)) (Nat.gcd_pos_of_pos_left _ h1)⟩

theorem shrink_pos {half : Nat → Nat} (hhalf : ∀ n, 0 < n → 0 < half n) (steps : Nat) (h1 : 0 < r.1)
    (h2 : 0 < r.2) : 0 < (shrink half steps r).1 ∧ 0 < (shrink half steps r).2 := by
  induction steps generalizing r with
  | zero => exact ⟨h1, h2⟩
  | succ steps ih =>
    rw [shrink]
    split
    · obtain ⟨h1, h2⟩ := lowestTerms_pos (r := (half r.1, half r.2)) (hhalf _ h1) (hhalf _ h2)
      exact ih h1 h2
    · exact ⟨h1, h2⟩

/-- The price of margin calls is one that can be traded at. -/
theorem Price.maxShortSqueezePrice_valid (hp : p.Valid) {ratio : Nat} (hr : 0 < ratio) :
    (p.maxShortSqueezePrice ratio).Valid := by
  obtain ⟨hbase, hquote, hne⟩ := hp
  have hpos := lowestTerms_pos (r := (p.base.amount.toNat * grapheneCollateralRatioDenom,
    p.quote.amount.toNat * ratio)) (Nat.mul_pos (by omega) (by decide)) (Nat.mul_pos (by omega) hr)
  have hhalf : ∀ n, 0 < n → 0 < n / 2 + n % 2 := fun n hn => by omega
  have hshrink := shrink_pos hhalf (shrinkSteps (lowestTerms
    (p.base.amount.toNat * grapheneCollateralRatioDenom, p.quote.amount.toNat * ratio)))
      hpos.1 hpos.2
  exact ⟨Int.natCast_pos.2 hshrink.1, Int.natCast_pos.2 hshrink.2, hne⟩

/-! ### A price times a ratio -/

/-- The loop of `operator *`, with whether terms were halved and whether it stopped at
the edge of what fits. -/
def fitRatio : Nat → Nat × Nat → (Nat × Nat) × Bool × Bool
  | 0, r => (r, false, false)
  | steps + 1, r =>
    if grapheneMaxShareSupply < r.1 ∨ grapheneMaxShareSupply < r.2 then
      if r.1 = 1 then ((1, grapheneMaxShareSupply), false, true)
      else if r.2 = 1 then ((grapheneMaxShareSupply, 1), false, true)
      else
        let fit := fitRatio steps (lowestTerms (r.1 / 2, r.2 / 2))
        (fit.1, true, fit.2.2)
    else (r, false, false)

/-- The whole number closest to a ratio from below, or the inverse of one, if it fits. -/
def wholeRatio (r : Nat × Nat) : Nat × Nat :=
  if r.2 < r.1 then (Nat.min (r.1 / r.2) grapheneMaxShareSupply, 1)
  else (1, Nat.min (r.2 / r.1) grapheneMaxShareSupply)

/-- Of the halved ratio and the whole one, the one that is closer to the ratio. -/
def closerRatio (r cp : Nat × Nat) : Nat × Nat :=
  let ncp := wholeRatio r
  if ncp.1 = grapheneMaxShareSupply ∨ ncp.2 = grapheneMaxShareSupply then ncp
  else if |(ncp.1 / ncp.2 : Rat) - r.1 / r.2| < |(cp.1 / cp.2 : Rat) - r.1 / r.2| then ncp
  else cp

/-- A ratio with terms that fit, and whether it may be another one. -/
def roundRatio (r : Nat × Nat) : (Nat × Nat) × Bool :=
  let fit := fitRatio (shrinkSteps r) r
  (if fit.2.1 then closerRatio r fit.1 else fit.1, fit.2.1 || fit.2.2)

/-- `price * ratio_type`, `none` if it throws. A ratio with the denominator zero cannot be made. -/
def Price.mulRatio (p : Price) (num den : Nat) : Option Price :=
  if p.Valid ∧ 0 < num ∧ 0 < den then
    if num = den then some p
    else
      let cp := roundRatio (lowestTerms (p.base.amount.toNat * num, p.quote.amount.toNat * den))
      let np : Price := ⟨⟨cp.1.1, p.base.assetId⟩, ⟨cp.1.2, p.quote.assetId⟩⟩
      -- if rounding went past the price itself, this one is taken
      let np := if cp.2 && ((den < num && np.lt p) || (num < den && p.lt np)) then p else np
      if np.Valid then some np else none
  else none

/-- `price / ratio_type` -/
def Price.divRatio (p : Price) (num den : Nat) : Option Price := p.mulRatio den num

end CrowdwizChain
