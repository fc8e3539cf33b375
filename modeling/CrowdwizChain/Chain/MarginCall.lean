import CrowdwizChain.Chain.Market

/-!
# How much of a margin position is called

`call_order_object::get_max_debt_to_cover` of `market_object.cpp`. A position with a target
collateral ratio is called only as far as it takes to get back to this ratio. The amount is
estimated by a division, improved by a binary search, and then by a search forward in growing steps;
at each point the collateral ratio that would be left is compared with the feed.

The two searches end when they find an amount. They get a number of steps here, and `none`
stands for searches that are not over by then as well as for exceptions. Whatever they find, it
is not more than the debt.
-/

namespace CrowdwizChain

open Exchange Option

/-- An amount of collateral to pay, and an amount of debt that it covers. -/
structure Cover where
  toPay : Int
  toCover : Int

/-- Neither amount is larger. -/
def Cover.Le (p q : Cover) : Prop := p.toPay ≤ q.toPay ∧ p.toCover ≤ q.toCover

theorem Cover.Le.trans {p q r : Cover} (h : p.Le q) (h' : q.Le r) : p.Le r :=
  ⟨h.1.trans h'.1, h.2.trans h'.2⟩

theorem Cover.Le.refl (p : Cover) : p.Le p := ⟨le_refl _, le_refl _⟩

namespace CallOrder

variable (c : CallOrder)

/-- A price in the format collateral / debt. -/
def inFormat (p : Price) : Price := if p.base.assetId ≠ c.collateralType then p.inv else p

/-- The amount of debt that a payment covers, rounded down. -/
def covered (matchPrice : Price) (toPay : Int) : Option Int :=
  (Asset.mul ⟨toPay, c.collateralType⟩ matchPrice).map Asset.amount

/-- The payment for an amount of debt, rounded up. -/
def payment (matchPrice : Price) (toCover : Int) : Option Int :=
  (Asset.multiplyAndRoundUp ⟨toCover, c.debtType⟩ matchPrice).map Asset.amount

/-- Whether the position is out of reach of the feed after an amount is covered. -/
def isGood (feedPrice : Price) (tcr : Nat) (q : Cover) : Option Bool :=
  (Price.callPrice ⟨c.debt - q.toCover, c.debtType⟩ ⟨c.collateral - q.toPay,
    c.collateralType⟩ tcr).map
    fun p => feedPrice.lt p

/-- The mean of two amounts, by the one of the two assets that has the smaller steps. -/
def mean (matchPrice : Price) (lo hi : Cover) : Option Cover :=
  if matchPrice.base.amount < matchPrice.quote.amount then
    let toPay := (lo.toPay + hi.toPay + 1) / 2
    if toPay = hi.toPay then some hi
    else (c.covered matchPrice toPay).bind fun toCover =>
      if hi.toCover ≤ toCover then some hi
      else (c.payment matchPrice toCover).bind fun toPay =>
        if toPay < hi.toPay then some ⟨toPay, toCover⟩ else none
  else
    let toCover := (lo.toCover + hi.toCover) / 2
    if toCover = hi.toCover then some hi
    else (c.payment matchPrice toCover).bind fun toPay =>
      if hi.toPay ≤ toPay then some hi
      else (c.covered matchPrice toPay).bind fun toCover =>
        if hi.toCover ≤ toCover then some hi else some ⟨toPay, toCover⟩

/-- The mean, or the maximum if the mean is not away from the minimum. -/
def tighten (lo hi q : Cover) : Cover :=
  if q.toPay ≤ lo.toPay ∨ q.toCover ≤ lo.toCover ∨ hi.toPay < q.toPay ∨ hi.toCover < q.toCover then
    hi
  else q

/-- The binary search: an amount that is good, or the maximum if this one is not. -/
def binarySearch (matchPrice feedPrice : Price) (tcr : Nat) :
    Nat → Cover → Cover → Bool → Option (Cover × Bool)
  | 0, _, _, _ => none
  | steps + 1, lo, hi, maxIsOk =>
    (c.mean matchPrice lo hi).bind fun q =>
      let q := tighten lo hi q
      if q.toPay = hi.toPay ∧ (maxIsOk ∨ q.toPay = c.collateral) then some (q, true)
      else if q.toPay < c.collateral ∧ q.toCover < c.debt then
        (c.isGood feedPrice tcr q).bind fun good =>
          if good then
            if q.toPay = hi.toPay then some (q, true)
            else binarySearch matchPrice feedPrice tcr steps lo q true
          else
            if q.toPay = hi.toPay then some (q, false)
            else binarySearch matchPrice feedPrice tcr steps q hi maxIsOk
      else none

/-- The search forward, in steps that grow as the Fibonacci numbers do. -/
def searchForward (matchPrice feedPrice : Price) (tcr : Nat) : Nat → Cover → Int → Int → Option Int
  | 0, _, _, _ => none
  | steps + 1, q, d₂, d₃ =>
    -- the next amount, `none` if all is to be covered
    let next : Option (Option Cover) :=
      if matchPrice.quote.amount < matchPrice.base.amount then
        if c.collateral ≤ q.toPay + d₂ then some none
        else (c.covered matchPrice (q.toPay + d₂)).bind fun toCover =>
          if c.debt ≤ toCover then some none
          else (c.payment matchPrice toCover).map fun toPay =>
            if c.collateral ≤ toPay then none else some ⟨toPay, toCover⟩
      else
        if c.debt ≤ q.toCover + d₂ then some none
        else (c.payment matchPrice (q.toCover + d₂)).bind fun toPay =>
          if c.collateral ≤ toPay then some none
          else (c.covered matchPrice toPay).map fun toCover =>
            if c.debt ≤ toCover then none else some ⟨toPay, toCover⟩
    next.bind fun next =>
      match next with
      | none => some c.debt
      | some q =>
        (c.isGood feedPrice tcr q).bind fun good =>
          if good then some q.toCover
          else searchForward matchPrice feedPrice tcr steps q d₃ (d₂ + d₃)

/-- The largest amount that the searches start with. -/
def maxCover (matchPrice : Price) (toCover : Int) : Option Cover :=
  let toCover := if c.debt ≤ toCover then c.debt else toCover
  (if toCover = c.debt then some c.collateral else c.payment matchPrice toCover).bind
    fun maxToPay =>
    let maxToPay := if c.collateral < maxToPay then c.collateral else maxToPay
    (if maxToPay = c.collateral then some c.debt else c.covered matchPrice maxToPay).map
      fun maxToCover =>
      if c.debt ≤ maxToCover then ⟨c.collateral, c.debt⟩ else ⟨maxToPay, maxToCover⟩

/-- The searches, from an amount that is not enough and the largest one. -/
def searchCover (steps : Nat) (matchPrice feedPrice : Price) (tcr : Nat) (lo hi : Cover) :
    Option Int :=
  if hi.toPay ≤ lo.toPay ∨ hi.toCover ≤ lo.toCover then some c.debt
  else
    (c.binarySearch matchPrice feedPrice tcr steps lo hi false).bind fun found =>
      if found.2 then some found.1.toCover
      else c.searchForward matchPrice feedPrice tcr steps found.1 1 1

/-- An estimate of the debt to cover, rounded so that payment and debt fit to each other. -/
def stabilize (matchPrice : Price) (estimate : Int) : Option Cover :=
  ((Asset.mul ⟨estimate, c.debtType⟩ matchPrice).map Asset.amount).bind fun toPay =>
    (c.covered matchPrice toPay).bind fun toCover =>
      (c.payment matchPrice toCover).map fun toPay => ⟨toPay, toCover⟩

/-- The amount that brings the position back to a target ratio, by an estimate and then
by the searches. -/
def debtToTarget (steps : Nat) (matchPrice feedPrice : Price) (tcr : Nat) : Option Int :=
  let fraction := feedPrice.base.amount * matchPrice.quote.amount * tcr
  let numerator := fraction * c.debt -
    feedPrice.quote.amount * matchPrice.quote.amount * c.collateral * grapheneCollateralRatioDenom
  let denominator :=
    fraction - feedPrice.quote.amount * matchPrice.base.amount * grapheneCollateralRatioDenom
  if numerator < 0 then some 0
  else if denominator ≤ 0 then some c.debt
  else if c.debt ≤ numerator / denominator then some c.debt
  else
    (c.stabilize matchPrice (numerator / denominator)).bind fun q =>
      if c.debt ≤ q.toCover ∨ c.collateral ≤ q.toPay then some c.debt
      else
        (c.isGood feedPrice tcr q).bind fun good =>
          if good then some q.toCover
          else
            (c.maxCover matchPrice ((numerator + fraction) / denominator + 1)).bind fun hi =>
              c.searchCover steps matchPrice feedPrice tcr q hi

/-- `call_order_object::get_max_debt_to_cover` -/
def getMaxDebtToCover (steps : Nat) (matchPrice feedPrice : Price)
    (maintenanceCollateralRatio : Nat) :
    Option Int :=
  if (c.inFormat feedPrice).base.assetId ≠ c.collateralType ∨
      (c.inFormat feedPrice).quote.assetId ≠ c.debtType then none
  else if (c.inFormat feedPrice).lt c.callPrice then some 0
  else
    match c.targetCollateralRatio with
    | none => some c.debt
    | some target =>
      if (c.inFormat matchPrice).base.assetId ≠ c.collateralType ∨
          (c.inFormat matchPrice).quote.assetId ≠ c.debtType then none
      else
        c.debtToTarget steps (c.inFormat matchPrice) (c.inFormat feedPrice)
          (Nat.max target maintenanceCollateralRatio)

variable {c}

/-! ### The amount is one of the debt -/

variable {feedPrice matchPrice p : Price} {hi lo q : Cover} {steps tcr : Nat} {r : Int}

theorem tighten_mem (h : lo.Le hi) (q : Cover) : lo.Le (tighten lo hi q) ∧
    (tighten lo hi q).Le hi := by
  rw [tighten]
  split
  · exact ⟨h, .refl _⟩
  · next hin =>
    push Not at hin
    exact ⟨⟨hin.1.le, hin.2.1.le⟩, ⟨hin.2.2.1, hin.2.2.2⟩⟩

theorem binarySearch_mem {maxIsOk found : Bool} (h : lo.Le hi)
    (hq : c.binarySearch matchPrice feedPrice tcr steps lo hi maxIsOk = some (q, found)) :
    lo.Le q ∧ q.Le hi := by
  induction steps generalizing lo hi maxIsOk with
  | zero => cases hq
  | succ steps ih =>
    obtain ⟨q0, -, hq⟩ := bind_eq_some_iff.1 hq
    have hmem := tighten_mem h q0
    generalize tighten lo hi q0 = q1 at hmem hq
    have hdone : ∀ {b : Bool}, some (q1, b) = some (q, found) → lo.Le q ∧ q.Le hi := by
      intro b heq
      cases heq
      exact hmem
    dsimp only at hq
    split at hq
    · exact hdone hq
    · obtain ⟨-, hq⟩ := ite_none_right_eq_some.1 hq
      obtain ⟨good, -, hq⟩ := bind_eq_some_iff.1 hq
      split at hq
      · split at hq
        · exact hdone hq
        · obtain ⟨hlo, hhi⟩ := ih hmem.1 hq
          exact ⟨hlo, hhi.trans hmem.2⟩
      · split at hq
        · exact hdone hq
        · obtain ⟨hlo, hhi⟩ := ih hmem.2 hq
          exact ⟨hmem.1.trans hlo, hhi⟩

theorem mulWith_nonneg {round : Int → Int → Int → Int}
    (hround : ∀ {b q n : Int}, 0 < b → 0 ≤ q → 0 ≤ n → 0 ≤ round b q n) (hp : p.Valid) {a v : Asset}
    (ha : 0 ≤ a.amount) (h : a.mulWith round p = some v) : 0 ≤ v.amount := by
  rw [Asset.mulWith] at h
  split at h
  · rw [if_pos hp.1] at h
    obtain ⟨rfl, -⟩ := Asset.upTo_eq_some h
    exact hround hp.1 hp.2.1.le ha
  · split at h
    · rw [if_pos hp.2.1] at h
      obtain ⟨rfl, -⟩ := Asset.upTo_eq_some h
      exact hround hp.2.1 hp.1.le ha
    · cases h

theorem covered_nonneg (hp : p.Valid) {x y : Int} (hx : 0 ≤ x) (h : c.covered p x = some y) :
    0 ≤ y := by
  obtain ⟨v, hv, rfl⟩ := map_eq_some_iff.1 h
  exact mulWith_nonneg down_nonneg hp hx hv

theorem payment_nonneg (hp : p.Valid) {x y : Int} (hx : 0 ≤ x) (h : c.payment p x = some y) :
    0 ≤ y := by
  obtain ⟨v, hv, rfl⟩ := map_eq_some_iff.1 h
  exact mulWith_nonneg up_nonneg hp hx hv

/-- The search forward finds an amount of the debt, or takes all of it. -/
theorem searchForward_mem (hp : matchPrice.Valid) {d2 d3 : Int} (hdebt : 0 ≤ c.debt)
    (hq : 0 ≤ q.toPay ∧ 0 ≤ q.toCover) (hd : 0 ≤ d2 ∧ 0 ≤ d3)
    (h : c.searchForward matchPrice feedPrice tcr steps q d2 d3 = some r) : 0 ≤ r ∧ r ≤ c.debt := by
  induction steps generalizing q d2 d3 with
  | zero => cases h
  | succ steps ih =>
    obtain ⟨next, hnext, h⟩ := bind_eq_some_iff.1 h
    cases next with
    | none =>
      cases h
      exact ⟨hdebt, le_refl _⟩
    | some q' =>
      have hq' : (0 ≤ q'.toPay ∧ 0 ≤ q'.toCover) ∧ q'.toCover < c.debt := by
        split at hnext
        · split at hnext
          · cases hnext
          · obtain ⟨toCover, hcover, hnext⟩ := bind_eq_some_iff.1 hnext
            have hcover' := covered_nonneg hp (by omega) hcover
            split at hnext
            · cases hnext
            · next hlt =>
              obtain ⟨toPay, hpay, hnext⟩ := map_eq_some_iff.1 hnext
              split at hnext
              · cases hnext
              · cases hnext
                exact ⟨⟨payment_nonneg hp hcover' hpay, hcover'⟩, not_le.1 hlt⟩
        · split at hnext
          · cases hnext
          · obtain ⟨toPay, hpay, hnext⟩ := bind_eq_some_iff.1 hnext
            have hpay' := payment_nonneg hp (by omega) hpay
            split at hnext
            · cases hnext
            · obtain ⟨toCover, hcover, hnext⟩ := map_eq_some_iff.1 hnext
              split at hnext
              · cases hnext
              · next hlt =>
                cases hnext
                exact ⟨⟨hpay', covered_nonneg hp hpay' hcover⟩, not_le.1 hlt⟩
      obtain ⟨good, -, h⟩ := bind_eq_some_iff.1 h
      split at h
      · cases h
        exact ⟨hq'.1.2, hq'.2.le⟩
      · exact ih hq'.1 ⟨hd.2, by omega⟩ h

theorem maxCover_le {toCover : Int} (h : c.maxCover matchPrice toCover = some hi) :
    hi.toCover ≤ c.debt := by
  obtain ⟨maxToPay, -, h⟩ := bind_eq_some_iff.1 h
  obtain ⟨maxToCover, -, h⟩ := map_eq_some_iff.1 h
  split at h
  · rw [← h]
  · next hlt =>
    rw [← h]
    exact (not_le.1 hlt).le

theorem inFormat_valid (hp : p.Valid) : (c.inFormat p).Valid := by
  rw [inFormat]
  split
  · exact ⟨hp.2.1, hp.1, hp.2.2.symm⟩
  · exact hp

variable (hp : matchPrice.Valid)

include hp

theorem stabilize_nonneg {estimate : Int} (he : 0 ≤ estimate)
    (h : c.stabilize matchPrice estimate = some q) : 0 ≤ q.toPay ∧ 0 ≤ q.toCover := by
  obtain ⟨toPay0, hpay0, h⟩ := bind_eq_some_iff.1 h
  obtain ⟨v, hv, rfl⟩ := map_eq_some_iff.1 hpay0
  obtain ⟨toCover, hcover, h⟩ := bind_eq_some_iff.1 h
  obtain ⟨toPay, hpay, rfl⟩ := map_eq_some_iff.1 h
  have hv' := mulWith_nonneg down_nonneg hp he hv
  have hcover' := covered_nonneg hp hv' hcover
  exact ⟨payment_nonneg hp hcover' hpay, hcover'⟩

theorem searchCover_mem (hlo : 0 ≤ lo.toPay ∧ 0 ≤ lo.toCover)
    (hhi : hi.toCover ≤ c.debt) (h : c.searchCover steps matchPrice feedPrice tcr lo hi = some r)
    (hdebt : 0 ≤ c.debt) : 0 ≤ r ∧ r ≤ c.debt := by
  rw [searchCover] at h
  split at h
  · cases h
    exact ⟨hdebt, le_refl _⟩
  · next hapart =>
    push Not at hapart
    obtain ⟨⟨q, found⟩, hfound, h⟩ := bind_eq_some_iff.1 h
    obtain ⟨hmin, hmax⟩ := binarySearch_mem ⟨hapart.1.le, hapart.2.le⟩ hfound
    split at h
    · cases h
      exact ⟨hlo.2.trans hmin.2, hmax.2.trans hhi⟩
    · exact searchForward_mem hp hdebt ⟨hlo.1.trans hmin.1, hlo.2.trans hmin.2⟩ (by decide) h

theorem debtToTarget_mem (hdebt : 0 ≤ c.debt)
    (h : c.debtToTarget steps matchPrice feedPrice tcr = some r) : 0 ≤ r ∧ r ≤ c.debt := by
  have hall : some c.debt = some r → 0 ≤ r ∧ r ≤ c.debt := by
    intro heq
    cases heq
    exact ⟨hdebt, le_refl _⟩
  rw [debtToTarget] at h
  split at h
  · cases h
    exact ⟨le_refl _, hdebt⟩
  · next hnum =>
    split at h
    · exact hall h
    · next hden =>
      split at h
      · exact hall h
      · obtain ⟨q, hq, h⟩ := bind_eq_some_iff.1 h
        have hnonneg := stabilize_nonneg hp (Int.ediv_nonneg (not_lt.1 hnum) (not_le.1 hden).le) hq
        split at h
        · exact hall h
        · next hin =>
          push Not at hin
          obtain ⟨good, -, h⟩ := bind_eq_some_iff.1 h
          split at h
          · cases h
            exact ⟨hnonneg.2, hin.1.le⟩
          · obtain ⟨hi, hhi, h⟩ := bind_eq_some_iff.1 h
            exact searchCover_mem hp hnonneg (maxCover_le hhi) h hdebt

/-- **What is called is not more than the debt.** -/
theorem getMaxDebtToCover_mem {mcr : Nat} (hdebt : 0 ≤ c.debt)
    (h : c.getMaxDebtToCover steps matchPrice feedPrice mcr = some r) : 0 ≤ r ∧ r ≤ c.debt := by
  obtain ⟨-, h⟩ := ite_none_left_eq_some.1 h
  split at h
  · cases h
    exact ⟨le_refl _, hdebt⟩
  · split at h
    · cases h
      exact ⟨hdebt, le_refl _⟩
    · obtain ⟨-, h⟩ := ite_none_left_eq_some.1 h
      exact debtToTarget_mem (inFormat_valid hp) hdebt h

end CallOrder

end CrowdwizChain
