import CrowdwizChain.Chain.LimitMatch
import CrowdwizChain.Chain.SupplyBooks

/-!
# What the matching loops do

The loops of `apply_order` are followed with `Facing`: the list of makers still to come has all
resting orders that the new order crosses, in the order of the index. A loop that runs out of
makers has thus left none that cross; one that stops before has used the new order up, or left so
little of it that it is cancelled (`Ends`). The other orders stay as they are, are gone, or are
filled in part (`Shrinks`).
-/

namespace CrowdwizChain

open Exchange Option List Asset

namespace Market

variable {m m' : Market} {taker : Nat} {p : ValidPrice}

/-! ### Makers to come -/

/-- The new order is in the book, and the list has what it crosses. -/
structure Facing (taker : Nat) (p : ValidPrice) (m : Market) (l : List (Nat × LimitOrder)) :
    Prop where
  taker : ∃ o, m.limitOrders.find taker = some o ∧ o.sellPrice = p ∧ 0 ≤ o.forSale
  rows : ∀ e ∈ l, m.limitOrders.find e.1 = some e.2
  faces : ∀ e ∈ l, e.2.Faces p
  sorted : l.Pairwise fun a b => LimitOrder.comesBefore a b = true
  all : ∀ i k, m.limitOrders.find i = some k → k.Faces p → (i, k) ∈ l

/-- The new order is gone, or there is too little left of it. -/
def Ends (taker : Nat) (m : Market) : Prop :=
  ∀ o, m.limitOrders.find taker = some o → o.worth = 0

/-- The other orders stay as they are, are gone, or are filled in part. -/
def Shrinks (taker : Nat) (m m' : Market) : Prop :=
  ∀ i k', i ≠ taker → m'.limitOrders.find i = some k' →
    ∃ k, m.limitOrders.find i = some k ∧ k'.sellPrice = k.sellPrice ∧ (k' = k ∨ 0 < k'.worth)

variable {cull finished gone : Bool} {l l' : List (Nat × LimitOrder)} {id steps : Nat}
  {pays receives : Asset} {k o : LimitOrder} {r : MatchResult} {terms : CallTerms}

theorem Shrinks.refl (taker : Nat) (m : Market) : Shrinks taker m m :=
  fun _ k' _ h => ⟨k', h, rfl, .inl rfl⟩

theorem Shrinks.trans {m'' : Market} (h : Shrinks taker m m') (h' : Shrinks taker m' m'') :
    Shrinks taker m m'' := by
  intro i k'' hi hk''
  obtain ⟨k', hk', hprice', hworth'⟩ := h' i k'' hi hk''
  obtain ⟨k, hk, hprice, hworth⟩ := h i k' hi hk'
  refine ⟨k, hk, hprice'.trans hprice, ?_⟩
  rcases hworth' with rfl | hworth'
  · exact hworth
  · exact .inr hworth'

/-- The new order, at its price `p`, has its price still, and was not overdrawn. -/
def Keeps (taker : Nat) (p : ValidPrice) (m : Market) : Prop :=
  ∀ o, m.limitOrders.find taker = some o → o.sellPrice = p ∧ 0 ≤ o.forSale

theorem ne_of_faces
    (htaker : ∃ o, m.limitOrders.find taker = some o ∧ o.sellPrice = p ∧ 0 ≤ o.forSale) {i : Nat}
    (hk : m.limitOrders.find i = some k) (hface : k.Faces p) : i ≠ taker := by
  rintro rfl
  obtain ⟨o, ho, rfl, -⟩ := htaker
  obtain rfl : o = k := some.inj (ho.symm.trans hk)
  exact o.sellPrice.2.2.2 hface.1

/-! ### The rows after a fill -/

section

variable (h : m.FillsLimit id o pays receives cull m' gone)

include h

theorem FillsLimit.find_self : m'.limitOrders.find id = if gone then none
    else some (o.rest pays.amount) := by
  obtain ⟨db, rfl⟩ := h.frame
  cases gone
  · simp [h.find]
  · simp

theorem FillsLimit.find_ne {i : Nat} (hi : i ≠ id) :
    m'.limitOrders.find i = m.limitOrders.find i := by
  obtain ⟨db, rfl⟩ := h.frame
  cases gone
  · exact Table.find_modify_ne _ hi
  · exact Table.find_remove_ne hi

theorem FillsLimit.bitassets_eq : m'.bitassets = m.bitassets := by
  obtain ⟨db, rfl⟩ := h.frame
  rfl

theorem FillsLimit.callOrders_eq : m'.callOrders = m.callOrders := by
  obtain ⟨db, rfl⟩ := h.frame
  rfl

end

/-- What stays of an order that is culled if it is small is worth something. -/
theorem FillsLimit.worth_pos (h : m.FillsLimit id o pays receives true m' false)
    (hpays : pays.amount ≤ o.forSale) : 0 < (o.rest pays.amount).worth := by
  obtain ⟨v, hv, hne⟩ := (h.stays_imp rfl).2 rfl
  rw [LimitOrder.amountToReceive_eq_some hv] at hne
  have hnonneg : 0 ≤ (o.rest pays.amount).worth :=
    down_nonneg o.sellPrice.2.1 o.sellPrice.2.2.1.le (show 0 ≤ o.forSale - pays.amount by omega)
  omega

/-! ### Rounding at two prices -/

/-- A price `q` of the other side that is not below what `p` asks for. -/
theorem cross_of_not_lt {p q : Price} (hbase : q.base.assetId = p.quote.assetId)
    (hquote : q.quote.assetId = p.base.assetId) (h : q.lt p.inv = false) :
    p.quote.amount * q.quote.amount ≤ q.base.amount * p.base.amount := by
  have hbase' : q.base.assetId = p.inv.base.assetId := hbase
  have hquote' : q.quote.assetId = p.inv.quote.assetId := hquote
  rw [Price.lt, if_neg (not_not.2 hbase'), if_neg (not_not.2 hquote'), decide_eq_false_iff_not,
    not_lt] at h
  have hcross : q.quote.amount * p.quote.amount ≤ p.base.amount * q.base.amount := h
  rw [mul_comm p.quote.amount, mul_comm q.base.amount]
  exact hcross

variable {o : LimitOrder} {q : Price}

section

variable (hq : q.Valid)
  (hcross : o.sellPrice.1.quote.amount * q.quote.amount ≤ q.base.amount * o.sellPrice.1.base.amount)

include hq hcross

/-- An order that is worth nothing at the price of a match is worth nothing at its own. -/
theorem worth_eq_zero
    (hforSale : 0 ≤ o.forSale) (h : down q.quote.amount q.base.amount o.forSale = 0) :
    o.worth = 0 :=
  down_eq_zero_of_worse hq.2.1 o.sellPrice.2.1 o.sellPrice.2.2.1.le hcross hforSale h

/-- **A taker that is filled is culled.** What is left of it is worth nothing at the price of the
match, and so at its own. -/
theorem FillsLimit.gone_of_filled
    (hpays : pays.amount = up q.base.amount q.quote.amount
    (down q.quote.amount q.base.amount o.forSale))
    (h : m.FillsLimit id o pays receives true m' gone) : gone = true := by
  by_contra hstays
  obtain rfl := Bool.eq_false_of_not_eq_true hstays
  have hle : pays.amount ≤ o.forSale := hpays ▸ up_down_le hq.2.1 hq.1
  have hdust := down_sub_up_down (x := o.forSale) hq.2.1 hq.1
  rw [← hpays] at hdust
  have hzero : (o.rest pays.amount).worth = 0 :=
    worth_eq_zero hq hcross (show 0 ≤ o.forSale - pays.amount by omega) hdust
  have hpos := h.worth_pos hle
  omega

/-! ### One match with a limit order -/

end

section

variable (ho : m.limitOrders.find taker = some o) (hk : m.limitOrders.find id = some k)
    (hne : id ≠ taker)

include ho hk hne

theorem fillLimits_eq_some {x y : Asset} (h : m.fillLimits taker id x y cull = some (m', r)) :
    ∃ m1, m.FillsLimit taker o x y cull m1 r.taker ∧ m1.FillsLimit id k y x true m' r.maker ∧
      (r.taker = true ∨ r.maker = true) ∧ m.Squared m' := by
  obtain ⟨⟨m1, takerGone⟩, h1, h⟩ := bind_eq_some_iff.1 h
  obtain ⟨⟨m2, makerGone⟩, h2, h⟩ := bind_eq_some_iff.1 h
  obtain ⟨o', hfills1, hsquared1⟩ := fillLimitOrder_eq_some h1
  obtain ⟨k', hfills2, hsquared2⟩ := fillLimitOrder_eq_some h2
  obtain rfl : o = o' := some.inj (ho.symm.trans hfills1.find)
  obtain rfl : k = k' := by
    have hfind := hfills2.find
    rw [hfills1.find_ne hne, hk] at hfind
    exact some.inj hfind
  dsimp only at h
  split at h
  · next hsome =>
    cases h
    exact ⟨m1, hfills1, hfills2, Bool.or_eq_true _ _ ▸ hsome, hsquared1.trans hsquared2⟩
  · cases h

/-- **What `match` of two limit orders does.** Nothing, if the taker is worth nothing; else a fair
trade. -/
theorem matchLimit_eq_some (hface : k.Faces o.sellPrice)
    (h : m.matchLimit taker id k.sellPrice = some (m', r)) :
      (m' = m ∧ r = ⟨true, false⟩ ∧ o.worth = 0) ∨
      ∃ x y cull m1, m.FillsLimit taker o ⟨x, o.sellAssetId⟩ ⟨y, o.receiveAssetId⟩ cull m1 r.taker ∧
        m1.FillsLimit id k ⟨y, k.sellAssetId⟩ ⟨x, k.receiveAssetId⟩ true m' r.maker ∧
        (r.taker = true ∨ r.maker = true) ∧
        Trade.Fair ⟨.limit id, k.sellPrice, x, y⟩ o.forSale k.forSale r.taker r.maker ∧
        m.Squared m' := by
  have hq := k.sellPrice.2
  have hcross := cross_of_not_lt hface.1 hface.2.1 hface.2.2
  have hsell : o.sellAssetId = k.sellPrice.1.quote.assetId := hface.2.1.symm
  have hreceive : o.receiveAssetId = k.sellPrice.1.base.assetId := hface.1.symm
  rw [matchLimit, ho, bind_some, hk, bind_some] at h
  obtain ⟨hchecks, h⟩ := ite_none_right_eq_some.1 h
  obtain ⟨-, -, hforSale, hmakerForSale⟩ := hchecks
  obtain ⟨value, hvalue, h⟩ := bind_eq_some_iff.1 h
  obtain ⟨rfl, -⟩ := mulWith_base hvalue
  split at h
  · next hle =>
    obtain ⟨receives, hreceives, h⟩ := bind_eq_some_iff.1 h
    rw [LimitOrder.amountForSale, hsell] at hreceives
    obtain ⟨rfl, -⟩ := mulWith_quote hq.2.2 hreceives
    split at h
    · next hzero =>
      cases h
      exact .inl ⟨rfl, rfl, worth_eq_zero hq hcross hforSale.le hzero⟩
    · next hnonzero =>
      -- the taker is filled
      obtain ⟨pays, hpays, h⟩ := bind_eq_some_iff.1 h
      obtain ⟨rfl, -⟩ := mulWith_base hpays
      obtain ⟨m1, htaker, hmaker, hsome, hsquared⟩ := fillLimits_eq_some ho hk hne h
      have hgone := htaker.gone_of_filled hq hcross rfl
      have hpos := down_nonneg hq.2.1 hq.1.le hforSale.le
      rw [← hsell, ← hreceive] at htaker
      refine .inr ⟨_, _, true, m1, htaker, hmaker, hsome, ?_, hsquared⟩
      rw [hgone]
      refine Trade.fair_of_taker hq rfl rfl (lt_of_le_of_ne hpos (Ne.symm hnonzero)) ?_ _
      -- what the taker has is not more than the value of what the maker has
      have hmul := (le_down_iff hq.1).1 hle
      refine le_of_mul_le_mul_right ?_ hq.2.1
      exact ((le_down_iff hq.2.1).1 (le_refl _)).trans hmul
  · next hlt =>
    -- the maker is filled
    obtain ⟨receives, hreceives, h⟩ := bind_eq_some_iff.1 h
    obtain ⟨rfl, -⟩ := mulWith_quote hq.2.2 hreceives
    obtain ⟨m1, htaker, hmaker, hsome, hsquared⟩ := fillLimits_eq_some ho hk hne h
    rw [← hsell, ← hreceive] at htaker
    have hstays : r.taker = false := by
      by_contra hgone
      rcases htaker.gone_imp (Bool.not_eq_false _ ▸ hgone) with heq | ⟨hcull, -⟩
      · have hamount := congrArg amount heq
        exact hlt hamount.ge
      · cases hcull
    have hgone : r.maker = true := by
      rcases hsome with hgone | hgone
      · rw [hstays] at hgone
        cases hgone
      · exact hgone
    refine .inr ⟨_, _, false, m1, htaker, hmaker, hsome, ?_, hsquared⟩
    rw [hgone]
    exact Trade.fair_of_maker hq (down_nonneg hq.1 hq.2.1.le hmakerForSale.le) rfl (not_le.1 hlt).le
      (up_down_le hq.1 hq.2.1) _

end

/-- What a stretch of the loops comes to. -/
structure Outcome (taker : Nat) (p : ValidPrice) (m m' : Market) (finished : Bool)
    (l : List (Nat × LimitOrder)) : Prop where
  trades : ∃ ts, Trades taker m ts m'
  squared : m.Squared m'
  shrinks : Shrinks taker m m'
  keeps : Keeps taker p m'
  ends : finished = true → Ends taker m'
  facing : finished = false → Facing taker p m' l

theorem Outcome.trans {m'' : Market} (h : Outcome taker p m m' false l)
    (h' : Outcome taker p m' m'' finished l') : Outcome taker p m m'' finished l' := by
  obtain ⟨ts, hts⟩ := h.trades
  obtain ⟨ts', hts'⟩ := h'.trades
  exact ⟨⟨ts ++ ts', hts.append hts'⟩, h.squared.trans h'.squared, h.shrinks.trans h'.shrinks,
    h'.keeps, h'.ends, h'.facing⟩

theorem Outcome.finish (h : Outcome taker p m m' true l) : Outcome taker p m m' true l' :=
  { h with facing := by simp }

theorem Facing.outcome (h : Facing taker p m l) : Outcome taker p m m false l where
  trades := ⟨[], .nil⟩
  squared := .refl m
  shrinks := .refl _ _
  keeps := by
    obtain ⟨o, ho, hprice⟩ := h.taker
    intro o' ho'
    exact some.inj (ho.symm.trans ho') ▸ hprice
  ends := by simp
  facing _ := h

/-- The first of the makers is gone: the others are still to come. -/
theorem Facing.tail {e : Nat × LimitOrder} (h : Facing taker p m (e :: l))
    (htaker : ∃ o, m'.limitOrders.find taker = some o ∧ o.sellPrice = p ∧ 0 ≤ o.forSale)
    (hgone : m'.limitOrders.find e.1 = none)
    (hsame : ∀ i, i ≠ taker → i ≠ e.1 → m'.limitOrders.find i = m.limitOrders.find i) :
    Facing taker p m' l := by
  obtain ⟨hbefore, hsorted⟩ := pairwise_cons.1 h.sorted
  have hne : ∀ a ∈ l, a.1 ≠ taker ∧ a.1 ≠ e.1 := by
    intro a ha
    have hrow := h.rows a (mem_cons_of_mem _ ha)
    refine ⟨ne_of_faces h.taker hrow (h.faces a (mem_cons_of_mem _ ha)), fun heq => ?_⟩
    rw [heq, h.rows e mem_cons_self] at hrow
    have hself := hbefore a ha
    rw [← Prod.ext heq.symm (some.inj hrow), LimitOrder.comesBefore_iff] at hself
    exact lt_irrefl _ hself
  refine ⟨htaker, fun a ha => ?_, fun a ha => h.faces a (mem_cons_of_mem _ ha), hsorted,
    fun i k hk hface => ?_⟩
  · rw [hsame a.1 (hne a ha).1 (hne a ha).2]
    exact h.rows a (mem_cons_of_mem _ ha)
  · have hi : i ≠ e.1 := by
      rintro rfl
      rw [hgone] at hk
      cases hk
    rw [hsame i (ne_of_faces htaker hk hface) hi] at hk
    rcases mem_cons.1 (h.all i k hk hface) with rfl | hmem
    · exact absurd rfl hi
    · exact hmem

/-- No margin call is due that is as good as an order. -/
def CallsWait (p : ValidPrice) (m : Market) (e : Nat × LimitOrder) : Prop :=
  ∀ terms, m.callTerms p = some terms → terms.matchPrice.lt e.2.sellPrice = true ∨
    m.dueCall p terms = none

theorem matchLimit_outcome {e : Nat × LimitOrder} (hfacing : Facing taker p m (e :: l))
    (hcalls : CallsWait p m e) (h : m.matchLimit taker e.1 e.2.sellPrice = some (m', r)) :
    Outcome taker p m m' (decide (r ≠ ⟨false, true⟩)) l ∧ m'.bitassets = m.bitassets ∧
      m'.callOrders = m.callOrders := by
  obtain ⟨o, ho, rfl, -⟩ := hfacing.taker
  obtain ⟨id, k⟩ := e
  have hk := hfacing.rows _ mem_cons_self
  have hface := hfacing.faces _ mem_cons_self
  have hne := ne_of_faces hfacing.taker hk hface
  rcases matchLimit_eq_some ho hk hne hface h with
    ⟨rfl, rfl, hworth⟩ | ⟨x, y, cull, m1, htaker, hmaker, hsome, hfair, hsquared⟩
  · have hends : Ends taker m' := fun o' ho' => some.inj (ho.symm.trans ho') ▸ hworth
    exact ⟨{ hfacing.outcome with ends := fun _ => hends, facing := by simp }, rfl, rfl⟩
  · have hrest : 0 ≤ (o.rest x).forSale := sub_nonneg.2 hfair.takerPays_le
    have hrow : m'.limitOrders.find taker = if r.taker then none else some (o.rest x) := by
      rw [hmaker.find_ne (Ne.symm hne), htaker.find_self]
    have hsame : ∀ i, i ≠ taker → i ≠ id → m'.limitOrders.find i = m.limitOrders.find i := by
      intro i hi hi'
      rw [hmaker.find_ne hi', htaker.find_ne hi]
    have hfirst : ∀ i k', m.limitOrders.find i = some k' → k'.Faces o.sellPrice →
        LimitOrder.comesBefore (i, k') (id, k) = false := by
      intro i k' hk' hface'
      rw [← Bool.not_eq_true, LimitOrder.comesBefore_iff, not_lt]
      rcases mem_cons.1 (hfacing.all i k' hk' hface') with heq | hmem
      · rw [heq]
      · exact (LimitOrder.comesBefore_iff.1 ((pairwise_cons.1 hfacing.sorted).1 _ hmem)).le
    refine ⟨⟨⟨[_], .cons (.limit hface hfirst hcalls htaker hmaker hfair) .nil⟩, hsquared,
      fun i k' hi hk' => ?_, fun o' ho' => ?_, fun hends o' ho' => ?_, fun hgoes => ?_⟩,
      hmaker.bitassets_eq.trans htaker.bitassets_eq,
      hmaker.callOrders_eq.trans htaker.callOrders_eq⟩
    · by_cases hid : i = id
      · subst hid
        rw [hmaker.find_self] at hk'
        cases hgone : r.maker with
        | true =>
          rw [hgone] at hk'
          cases hk'
        | false =>
          rw [hgone] at hk' hmaker
          cases hk'
          exact ⟨k, hk, rfl, .inr (hmaker.worth_pos hfair.makerPays_le)⟩
      · rw [hsame i hi hid] at hk'
        exact ⟨k', hk', rfl, .inl rfl⟩
    · rw [hrow] at ho'
      split at ho'
      · cases ho'
      · cases ho'
        exact ⟨rfl, hrest⟩
    · rw [hrow] at ho'
      have hgone : r.taker = true := by
        rcases hsome with hgone | hgone
        · exact hgone
        · by_contra hstays
          exact of_decide_eq_true hends
            (MatchResult.ext (Bool.eq_false_of_not_eq_true hstays) hgone)
      rw [hgone] at ho'
      cases ho'
    · obtain rfl := not_not.1 (of_decide_eq_false hgoes)
      refine hfacing.tail ⟨o.rest x, hrow, rfl, hrest⟩ ?_ hsame
      rw [hmaker.find_self]
      rfl

theorem matchLimits_outcome (hfacing : Facing taker p m (l ++ l'))
    (hcalls : ∀ e ∈ l, CallsWait p m e) (h : matchLimits taker l m = some (m', finished)) :
    Outcome taker p m m' finished l' ∧ m'.bitassets = m.bitassets ∧
    m'.callOrders = m.callOrders := by
  induction l generalizing m with
  | nil =>
    cases h
    exact ⟨hfacing.outcome, rfl, rfl⟩
  | cons e l ih =>
    obtain ⟨⟨m1, r⟩, hmatch, h⟩ := bind_eq_some_iff.1 h
    obtain ⟨houtcome, hbitassets, hcallOrders⟩ :=
      matchLimit_outcome hfacing (hcalls e mem_cons_self) hmatch
    dsimp only at h
    split at h
    · next hgoes =>
      rw [decide_eq_false (not_not.2 hgoes)] at houtcome
      have hwait : ∀ a ∈ l, CallsWait p m1 a := by
        intro a ha terms
        rw [callTerms, dueCall, callsOf, hbitassets, hcallOrders]
        exact hcalls a (mem_cons_of_mem _ ha) terms
      obtain ⟨hrest, hbitassets', hcallOrders'⟩ := ih (houtcome.facing rfl) hwait h
      exact ⟨houtcome.trans hrest, hbitassets'.trans hbitassets, hcallOrders'.trans hcallOrders⟩
    · next hstops =>
      cases h
      rw [decide_eq_true hstops] at houtcome
      exact ⟨houtcome.finish, hbitassets, hcallOrders⟩

/-! ### One match with a margin call -/

/-- Margin calls are at a valid price that the new order crosses. -/
theorem callTerms_eq_some (h : m.callTerms p = some terms) :
    terms.matchPrice.Valid ∧ terms.matchPrice.base.assetId = p.1.quote.assetId ∧
      terms.matchPrice.quote.assetId = p.1.base.assetId ∧ terms.matchPrice.lt p.1.inv = false := by
  obtain ⟨bitasset, hbitasset, h⟩ := bind_eq_some_iff.1 h
  obtain ⟨feed, hfeed, h⟩ := bind_eq_some_iff.1 h
  obtain ⟨hbase, hquote⟩ := m.feed_fits _ _ _ hbitasset hfeed
  obtain ⟨hcond, h⟩ := ite_none_right_eq_some.1 h
  obtain ⟨hlt, h⟩ := ite_none_left_eq_some.1 h
  cases h
  have hratio := bitasset.currentFeed.squeeze_bounds.1
  obtain ⟨hb, hq, hne⟩ :=
    Price.maxShortSqueezePrice_valid feed.2 (lt_of_lt_of_le (by decide) hratio)
  exact ⟨⟨hq, hb, Ne.symm hne⟩, hquote.trans hcond.1, hbase, Bool.eq_false_of_not_eq_true hlt⟩

theorem dueCall_eq_some {e : Nat × CallOrder} (h : m.dueCall p terms = some e) :
    m.callOrders.find e.1 = some e.2 ∧ e.2.collateralType = p.1.quote.assetId ∧
      e.2.debtType = p.1.base.assetId := by
  have hmem := mem_filter.1 (Table.mem_of_firstBy (Option.eq_some_of_filter_eq_some h))
  exact ⟨Table.mem_inOrder.1 hmem.1, of_decide_eq_true hmem.2⟩

theorem fillCalled_eq_some {c : CallOrder} {x y : Asset} (ho : m.limitOrders.find taker = some o)
    (hc : m.callOrders.find id = some c) (h : m.fillCalled taker id x y cull = some (m', r)) :
    ∃ m1, m.FillsLimit taker o x y cull m1 r.taker ∧ m1.FillsCall id c y x m' r.maker ∧
    m.Squared m' := by
  obtain ⟨⟨m1, takerGone⟩, h1, h⟩ := bind_eq_some_iff.1 h
  obtain ⟨⟨m2, closed⟩, h2, h⟩ := map_eq_some_iff.1 h
  cases h
  obtain ⟨o', hfills1, hsquared1⟩ := fillLimitOrder_eq_some h1
  obtain ⟨c', hfills2, hsquared2⟩ := fillCallOrder_eq_some h2
  obtain rfl : o = o' := some.inj (ho.symm.trans hfills1.find)
  obtain rfl : c = c' := by
    have hfind := hfills2.find
    rw [hfills1.callOrders_eq, hc] at hfind
    exact some.inj hfind
  exact ⟨m1, hfills1, hfills2, hsquared1.trans hsquared2⟩

/-- **What `match` with a margin position does.** -/
theorem matchCall_eq_some {c : CallOrder} (ho : m.limitOrders.find taker = some o)
    (hterms : m.callTerms o.sellPrice = some terms)
    (hdue : m.dueCall o.sellPrice terms = some (id, c))
    (h : m.matchCall steps taker id terms.matchPrice terms.feedPrice
      terms.maintenanceCollateralRatio = some (m', r)) :
      (m' = m ∧ r = ⟨true, false⟩ ∧ o.worth = 0) ∨
      ∃ x y cull m1, m.FillsLimit taker o ⟨x, o.sellAssetId⟩ ⟨y, o.receiveAssetId⟩ cull m1 r.taker ∧
        m1.FillsCall id c ⟨y, c.collateralType⟩ ⟨x, c.debtType⟩ m' r.maker ∧ x ≤ c.debt ∧
        Trade.Fair ⟨.call id, terms.matchPrice, x, y⟩ o.forSale c.collateral r.taker true ∧
        m.Squared m' := by
  obtain ⟨hq, hbase, hquote, hlt⟩ := callTerms_eq_some hterms
  obtain ⟨hc, hcollateral, hdebt⟩ := dueCall_eq_some hdue
  have hcross := cross_of_not_lt hbase hquote hlt
  have hsell : o.sellAssetId = terms.matchPrice.quote.assetId := hquote.symm
  have hreceive : o.receiveAssetId = terms.matchPrice.base.assetId := hbase.symm
  have hdebtType : c.debtType = terms.matchPrice.quote.assetId := hdebt.trans hquote.symm
  have hcollateralType : c.collateralType = terms.matchPrice.base.assetId :=
    hcollateral.trans hbase.symm
  rw [matchCall, ho, bind_some, hc, bind_some] at h
  obtain ⟨hchecks, h⟩ := ite_none_right_eq_some.1 h
  obtain ⟨-, -, hforSale, hpos, -⟩ := hchecks
  obtain ⟨toBuy, htoBuy, h⟩ := bind_eq_some_iff.1 h
  obtain ⟨hnonneg, hle⟩ := CallOrder.getMaxDebtToCover_mem hq hpos.le htoBuy
  split at h
  · next hmore =>
    obtain ⟨receives, hreceives, h⟩ := bind_eq_some_iff.1 h
    rw [LimitOrder.amountForSale, hsell] at hreceives
    obtain ⟨rfl, -⟩ := mulWith_quote hq.2.2 hreceives
    split at h
    · next hzero =>
      cases h
      exact .inl ⟨rfl, rfl, worth_eq_zero hq hcross hforSale.le hzero⟩
    · next hnonzero =>
      -- the limit order is filled
      obtain ⟨pays, hpays, h⟩ := bind_eq_some_iff.1 h
      obtain ⟨rfl, -⟩ := mulWith_base hpays
      obtain ⟨m1, htaker, hmaker, hsquared⟩ := fillCalled_eq_some ho hc h
      have hgone := htaker.gone_of_filled hq hcross rfl
      have hvalue := down_nonneg hq.2.1 hq.1.le hforSale.le
      have hpaid := up_down_le (x := o.forSale) hq.2.1 hq.1
      rw [← hsell, ← hreceive] at htaker
      have hcover := hmaker.le_collateral
      rw [← hcollateralType, ← hdebtType] at hmaker
      refine .inr ⟨_, _, true, m1, htaker, hmaker, (hpaid.trans hmore.le).trans hle, ?_, hsquared⟩
      rw [hgone]
      exact Trade.fair_of_taker hq rfl rfl (lt_of_le_of_ne hvalue (Ne.symm hnonzero)) hcover _
  · next hless =>
    -- the margin position buys all that it is called for
    obtain ⟨receives, hreceives, h⟩ := bind_eq_some_iff.1 h
    rw [hdebtType] at hreceives
    obtain ⟨rfl, -⟩ := mulWith_quote hq.2.2 hreceives
    obtain ⟨m1, htaker, hmaker, hsquared⟩ := fillCalled_eq_some ho hc h
    have hcover := hmaker.le_collateral
    rw [hdebtType, ← hsell, ← hreceive] at htaker
    rw [← hcollateralType] at hmaker
    exact .inr ⟨_, _, false, m1, htaker, hmaker, hle,
      Trade.fair_of_maker hq hnonneg rfl (not_lt.1 hless) hcover _, hsquared⟩

theorem Facing.of_same (h : Facing taker p m l)
    (htaker : ∃ o, m'.limitOrders.find taker = some o ∧ o.sellPrice = p ∧ 0 ≤ o.forSale)
    (hsame : ∀ i, i ≠ taker → m'.limitOrders.find i = m.limitOrders.find i) :
    Facing taker p m' l := by
  refine ⟨htaker, fun e he => ?_, h.faces, h.sorted, fun i k hk hface => ?_⟩
  · rw [hsame _ (ne_of_faces h.taker (h.rows e he) (h.faces e he))]
    exact h.rows e he
  · rw [hsame i (ne_of_faces htaker hk hface)] at hk
    exact h.all i k hk hface

theorem matchCall_outcome {e : Nat × CallOrder} (hfacing : Facing taker p m l)
    (hterms : m.callTerms p = some terms) (hdue : m.dueCall p terms = some e)
    (hworse : ∀ a ∈ l, terms.matchPrice.lt a.2.sellPrice = false)
    (h : m.matchCall steps taker e.1 terms.matchPrice terms.feedPrice
      terms.maintenanceCollateralRatio = some (m', r)) :
    Outcome taker p m m' r.taker l ∧ m'.bitassets = m.bitassets := by
  obtain ⟨o, ho, rfl, -⟩ := hfacing.taker
  rcases matchCall_eq_some ho hterms hdue h with
    ⟨rfl, rfl, hworth⟩ | ⟨x, y, cull, m1, htaker, hmaker, hdebt, hfair, hsquared⟩
  · have hends : Ends taker m' := fun o' ho' => some.inj (ho.symm.trans ho') ▸ hworth
    exact ⟨{ hfacing.outcome with ends := fun _ => hends, facing := by simp }, rfl⟩
  · obtain ⟨db, callPrice, rfl, -⟩ := hmaker.frame
    have hrest : 0 ≤ (o.rest x).forSale := sub_nonneg.2 hfair.takerPays_le
    have hrow : m1.limitOrders.find taker = if r.taker then none else some (o.rest x) :=
      htaker.find_self
    have hsame : ∀ i, i ≠ taker → m1.limitOrders.find i = m.limitOrders.find i :=
      fun i hi => htaker.find_ne hi
    have hfirst : ∀ i k, m.limitOrders.find i = some k → k.Faces o.sellPrice →
        terms.matchPrice.lt k.sellPrice = false :=
      fun i k hk hface => hworse _ (hfacing.all i k hk hface)
    refine ⟨⟨⟨[_], .cons (.call hterms hdue hfirst htaker hmaker hdebt hfair) .nil⟩, hsquared,
      fun i k' hi hk' => ?_, fun o' ho' => ?_, fun hgone o' ho' => ?_, fun hgoes => ?_⟩,
      htaker.bitassets_eq⟩
    · exact ⟨k', (hsame i hi).symm.trans hk', rfl, .inl rfl⟩
    · rw [show _ = _ from hrow] at ho'
      split at ho'
      · cases ho'
      · cases ho'
        exact ⟨rfl, hrest⟩
    · rw [show _ = _ from hrow, hgone] at ho'
      cases ho'
    · rw [hgoes] at hrow
      exact hfacing.of_same ⟨o.rest x, hrow, rfl, hrest⟩ hsame

theorem matchCalls_outcome (hfacing : Facing taker p m l) (hterms : m.callTerms p = some terms)
    (hworse : ∀ a ∈ l, terms.matchPrice.lt a.2.sellPrice = false)
    (h : matchCalls taker p terms steps m = some (m', finished)) :
    Outcome taker p m m' finished l ∧ m'.bitassets = m.bitassets ∧
      (finished = false → m'.dueCall p terms = none) := by
  induction steps generalizing m with
  | zero => cases h
  | succ steps ih =>
    rw [matchCalls] at h
    split at h
    · next hnone =>
      cases h
      exact ⟨hfacing.outcome, rfl, fun _ => hnone⟩
    · next e hdue =>
      obtain ⟨⟨m1, r⟩, hmatch, h⟩ := bind_eq_some_iff.1 h
      obtain ⟨houtcome, hbitassets⟩ := matchCall_outcome hfacing hterms hdue hworse hmatch
      dsimp only at h
      split at h
      · next hgone =>
        cases h
        rw [hgone] at houtcome
        exact ⟨houtcome, hbitassets, by simp⟩
      · next hgoes =>
        rw [Bool.eq_false_of_not_eq_true hgoes] at houtcome
        have hterms1 : m1.callTerms p = some terms := by
          rw [callTerms, hbitassets]
          exact hterms
        obtain ⟨hrest, hbitassets', hdone⟩ := ih (houtcome.facing rfl) hterms1 h
        exact ⟨houtcome.trans hrest, hbitassets'.trans hbitassets, hdone⟩

/-! ### All makers -/

/-- The makers, in the order of the index, are what the new order crosses. -/
theorem facing_makers (ho : m.limitOrders.find taker = some o) (hforSale : 0 ≤ o.forSale) :
    Facing taker o.sellPrice m (m.makers o.sellPrice) := by
  have hmem : ∀ e, e ∈ m.makers o.sellPrice ↔ m.limitOrders.find e.1 = some e.2 ∧
      e.2.Faces o.sellPrice := by
    intro e
    rw [makers, mem_insertionSort, mem_filter, side, mem_filter, Table.mem_inOrder,
      decide_eq_true_iff, Bool.not_eq_true', LimitOrder.Faces]
    exact ⟨fun h => ⟨h.1.1, h.1.2.1, h.1.2.2, h.2⟩, fun h => ⟨⟨h.1, h.2.1, h.2.2.1⟩, h.2.2.2⟩⟩
  have hle : ∀ a b : Nat × LimitOrder, LimitOrder.comesBefore b a = false ↔
      LimitOrder.priority a ≤ LimitOrder.priority b := by
    intro a b
    rw [← Bool.not_eq_true, LimitOrder.comesBefore_iff, not_lt]
  refine ⟨⟨o, ho, rfl, hforSale⟩, fun e he => ((hmem e).1 he).1, fun e he => ((hmem e).1 he).2, ?_,
    fun i k hk hface => (hmem (i, k)).2 ⟨hk, hface⟩⟩
  have : Std.Total fun a b : Nat × LimitOrder => LimitOrder.comesBefore b a = false :=
    ⟨fun a b => by
      rw [hle, hle]
      exact le_total _ _⟩
  have : IsTrans (Nat × LimitOrder) fun a b => LimitOrder.comesBefore b a = false :=
    ⟨fun a b c hab hbc => by
      rw [hle] at hab hbc ⊢
      exact hab.trans hbc⟩
  -- orders of one price differ in their ids, so that the sorted list is strictly sorted
  have hids : ((m.makers o.sellPrice).map Prod.fst).Nodup := by
    rw [makers, ((perm_insertionSort _ _).map Prod.fst).nodup_iff]
    exact Table.nodup_keys_of_sublist (filter_sublist.trans filter_sublist)
  have hsorted := List.pairwise_insertionSort
    (fun a b : Nat × LimitOrder => LimitOrder.comesBefore b a = false)
    ((m.side o.sellPrice.1.quote.assetId o.sellPrice.1.base.assetId).filter fun e =>
      !e.2.sellPrice.1.lt o.sellPrice.1.inv)
  refine (hsorted.and (List.pairwise_map.1 hids)).imp ?_
  rintro a b ⟨hab, hne⟩
  rw [LimitOrder.comesBefore_iff]
  refine lt_of_le_of_ne ((hle a b).1 hab) fun heq => hne ?_
  exact congrArg (fun q => (ofLex q).2) heq

/-- Where the price of margin calls stops, all that comes after is not better. -/
theorem not_better_of_mem_dropWhile {q : Price} (hq : q.Valid)
    (hl : l.Pairwise fun a b => LimitOrder.comesBefore a b = true) :
    ∀ a ∈ l.dropWhile fun e => q.lt e.2.sellPrice, q.lt a.2.sellPrice = false := by
  induction l with
  | nil => simp
  | cons e l ih =>
    obtain ⟨hbefore, hl⟩ := pairwise_cons.1 hl
    rw [List.dropWhile_cons]
    split
    · exact ih hl
    · next hhead =>
      rw [Price.lt_iff_rank hq e.2.sellPrice.2, not_lt] at hhead
      intro a ha
      rw [← Bool.not_eq_true, Price.lt_iff_rank hq a.2.sellPrice.2, not_lt]
      rcases mem_cons.1 ha with rfl | ha
      · exact hhead
      · have hlex := LimitOrder.comesBefore_iff.1 (hbefore a ha)
        rw [LimitOrder.priority, LimitOrder.priority, Prod.Lex.toLex_lt_toLex] at hlex
        rcases hlex with hlt | ⟨heq, -⟩
        · exact (OrderDual.toDual_lt_toDual.1 hlt).le.trans hhead
        · exact (OrderDual.toDual_inj.1 heq).ge.trans hhead

/-- **The matching loops.** If they do not use up the new order, no order is left that
it crosses. -/
theorem matchMakers_outcome (ho : m.limitOrders.find taker = some o) (hforSale : 0 ≤ o.forSale)
    (h : m.matchMakers steps taker o.sellPrice = some (m', finished)) :
    Outcome taker o.sellPrice m m' finished [] := by
  have hfacing := facing_makers ho hforSale
  rw [matchMakers] at h
  split at h
  · next hnone =>
    rw [← append_nil (m.makers o.sellPrice)] at hfacing
    exact (matchLimits_outcome hfacing (fun e _ terms hterms => by
      rw [hnone] at hterms
      cases hterms) h).1
  · next terms hterms =>
    obtain ⟨⟨m1, finished1⟩, h1, h⟩ := bind_eq_some_iff.1 h
    have hworse := not_better_of_mem_dropWhile (callTerms_eq_some hterms).1 hfacing.sorted
    rw [← takeWhile_append_dropWhile (p := fun e : Nat × LimitOrder =>
      terms.matchPrice.lt e.2.sellPrice) (l := m.makers o.sellPrice)] at hfacing
    obtain ⟨houtcome1, hbitassets1, -⟩ := matchLimits_outcome hfacing (fun e he terms' hterms' => by
      cases hterms.symm.trans hterms'
      exact .inl (mem_takeWhile_imp (p := fun e : Nat × LimitOrder =>
        terms.matchPrice.lt e.2.sellPrice) he)) h1
    dsimp only at h
    split at h
    · next hfinished =>
      cases h
      rw [hfinished] at houtcome1
      exact houtcome1.finish
    · next hgoes =>
      rw [Bool.eq_false_of_not_eq_true hgoes] at houtcome1
      have hterms1 : m1.callTerms o.sellPrice = some terms := by
        rw [callTerms, hbitassets1]
        exact hterms
      obtain ⟨⟨m2, finished2⟩, h2, h⟩ := bind_eq_some_iff.1 h
      obtain ⟨houtcome2, hbitassets2, hdue⟩ :=
        matchCalls_outcome (houtcome1.facing rfl) hterms1 hworse h2
      dsimp only at h
      split at h
      · next hfinished =>
        cases h
        rw [hfinished] at houtcome2
        exact houtcome1.trans houtcome2.finish
      · next hgoes2 =>
        have hfalse := Bool.eq_false_of_not_eq_true hgoes2
        rw [hfalse] at houtcome2
        have hfacing2 := houtcome2.facing rfl
        rw [← append_nil (List.dropWhile _ _)] at hfacing2
        have hwait : ∀ e ∈ (m.makers o.sellPrice).dropWhile fun e =>
            terms.matchPrice.lt e.2.sellPrice, CallsWait o.sellPrice m2 e := by
          intro e _ terms' hterms'
          rw [callTerms, hbitassets2] at hterms'
          cases hterms1.symm.trans hterms'
          exact .inr (hdue hfalse)
        exact houtcome1.trans (houtcome2.trans (matchLimits_outcome hfacing2 hwait h).1)

end Market

end CrowdwizChain
