import CrowdwizChain.Chain.PledgeConsent

/-!
# The life of a filled pledge offer

A fill puts the pledge of the debitor into escrow and sets the expiration of the offer to the head
time plus the agreed number of days. Until then the debitor can repay and gets the pledge back;
the first block after that gives the pledge to the creditor. Here a run notes, for each offer, when
it was filled and as what, and how its pledge left escrow.

The expiration is kept in 32 bits and the number of days in 16, so the sum can wrap around.
-/

namespace CrowdwizChain

open Transition Option OrderedTable Database Balances

namespace PledgeOffer

/-- The end of the term of an offer that is filled at a given time. -/
def deadline (o : PledgeOffer) (filledAt : Nat) : Nat := filledAt + o.pledgeDays * secondsPerDay

/-- The amounts that `validate` asks to be positive. -/
structure Positive (o : PledgeOffer) : Prop where
  pledge : 0 < o.pledgeAmount.amount
  repay : 0 < o.repayAmount.amount

end PledgeOffer

/-- The ways in which a pledge leaves escrow. -/
inductive PledgeExit
  /-- the debitor repaid the credit and got it back -/
  | repaid
  /-- a block of the given time gave it to the creditor -/
  | forfeited (time : Nat)
deriving DecidableEq

/-- What is paid on an exit. -/
def PledgeOffer.payments (o : PledgeOffer) : PledgeExit → List (AccountId × Asset)
  | .repaid =>
    [(o.debitor, -o.repayAmount), (o.creditor, o.repayAmount), (o.debitor, o.pledgeAmount)]
  | .forfeited _ => [(o.creditor, o.pledgeAmount)]

/-! ### Repayments

The life of an offer also depends on what a repayment pays, and on when one goes through. -/

namespace Database

variable {db db' : Database}

/-- A repayment names the terms of a filled offer, and pays by these. -/
theorem pledgeOfferRepay_terms {op : PledgeOfferRepayOperation}
    (h : db.pledgeOfferRepay op = some db') :
    ∃ o, db.pledgeOffers.find op.pledgeOffer = some o ∧ o.status = 1 ∧
      db.balances.adjustAll (o.payments .repaid ++ [(op.debitor, -op.fee)]) = some db'.balances ∧
      db'.headBlockTime = db.headBlockTime := by
  obtain ⟨-, coreFee, db1, m, -, hev, hap, hm, rfl⟩ := operation_eq_some h
  obtain ⟨db2, hadj, rfl⟩ := map_eq_some_iff.1 hap
  obtain ⟨m1, hm1, rfl⟩ := adjustBalances_eq_some hadj
  simp only [pledgeOfferRepayEvaluate, decide_eq_true_eq, any_eq_true] at hev
  obtain ⟨-, ⟨o, ho, -, hstatus, hpledge, hrepay, hcreditor, hdebitor, -⟩, -⟩ := hev
  refine ⟨o, ho, hstatus, ?_, rfl⟩
  rw [PledgeOffer.payments, hpledge, hrepay, hcreditor, hdebitor]
  exact adjustAll_concat hm1 hm

/-- **A debitor with the means can repay.** The operation names the terms of a filled offer; the
debitor can pay the fee, and has the repay amount besides. -/
theorem pledgeOfferRepay_isSome {op : PledgeOfferRepayOperation} {o : PledgeOffer}
    (ho : db.pledgeOffers.find op.pledgeOffer = some o) (hstatus : o.status = 1) (hpos : o.Positive)
    (htime : hardforkCwd5Time ≤ db.headBlockTime)
    (hterms : op.debitor = o.debitor ∧ op.creditor = o.creditor ∧
      op.repayAmount = o.repayAmount ∧ op.pledgeAmount = o.pledgeAmount)
    (hfee : (db.prepareFee op.debitor op.fee).isSome)
    (hasset : (db.assets.find op.repayAmount.assetId).isSome)
    (hmeans : ∀ a, op.repayAmount.amountIn a + op.fee.amountIn a ≤ db.getBalance op.debitor a) :
    ∃ db', db.pledgeOfferRepay op = some db' := by
  obtain ⟨hdebitor, hcreditor, hrepay, hpledge⟩ := hterms
  obtain ⟨coreFee, hfee⟩ := isSome_iff_exists.1 hfee
  obtain ⟨hfee0, hdeb, -, -, -, -⟩ := prepareFee_eq_some hfee
  have hrepay0 : 0 < op.repayAmount.amount := hrepay ▸ hpos.repay
  have hpledge0 : 0 < op.pledgeAmount.amount := hpledge ▸ hpos.pledge
  have hv : op.validate = true := by
    simp only [PledgeOfferRepayOperation.validate, decide_eq_true_eq]
    exact ⟨hfee0, hrepay0⟩
  -- the fee is not negative, so the repay amount alone is covered too
  have hcover : op.repayAmount.amount ≤ db.getBalance op.debitor op.repayAmount.assetId := by
    have h := hmeans op.repayAmount.assetId
    have hnonneg : 0 ≤ op.fee.amountIn op.repayAmount.assetId := by
      rw [Asset.amountIn]
      split <;> omega
    rw [Asset.amountIn, if_pos rfl] at h
    omega
  have hev : pledgeOfferRepayEvaluate op db = true := by
    simp only [pledgeOfferRepayEvaluate, decide_eq_true_eq, any_eq_true]
    exact ⟨htime, ⟨o, ho, hdebitor ▸ hdeb, hstatus, hpledge.symm, hrepay.symm, hcreditor.symm,
      hdebitor.symm, hdebitor ▸ hcover⟩, hasset⟩
  -- the payments one after another: a debit that is covered, and two credits
  obtain ⟨m1, hm1⟩ := adjust_isSome_of_le (m := db.balances) (a := op.debitor)
    (d := -op.repayAmount) (by simpa [getBalance] using hcover)
  obtain ⟨m2, hm2⟩ := adjust_isSome (m := m1) (a := op.creditor) (d := op.repayAmount) hrepay0.le
  obtain ⟨m3, hm3⟩ := adjust_isSome (m := m2) (a := op.debitor) (d := op.pledgeAmount) hpledge0.le
  have hall : db.balances.adjustAll [(op.debitor, -op.repayAmount),
      (op.creditor, op.repayAmount), (op.debitor, op.pledgeAmount)] = some m3 := by
    simp [hm1, hm2, hm3]
  obtain ⟨m4, hm4⟩ := adjust_isSome_of_le (m := m3) (a := op.debitor) (d := -op.fee) (by
    have h := hmeans op.fee.assetId
    have hgiven := amountOf_adjustAll hall op.debitor op.fee.assetId
    grind [given, Asset.amountIn, getBalance, Asset.amount_neg, Asset.assetId_neg])
  rw [← isSome_iff_exists, pledgeOfferRepay, if_pos hv, applyOperation, hfee,
    bind_some, if_pos hev, pledgeOfferRepayApply, adjustBalances]
  simp only [convertAndPayFee]
  rw [hall]
  simp only [map_some, bind_some, adjustBalance]
  rw [hm4]
  rfl

end Database

/-! ### Runs -/

/-- The database, with the notes of an observer. -/
structure PledgeLife where
  db : Database
  /-- the head time at which each offer was filled, and the offer as it then was -/
  fills : Nat → Option (Nat × PledgeOffer)
  /-- the ways in which the pledge of each offer has left escrow -/
  exits : Nat → List PledgeExit

namespace PledgeLife

/-- What an action does to the database. Other actions may change every part of it but the offers
and the time. -/
def dbStep (db : Database) : PledgeAction → Option Database
  | .other e => some { e with pledgeOffers := db.pledgeOffers, headBlockTime := db.headBlockTime }
  | a => PledgeSystem.dbStep db a

/-- The fill to be noted for an offer. -/
def fillOf (db db' : Database) : PledgeAction → Nat → Option (Nat × PledgeOffer)
  | .fill op, id =>
    if id = op.pledgeOffer then (db'.pledgeOffers.find id).map ((db.headBlockTime, ·)) else none
  | _, _ => none

/-- The exit to be noted for an offer: it was repaid, or it was filled and is gone after a block. -/
def exitOf (db db' : Database) : PledgeAction → Nat → Option PledgeExit
  | .repay op, id => if id = op.pledgeOffer then some .repaid else none
  | .block time, id =>
    if (db.pledgeOffers.find id).any (·.status = 1) ∧ (db'.pledgeOffers.find id).isNone then
      some (.forfeited time)
    else none
  | _, _ => none

/-- One action, with its notes. -/
def step (s : PledgeLife) (a : PledgeAction) : Option PledgeLife :=
  (dbStep s.db a).map fun db =>
    { db
      fills := fun id => (fillOf s.db db a id).or (s.fills id)
      exits := fun id => s.exits id ++ (exitOf s.db db a id).toList }

/-- A chain without pledge offers. -/
structure Initial (s : PledgeLife) : Prop where
  rows : s.db.pledgeOffers.rows = []
  fills : ∀ id, s.fills id = none
  exits : ∀ id, s.exits id = []

/-- The expiration that a fill sets fits into 32 bits. -/
def InTime (s : PledgeLife) : PledgeAction → Prop
  | .fill op => s.db.headBlockTime + op.pledgeDays * secondsPerDay < 2 ^ 32
  | _ => True

/-! ### What the life of a pledge should be -/

/-- The debitor of a filled offer can repay: every repay operation that names the terms of the
offer goes through, if the debitor can pay its fee and has the repay amount besides. -/
def CanRepay (s : PledgeLife) (id : Nat) (o : PledgeOffer) : Prop :=
  ∀ op : PledgeOfferRepayOperation, op.pledgeOffer = id →
    (op.debitor = o.debitor ∧ op.creditor = o.creditor ∧ op.repayAmount = o.repayAmount ∧
      op.pledgeAmount = o.pledgeAmount) →
    (s.db.prepareFee op.debitor op.fee).isSome →
    (s.db.assets.find op.repayAmount.assetId).isSome →
    (∀ a, op.repayAmount.amountIn a + op.fee.amountIn a ≤ s.db.getBalance op.debitor a) →
    ∃ s', s.step (.repay op) = some s'

/-- What a step does to the balances. A fill takes the pledge into escrow, from the debitor of the
offer as it is then stored; a repayment pays by the terms of the offer, and a block pays the pledges
that it forfeits and nothing else. -/
def Effect (s s' : PledgeLife) : PledgeAction → Prop
  | .fill op =>
    s.db.balances.adjustAll [(op.creditor, -op.creditAmount), (op.debitor, -op.pledgeAmount),
      (op.debitor, op.creditAmount), (op.account, -op.fee)] = some s'.db.balances ∧
    ∃ o, s'.fills op.pledgeOffer = some (s.db.headBlockTime, o) ∧ o.debitor = op.debitor ∧
      o.creditor = op.creditor ∧ o.pledgeAmount = op.pledgeAmount
  | .repay op => ∃ t o, s.fills op.pledgeOffer = some (t, o) ∧
    s.db.balances.adjustAll (o.payments .repaid ++ [(op.debitor, -op.fee)]) = some s'.db.balances
  | .block time => ∃ X : List (Σ _ : Nat, PledgeOffer), X.NodupKeys ∧
    (∀ id o, ⟨id, o⟩ ∈ X ↔ (∃ t, s.fills id = some (t, o)) ∧
    s'.exits id = s.exits id ++ [.forfeited time]) ∧
    s.db.balances.adjustAll (X.flatMap fun e => e.2.payments (.forfeited time)) =
    some s'.db.balances
  | _ => s'.exits = s.exits

/-- **The life cycle of pledges.** Up to the end of its term, a filled offer was repaid or can be;
a pledge is forfeited only after the end of the term; no pledge is paid out twice, and after the
term every one has been; and the balances change accordingly. -/
structure LifeCycle (s : PledgeLife) : Prop where
  repayable : ∀ id t o, s.fills id = some (t, o) → s.db.headBlockTime ≤ o.deadline t →
    s.exits id = [.repaid] ∨ s.exits id = [] ∧ s.CanRepay id o
  forfeited : ∀ id time, .forfeited time ∈ s.exits id → ∃ t o, s.fills id = some (t, o) ∧
    o.deadline t < time
  once : ∀ id, (s.exits id).length ≤ 1
  settled : ∀ id t o, s.fills id = some (t, o) → o.deadline t < s.db.headBlockTime →
    (s.exits id).length = 1
  effect : ∀ a s', s.step a = some s' → s.Effect s' a

/-! ### The stages of an offer -/

/-- Where an offer can stand at a given time: what the table has for it, what was noted of its fill
and what was noted of its exit. -/
inductive Stage (now : Nat) :
    Option PledgeOffer → Option (Nat × PledgeOffer) → List PledgeExit → Prop
  /-- not made yet, or cancelled -/
  | absent : Stage now none none []
  | opened {o : PledgeOffer} (hpos : o.Positive) (hstatus : o.status = 0)
      (hexp : o.expiration = 0) : Stage now (some o) none []
  | filled {o : PledgeOffer} {t : Nat} (hpos : o.Positive) (hstatus : o.status = 1)
      (hexp : o.expiration = o.deadline t) (hone : 1 < o.expiration)
      (hnow : now ≤ o.deadline t) : Stage now (some o) (some (t, o)) []
  | repaid {o : PledgeOffer} {t : Nat} : Stage now none (some (t, o)) [.repaid]
  | forfeited {o : PledgeOffer} {t time : Nat} (hover : o.deadline t < time) (hpast : time ≤ now) :
      Stage now none (some (t, o)) [.forfeited time]

/-- What holds in every state that is reached. -/
structure Inv (s : PledgeLife) : Prop where
  stage : ∀ id, Stage s.db.headBlockTime (s.db.pledgeOffers.find id) (s.fills id) (s.exits id)
  fresh : ∀ id, s.db.pledgeOffers.nextId ≤ id → s.fills id = none
  time : ∀ id o, s.db.pledgeOffers.find id = some o → hardforkCwd5Time ≤ s.db.headBlockTime

variable {s s' : PledgeLife} {id t : Nat} {db : Database} {a : PledgeAction} {o : PledgeOffer}

theorem Initial.inv (h : s.Initial) : s.Inv := by
  have hfind : ∀ id, s.db.pledgeOffers.find id = none := fun id => by
    simp [find, h.rows]
  refine ⟨fun id => ?_, fun id _ => h.fills id, fun id o ho => ?_⟩
  · rw [hfind, h.fills, h.exits]
    exact .absent
  · rw [hfind] at ho
    cases ho

section

variable (h : s.Inv)

include h

theorem Inv.row (ho : s.db.pledgeOffers.find id = some o) :
    o.Positive ∧ (o.status = 0 ∧ o.expiration = 0 ∨ o.status = 1 ∧ 1 < o.expiration) := by
  have hstage := h.stage id
  rw [ho] at hstage
  generalize s.fills id = f at hstage
  generalize s.exits id = x at hstage
  cases hstage with
  | opened hpos hstatus hexp => exact ⟨hpos, .inl ⟨hstatus, hexp⟩⟩
  | filled hpos hstatus hexp hone hnow => exact ⟨hpos, .inr ⟨hstatus, hone⟩⟩

/-- A filled offer of the table is in its term, and is noted as it is. -/
theorem Inv.filled (ho : s.db.pledgeOffers.find id = some o) (hstatus : o.status = 1) :
    ∃ t, s.fills id = some (t, o) ∧ s.exits id = [] ∧ o.expiration = o.deadline t ∧
      s.db.headBlockTime ≤ o.deadline t := by
  have hstage := h.stage id
  rw [ho] at hstage
  generalize hf : s.fills id = f at hstage
  generalize hx : s.exits id = x at hstage
  cases hstage with
  | opened hpos hzero hexp => omega
  | @filled _ t hpos hstatus hexp hone hnow => exact ⟨t, rfl, rfl, hexp, hnow⟩

/-! ### Every step keeps the stages -/

/-- A step that changes one offer, at most, and not the time. -/
theorem Inv.update {i : Nat} (htime : db.headBlockTime = s.db.headBlockTime)
    (hnext : s.db.pledgeOffers.nextId ≤ db.pledgeOffers.nextId)
    (hothers : ∀ id, id ≠ i → db.pledgeOffers.find id = s.db.pledgeOffers.find id)
    (hfill : ∀ id, id ≠ i → fillOf s.db db a id = none)
    (hexit : ∀ id, id ≠ i → exitOf s.db db a id = none)
    (hi : Stage s.db.headBlockTime (db.pledgeOffers.find i)
      ((fillOf s.db db a i).or (s.fills i)) (s.exits i ++ (exitOf s.db db a i).toList))
    (hfresh : db.pledgeOffers.nextId ≤ i → (fillOf s.db db a i).or (s.fills i) = none)
    (hcwd5 : (db.pledgeOffers.find i).isSome → hardforkCwd5Time ≤ s.db.headBlockTime) :
    Inv ⟨db, fun id => (fillOf s.db db a id).or (s.fills id),
      fun id => s.exits id ++ (exitOf s.db db a id).toList⟩ := by
  refine ⟨fun id => ?_, fun id hid => ?_, fun id o ho => ?_⟩
  · rcases eq_or_ne id i with rfl | hne
    · simpa only [htime] using hi
    · simpa [htime, hothers id hne, hfill id hne, hexit id hne] using h.stage id
  · rcases eq_or_ne id i with rfl | hne
    · exact hfresh hid
    · simpa [hfill id hne] using h.fresh id (hnext.trans hid)
  · change hardforkCwd5Time ≤ db.headBlockTime
    rw [htime]
    rcases eq_or_ne id i with rfl | hne
    · exact hcwd5 (by simp only at ho; simp [ho])
    · simp only [hothers id hne] at ho
      exact h.time id o ho

/-- An offer that is made stands open. -/
theorem Inv.create (htable : db.pledgeOffers = s.db.pledgeOffers.create o)
    (hpos : o.Positive) (hstatus : o.status = 0) (hexp : o.expiration = 0)
    (hcwd5 : hardforkCwd5Time ≤ s.db.headBlockTime) (htime : db.headBlockTime = s.db.headBlockTime)
    (hfill : ∀ id, fillOf s.db db a id = none) (hexit : ∀ id, exitOf s.db db a id = none) :
    Inv ⟨db, fun id => (fillOf s.db db a id).or (s.fills id),
      fun id => s.exits id ++ (exitOf s.db db a id).toList⟩ := by
  have hnew : s.db.pledgeOffers.find s.db.pledgeOffers.nextId = none := by
    rcases ho : s.db.pledgeOffers.find s.db.pledgeOffers.nextId with _ | o
    · rfl
    · exact absurd (lt_nextId ho) (lt_irrefl _)
  refine h.update (i := s.db.pledgeOffers.nextId) htime ?_ (fun id hne => ?_)
    (fun id _ => hfill id) (fun id _ => hexit id) ?_ (fun hle => ?_) (fun _ => hcwd5)
  · rw [htable]
    exact Nat.le_succ _
  · rw [htable, find_create, if_neg hne]
  · have hstage := h.stage s.db.pledgeOffers.nextId
    have hnone := h.fresh _ le_rfl
    rw [hnew, hnone] at hstage
    rw [htable, find_create, if_pos rfl, hfill, hexit, hnone]
    generalize s.exits s.db.pledgeOffers.nextId = x at hstage
    cases hstage
    exact .opened hpos hstatus hexp
  · rw [htable] at hle
    exact absurd hle (Nat.not_succ_le_self _)

theorem Inv.cancel {op : PledgeOfferCancelOperation} (hs : s.step (.cancel op) = some s') :
    s'.Inv := by
  obtain ⟨db, hdb, rfl⟩ := map_eq_some_iff.1 hs
  obtain ⟨htable, htime, o, ho, hstatus⟩ := pledgeOfferCancel_eq_some hdb
  have hlt := lt_nextId ho
  have hgone : db.pledgeOffers.find op.pledgeOffer = none := by
    rw [htable, find_remove, if_pos rfl]
  refine h.update (i := op.pledgeOffer) htime (htable ▸ le_rfl) (fun id hne => ?_)
    (fun _ _ => rfl) (fun _ _ => rfl) ?_ (fun hle => ?_) (fun hsome => ?_)
  · rw [htable, find_remove, if_neg hne]
  · have hstage := h.stage op.pledgeOffer
    rw [ho] at hstage
    rw [hgone]
    generalize s.fills op.pledgeOffer = f at hstage ⊢
    generalize s.exits op.pledgeOffer = x at hstage ⊢
    cases hstage with
    | opened => exact .absent
    | filled hpos hone => omega
  · rw [htable, nextId_remove] at hle
    omega
  · rw [hgone] at hsome
    cases hsome

/-- A fill starts the term, which is noted with the offer. -/
theorem Inv.fill {op : PledgeOfferFillOperation} (hin : s.InTime (.fill op))
    (hs : s.step (.fill op) = some s') : s'.Inv := by
  obtain ⟨db, hdb, rfl⟩ := map_eq_some_iff.1 hs
  obtain ⟨-, -, o, ho, hstatus, -, -, -, -, htable, hdays, hcwd5, htime⟩ :=
    pledgeOfferFill_eq_some hdb
  have hfind :
      db.pledgeOffers.find op.pledgeOffer = some (pledgeOfferFilled op s.db.headBlockTime o) := by
    rw [htable, find_modify, if_pos rfl, ho]
    rfl
  refine h.update (i := op.pledgeOffer) htime (htable ▸ le_rfl) (fun id hne => ?_)
    (fun id hne => by simp [fillOf, hne]) (fun _ _ => rfl) ?_ (fun hle => ?_) (fun _ => hcwd5)
  · rw [htable, find_modify, if_neg hne]
  · have hstage := h.stage op.pledgeOffer
    have hpos := (h.row ho).1
    rw [ho] at hstage
    simp only [fillOf, exitOf, if_true, hfind, map_some, some_or, toList_none, List.append_nil]
    generalize s.fills op.pledgeOffer = f at hstage
    generalize s.exits op.pledgeOffer = x at hstage ⊢
    -- the end of the term fits, so the stored expiration is that time
    have hdead : (pledgeOfferFilled op s.db.headBlockTime o).expiration =
        (pledgeOfferFilled op s.db.headBlockTime o).deadline s.db.headBlockTime := by
      have hd : (pledgeOfferFilled op s.db.headBlockTime o).pledgeDays = op.pledgeDays := by
        rw [← hdays, pledgeOfferFilled]
        split <;> rfl
      rw [PledgeOffer.deadline, hd]
      simp only [InTime] at hin
      simp only [pledgeOfferFilled, timePointSec]
      split <;> simp only [hdays] <;> omega
    have hpos' : (pledgeOfferFilled op s.db.headBlockTime o).Positive := by
      rw [pledgeOfferFilled]
      split <;> exact ⟨hpos.pledge, hpos.repay⟩
    have hlate : s.db.headBlockTime ≤
        (pledgeOfferFilled op s.db.headBlockTime o).deadline s.db.headBlockTime :=
      Nat.le_add_right _ _
    have hCwd5 : 1 < hardforkCwd5Time := by decide
    cases hstage with
    | opened => exact .filled hpos' rfl hdead (by omega) hlate
    | filled _ hone => omega
  · rw [htable, nextId_modify] at hle
    have := lt_nextId ho
    omega

/-- A repayment ends the offer, and is noted. -/
theorem Inv.repay {op : PledgeOfferRepayOperation} (hs : s.step (.repay op) = some s') :
    s'.Inv := by
  obtain ⟨db, hdb, rfl⟩ := map_eq_some_iff.1 hs
  have htable := pledgeOfferRepay_eq_some hdb
  obtain ⟨o, ho, hstatus, -, htime⟩ := pledgeOfferRepay_terms hdb
  obtain ⟨t, hfill, hexit, -, -⟩ := h.filled ho hstatus
  have hgone : db.pledgeOffers.find op.pledgeOffer = none := by
    rw [htable, find_remove, if_pos rfl]
  refine h.update (i := op.pledgeOffer) htime (htable ▸ le_rfl) (fun id hne => ?_)
    (fun _ _ => rfl) (fun id hne => by simp [exitOf, hne]) ?_ (fun hle => ?_) (fun hsome => ?_)
  · rw [htable, find_remove, if_neg hne]
  · rw [hgone, hfill, hexit]
    simp only [fillOf, exitOf, if_true, none_or, toList_some, List.nil_append]
    exact .repaid
  · rw [htable, nextId_remove] at hle
    have := lt_nextId ho
    omega
  · rw [hgone] at hsome
    cases hsome

/-- **A block is always accepted**; the sweep pays the pledges of the filled offers whose term is
over, each once, and nothing else happens to the table. -/
theorem Inv.dbStep_block (ht : s.db.headBlockTime < t) :
    ∃ (X : List (Σ _ : Nat, PledgeOffer)) (db : Database), dbStep s.db (.block t) = some db ∧
      X.NodupKeys ∧
      (∀ id o, ⟨id, o⟩ ∈ X ↔ s.db.pledgeOffers.find id = some o ∧ o.status = 1 ∧ o.expiration < t) ∧
      s.db.balances.adjustAll (X.map fun e => (e.2.creditor, e.2.pledgeAmount)) = some db.balances ∧
      (∀ id, db.pledgeOffers.find id = (s.db.pledgeOffers.find id).bind fun o =>
        if o.status = 1 ∧ o.expiration < t then none else some o) ∧
      db.pledgeOffers.nextId = s.db.pledgeOffers.nextId ∧ db.headBlockTime = t := by
  obtain ⟨X, t', m, hsweep, hnd, hX, hm, hfind, hnext⟩ := sweep_pays (pledgeExpired t)
    (fun o => o.status = 1 ∧ o.expiration < t) (fun o => { o with status := 8, expiration := 0 })
    PledgeOffer.creditor PledgeOffer.pledgeAmount PledgeOffer.status t 8 s.db.pledgeOffers
    s.db.balances (fun _ => ⟨rfl, rfl⟩)
    (fun id o ho => by
      -- there is a row, so offers are enabled and the time is far past the sentinels
      have hCwd5 : 1 < hardforkCwd5Time := by decide
      have htime := h.time id o ho
      rcases (h.row ho).2 with ⟨hs, he⟩ | ⟨hs, he⟩ <;> simp [pledgeExpired, hs, he] <;> omega)
    (fun id o ho => by
      refine ⟨?_, (h.row ho).1.pledge.le⟩
      rcases (h.row ho).2 with ⟨hs, he⟩ | ⟨hs, he⟩ <;> simp [hs, he])
  obtain ⟨⟨t1, m1⟩, hsweep, heq⟩ := map_eq_some_iff.1 hsweep
  cases heq
  refine ⟨X, { s.db with
    headBlockNum := s.db.headBlockNum + 1
    headBlockTime := t
    balances := m
    pledgeOffers := _ }, ?_, hnd, ?_, hm, ?_, hnext, rfl⟩
  · simp only [dbStep, PledgeSystem.dbStep, if_pos ht, proceedPledge]
    rw [hsweep]
    rfl
  · simpa using hX
  · simpa using hfind

end

theorem lt_of_dbStep_block {db' : Database} (h : dbStep db (.block t) = some db') :
    db.headBlockTime < t := by
  simp only [dbStep, PledgeSystem.dbStep] at h
  split at h
  · next ht => exact ht
  · cases h

/-- A block notes an exit for the filled offers whose term is over. -/
theorem exitOf_block {db' : Database}
    (hfind : db'.pledgeOffers.find id = (db.pledgeOffers.find id).bind fun o =>
      if o.status = 1 ∧ o.expiration < t then none else some o) :
    exitOf db db' (.block t) id = (db.pledgeOffers.find id).bind fun o =>
      if o.status = 1 ∧ o.expiration < t then some (.forfeited t) else none := by
  rw [exitOf, hfind]
  cases db.pledgeOffers.find id with
  | none => rfl
  | some o =>
    by_cases hcond : o.status = 1 ∧ o.expiration < t
    · simp [hcond]
    · simp [hcond]

/-- A block forfeits the filled offers whose term is over. -/
theorem Inv.block (h : s.Inv) (hs : s.step (.block t) = some s') : s'.Inv := by
  obtain ⟨db, hdb, rfl⟩ := map_eq_some_iff.1 hs
  have ht := lt_of_dbStep_block hdb
  obtain ⟨X, db', hdb', -, -, -, hfind, hnext, htime⟩ := h.dbStep_block ht
  cases hdb.symm.trans hdb'
  refine ⟨fun id => ?_, fun id hid => ?_, fun id o ho => ?_⟩
  · simp only [exitOf_block (hfind id), fillOf, none_or]
    have hstage := h.stage id
    rw [hfind, htime]
    generalize s.db.pledgeOffers.find id = row at hstage ⊢
    generalize s.fills id = f at hstage ⊢
    generalize s.exits id = x at hstage ⊢
    cases hstage with
    | absent => exact .absent
    | opened hpos hstatus hexp => simpa [hstatus] using Stage.opened hpos hstatus hexp
    | @filled o t' hpos hstatus hexp hone hnow =>
      by_cases hover : o.expiration < t
      · simpa [hstatus, hover] using Stage.forfeited (hexp ▸ hover) le_rfl
      · simpa [hstatus, hover] using Stage.filled hpos hstatus hexp hone (by omega)
    | repaid => exact .repaid
    | forfeited hlt hpast => exact .forfeited hlt (by omega)
  · simp only [hnext] at hid
    exact h.fresh id hid
  · simp only [hfind, bind_eq_some_iff] at ho
    obtain ⟨o', ho', -⟩ := ho
    have := h.time id o' ho'
    simp only [htime]
    omega

/-- **Every step keeps the stages**, if the expiration that it may set fits. -/
theorem Inv.step (h : s.Inv) (hin : s.InTime a) (hs : s.step a = some s') : s'.Inv := by
  cases a with
  | giveCreate op =>
    obtain ⟨db, hdb, rfl⟩ := map_eq_some_iff.1 hs
    obtain ⟨htable, hpledge, hrepay, hcwd5, htime⟩ := createPledgeOffer_eq_some hdb
    exact h.create htable ⟨hpledge, hrepay⟩ rfl rfl hcwd5 htime (fun _ => rfl) (fun _ => rfl)
  | takeCreate op =>
    obtain ⟨db, hdb, rfl⟩ := map_eq_some_iff.1 hs
    obtain ⟨htable, hpledge, hrepay, hcwd5, htime⟩ := createPledgeOffer_eq_some hdb
    exact h.create htable ⟨hpledge, hrepay⟩ rfl rfl hcwd5 htime (fun _ => rfl) (fun _ => rfl)
  | cancel op => exact h.cancel hs
  | fill op => exact h.fill hin hs
  | repay op => exact h.repay hs
  | block t => exact h.block hs
  | other e =>
    obtain ⟨db, hdb, rfl⟩ := map_eq_some_iff.1 hs
    cases hdb
    exact ⟨fun id => by simpa [fillOf, exitOf] using h.stage id, h.fresh, h.time⟩

/-! ### The life cycle -/

/-- **The balances change as the notes say**, one case per action. -/
theorem Inv.effect (h : s.Inv) (hs : s.step a = some s') : s.Effect s' a := by
  obtain ⟨db, hdb, rfl⟩ := map_eq_some_iff.1 hs
  cases a with
  | fill op =>
    obtain ⟨-, -, o, ho, -, hpledge, -, hsides, hbal, htable, -⟩ := pledgeOfferFill_eq_some hdb
    refine ⟨hbal, pledgeOfferFilled op s.db.headBlockTime o, ?_, ?_⟩
    · simp [fillOf, htable, ho]
    · -- the side that made the offer is stored, and the other one is written into it
      rw [pledgeOfferFillSides] at hsides
      rw [← hpledge, pledgeOfferFilled]
      split at hsides
      · next hmade =>
        rw [if_pos hmade]
        exact ⟨(of_decide_eq_true hsides).1, rfl, rfl⟩
      · next hzero =>
        rw [if_neg hzero]
        exact ⟨rfl, (of_decide_eq_true hsides).1, rfl⟩
  | repay op =>
    obtain ⟨o, ho, hstatus, hbal, -⟩ := pledgeOfferRepay_terms hdb
    obtain ⟨t, hfill, -, -, -⟩ := h.filled ho hstatus
    exact ⟨t, o, hfill, hbal⟩
  | block t =>
    obtain ⟨X, db', hdb', hnd, hX, hbal, hfind, -, -⟩ := h.dbStep_block (lt_of_dbStep_block hdb)
    cases hdb.symm.trans hdb'
    refine ⟨X, hnd, fun id o => ?_, ?_⟩
    · rw [hX]
      simp only [exitOf_block (hfind id), List.append_cancel_left_eq]
      constructor
      · rintro ⟨ho, hstatus, hover⟩
        obtain ⟨t', hfill, -, -, -⟩ := h.filled ho hstatus
        exact ⟨⟨t', hfill⟩, by simp [ho, hstatus, hover]⟩
      · rintro ⟨⟨t', hfill⟩, hexit⟩
        rcases hrow : s.db.pledgeOffers.find id with _ | o'
        · simp [hrow] at hexit
        · by_cases hcond : o'.status = 1 ∧ o'.expiration < t
          · obtain ⟨t'', hfill', -, -, -⟩ := h.filled hrow hcond.1
            obtain ⟨-, rfl⟩ := Prod.mk.inj (some.inj (hfill.symm.trans hfill'))
            exact ⟨rfl, hcond⟩
          · simp [hrow, hcond] at hexit
    · have hpay : (X.flatMap fun e => e.2.payments (.forfeited t)) =
          X.map fun e => (e.2.creditor, e.2.pledgeAmount) := by
        simp [PledgeOffer.payments, List.map_eq_flatMap]
      rw [hpay]
      exact hbal
  | giveCreate op => exact funext fun id => by simp [exitOf]
  | takeCreate op => exact funext fun id => by simp [exitOf]
  | cancel op => exact funext fun id => by simp [exitOf]
  | other e => exact funext fun id => by simp [exitOf]

/-- The stages say all of the life cycle. -/
theorem Inv.lifeCycle (h : s.Inv) : s.LifeCycle := by
  refine ⟨fun id t o hfill hnow => ?_, fun id time hexit => ?_, fun id => ?_,
    fun id t o hfill hover => ?_, fun a s' hs => h.effect hs⟩
  · have hstage := h.stage id
    rw [hfill] at hstage
    generalize hrow : s.db.pledgeOffers.find id = row at hstage
    generalize s.exits id = x at hstage ⊢
    cases hstage with
    | repaid => exact .inl rfl
    | forfeited hlt hpast => omega
    | filled hpos hstatus hexp hone hnow =>
      refine .inr ⟨rfl, fun op hop hterms hfee hasset hmeans => ?_⟩
      subst hop
      obtain ⟨db', hdb'⟩ := pledgeOfferRepay_isSome hrow hstatus hpos
        (h.time _ o hrow) hterms hfee hasset hmeans
      exact ⟨_, map_eq_some_iff.2 ⟨db', hdb', rfl⟩⟩
  · have hstage := h.stage id
    generalize s.db.pledgeOffers.find id = row at hstage
    generalize s.fills id = f at hstage ⊢
    generalize s.exits id = x at hstage hexit
    cases hstage with
    | @forfeited o t time' hlt hpast =>
      simp only [List.mem_singleton, PledgeExit.forfeited.injEq] at hexit
      exact ⟨t, o, rfl, hexit ▸ hlt⟩
    | _ => simp at hexit
  · have hstage := h.stage id
    generalize s.db.pledgeOffers.find id = row at hstage
    generalize s.fills id = f at hstage
    generalize s.exits id = x at hstage ⊢
    cases hstage <;> simp
  · have hstage := h.stage id
    rw [hfill] at hstage
    generalize s.db.pledgeOffers.find id = row at hstage
    generalize s.exits id = x at hstage ⊢
    cases hstage with
    | filled _ _ _ _ hnow => omega
    | _ => rfl

/-- **Pledges live as agreed, as long as no expiration wraps around.** In every run from a chain
without offers in which the expiration of every fill fits into 32 bits: up to the end of its term a
filled offer was repaid or can be, a pledge is forfeited only by a block after the term, and it is
paid out exactly once. -/
theorem pledge_life_cycle {s₀ s : PledgeLife} {acts : List PledgeAction} (h0 : s₀.Initial)
    (hin : Along step InTime s₀ acts) (hrun : run step s₀ acts = some s) : s.LifeCycle :=
  (invariant_of_along (fun h hP hs => Inv.step h hP hs) h0.inv hin hrun).lifeCycle

instance (s : PledgeLife) : (a : PledgeAction) → Decidable (s.InTime a)
  | .fill _ => inferInstanceAs (Decidable (_ < _))
  | .giveCreate _ | .takeCreate _ | .cancel _ | .repay _ | .block _ | .other _ => .isTrue trivial

/-! ### A short and a long term -/

/-- A chain with two accounts that hold a thousand each. -/
def twoAccounts : PledgeLife := ⟨PledgeSystem.twoAccounts.db, fun _ => none, fun _ => []⟩

/-- Account one offers a pledge of 500 for a credit of 300, and account zero gives the credit. -/
def pledgeFor (days : Nat) : List PledgeAction :=
  [.takeCreate ⟨⟨1, 0⟩, 1, ⟨500, 0⟩, ⟨300, 0⟩, ⟨330, 0⟩, days⟩,
    .fill ⟨⟨1, 0⟩, 0, 1, 0, ⟨500, 0⟩, ⟨300, 0⟩, ⟨330, 0⟩, days, 0⟩]

/-- The repayment of that offer. -/
def repayment : PledgeOfferRepayOperation := ⟨⟨1, 0⟩, 1, 0, ⟨330, 0⟩, ⟨500, 0⟩, 0⟩

/-- A term of ten days: three seconds after the fill the offer can be repaid. -/
theorem pledge_life_cycle_ten_days :
    ∃ s, run step twoAccounts (pledgeFor 10 ++ [.block (hardforkCwd5Time + 3)]) = some s ∧
      s.LifeCycle ∧ s.exits 0 = [] ∧ (s.step (.repay repayment)).isSome :=
  ⟨_, (some_get (by decide)).symm, pledge_life_cycle ⟨rfl, fun _ => rfl, fun _ => rfl⟩ (by decide)
      (some_get (by decide)).symm,
    by decide, by decide⟩

/-- A term of 40000 days: the expiration wraps around, the next block gives the pledge to the
creditor, and the repayment is refused. -/
theorem pledge_forfeited_at_once :
    ∃ s t o, run step twoAccounts (pledgeFor 40000 ++ [.block (hardforkCwd5Time + 3)]) = some s ∧
      s.fills 0 = some (t, o) ∧ s.db.headBlockTime < o.deadline t ∧
      s.exits 0 = [.forfeited (hardforkCwd5Time + 3)] ∧
      (s.step (.repay repayment)).isNone ∧ ¬s.LifeCycle := by
  refine ⟨_, _, _, (some_get (by decide)).symm, (some_get (by decide)).symm,
    by decide, by decide, by decide, fun h => ?_⟩
  -- the forfeit lies far before the end of the term
  obtain ⟨t, o, hfill, hlt⟩ := h.forfeited 0 (hardforkCwd5Time + 3) (by decide)
  revert hlt
  obtain ⟨rfl, rfl⟩ := Prod.mk.inj (some.inj ((some_get (by decide)).trans hfill))
  decide

end PledgeLife

end CrowdwizChain
