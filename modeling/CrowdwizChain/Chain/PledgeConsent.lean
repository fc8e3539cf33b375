import CrowdwizChain.Chain.PledgeOffer

/-!
# Who is debited when a pledge offer is filled

A fill takes the credit from the creditor and the pledge from the debitor. One of the two is the
account that made the offer, and should be debited only in the role that it offered; the other is
the account that fills it. Which role the creator offered is not stored: a run notes it here when
the offer is made, and the evaluators guess it from whether the stored debitor is account zero.

The guess is wrong for one kind of offer, one made by account zero as a debitor. Filling it takes
the credit from account zero, which offered a pledge.
-/

namespace CrowdwizChain

open Transition Option List Database OrderedTable

/-- The side on which an account takes part. -/
inductive PledgeRole
  /-- gives the credit, and gets it back with interest -/
  | creditor
  /-- gives the pledge and takes the credit -/
  | debitor
deriving DecidableEq

/-- What can happen on the chain, as far as pledge offers go. -/
inductive PledgeAction
  | giveCreate (op : PledgeOfferGiveCreateOperation)
  | takeCreate (op : PledgeOfferTakeCreateOperation)
  | cancel (op : PledgeOfferCancelOperation)
  | fill (op : PledgeOfferFillOperation)
  | repay (op : PledgeOfferRepayOperation)
  /-- a block of the given time: the head moves on and the sweep runs -/
  | block (time : Nat)
  /-- anything else: every part of the database may change but the offers -/
  | other (e : Database)

/-- The database, with the role that the creator of each offer offered. -/
structure PledgeSystem where
  db : Database
  offered : Nat → Option PledgeRole

namespace PledgeSystem

/-- What an action does to the database. -/
def dbStep (db : Database) : PledgeAction → Option Database
  | .giveCreate op => db.pledgeOfferGiveCreate op
  | .takeCreate op => db.pledgeOfferTakeCreate op
  | .cancel op => db.pledgeOfferCancel op
  | .fill op => db.pledgeOfferFill op
  | .repay op => db.pledgeOfferRepay op
  | .block time =>
    if db.headBlockTime < time then
      { db with headBlockNum := db.headBlockNum + 1, headBlockTime := time }.proceedPledge
    else none
  | .other e => some { e with pledgeOffers := db.pledgeOffers }

/-- The role noted for a new offer. -/
def roleOf : PledgeAction → Option PledgeRole
  | .giveCreate _ => some .creditor
  | .takeCreate _ => some .debitor
  | _ => none

/-- One action, with the role of a new offer noted under its id. -/
def step (s : PledgeSystem) (a : PledgeAction) : Option PledgeSystem :=
  (dbStep s.db a).map fun db =>
    { db
      offered := fun id =>
        if id = s.db.pledgeOffers.nextId then (roleOf a).or (s.offered id) else s.offered id }

/-! ### Consent -/

/-- The debits of a fill, each with the role in which the account is debited. -/
def debits (op : PledgeOfferFillOperation) : List (PledgeRole × AccountId × Asset) :=
  [(.creditor, op.creditor, op.creditAmount), (.debitor, op.debitor, op.pledgeAmount)]

/-- **Consent**: every debit is one of the account that authorised the fill, or one of the creator
in the role that it offered; and the balances of no other accounts go down. -/
structure Consented (s s' : PledgeSystem) (op : PledgeOfferFillOperation) (o : PledgeOffer) :
    Prop where
  debits : ∀ d ∈ debits op, d.2.1 = op.account ∨
    (d.2.1 = o.creator ∧ s.offered op.pledgeOffer = some d.1)
  others : ∀ a asset, s'.db.getBalance a asset < s.db.getBalance a asset → a = o.creator ∨
    a = op.account

/-! ### Open offers keep the shape in which they were made -/

/-- The stored sides of an open offer are those of the role that was offered. -/
def Shape (role : Option PledgeRole) (o : PledgeOffer) : Prop :=
  (role = some .creditor ∧ o.creditor = o.creator ∧ o.debitor = 0) ∨
    (role = some .debitor ∧ o.debitor = o.creator ∧ o.creditor = 0)

/-- Every open offer has the shape of the role noted for it. -/
def Inv (s : PledgeSystem) : Prop :=
  ∀ id o, s.db.pledgeOffers.find id = some o → o.status = 0 → Shape (s.offered id) o

variable {s : PledgeSystem}

/-- A step that makes an offer in the shape of the role that it notes. -/
theorem Inv.create (h : s.Inv) {db : Database} {o : PledgeOffer} {role : PledgeRole}
    (htable : db.pledgeOffers = s.db.pledgeOffers.create o) (ho : Shape (some role) o) :
    Inv ⟨db, fun id =>
      if id = s.db.pledgeOffers.nextId then (some role).or (s.offered id) else s.offered id⟩ := by
  intro id o' ho' hstatus
  simp only [htable, find_create] at ho' ⊢
  split at ho'
  · next heq =>
    cases ho'
    rw [if_pos heq]
    exact ho
  · next hne =>
    rw [if_neg hne]
    exact h id o' ho' hstatus

/-- A step after which every open offer was already there. -/
theorem Inv.keep (h : s.Inv) {db : Database}
    (hback : ∀ id o, db.pledgeOffers.find id = some o → o.status = 0 →
    s.db.pledgeOffers.find id = some o) :
    Inv ⟨db, fun id =>
      if id = s.db.pledgeOffers.nextId then (none : Option PledgeRole).or (s.offered id)
      else s.offered id⟩ := by
  intro id o ho hstatus
  simpa using h id o (hback id o ho hstatus) hstatus

/-- **Every step keeps the shape of the open offers**, one case per action. -/
theorem Inv.step {s' : PledgeSystem} {a : PledgeAction} (h : s.Inv) (hs : s.step a = some s') :
    s'.Inv := by
  obtain ⟨db, hdb, rfl⟩ := map_eq_some_iff.1 hs
  -- an offer that is removed, or that the step does not touch
  have hremove : ∀ {i}, db.pledgeOffers = s.db.pledgeOffers.remove i →
      ∀ id o, db.pledgeOffers.find id = some o → o.status = 0 →
      s.db.pledgeOffers.find id = some o := by
    intro i htable id o ho _
    rw [htable, find_remove] at ho
    split at ho
    · cases ho
    · exact ho
  cases a with
  | giveCreate op =>
    exact h.create (createPledgeOffer_eq_some hdb).1 (.inl ⟨rfl, rfl, rfl⟩)
  | takeCreate op =>
    exact h.create (createPledgeOffer_eq_some hdb).1 (.inr ⟨rfl, rfl, rfl⟩)
  | cancel op => exact h.keep (hremove (pledgeOfferCancel_eq_some hdb).1)
  | repay op => exact h.keep (hremove (pledgeOfferRepay_eq_some hdb))
  | fill op =>
    obtain ⟨-, -, o, ho, -, -, -, -, -, htable, -⟩ := pledgeOfferFill_eq_some hdb
    refine h.keep fun id o' ho' hstatus => ?_
    rw [htable, find_modify] at ho'
    split at ho'
    · -- the filled offer is no longer open
      obtain ⟨r, -, rfl⟩ := map_eq_some_iff.1 ho'
      cases hstatus
    · exact ho'
  | block t =>
    rw [dbStep] at hdb
    split at hdb
    · refine h.keep fun id o ho hstatus => ?_
      rcases find_proceedPledge hdb ho with ho | hmarked
      · exact ho
      · omega
    · cases hdb
  | other e =>
    cases hdb
    exact h.keep fun id o ho _ => ho

/-! ### The fill -/

/-- The two accounts that a fill debits are the creator of the offer and the account that fills
it. -/
theorem Shape.sides {role : Option PledgeRole} {o : PledgeOffer} (h : Shape role o)
    {op : PledgeOfferFillOperation} (hsides : pledgeOfferFillSides op o = true) :
    (op.creditor = o.creator ∧ op.debitor = op.account ∧
        (role = some .creditor ∨ (role = some .debitor ∧ o.creator = 0))) ∨
      (op.debitor = o.creator ∧ op.creditor = op.account ∧ role = some .debitor ∧
        o.creator ≠ 0) := by
  rcases h with ⟨hrole, hcreditor, hdebitor⟩ | ⟨hrole, hdebitor, hcreditor⟩
  · simp only [pledgeOfferFillSides, hdebitor, ne_eq, not_true_eq_false, if_false,
      decide_eq_true_eq] at hsides
    exact .inl ⟨hsides.1.symm.trans hcreditor, hsides.2.symm, .inl hrole⟩
  · rcases eq_or_ne o.creator 0 with hzero | hpos
    · -- the debitor is account zero, and is taken for a side that is still open
      simp only [pledgeOfferFillSides, hdebitor, hzero, ne_eq, not_true_eq_false,
        if_false, decide_eq_true_eq] at hsides
      exact .inl ⟨(hsides.1.symm.trans hcreditor).trans hzero.symm, hsides.2.symm,
        .inr ⟨hrole, hzero⟩⟩
    · have hne : o.debitor ≠ 0 := fun h => hpos (hdebitor.symm.trans h)
      simp only [pledgeOfferFillSides, hne, ne_eq, not_false_eq_true, if_true,
        decide_eq_true_eq] at hsides
      exact .inr ⟨hsides.1.symm.trans hdebitor, hsides.2.symm, hrole, hpos⟩

/-- **A fill is consented to except for the offers of account zero as a debitor.** In every run,
an accepted fill adjusts the balances by its two debits, the credit to the debitor and the fee;
and the debits are those of the filling account and of the creator in the role that it offered, and
no other balance goes down, exactly when the offer is not one that account zero made as a debitor
and another account fills. -/
theorem pledge_fill_consented_iff {s₀ s s' : PledgeSystem} {acts : List PledgeAction}
    (h0 : s₀.db.pledgeOffers.rows = []) (hrun : run step s₀ acts = some s)
    {op : PledgeOfferFillOperation} (hfill : s.step (.fill op) = some s') :
    ∃ o, s.db.pledgeOffers.find op.pledgeOffer = some o ∧ s.db.balances.adjustAll
        ((debits op).map (fun d => (d.2.1, -d.2.2)) ++
          [(op.debitor, op.creditAmount), (op.account, -op.fee)]) = some s'.db.balances ∧
      (Consented s s' op o ↔ ¬(s.offered op.pledgeOffer = some .debitor ∧ o.creator = 0 ∧
        op.account ≠ 0)) := by
  have hinv : s.Inv := by
    refine invariant (fun h hs => Inv.step h hs) (fun id o ho => ?_) hrun
    simp [find, h0] at ho
  obtain ⟨db, hdb, rfl⟩ := map_eq_some_iff.1 hfill
  obtain ⟨-, -, o, ho, hstatus, -, -, hsides, hbal, -⟩ := pledgeOfferFill_eq_some hdb
  refine ⟨o, ho, hbal, ?_⟩
  have hcases := (hinv _ o ho hstatus).sides hsides
  -- whatever the role, the two accounts that are debited are the creator and the filling account
  have hothers : ∀ a asset, db.getBalance a asset < s.db.getBalance a asset →
      a = o.creator ∨ a = op.account := by
    intro a asset hlt
    by_contra hne
    rw [not_or] at hne
    have hgiven := Balances.amountOf_adjustAll hbal a asset
    have hboth : a ≠ op.creditor ∧ a ≠ op.debitor := by
      rcases hcases with ⟨h1, h2, -⟩ | ⟨h1, h2, -⟩
      · exact ⟨h1 ▸ hne.1, h2 ▸ hne.2⟩
      · exact ⟨h2 ▸ hne.2, h1 ▸ hne.1⟩
    simp only [Balances.given, map_cons, map_nil, hboth.1, hboth.2, hne.2, false_and, if_false,
      sum_cons, sum_nil] at hgiven
    simp only [getBalance] at hlt
    omega
  constructor
  · rintro ⟨hdebits, -⟩ ⟨hrole, hzero, hne⟩
    -- the creator is debited as a creditor
    rcases hdebits _ (mem_cons_self) with heq | ⟨-, heq⟩
    · rcases hcases with ⟨hcred, -, -⟩ | ⟨-, -, -, hpos⟩
      · exact hne (heq.symm.trans (hcred.trans hzero))
      · exact hpos hzero
    · rw [hrole] at heq
      cases heq
  · intro hnot
    refine ⟨?_, hothers⟩
    intro d hd
    simp only [debits, mem_cons, not_mem_nil, or_false] at hd
    rcases hcases with ⟨hcred, hdeb, hrole | ⟨hrole, hzero⟩⟩ | ⟨hdeb, hcred, hrole, -⟩
    · rcases hd with rfl | rfl
      · exact .inr ⟨hcred, hrole⟩
      · exact .inl hdeb
    · have hacc : op.account = 0 := by
        by_contra hne
        exact hnot ⟨hrole, hzero, hne⟩
      rcases hd with rfl | rfl
      · exact .inl (hcred.trans (hzero.trans hacc.symm))
      · exact .inl hdeb
    · rcases hd with rfl | rfl
      · exact .inl hcred
      · exact .inr ⟨hdeb, hrole⟩

/-! ### Two offers -/

/-- A chain with two accounts that hold a thousand each. -/
def twoAccounts : PledgeSystem :=
  ⟨.start hardforkCwd5Time [{ referrer := 0 }, { referrer := 0 }] 1000, fun _ => none⟩

/-- An offer to pledge 500 for a credit of 300. -/
def takeOffer (debitor : AccountId) : PledgeOfferTakeCreateOperation :=
  ⟨⟨1, 0⟩, debitor, ⟨500, 0⟩, ⟨300, 0⟩, ⟨330, 0⟩, 10⟩

/-- A fill of the offer under number zero. -/
def fillOffer (account debitor creditor : AccountId) : PledgeOfferFillOperation :=
  ⟨⟨1, 0⟩, account, debitor, creditor, ⟨500, 0⟩, ⟨300, 0⟩, ⟨330, 0⟩, 10, 0⟩

/-- Account one makes the offer, and account zero gives the credit. -/
theorem pledge_fill_consented_iff_take :
    ∃ s s' o, run step twoAccounts [.takeCreate (takeOffer 1)] = some s ∧
      s.step (.fill (fillOffer 0 1 0)) = some s' ∧ Consented s s' (fillOffer 0 1 0) o := by
  obtain ⟨s, hrun⟩ := isSome_iff_exists.1
    (by decide : (run step twoAccounts [.takeCreate (takeOffer 1)]).isSome)
  obtain ⟨s', hfill⟩ : ∃ s', s.step (.fill (fillOffer 0 1 0)) = some s' := by
    rw [← isSome_iff_exists, ← bind_some (f := (step · _)), ← hrun]
    decide
  obtain ⟨o, -, -, hiff⟩ := pledge_fill_consented_iff rfl hrun hfill
  exact ⟨s, s', o, hrun, hfill, hiff.2 fun h => h.2.2 rfl⟩

/-- Account zero makes the offer. Account one fills it as a debitor, and account zero is debited
the credit that it wanted to take. -/
theorem pledge_fill_debits_debitor_zero :
    ∃ s s' o, run step twoAccounts [.takeCreate (takeOffer 0)] = some s ∧
      s.step (.fill (fillOffer 1 1 0)) = some s' ∧ s.db.pledgeOffers.find 0 = some o ∧
      s.db.getBalance 0 0 = 999 ∧ s'.db.getBalance 0 0 = 699 ∧
      ¬Consented s s' (fillOffer 1 1 0) o := by
  refine ⟨_, _, _, (some_get (by decide)).symm, (some_get (by decide)).symm,
    (some_get (by decide)).symm, by decide, by decide, ?_⟩
  rintro ⟨hdebits, -⟩
  rcases hdebits _ mem_cons_self with heq | ⟨-, heq⟩
  · cases heq
  · revert heq
    decide

end PledgeSystem

end CrowdwizChain
