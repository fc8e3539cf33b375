import CrowdwizChain.Chain.Credit

/-!
# The ledger of credits

The counters of a credit in every run of the chain. A run interleaves the operations on credits, the
deposits of rewards as cashback, and the rewards of staking, with anything else the chain does,
which may change the whole database except the offers and the credits of the accounts.

Beside the database a run carries the notes of an observer about each private credit, which is one
that was taken by filling an offer: what was agreed, what of the debitor's income was withheld, and
what the creditor has received. The first is read off the offer, the second is the income less what
the code passes on, and the third is what is added to the creditor's balance.
-/

namespace CrowdwizChain

open Transition Option Database Function

/-! ### One credit -/

namespace Credit

/-- The counters of a credit fit together. -/
structure Ok (c : Credit) : Prop where
  repaid : 0 ≤ c.creditRepaid ∧ c.creditRepaid ≤ c.allowedToRepay
  allowed : (c.totalCredit = 0 ∧ c.allowedToRepay = 0) ∨ c.allowedToRepay < c.totalCredit

theorem Ok.free : free.Ok := ⟨⟨le_rfl, le_rfl⟩, .inl ⟨rfl, rfl⟩⟩

theorem Ok.take {total : Int} (h : 0 < total) (creditor : AccountId) :
    (⟨total, 0, 0, creditor⟩ : Credit).Ok :=
  ⟨⟨le_rfl, le_rfl⟩, .inr h⟩

theorem Ok.withholdMore {c : Credit} {amount : Int} (h : c.Ok) (hamount : 0 ≤ amount)
    (hlt : amount < c.totalCredit - c.allowedToRepay) :
    { c with allowedToRepay := c.allowedToRepay + amount }.Ok := by
  refine ⟨⟨h.repaid.1, ?_⟩, .inr ?_⟩
  · exact h.repaid.2.trans (le_add_of_nonneg_right hamount)
  · show c.allowedToRepay + amount < c.totalCredit
    omega

theorem Ok.repay {c : Credit} {amount : Int} (h : c.Ok) (hamount : 0 < amount)
    (hle : amount ≤ c.allowedToRepay - c.creditRepaid) :
    { c with creditRepaid := c.creditRepaid + amount }.Ok := by
  obtain ⟨hrepaid, hallowed⟩ := h
  refine ⟨⟨?_, ?_⟩, hallowed⟩
  · show 0 ≤ c.creditRepaid + amount
    omega
  · show c.creditRepaid + amount ≤ c.allowedToRepay
    omega

end Credit

/-! ### Runs -/

/-- The notes about a private credit. -/
structure PrivateCredit where
  creditor : AccountId
  /-- the repay amount of the offer -/
  agreed : Int
  /-- what of the debitor's income was withheld -/
  withheld : Int := 0
  /-- what was added to the creditor's balance -/
  received : Int := 0
deriving DecidableEq

/-- What can happen on the chain, as far as credits go. Rewards are not negative. -/
inductive CreditAction
  | systemGet (op : CreditSystemGetOperation)
  | offerCreate (op : CreditOfferCreateOperation)
  | offerCancel (op : CreditOfferCancelOperation)
  | offerFill (op : CreditOfferFillOperation)
  | repay (op : CreditRepayOperation)
  /-- `deposit_cashback` -/
  | cashback (account : AccountId) (amount : Nat) (requireVesting countIncome : Bool)
  /-- `pay_staking_reward` -/
  | stakingReward (accRef : AccountId) (stakAmount level pocRef : Nat)
  /-- anything else: every part of the database may change but offers and credits -/
  | other (e : Database)

/-- The database, with the notes about private credits. -/
structure CreditSystem where
  db : Database
  /-- the private credit of each account, while it is not covered -/
  current : AccountId → Option PrivateCredit
  /-- the private credits that have ended, with their debitors -/
  ended : List (AccountId × PrivateCredit)

/-- The accounts have the credits that they had, and new accounts have none. -/
def Database.SameCredits (db e : Database) : Prop :=
  (∀ a ∈ e.statistics.keys, e.credits a = some ((db.credits a).getD .free)) ∧
    ∀ a ∈ db.statistics.keys, a ∈ e.statistics

instance (db e : Database) : Decidable (db.SameCredits e) := inferInstanceAs (Decidable (_ ∧ _))

/-- An income on its way: the database before and after the withholding, and what is passed on. -/
structure Income where
  account : AccountId
  amount : Int
  before : Database
  after : Database
  rest : Int

/-- The notes about a private credit after an income of its debitor. -/
def PrivateCredit.note (p : PrivateCredit) (i : Income) : PrivateCredit :=
  { p with
    withheld := p.withheld + (i.amount - i.rest)
    received := p.received + (i.after.getBalance p.creditor 0 - i.before.getBalance p.creditor 0) }

namespace CreditSystem

/-- The income of `deposit_cashback`. -/
def cashbackIncome (db : Database) (a : AccountId) (amount : Int) (countIncome : Bool) :
    Option Income :=
  if amount = 0 then none
  else
    (if countIncome then
      db.modifyStatistics a fun s => { s with currentMonthIncome := s.currentMonthIncome + amount }
    else some db).bind fun db =>
      (db.withholdCashback a amount).map fun r => ⟨a, amount, db, r.1, r.2.getD 0⟩

/-- The income of `pay_staking_reward`. -/
def stakingIncome (db : Database) (accRef : AccountId) (stakAmount : Int) (level pocRef : Nat) :
    Option Income :=
  (db.accounts.find accRef).bind fun ref =>
    (Database.stakingRefAmount db.stakingParameters ref stakAmount level pocRef).bind fun amount =>
      if 0 < amount then
        (db.countStakingReward accRef level amount).bind fun db =>
          (db.withholdStaking accRef amount).map fun r => ⟨accRef, amount, db, r.1, r.2⟩
      else none

/-- The notes after an income, if there was one. -/
def noteIncome (s : CreditSystem) (db : Database) : Option Income → CreditSystem
  | none => { s with db }
  | some i =>
    match s.current i.account with
    | none => { s with db }
    | some p =>
      if (i.after.credits i.account).any (fun c => c.totalCredit = 0) then
        { db
          current := Function.update s.current i.account none
          ended := (i.account, p.note i) :: s.ended }
      else { s with db, current := Function.update s.current i.account (some (p.note i)) }

/-- One action, with the notes kept. -/
def step (s : CreditSystem) : CreditAction → Option CreditSystem
  | .systemGet op => (s.db.creditSystemGet op).map fun db => { s with db }
  | .offerCreate op => (s.db.creditOfferCreate op).map fun db => { s with db }
  | .offerCancel op => (s.db.creditOfferCancel op).map fun db => { s with db }
  | .offerFill op => (s.db.creditOfferFill op).map fun db =>
    { s with
      db
      current :=
        Function.update s.current op.debitor ((s.db.creditOffers.find op.creditOffer).map fun o =>
          { creditor := o.creditor, agreed := o.repayAmount.amount }) }
  | .repay op => (s.db.creditRepay op).map fun db =>
    { s with
      db
      current := Function.update s.current op.debitor ((s.current op.debitor).map fun p =>
          { p with received := p.received + op.repayAmount.amount }) }
  | .cashback a amount requireVesting countIncome =>
    (s.db.depositCashback a amount requireVesting countIncome).map fun db =>
      s.noteIncome db (cashbackIncome s.db a amount countIncome)
  | .stakingReward accRef stakAmount level pocRef =>
    (s.db.payStakingReward accRef stakAmount level pocRef).map fun r =>
      s.noteIncome r.1 (stakingIncome s.db accRef stakAmount level pocRef)
  | .other e =>
    if s.db.SameCredits e then some { s with db := { e with creditOffers := s.db.creditOffers } }
    else none

/-- A chain on which no account has a credit and there is no offer. -/
def Initial (s : CreditSystem) : Prop :=
  (∀ a c, s.db.credits a = some c → c = .free) ∧ s.db.creditOffers.rows = ∅ ∧
    (∀ a, s.current a = none) ∧ s.ended = []

/-! ### The invariant -/

/-- A private credit that has ended: the debitor's income was withheld up to what was agreed, and
the creditor has received that, unless it is account zero. -/
structure Ended (p : PrivateCredit) : Prop where
  agreed : 0 < p.agreed
  withheld : p.withheld = p.agreed
  received : p.creditor ≠ 0 → p.received = p.agreed
  unpaid : p.creditor = 0 → p.received = 0

/-- What the notes say about the credit of an account. -/
structure Noted (c : Option Credit) (p : Option PrivateCredit) : Prop where
  ok : ∀ c' ∈ c, c'.Ok
  /-- the counters are what the observer has noted -/
  current : ∀ p' ∈ p, 0 < p'.agreed ∧ (p'.creditor = 0 → p'.received = 0) ∧
    c = some ⟨p'.agreed, p'.withheld, p'.received, p'.creditor⟩
  /-- a credit with a creditor is a private one -/
  isSome : ∀ c' ∈ c, c'.creditor ≠ 0 → p.isSome

/-- What holds in every state that is reached. -/
structure Inv (s : CreditSystem) : Prop where
  noted : ∀ a, Noted (s.db.credits a) (s.current a)
  offers : ∀ id o, s.db.creditOffers.find id = some o → 0 < o.repayAmount.amount
  ended : ∀ e ∈ s.ended, Ended e.2

variable {s : CreditSystem} {db : Database} {a : AccountId} {c : Credit}

theorem mem_keys_of_credits (hc : db.credits a = some c) : a ∈ db.statistics.keys := by
  obtain ⟨st, hst, -⟩ := map_eq_some_iff.1 hc
  exact AList.mem_keys.1 (AList.lookup_isSome.1 (isSome_of_eq_some hst))

theorem Initial.inv (h : s.Initial) : s.Inv where
  noted a := by
    rw [h.2.2.1 a]
    refine ⟨fun c hc => ?_, fun _ => nofun, fun c hc hne => ?_⟩
    · rw [h.1 a c hc]
      exact .free
    · rw [h.1 a c hc] at hne
      exact absurd rfl hne
  offers id o ho := by
    rw [Table.find, h.2.1] at ho
    cases ho
  ended e he := by
    rw [h.2.2.2] at he
    cases he

/-- A step that leaves the credits alone, and adds no offer without a repay amount. -/
theorem Inv.sameCredits (h : s.Inv) (hcredits : db.credits = s.db.credits)
    (hoffers : ∀ id o, db.creditOffers.find id = some o → 0 < o.repayAmount.amount) : Inv
    { s with db } :=
  ⟨fun a => (congrFun hcredits a).symm ▸ h.noted a, hoffers, h.ended⟩

theorem Inv.update {p : Option PrivateCredit} (h : s.Inv)
    (hcredits : db.credits = update s.db.credits a (some c)) (hok : c.Ok)
    (hoffers : ∀ id o, db.creditOffers.find id = some o → 0 < o.repayAmount.amount)
    (hp : ∀ p' ∈ p, 0 < p'.agreed ∧ (p'.creditor = 0 → p'.received = 0) ∧
      c = ⟨p'.agreed, p'.withheld, p'.received, p'.creditor⟩) (hnoted : c.creditor ≠ 0 → p.isSome)
    (ended : List (AccountId × PrivateCredit)) (hended : ∀ e ∈ ended, Ended e.2) :
    Inv { db, current := update s.current a p, ended } := by
  refine ⟨fun a' => ?_, hoffers, hended⟩
  dsimp only
  rw [hcredits]
  rcases eq_or_ne a' a with rfl | hne
  · rw [update_self, update_self]
    refine ⟨fun c' hc' => some.inj hc' ▸ hok, fun p' hp' => ?_, fun c' hc' => some.inj hc' ▸ hnoted⟩
    obtain ⟨hagreed, hzero, rfl⟩ := hp p' hp'
    exact ⟨hagreed, hzero, rfl⟩
  · rw [update_of_ne hne, update_of_ne hne]
    exact h.noted a'

theorem Inv.other {e : Database} (h : s.Inv) (hsame : s.db.SameCredits e) :
    Inv { s with db := { e with creditOffers := s.db.creditOffers } } := by
  refine ⟨fun a => ?_, h.offers, h.ended⟩
  show Noted (e.credits a) (s.current a)
  have hat := h.noted a
  cases hc0 : s.db.credits a with
  | none =>
    have hfree : ∀ c ∈ e.credits a, c = .free := by
      intro c hc
      have heq := hsame.1 a (mem_keys_of_credits hc)
      rw [hc, hc0] at heq
      exact some.inj heq
    rw [hc0] at hat
    refine ⟨fun c hc => ?_, fun p hp => ?_, fun c hc hne => ?_⟩
    · rw [hfree c hc]
      exact .free
    · cases (hat.current p hp).2.2
    · rw [hfree c hc] at hne
      exact absurd rfl hne
  | some c0 =>
    have heq := hsame.1 a (hsame.2 a (mem_keys_of_credits hc0))
    rw [hc0] at hat heq
    exact heq.symm ▸ hat

/-! ### Incomes -/

theorem Ended.of_closeCredit {p : PrivateCredit} {before after : Database} {st : AccountStatistics}
    (hagreed : 0 < p.agreed) (hzero : p.creditor = 0 → p.received = 0)
    (hcredit : st.credit = ⟨p.agreed, p.withheld, p.received, p.creditor⟩)
    (hclose : before.closeCredit a st = some after) (amount : Int) :
    Ended (p.note ⟨a, amount, before, after, amount - (st.totalCredit - st.allowedToRepay)⟩) := by
  have htotal : st.totalCredit = p.agreed := congrArg Credit.totalCredit hcredit
  have hallowed : st.allowedToRepay = p.withheld := congrArg Credit.allowedToRepay hcredit
  have hrepaid : st.creditRepaid = p.received := congrArg Credit.creditRepaid hcredit
  have hcreditor : st.creditor = p.creditor := congrArg Credit.creditor hcredit
  have hpaid := closeCredit_getBalance hclose p.creditor
  rw [hcreditor] at hpaid
  refine ⟨hagreed, ?_, fun hne => ?_, fun hcz => ?_⟩
  · show p.withheld + (amount - (amount - (st.totalCredit - st.allowedToRepay))) = p.agreed
    omega
  · rw [if_pos ⟨hne, rfl⟩] at hpaid
    show p.received + (after.getBalance p.creditor 0 - before.getBalance p.creditor 0) = p.agreed
    omega
  · have hrec := hzero hcz
    rw [if_neg fun hc => hc.1 hcz] at hpaid
    show p.received + (after.getBalance p.creditor 0 - before.getBalance p.creditor 0) = 0
    omega

/-- An income keeps the invariant, whichever of the two routines withholds it. -/
theorem Inv.noteIncome {i : Income} (h : s.Inv)
    (hw : i.before.Withholds i.account i.amount i.after i.rest) (hamount : 0 ≤ i.amount)
    (hbefore : i.before.credits = s.db.credits) (hafter : db.credits = i.after.credits)
    (hoffers : db.creditOffers = s.db.creditOffers) : (s.noteIncome db (some i)).Inv := by
  have hoffers' : ∀ id o, db.creditOffers.find id = some o → 0 < o.repayAmount.amount := by
    rw [hoffers]
    exact h.offers
  obtain ⟨a, amount, before, after, rest⟩ := i
  dsimp only at hw hamount hbefore hafter
  rcases hw with _ | ⟨st, _, hst, hlt, hmod⟩ | ⟨st, _, hst, htotal, hle, hclose⟩
  · -- no credit is looked at
    have hsame := h.sameCredits (hafter.trans hbefore) hoffers'
    rw [CreditSystem.noteIncome]
    rcases hp : s.current a with _ | p
    · exact hsame
    · obtain ⟨hagreed, -, hc⟩ := (h.noted a).current p hp
      have hopen : ¬(before.credits a).any (fun c => c.totalCredit = 0) = true := by
        rw [hbefore, hc]
        simp [hagreed.ne']
      have hnote : p.note ⟨a, amount, before, before, amount⟩ = p := by simp [PrivateCredit.note]
      dsimp only
      rw [if_neg hopen, hnote, ← hp, update_eq_self]
      exact hsame
  · -- all of it is withheld
    have hc0 : s.db.credits a = some st.credit := hbefore ▸ credits_apply hst
    obtain ⟨hcredits, hbalances⟩ := Withholds.everything_credits hst hmod
    have hok := ((h.noted a).ok _ hc0).withholdMore hamount hlt
    have hupdate := hafter.trans (hbefore ▸ hcredits)
    rw [CreditSystem.noteIncome]
    rcases hp : s.current a with _ | p
    · have hnone : st.credit.creditor ≠ 0 → (none : Option PrivateCredit).isSome := by
        rw [← hp]
        exact (h.noted a).isSome _ hc0
      have hinv := h.update hupdate hok hoffers' (by simp) hnone s.ended h.ended
      rwa [← hp, update_eq_self] at hinv
    · obtain ⟨hagreed, hzero, hc⟩ := (h.noted a).current p hp
      obtain hcredit := some.inj (hc0.symm.trans hc)
      have hopen : ¬(after.credits a).any (fun c => c.totalCredit = 0) = true := by
        rw [hcredits, update_self]
        have htotal : st.totalCredit = p.agreed := congrArg Credit.totalCredit hcredit
        simp [AccountStatistics.credit, htotal, hagreed.ne']
      dsimp only
      rw [if_neg hopen]
      refine h.update hupdate hok hoffers' ?_ (fun _ => rfl) s.ended h.ended
      rintro p' hp'
      cases hp'
      have hsame : after.getBalance p.creditor 0 = before.getBalance p.creditor 0 := by
        rw [getBalance, hbalances]
        rfl
      have hallowed : st.allowedToRepay = p.withheld := congrArg Credit.allowedToRepay hcredit
      refine ⟨hagreed, ?_, ?_⟩
      · simpa [PrivateCredit.note, hsame] using hzero
      · rw [hcredit, hallowed]
        simp [PrivateCredit.note, hsame]
  · -- the income ends the credit
    have hc0 : s.db.credits a = some st.credit := hbefore ▸ credits_apply hst
    obtain ⟨hcredits, -⟩ := closeCredit_credits hclose
    have hupdate := hafter.trans (hbefore ▸ hcredits)
    rw [CreditSystem.noteIncome]
    rcases hp : s.current a with _ | p
    · have hinv :=
        h.update hupdate .free hoffers' (p := none) (by simp) (absurd rfl) s.ended h.ended
      rwa [← hp, update_eq_self] at hinv
    · obtain ⟨hagreed, hzero, hc⟩ := (h.noted a).current p hp
      obtain hcredit := some.inj (hc0.symm.trans hc)
      have hended : (after.credits a).any (fun c => c.totalCredit = 0) = true := by
        rw [hcredits, update_self]
        rfl
      dsimp only
      rw [if_pos hended]
      refine h.update hupdate .free hoffers' (by simp) (absurd rfl) _ ?_
      rintro e he
      rcases List.mem_cons.1 he with rfl | he
      · exact Ended.of_closeCredit hagreed hzero hcredit hclose amount
      · exact h.ended e he

/-- What a deposit of cashback does with an income: the counters afterwards are those after the
withholding. -/
theorem depositCashback_income {db' : Database} {amount : Int} {requireVesting countIncome : Bool}
    (h : db.depositCashback a amount requireVesting countIncome = some db') :
    db'.creditOffers = db.creditOffers ∧
      ((cashbackIncome db a amount countIncome = none ∧ db'.credits = db.credits) ∨
        ∃ i, cashbackIncome db a amount countIncome = some i ∧ i.amount = amount ∧
          i.before.Withholds i.account i.amount i.after i.rest ∧ i.before.credits = db.credits ∧
          db'.credits = i.after.credits) := by
  refine ⟨(depositCashback_steps h).rewardFrame.creditOffers, ?_⟩
  rw [depositCashback] at h
  rw [cashbackIncome]
  split at h
  · next hzero =>
    cases h
    exact .inl ⟨if_pos hzero, rfl⟩
  · next hne =>
    obtain ⟨db1, h1, h⟩ := bind_eq_some_iff.1 h
    obtain ⟨⟨db2, rest⟩, h2, h⟩ := bind_eq_some_iff.1 h
    refine .inr ⟨⟨a, amount, db1, db2, rest.getD 0⟩, ?_, rfl, withholdCashback_withholds h2, ?_, ?_⟩
    · rw [if_neg hne, h1, bind_some, h2]
      rfl
    · split at h1
      · exact credits_modifyStatistics h1 fun _ => rfl
      · rw [some.inj h1]
    · rcases rest with _ | amount'
      · rw [some.inj h]
      · exact (creditCashback_credits h).1

theorem payStakingReward_income {accRef : AccountId} {stakAmount : Int} {level pocRef : Nat}
    {r : Database × Int} (h : db.payStakingReward accRef stakAmount level pocRef = some r) :
    r.1.creditOffers = db.creditOffers ∧
      ((stakingIncome db accRef stakAmount level pocRef = none ∧ r.1.credits = db.credits) ∨
        ∃ i, stakingIncome db accRef stakAmount level pocRef = some i ∧ 0 ≤ i.amount ∧
          i.before.Withholds i.account i.amount i.after i.rest ∧ i.before.credits = db.credits ∧
          r.1.credits = i.after.credits) := by
  obtain ⟨ref, href, h⟩ := bind_eq_some_iff.1 h
  obtain ⟨amount, hamount, h⟩ := bind_eq_some_iff.1 h
  rw [stakingIncome, href, bind_some, hamount, bind_some]
  split at h
  · next hpos =>
    obtain ⟨db1, h1, h⟩ := bind_eq_some_iff.1 h
    obtain ⟨⟨db2, rest⟩, h2, h⟩ := bind_eq_some_iff.1 h
    obtain ⟨db3, h3, rfl⟩ := map_eq_some_iff.1 h
    obtain ⟨hcredits, hframe⟩ := countStakingReward_credits h1
    have hw := withholdStaking_withholds h2
    have hlast : db3.credits = db2.credits ∧ db3.creditOffers = db2.creditOffers := by
      split at h3
      · obtain ⟨m, -, rfl⟩ := adjustBalance_eq_some h3
        exact ⟨rfl, rfl⟩
      · cases h3
        exact ⟨rfl, rfl⟩
    refine ⟨hlast.2.trans (hframe.trans hw.rewardFrame).creditOffers, .inr ?_⟩
    refine ⟨⟨accRef, _, db1, db2, rest⟩, ?_, hpos.le, hw, hcredits, hlast.1⟩
    rw [if_pos hpos, h1, bind_some, h2]
    rfl
  · next hpos =>
    cases h
    exact ⟨rfl, .inl ⟨if_neg hpos, rfl⟩⟩

/-! ### One step -/

/-- **Every step keeps the credits as noted**, one case per action. -/
theorem Inv.step {s' : CreditSystem} {a : CreditAction} (h : s.Inv) (hs : s.step a = some s') :
    s'.Inv := by
  cases a with
  | systemGet op =>
    obtain ⟨db, hdb, rfl⟩ := map_eq_some_iff.1 hs
    obtain ⟨c, hc, htotal, hpos, hcredits, hoffers, -⟩ := creditSystemGet_eq_some hdb
    -- an account with a private credit does not get another one
    have hnone : s.current op.debitor = none := by
      rcases hp : s.current op.debitor with _ | p
      · rfl
      · obtain ⟨hagreed, -, hc'⟩ := (h.noted op.debitor).current p hp
        cases hc.symm.trans hc'
        exact absurd htotal hagreed.ne'
    have hinv := h.update hcredits (.take (by omega) 0) (hoffers ▸ h.offers) (p := none) (by simp)
      (absurd rfl) s.ended h.ended
    rwa [← hnone, update_eq_self] at hinv
  | offerCreate op =>
    obtain ⟨db, hdb, rfl⟩ := map_eq_some_iff.1 hs
    obtain ⟨hpos, hcredits, hoffers, -⟩ := creditOfferCreate_eq_some hdb
    refine h.sameCredits hcredits fun id o ho => ?_
    rw [hoffers] at ho
    rcases Table.find_create_cases ho with ⟨-, rfl⟩ | ho
    · exact hpos
    · exact h.offers id o ho
  | offerCancel op =>
    obtain ⟨db, hdb, rfl⟩ := map_eq_some_iff.1 hs
    obtain ⟨hcredits, hoffers, -⟩ := creditOfferCancel_eq_some hdb
    refine h.sameCredits hcredits fun id o ho => ?_
    rw [hoffers] at ho
    exact h.offers id o (Table.find_of_remove ho)
  | offerFill op =>
    obtain ⟨db, hdb, rfl⟩ := map_eq_some_iff.1 hs
    obtain ⟨o, c, ho, -, -, -, hcredits, hoffers, -⟩ := creditOfferFill_eq_some hdb
    have hpos := h.offers op.creditOffer o ho
    refine h.update hcredits (.take hpos o.creditor) (fun id o' ho' => ?_) ?_
      (fun _ => by rw [ho]; rfl) s.ended h.ended
    · rw [hoffers] at ho'
      exact h.offers id o' (Table.find_of_remove ho')
    · rintro p' hp'
      rw [ho] at hp'
      cases hp'
      exact ⟨hpos, fun _ => rfl, rfl⟩
  | repay op =>
    obtain ⟨db, hdb, rfl⟩ := map_eq_some_iff.1 hs
    obtain ⟨c, hc, -, hne, hpos, hle, hcredits, hoffers, -⟩ := creditRepay_eq_some hdb
    refine h.update hcredits (((h.noted _).ok _ hc).repay hpos hle) (hoffers ▸ h.offers) ?_ ?_
      s.ended h.ended
    swap
    · intro _
      rw [isSome_map]
      exact (h.noted op.debitor).isSome c hc hne
    rintro p' hp'
    obtain ⟨p, hp, rfl⟩ := map_eq_some_iff.1 hp'
    obtain ⟨hagreed, -, hc'⟩ := (h.noted op.debitor).current p hp
    cases hc.symm.trans hc'
    exact ⟨hagreed, fun hzero => absurd hzero hne, rfl⟩
  | cashback a amount requireVesting countIncome =>
    obtain ⟨db, hdb, rfl⟩ := map_eq_some_iff.1 hs
    obtain ⟨hoffers, ⟨hnone, hcredits⟩ | ⟨i, hi, hamount, hw, hbefore, hafter⟩⟩ :=
      depositCashback_income hdb
    · rw [hnone]
      exact h.sameCredits hcredits (hoffers ▸ h.offers)
    · rw [hi]
      exact h.noteIncome hw (by omega) hbefore hafter hoffers
  | stakingReward accRef stakAmount level pocRef =>
    obtain ⟨r, hr, rfl⟩ := map_eq_some_iff.1 hs
    obtain ⟨hoffers, ⟨hnone, hcredits⟩ | ⟨i, hi, hamount, hw, hbefore, hafter⟩⟩ :=
      payStakingReward_income hr
    · rw [hnone]
      exact h.sameCredits hcredits (hoffers ▸ h.offers)
    · rw [hi]
      exact h.noteIncome hw hamount hbefore hafter hoffers
  | other e =>
    rw [CreditSystem.step] at hs
    split at hs
    · next hsame =>
      cases hs
      exact h.other hsame
    · cases hs

/-- **The ledger of credits.** In every state that a run reaches, the counters of every account fit
together, and of a private credit that has ended the creditor has received exactly what was agreed,
while exactly that was withheld of the debitor's income, if and only if the creditor is not account
zero. A fill that is accepted next begins a private credit on the terms of the offer, and a
repayment is one of a private credit, to its creditor. -/
theorem private_credit_repaid_iff {s s' : CreditSystem} {acts : List CreditAction}
    (h0 : s.Initial) (hrun : run step s acts = some s') :
      (∀ a st, s'.db.statistics.lookup a = some st →
      (0 ≤ st.creditRepaid ∧ st.creditRepaid ≤ st.allowedToRepay) ∧
      ((st.totalCredit = 0 ∧ st.allowedToRepay = 0) ∨ st.allowedToRepay < st.totalCredit)) ∧
    (∀ a p, (a, p) ∈ s'.ended → ((p.received = p.agreed ∧ p.withheld = p.agreed) ↔
    p.creditor ≠ 0)) ∧
    (∀ op s'', s'.step (.offerFill op) = some s'' →
        ∃ o, s'.db.creditOffers.find op.creditOffer = some o ∧
        s''.current op.debitor = some { creditor := o.creditor, agreed := o.repayAmount.amount } ∧
        s'.db.balances.adjustAll [(o.creditor, -op.creditAmount), (op.debitor, op.creditAmount),
          (op.debitor, -op.fee)] = some s''.db.balances) ∧
    ∀ op s'', s'.step (.repay op) = some s'' →
      ∃ p, s'.current op.debitor = some p ∧ p.creditor = op.creditor ∧
        s''.current op.debitor = some { p with received := p.received + op.repayAmount.amount } ∧
        s'.db.balances.adjustAll [(p.creditor, op.repayAmount), (p.creditor, -op.fee)] =
          some s''.db.balances := by
  have h : s'.Inv := invariant (fun hinv hs => Inv.step hinv hs) h0.inv hrun
  refine ⟨?_, ?_, ?_, ?_⟩
  · intro a st hst
    have hok := (h.noted a).ok st.credit (credits_apply hst)
    exact ⟨hok.repaid, hok.allowed⟩
  · intro a p hp
    have hended := h.ended (a, p) hp
    constructor
    · rintro ⟨hreceived, -⟩ hzero
      have hagreed : 0 < p.agreed := hended.agreed
      have hunpaid : p.received = 0 := hended.unpaid hzero
      omega
    · exact fun hne => ⟨hended.received hne, hended.withheld⟩
  · intro op s'' hs
    obtain ⟨db, hdb, rfl⟩ := map_eq_some_iff.1 hs
    obtain ⟨o, c, ho, -, -, -, -, -, hbalances⟩ := creditOfferFill_eq_some hdb
    refine ⟨o, ho, ?_, hbalances⟩
    dsimp only
    rw [update_self, ho]
    rfl
  · intro op s'' hs
    obtain ⟨db, hdb, rfl⟩ := map_eq_some_iff.1 hs
    obtain ⟨c, hc, hcreditor, hne, -, -, -, -, -, hbalances⟩ := creditRepay_eq_some hdb
    obtain ⟨p, hp⟩ := isSome_iff_exists.1 ((h.noted op.debitor).isSome c hc hne)
    obtain ⟨-, -, hc'⟩ := (h.noted op.debitor).current p hp
    cases hc.symm.trans hc'
    refine ⟨p, hp, hcreditor, ?_, ?_⟩
    · dsimp only
      rw [update_self, hp]
      rfl
    · rw [show p.creditor = op.creditor from hcreditor]
      exact hbalances

/-! ### A credit of one hundred and fifty -/

/-- A chain with the five accounts of the chain itself and two more, that hold a thousand each. -/
def sevenAccounts : CreditSystem where
  db := Database.start hardforkCwd6Time (List.replicate 7 { referrer := 0 }) 1000
  current := fun _ => none
  ended := []

theorem sevenAccounts_initial : sevenAccounts.Initial := by
  refine ⟨?_, rfl, fun _ => rfl, rfl⟩
  intro a c hc
  have hall : ∀ a ∈ sevenAccounts.db.statistics.keys,
      (sevenAccounts.db.statistics.lookup a).map AccountStatistics.credit = some .free := by
    decide +kernel
  exact some.inj (hc.symm.trans (hall a (mem_keys_of_credits hc)))

/-- Account six fills an offer of the given creditor, and earns a hundred. -/
def fillAndEarn (creditor : AccountId) : List CreditAction :=
  [.offerCreate ⟨⟨1, 0⟩, 0, creditor, ⟨100, 0⟩, ⟨150, 0⟩⟩,
    .offerFill ⟨⟨1, 0⟩, 6, creditor, 0, ⟨100, 0⟩⟩, .cashback 6 100 false true]

/-- A reward of a hundred for account six. -/
def rewardSix : CreditAction := .stakingReward 6 10000 1 500

theorem private_credit_repaid_iff_account_five : ∃ s', run step sevenAccounts
        (fillAndEarn 5 ++ [.repay ⟨⟨1, 0⟩, 6, 5, ⟨40, 0⟩⟩, rewardSix]) = some s' ∧
      s'.ended = [(6, ⟨5, 150, 150, 150⟩)] ∧ s'.db.getBalance 5 0 = 1048 ∧
      ∀ p, (6, p) ∈ s'.ended → ((p.received = p.agreed ∧ p.withheld = p.agreed) ↔
      p.creditor ≠ 0) := by
  refine ⟨_, (some_get (by decide +kernel)).symm, by decide +kernel, by decide +kernel, ?_⟩
  exact (private_credit_repaid_iff sevenAccounts_initial (some_get (by decide +kernel)).symm).2.1 6

/-- Account zero makes the offer. It pays the credit, the debitor's income is withheld as agreed,
and account zero gets nothing. -/
theorem private_credit_of_account_zero :
    ∃ s', run step sevenAccounts (fillAndEarn 0 ++ [rewardSix]) = some s' ∧
      s'.ended = [(6, ⟨0, 150, 150, 0⟩)] ∧ s'.db.getBalance 0 0 = 899 := by
  exact ⟨_, (some_get (by decide +kernel)).symm, by decide +kernel, by decide +kernel⟩

end CreditSystem

end CrowdwizChain
