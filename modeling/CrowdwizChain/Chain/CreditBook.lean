import CrowdwizChain.Chain.Cashback

/-!
# The credits of the accounts, after a number of incomes

Four fields of the statistics of an account are about its credit: the total that is to be
covered, what has been withheld so far, what of that was passed on to the creditor, and who that
is. `deposit_cashback` changes nothing else of the credits than these four, of one account, and
whether it does is decided by them alone. So the credits after any number of incomes are a
function of the credits before, `creditsAfter`, and so is what the journal says about the
credits that end on the way.
-/

namespace CrowdwizChain

open Option List

/-- The credit of an account. -/
structure Credit where
  totalCredit : Int
  allowedToRepay : Int
  creditRepaid : Int
  creditor : AccountId
deriving DecidableEq

/-- The part of the statistics that is about a credit. -/
def AccountStatistics.credit (s : AccountStatistics) : Credit :=
  ⟨s.totalCredit, s.allowedToRepay, s.creditRepaid, s.creditor⟩

namespace Credit

/-- No credit. -/
def free : Credit := ⟨0, 0, 0, 0⟩

/-- The income covers what is still to be withheld. -/
def Covers (c : Credit) (amount : Int) : Prop := c.totalCredit - c.allowedToRepay ≤ amount

instance (c : Credit) (amount : Int) : Decidable (c.Covers amount) :=
  inferInstanceAs (Decidable (_ ≤ _))

/-- The credit after an income. -/
def withhold (c : Credit) (amount : Int) : Credit :=
  if 0 < c.totalCredit then
    if c.Covers amount then free else { c with allowedToRepay := c.allowedToRepay + amount }
  else c

/-- What account zero has been repaid of its credit, if the income ends it. -/
def repaidTwice (c : Credit) (amount : Int) : Int :=
  if 0 < c.totalCredit ∧ c.Covers amount ∧ c.creditor = 0 then c.creditRepaid else 0

end Credit

/-- The credits of all accounts. -/
abbrev Credits := AccountId → Option Credit

namespace Credits

/-- The credits after an income at some time. An income of zero is none. -/
def income (now : Nat) (c : Credits) (i : AccountId × Int) : Credits :=
  if i.2 ≠ 0 ∧ hardforkCwd5Time ≤ now then
    Function.update c i.1 ((c i.1).map (·.withhold i.2))
  else c

/-- What the income repays for the second time. -/
def repaidTwiceBy (now : Nat) (c : Credits) (i : AccountId × Int) : Int :=
  if i.2 ≠ 0 ∧ hardforkCwd5Time ≤ now then (c i.1).elim 0 (·.repaidTwice i.2) else 0

/-- The credits after some incomes. -/
def incomes (now : Nat) (c : Credits) (l : List (AccountId × Int)) :
    Credits := l.foldl (income now) c

/-- What some incomes repay for the second time. -/
def repaidTwice (now : Nat) : Credits → List (AccountId × Int) → Int
  | _, [] => 0
  | c, i :: l => c.repaidTwiceBy now i + repaidTwice now (c.income now i) l

variable (now : Nat) (c : Credits)

include now c

@[simp] theorem incomes_nil : c.incomes now [] = c := rfl

@[simp] theorem repaidTwice_nil : c.repaidTwice now [] = 0 := rfl

theorem incomes_append (l l' : List (AccountId × Int)) :
    c.incomes now (l ++ l') = (c.incomes now l).incomes now l' := foldl_append

theorem repaidTwice_append (l l' : List (AccountId × Int)) :
    c.repaidTwice now (l ++ l') = c.repaidTwice now l + (c.incomes now l).repaidTwice now l' := by
  induction l generalizing c with
  | nil => simp
  | cons i l ih =>
    rw [cons_append, repaidTwice, ih, repaidTwice, add_assoc]
    rfl

end Credits

namespace Database

/-- The credits, as the statistics have them. -/
def credits (db : Database) : Credits :=
  fun a => (db.statistics.lookup a).map AccountStatistics.credit

variable {db db' : Database} {a : AccountId} {amount : Int}

theorem credits_apply {s : AccountStatistics} (h : db.statistics.lookup a = some s) :
    db.credits a = some s.credit := by
  rw [credits, h, map_some]

theorem credits_modifyStatistics {f : AccountStatistics → AccountStatistics}
    (h : db.modifyStatistics a f = some db') (hf : ∀ s, (f s).credit = s.credit) :
    db'.credits = db.credits := by
  obtain ⟨s, -, rfl⟩ := modifyStatistics_eq_some h
  exact AList.map_lookup_modify_of_eq hf db.statistics a

/-! ### A deposit -/

theorem closeCredit_credits {s : AccountStatistics} (h : db.closeCredit a s = some db') :
    db'.credits = Function.update db.credits a (some .free) ∧
      db'.minted = db.minted + if s.creditor = 0 then s.creditRepaid else 0 := by
  obtain ⟨db1, h1, h⟩ := bind_eq_some_iff.1 h
  have key : db1.statistics = db.statistics ∧
      db1.minted = db.minted + if s.creditor = 0 then s.creditRepaid else 0 := by
    split at h1
    · next hzero =>
      obtain ⟨db2, h2, rfl⟩ := map_eq_some_iff.1 h1
      obtain ⟨c, -, rfl⟩ := modifyCore_eq_some h2
      refine ⟨rfl, ?_⟩
      simp only [minted, log, map_cons, sum_cons, JournalEntry.minted, if_pos hzero]
      omega
    · next hne =>
      obtain ⟨db2, h2, rfl⟩ := map_eq_some_iff.1 h1
      obtain ⟨m, -, rfl⟩ := adjustBalance_eq_some h2
      refine ⟨rfl, ?_⟩
      simp only [minted, log, map_cons, sum_cons, JournalEntry.minted, if_neg hne]
      omega
  obtain ⟨s', hs', rfl⟩ := modifyStatistics_eq_some h
  refine ⟨?_, key.2⟩
  have hcredits : db1.credits = db.credits := by
    unfold credits
    rw [key.1]
  rw [← hcredits]
  refine (AList.map_lookup_modify AccountStatistics.credit _ a _).trans ?_
  rw [hs']
  rfl

theorem withholdCashback_credits {rest : Option Int} (hamount : amount ≠ 0)
    (h : db.withholdCashback a amount = some (db', rest)) :
    db'.credits = db.credits.income db.headBlockTime (a, amount) ∧
      db'.minted = db.minted + db.credits.repaidTwiceBy db.headBlockTime (a, amount) := by
  obtain ⟨s, hs, h⟩ := bind_eq_some_iff.1 h
  rw [Credits.income, Credits.repaidTwiceBy, credits_apply hs]
  by_cases hnow : hardforkCwd5Time ≤ db.headBlockTime
  · rw [if_pos ⟨hamount, hnow⟩, if_pos ⟨hamount, hnow⟩, map_some, elim_some]
    by_cases htotal : 0 < s.totalCredit
    · rw [if_pos ⟨htotal, hnow⟩] at h
      dsimp only at h
      split at h
      · next hlt =>
        -- the income is withheld
        obtain ⟨db1, h1, heq⟩ := map_eq_some_iff.1 h
        cases heq
        have hcov : ¬s.credit.Covers amount := not_le.2 hlt
        obtain ⟨s', hs', rfl⟩ := modifyStatistics_eq_some h1
        refine ⟨?_, ?_⟩
        · refine (AList.map_lookup_modify AccountStatistics.credit _ a _).trans ?_
          rw [hs, map_some, Credit.withhold, if_pos (show 0 < s.credit.totalCredit from htotal),
            if_neg hcov]
          rfl
        · rw [Credit.repaidTwice, if_neg fun hc => hcov hc.2.1, add_zero]
          rfl
      · next hge =>
        obtain ⟨db1, h1, heq⟩ := map_eq_some_iff.1 h
        cases heq
        have hcov : s.credit.Covers amount := not_lt.1 hge
        obtain ⟨hcredits, hminted⟩ := closeCredit_credits h1
        refine ⟨?_, ?_⟩
        · rw [hcredits, Credit.withhold, if_pos (show 0 < s.credit.totalCredit from htotal),
            if_pos hcov]
        · rw [hminted, Credit.repaidTwice]
          simp only [show 0 < s.credit.totalCredit from htotal, hcov, true_and]
          rfl
    · rw [if_neg fun hc => htotal hc.1] at h
      cases h
      refine ⟨?_, ?_⟩
      · rw [Credit.withhold, if_neg (show ¬0 < s.credit.totalCredit from htotal),
          ← credits_apply hs, Function.update_eq_self]
      · rw [Credit.repaidTwice, if_neg fun hc => htotal hc.1, add_zero]
  · rw [if_neg fun hc => hnow hc.2, if_neg fun hc => hnow hc.2]
    rw [if_neg fun hc => hnow hc.2] at h
    cases h
    exact ⟨rfl, (add_zero _).symm⟩

theorem creditCashback_credits {requireVesting : Bool}
    (h : db.creditCashback a amount requireVesting = some db') :
    db'.credits = db.credits ∧ db'.minted = db.minted := by
  rw [creditCashback] at h
  split at h
  · obtain ⟨c, -, rfl⟩ := modifyCore_eq_some h
    exact ⟨rfl, rfl⟩
  · obtain ⟨acct, -, h⟩ := bind_eq_some_iff.1 h
    obtain ⟨⟨db1, new⟩, h1, h⟩ := bind_eq_some_iff.1 h
    obtain ⟨t, rfl, -⟩ := depositLazyVesting_eq_some h1
    rcases new with _ | id
    · cases h
      exact ⟨rfl, rfl⟩
    · have hcredits := credits_modifyStatistics h fun _ => rfl
      obtain ⟨s, -, rfl⟩ := modifyStatistics_eq_some h
      exact ⟨hcredits, rfl⟩

/-- **A deposit is one income**, for the credits and for the journal. -/
theorem depositCashback_credits {requireVesting countIncome : Bool}
    (h : db.depositCashback a amount requireVesting countIncome = some db') :
    db'.credits = db.credits.income db.headBlockTime (a, amount) ∧
      db'.minted = db.minted + db.credits.repaidTwiceBy db.headBlockTime (a, amount) := by
  rw [depositCashback] at h
  split at h
  · next hzero =>
    cases h
    rw [Credits.income, Credits.repaidTwiceBy, if_neg fun hc => hc.1 hzero,
      if_neg fun hc => hc.1 hzero, add_zero]
    exact ⟨rfl, rfl⟩
  · next hamount =>
    obtain ⟨db1, h1, h⟩ := bind_eq_some_iff.1 h
    obtain ⟨⟨db2, rest⟩, h2, h⟩ := bind_eq_some_iff.1 h
    have key : db1.credits = db.credits ∧ db1.minted = db.minted ∧
        db1.headBlockTime = db.headBlockTime := by
      split at h1
      · have hcredits := credits_modifyStatistics h1 fun _ => rfl
        obtain ⟨s, -, rfl⟩ := modifyStatistics_eq_some h1
        exact ⟨hcredits, rfl, rfl⟩
      · cases h1
        exact ⟨rfl, rfl, rfl⟩
    obtain ⟨hcredits, hminted⟩ := withholdCashback_credits hamount h2
    rw [key.1, key.2.2] at hcredits hminted
    rw [key.2.1] at hminted
    rcases rest with _ | amount'
    · cases h
      exact ⟨hcredits, hminted⟩
    · obtain ⟨hcredits', hminted'⟩ := creditCashback_credits h
      exact ⟨hcredits'.trans hcredits, hminted'.trans hminted⟩

end Database

end CrowdwizChain
