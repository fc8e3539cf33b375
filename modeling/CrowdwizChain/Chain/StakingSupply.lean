import CrowdwizChain.Chain.Staking
import Mathlib.Algebra.BigOperators.Ring.Finset

/-!
# What a staking issues

Every amount that `poc_stak` credits beyond the amount staked is newly issued, and the supply grows
by their sum. What is withheld of a reward for a credit is credited like the rest; a credit of the
system that ends by it leaves the supply in the same step, which the journal notes. `Burns` follows
the supply and these entries through the steps of the operation, and the ledger of the core asset
(`imbalance`) says that the amounts are really somewhere.

The check before compares the limit with the supply, the amount staked and `posible_reward`, one
share for the sum of all percentages. It is of no use where that share is 2^63 or more, and so
negative as an amount, while the reward of the staker alone is not (`staking_supply_iff`).
-/

namespace CrowdwizChain

open Option List Nat Int Transition

/-- What an entry of the journal says has left the supply with a credit of the system. -/
def JournalEntry.burnedCredit : JournalEntry → Int
  | .creditTotalRepay _ creditor repayAmount _ => if creditor = 0 then repayAmount else 0
  | _ => 0

namespace Database

/-- `current_supply` of the core asset. -/
def currentSupply (db : Database) : Int := ((db.assets.find 0).map AssetObject.currentSupply).getD 0

/-- `max_supply` of the core asset. -/
def maxSupply (db : Database) : Int := ((db.assets.find 0).map AssetObject.maxSupply).getD 0

/-- What has left the supply with credits of the system. -/
def burnedCredits (db : Database) : Int := (db.journal.map JournalEntry.burnedCredit).sum

/-- No credit is larger than the largest amount. -/
def CreditBound (db : Database) : Prop :=
  ∀ a s, db.statistics.lookup a = some s → s.totalCredit ≤ grapheneMaxShareSupply

/-- At most some number of credits end, and the supply changes by nothing else. -/
structure Burns (db db' : Database) (n : Nat) : Prop where
  supply : db'.currentSupply + db'.burnedCredits = db.currentSupply + db.burnedCredits
  max : db'.maxSupply = db.maxSupply
  race : db'.greatraceParameters = db.greatraceParameters
  bound : db.CreditBound → db'.CreditBound ∧ db.burnedCredits ≤ db'.burnedCredits ∧
    db'.burnedCredits ≤ db.burnedCredits + n * grapheneMaxShareSupply

variable {db db' : Database}

variable {amount reward : Int} {a ref : AccountId} {level n : Nat} {b : Nat → Int}
  {op : PocStakOperation} {issue : StakingIssue}

theorem Burns.refl (db : Database) : db.Burns db 0 :=
  ⟨rfl, rfl, rfl, fun h => ⟨h, le_rfl, by simp⟩⟩

theorem Burns.trans {db'' : Database} {m : Nat} (h : db.Burns db' m) (h' : db'.Burns db'' n) :
    db.Burns db'' (m + n) := by
  refine ⟨h'.supply.trans h.supply, h'.max.trans h.max, h'.race.trans h.race, fun hdb => ?_⟩
  obtain ⟨hdb', hle, hbound⟩ := h.bound hdb
  obtain ⟨hdb'', hle', hbound'⟩ := h'.bound hdb'
  refine ⟨hdb'', hle.trans hle', hbound'.trans ?_⟩
  rw [Nat.cast_add, add_mul]
  omega

theorem Burns.mono {m : Nat} (h : db.Burns db' m) (hmn : m ≤ n) : db.Burns db' n := by
  refine ⟨h.supply, h.max, h.race, fun hdb => ?_⟩
  obtain ⟨hdb', hle, hbound⟩ := h.bound hdb
  have hmul : (m : Int) * grapheneMaxShareSupply ≤ n * grapheneMaxShareSupply :=
    mul_le_mul_of_nonneg_right (Int.ofNat_le.2 hmn) (by decide)
  exact ⟨hdb', hle, hbound.trans (by omega)⟩

/-! ### The steps -/

theorem Burns.of_eq (hassets : db'.assets = db.assets)
    (hstatistics : db'.statistics = db.statistics)
    (hjournal : db'.journal = db.journal)
    (hrace : db'.greatraceParameters = db.greatraceParameters) :
    db.Burns db' 0 := by
  refine ⟨?_, ?_, hrace, fun hdb => ⟨?_, ?_⟩⟩
  · rw [currentSupply, currentSupply, burnedCredits, burnedCredits, hassets, hjournal]
  · rw [maxSupply, maxSupply, hassets]
  · rw [CreditBound, hstatistics]
    exact hdb
  · rw [burnedCredits, burnedCredits, hjournal]
    exact ⟨le_rfl, by simp⟩

theorem burns_adjustBalance {d : Asset} (h : db.adjustBalance a d = some db') : db.Burns db' 0 := by
  obtain ⟨m, -, rfl⟩ := adjustBalance_eq_some h
  exact .of_eq rfl rfl rfl rfl

variable {f : AccountStatistics → AccountStatistics}

theorem creditBound_modify (hdb : db.CreditBound)
    (hf : ∀ s : AccountStatistics, s.totalCredit ≤ grapheneMaxShareSupply →
      (f s).totalCredit ≤ grapheneMaxShareSupply) :
    CreditBound { db with statistics := db.statistics.modify a f } := by
  intro b s hs
  rw [AList.lookup_modify] at hs
  split at hs
  · obtain ⟨s', hs', rfl⟩ := map_eq_some_iff.1 hs
    exact hf s' (hdb a s' hs')
  · exact hdb b s hs

theorem burns_modifyStatistics (h : db.modifyStatistics a f = some db')
    (hf : ∀ s : AccountStatistics, s.totalCredit ≤ grapheneMaxShareSupply →
      (f s).totalCredit ≤ grapheneMaxShareSupply) : db.Burns db' 0 := by
  obtain ⟨s, -, rfl⟩ := modifyStatistics_eq_some h
  exact ⟨rfl, rfl, rfl, fun hdb => ⟨creditBound_modify hdb hf, le_rfl, by simp [burnedCredits]⟩⟩

theorem currentSupply_modifyCore {f : AssetObject → AssetObject} {c : AssetObject}
    (hc : db.assets.find 0 = some c) (h : db.modifyCore f = some db') :
    db'.currentSupply = (f c).currentSupply ∧ db'.maxSupply = (f c).maxSupply := by
  obtain ⟨_, -, rfl⟩ := modifyCore_eq_some h
  simp only [currentSupply, maxSupply, Table.find_modify_self, hc, map_some, getD_some, and_self]

theorem currentSupply_eq {c : AssetObject} (hc : db.assets.find 0 = some c) :
    db.currentSupply = c.currentSupply ∧ db.maxSupply = c.maxSupply := by
  simp only [currentSupply, maxSupply, hc, map_some, getD_some, and_self]

theorem burns_modifyFees {f : AssetObject → AssetObject} (h : db.modifyCore f = some db')
    (hf : ∀ c, (f c).currentSupply = c.currentSupply ∧ (f c).maxSupply = c.maxSupply) :
    db.Burns db' 0 := by
  obtain ⟨c, hc, hdb'⟩ := modifyCore_eq_some h
  obtain ⟨hsupply', hmax'⟩ := currentSupply_modifyCore hc h
  obtain ⟨hsupply, hmax⟩ := currentSupply_eq hc
  have hburned : db'.burnedCredits = db.burnedCredits := by
    rw [hdb']
    rfl
  refine ⟨?_, ?_, ?_, fun hdb => ⟨?_, ?_, ?_⟩⟩
  · rw [hsupply', hsupply, hburned, (hf c).1]
  · rw [hmax', hmax, (hf c).2]
  · rw [hdb']
  · rw [hdb']
    exact hdb
  · exact hburned.ge
  · rw [hburned, Nat.cast_zero, zero_mul, add_zero]

/-- **The end of a credit**: a credit of the system leaves the supply, and the journal notes it. -/
theorem burns_closeCredit {s : AccountStatistics} (hs : db.statistics.lookup a = some s)
    (hpos : 0 < s.totalCredit) (h : db.closeCredit a s = some db') : db.Burns db' 1 := by
  obtain ⟨db1, h1, h⟩ := bind_eq_some_iff.1 h
  have hfree := burns_modifyStatistics h fun _ _ => show (0 : Int) ≤ grapheneMaxShareSupply by
    decide
  suffices hfirst : db.Burns db1 1 from hfirst.trans hfree
  have hlog : ∀ (d : Database) (e : JournalEntry),
      (d.log e).burnedCredits = d.burnedCredits + e.burnedCredit := by
    intro d e
    simp only [burnedCredits, log, map_cons, sum_cons]
    omega
  split at h1
  · next hzero =>
    obtain ⟨db2, h2, rfl⟩ := map_eq_some_iff.1 h1
    obtain ⟨c, hc, hdb2⟩ := modifyCore_eq_some h2
    obtain ⟨hsupply2, hmax2⟩ := currentSupply_modifyCore hc h2
    obtain ⟨hsupply, hmax⟩ := currentSupply_eq hc
    have hburned := hlog db2 (.creditTotalRepay a s.creditor s.totalCredit s.creditRepaid)
    have hburned2 : db2.burnedCredits = db.burnedCredits := by
      rw [hdb2]
      rfl
    rw [JournalEntry.burnedCredit, if_pos hzero, hburned2] at hburned
    refine ⟨?_, hmax2.trans hmax.symm, by rw [hdb2]; rfl, fun hdb => ⟨by rw [hdb2]; exact hdb, ?_⟩⟩
    · rw [hburned, hsupply, show (db2.log _).currentSupply = _ from hsupply2]
      dsimp only
      omega
    · have hle := hdb a s hs
      exact ⟨by omega, by omega⟩
  · next hne =>
    obtain ⟨db2, h2, rfl⟩ := map_eq_some_iff.1 h1
    have hburns := burns_adjustBalance h2
    have hburned :=
      hlog db2 (.creditTotalRepay a s.creditor (s.totalCredit - s.creditRepaid) s.creditRepaid)
    rw [JournalEntry.burnedCredit, if_neg hne, add_zero] at hburned
    refine Burns.mono ⟨?_, hburns.max, hburns.race, fun hdb => ?_⟩ (Nat.zero_le 1)
    · rw [hburned]
      exact hburns.supply
    · rw [hburned]
      exact hburns.bound hdb

/-- What is withheld of an income, or pays for the end of a credit. -/
theorem Withholds.burns {rest : Int} (h : db.Withholds a amount db' rest) : db.Burns db' 1 := by
  cases h with
  | nothing => exact (Burns.refl _).mono (zero_le 1)
  | everything _ _ _ _ h => exact (burns_modifyStatistics h fun _ hs => hs).mono (zero_le 1)
  | theRest _ _ hs htotal _ h => exact burns_closeCredit hs htotal h

theorem Withholds.rest_nonneg {rest : Int} (h : db.Withholds a amount db' rest)
    (hamount : 0 ≤ amount) :
    0 ≤ rest := by
  cases h with
  | nothing => exact hamount
  | everything => exact le_rfl
  | theRest s _ _ _ hle => omega

theorem burns_countGrReward (h : db.countGrReward ref reward = some db') : db.Burns db' 0 := by
  rcases countGrReward_eq_some h with rfl | ⟨db1, t, h1, rfl⟩
  · exact .refl _
  · exact { burns_modifyStatistics h1 fun _ hs => hs with }

/-- A step that credits an amount, by which at most some number of credits end. -/
structure Issues (db db' : Database) (n : Nat) (x : Int) : Prop where
  burns : db.Burns db' n
  frame : db.RewardFrame db'
  imbalance : db'.imbalance = db.imbalance + x

theorem Issues.refl (db : Database) (n : Nat) : db.Issues db n 0 :=
  ⟨(Burns.refl _).mono (zero_le n), RewardFrame.refl _, (add_zero _).symm⟩

theorem Issues.trans {db'' : Database} {m : Nat} {x y : Int} (h : db.Issues db' m x)
    (h' : db'.Issues db'' n y) :
    db.Issues db'' (m + n) (x + y) :=
  ⟨h.burns.trans h'.burns, h.frame.trans h'.frame, by rw [h'.imbalance, h.imbalance, add_assoc]⟩

theorem countStakingReward_issues (h : db.countStakingReward ref level reward = some db') :
    db.Issues db' 0 0 := by
  have hframe := (countStakingReward_credits h).2
  obtain ⟨db1, h1, h⟩ := bind_eq_some_iff.1 h
  have hgr : db.Burns db1 0 ∧ db1.imbalance = db.imbalance :=
    optional_step h1 (fun _ h1 => ⟨burns_countGrReward h1, (countGrReward_ledger h1).2⟩)
      ⟨.refl _, rfl⟩
  refine ⟨hgr.1.trans (burns_modifyStatistics h fun _ hs => hs), hframe, ?_⟩
  obtain ⟨s, hs, -⟩ := modifyStatistics_eq_some h
  rw [imbalance_modifyStatistics hs h, hgr.2]
  simp [AccountStatistics.held]

/-- **The reward of a referrer**, whether it is paid out or withheld. -/
theorem payStakingReward_issues {percent : Nat}
    (h : db.payStakingReward ref amount level percent = some (db', reward)) :
    db.Issues db' 1 reward ∧ ∃ account r,
      stakingRefAmount db.stakingParameters account amount level percent = some r ∧
      reward = max r 0 := by
  obtain ⟨account, -, h⟩ := bind_eq_some_iff.1 h
  obtain ⟨r, hr, h⟩ := bind_eq_some_iff.1 h
  split at h
  · next hpos =>
    obtain ⟨db1, h1, h⟩ := bind_eq_some_iff.1 h
    obtain ⟨⟨db2, rest⟩, h2, h⟩ := bind_eq_some_iff.1 h
    obtain ⟨db3, h3, heq⟩ := map_eq_some_iff.1 h
    obtain ⟨rfl, rfl⟩ := Prod.mk.inj heq
    have hwithholds := withholdStaking_withholds h2
    have hrest := hwithholds.rest_nonneg hpos.le
    -- what is left after withholding is paid out
    have hpaid : db2.Issues db3 0 rest := by
      split at h3
      · exact ⟨burns_adjustBalance h3, rewardFrame_adjustBalance h3, imbalance_adjustBalance h3⟩
      · next hzero =>
        cases h3
        dsimp only at hzero ⊢
        exact ⟨.refl _, RewardFrame.refl _, by omega⟩
    have hall := ((countStakingReward_issues h1).trans
      ⟨hwithholds.burns, hwithholds.rewardFrame, hwithholds.imbalance_eq⟩).trans hpaid
    refine ⟨⟨hall.burns, hall.frame, ?_⟩, account, r, hr, (max_eq_left hpos.le).symm⟩
    rw [hall.imbalance, zero_add, sub_add_cancel]
  · next hpos =>
    cases h
    exact ⟨.refl _ 1, account, r, hr, (max_eq_right (not_lt.1 hpos)).symm⟩

/-- **The levels**, by induction: the rewards are credited, and bounded by what the
percentages bound. -/
theorem payReferrers_issues {staker : AccountId} {refs : List (AccountId × Nat)}
    {accountsSet : List AccountId} {referrals : List (AccountId × Int)}
    (hb : ∀ e ∈ refs, 0 ≤ b e.2 ∧ ∀ account level r,
      stakingRefAmount db.stakingParameters account amount level e.2 = some r → r ≤ b e.2)
    (h : payReferrers staker amount refs level accountsSet db = some (db', referrals)) :
    db.Issues db' refs.length (sumOf referrals) ∧ 0 ≤ sumOf referrals ∧
      sumOf referrals ≤ ((refs.map Prod.snd).map b).sum ∧
      (hardforkCore1480BlockNum ≤ db.headBlockNum → (referrals.map Prod.fst).Nodup ∧
        ∀ a ∈ referrals.map Prod.fst, a ∈ accountsSet ∧ a ≠ staker) := by
  induction refs generalizing level accountsSet db referrals with
  | nil =>
    cases h
    exact ⟨.refl _ 0, le_rfl, le_rfl, fun _ => ⟨.nil, by simp⟩⟩
  | cons e refs ih =>
    obtain ⟨ref, percent⟩ := e
    rw [forall_mem_cons] at hb
    rw [payReferrers] at h
    split at h
    · next hcond =>
      obtain ⟨⟨db1, reward⟩, h1, h⟩ := bind_eq_some_iff.1 h
      obtain ⟨⟨db2, rest⟩, h2, heq⟩ := map_eq_some_iff.1 h
      cases heq
      obtain ⟨hissues1, account, r, hr, hreward⟩ := payStakingReward_issues h1
      have hframe1 := hissues1.frame
      obtain ⟨hissues2, hnonneg2, hle2, hnodup2⟩ :=
        ih (by rw [hframe1.stakingParameters]; exact hb.2) h2
      have hle := hb.1.2 _ _ r hr
      have hb0 := hb.1.1
      dsimp only at hle hb0
      have hsum : sumOf ((ref, reward) :: rest) = reward + sumOf rest := by simp [sumOf]
      refine ⟨?_, ?_, ?_, fun hnum => ?_⟩
      · rw [hsum, length_cons, add_comm refs.length]
        exact hissues1.trans hissues2
      · rw [hsum]
        omega
      · simp only [map_cons, sum_cons] at hle2 ⊢
        omega
      · obtain ⟨hnodup, hmem⟩ := hnodup2 (hframe1.headBlockNum ▸ hnum)
        obtain ⟨hin, hstaker⟩ := hcond.2.resolve_left (not_lt.2 hnum)
        rw [map_cons, nodup_cons, forall_mem_cons]
        refine ⟨⟨fun hdup => ?_, hnodup⟩, ⟨hin, hstaker⟩, fun a ha => ?_⟩
        · exact absurd rfl (of_decide_eq_true (mem_filter.1 (hmem ref hdup).1).2)
        · exact ⟨(mem_filter.1 (hmem a ha).1).1, (hmem a ha).2⟩
    · obtain ⟨hissues, hnonneg, hle, hnodup⟩ := ih hb.2 h
      refine ⟨{ hissues with burns := hissues.burns.mono (le_succ _) }, hnonneg, ?_, hnodup⟩
      have hb0 := hb.1.1
      simp only [map_cons, sum_cons] at hb0 hle ⊢
      omega

/-! ### The other credits -/

/-- The apostles do not belong to the chain, so that what is deposited stays in the supply. -/
theorem burns_creditApostolos {requireVesting : Bool}
    (h : db.creditCashback grapheneApostolosAccount amount requireVesting = some db') :
    db.Burns db' 0 := by
  obtain ⟨acct, -, h⟩ := bind_eq_some_iff.1 h
  obtain ⟨⟨db1, new⟩, h1, h⟩ := bind_eq_some_iff.1 h
  obtain ⟨t, rfl, -⟩ := depositLazyVesting_eq_some h1
  cases new with
  | none =>
    cases h
    exact .of_eq rfl rfl rfl rfl
  | some id =>
    have hburns := burns_modifyStatistics h fun _ hs => hs
    exact ⟨hburns.supply, hburns.max, hburns.race, hburns.bound⟩

theorem payApostolos_issues {apostolos : Int} (h : db.payApostolos amount = some (db', apostolos)) :
    db.Issues db' 1 apostolos ∧
      (apostolos = 0 ∨ stakingReward amount db.greatraceParameters.apostolosReward =
        some apostolos) := by
  rw [payApostolos] at h
  split at h
  · obtain ⟨reward, hreward, h⟩ := bind_eq_some_iff.1 h
    obtain ⟨_, -, h⟩ := bind_eq_some_iff.1 h
    obtain ⟨db1, h1, heq⟩ := map_eq_some_iff.1 h
    cases heq
    refine ⟨⟨?_, (depositCashback_steps h1).rewardFrame, imbalance_depositCashback h1⟩,
      .inr hreward⟩
    rw [depositCashback] at h1
    split at h1
    · cases h1
      exact (Burns.refl _).mono (zero_le 1)
    · obtain ⟨db2, h2, h1⟩ := bind_eq_some_iff.1 h1
      cases h2
      obtain ⟨⟨db3, rest⟩, h3, h1⟩ := bind_eq_some_iff.1 h1
      cases rest with
      | none =>
        cases h1
        exact (withholdCashback_withholds h3).burns
      | some amount => exact (withholdCashback_withholds h3).burns.trans (burns_creditApostolos h1)
  · cases h
    exact ⟨.refl _ 1, .inl rfl⟩

theorem createLinear_issues (db : Database) (owner : AccountId) (amount : Int)
    (begins duration : Nat) :
    db.Issues (db.createLinear owner amount begins duration) 0 amount := by
  refine ⟨.of_eq rfl rfl rfl rfl, { RewardFrame.refl db with }, ?_⟩
  simp only [createLinear, imbalance, holdings, vesting, Table.sumBy_create, Asset.coreAmount_core,
    held, escrow, pools, supply, minted]
  omega

theorem createStaking_issues (db : Database) (op : PocStakOperation) (reward : Int) :
    db.Issues (db.createStaking op reward) 0 (reward + op.stakAmount.amount) := by
  rw [createStaking]
  split
  · exact (createLinear_issues db op.account reward 0 3).trans (createLinear_issues _ _ _ 3 0)
  · have hissues := createLinear_issues db op.account (reward + op.stakAmount.amount)
    split
    · exact hissues 6 0
    · exact hissues 0 12

theorem burns_convertAndPayFee (db : Database) (payer : AccountId) (fee : Asset) (coreFee : Int) :
    db.Burns (db.convertAndPayFee payer fee coreFee) 0 := by
  have hcore : (db.convertAndPayFee payer fee coreFee).assets.find 0 = db.assets.find 0 := by
    rw [convertAndPayFee]
    split
    · rfl
    · next hne => exact Table.find_modify_ne _ (Ne.symm hne)
  refine ⟨?_, ?_, rfl, fun hdb => ⟨creditBound_modify hdb fun _ hs => hs, le_rfl, ?_⟩⟩
  · rw [currentSupply, hcore]
    rfl
  · rw [maxSupply, maxSupply, hcore]
  · simp [burnedCredits, convertAndPayFee]

/-! ### The whole operation -/

theorem length_referrersAbove {account : Account} {l : List AccountId}
    (h : db.referrersAbove n account = some l) : l.length = n := by
  induction n generalizing account l with
  | zero =>
    cases h
    rfl
  | succ n ih =>
    obtain ⟨ref, -, h⟩ := bind_eq_some_iff.1 h
    obtain ⟨l', hl', rfl⟩ := map_eq_some_iff.1 h
    rw [length_cons, ih hl']

/-- The supply grows by the sum of what was credited. -/
theorem increaseSupply_ledger {increase : Int} (h : db.increaseSupply increase = some db') :
    db'.currentSupply = db.currentSupply + increase ∧ db'.maxSupply = db.maxSupply ∧
      db'.burnedCredits = db.burnedCredits ∧ db'.imbalance = db.imbalance - increase := by
  obtain ⟨c, hc, h⟩ := bind_eq_some_iff.1 h
  split at h
  · obtain ⟨hsupply, hmax⟩ := currentSupply_eq hc
    obtain ⟨hsupply', hmax'⟩ := currentSupply_modifyCore hc h
    refine ⟨by rw [hsupply', hsupply], hmax'.trans hmax.symm, ?_, ?_⟩
    · obtain ⟨_, -, rfl⟩ := modifyCore_eq_some h
      rfl
    · rw [imbalance_modifyCore hc h]
      dsimp only
      omega
  · cases h

theorem le_amountOf_of_adjustBalance {x : Asset} (hpos : 0 < x.amount)
    (h : db.adjustBalance a (-x) = some db') : x.amount ≤ db.balances.amountOf a x.assetId := by
  obtain ⟨m, hm, -⟩ := adjustBalance_eq_some h
  have hneg : (-x).amount = -x.amount := rfl
  rcases Balances.adjust_cases hm with ⟨hzero, -⟩ | ⟨b, -, -, hb, -, hcovered⟩
  · omega
  · have hle := hcovered (by omega)
    rw [hb] at hle
    have hid : (-x).assetId = x.assetId := rfl
    rw [hid] at hle
    omega

/-- What an accepted staking has credited. The rewards of the referrers are bounded by whatever
bounds what a percentage gives. -/
structure Issued (op : PocStakOperation) (db db' : Database) (issue : StakingIssue)
    (b : Nat → Int) :
    Prop where
  imbalance : db'.imbalance = db.imbalance
  supply : db'.currentSupply + db'.burnedCredits = db.currentSupply + db.burnedCredits + issue.total
  max : db'.maxSupply = db.maxSupply
  burned : db.CreditBound → db.burnedCredits ≤ db'.burnedCredits ∧
    db'.burnedCredits ≤ db.burnedCredits + 9 * grapheneMaxShareSupply
  amount : op.stakAmount.amount ≤ db.balances.amountOf op.account 0
  reward : stakingReward op.stakAmount.amount (db.pocPercentOf op.stakingType) = some issue.reward
  referrals : 0 ≤ sumOf issue.referrals ∧
    sumOf issue.referrals ≤ (db.stakingParameters.pocRef.map b).sum
  once : hardforkCore1480BlockNum ≤ db.headBlockNum →
    (issue.referrals.map Prod.fst).Nodup ∧ op.account ∉ issue.referrals.map Prod.fst
  gcwd : stakingReward op.stakAmount.amount db.stakingParameters.pocGcwd = some issue.gcwd
  apostolos : issue.apostolos = 0 ∨
    stakingReward op.stakAmount.amount db.greatraceParameters.apostolosReward = some issue.apostolos

/-- **The steps of `do_apply` put together.** -/
theorem pocStakIssue_issued (h : pocStakIssue op db = some (db', issue))
    (hasset : op.stakAmount.assetId = 0) (hpos : 0 < op.stakAmount.amount)
    (hlength : db.stakingParameters.pocRef.length = 8)
    (hb : ∀ p ∈ db.stakingParameters.pocRef, 0 ≤ b p ∧ ∀ account level r,
      stakingRefAmount db.stakingParameters account op.stakAmount.amount level p = some r →
      r ≤ b p) :
    Issued op db db' issue b := by
  obtain ⟨db1, h1, h⟩ := bind_eq_some_iff.1 h
  obtain ⟨account, -, h⟩ := bind_eq_some_iff.1 h
  obtain ⟨db2, h2, h⟩ := bind_eq_some_iff.1 h
  obtain ⟨reward, hreward, h⟩ := bind_eq_some_iff.1 h
  obtain ⟨refs, hrefs, h⟩ := bind_eq_some_iff.1 h
  obtain ⟨⟨db4, referrals⟩, h4, h⟩ := bind_eq_some_iff.1 h
  obtain ⟨gcwd, hgcwd, h⟩ := bind_eq_some_iff.1 h
  obtain ⟨db5, h5, h⟩ := bind_eq_some_iff.1 h
  obtain ⟨⟨db6, apostolos⟩, h6, h⟩ := bind_eq_some_iff.1 h
  obtain ⟨db7, h7, heq⟩ := map_eq_some_iff.1 h
  cases heq
  -- the database that the levels start from
  have hissues1 : db.Issues db1 0 _ :=
    ⟨burns_adjustBalance h1, rewardFrame_adjustBalance h1, imbalance_adjustBalance h1⟩
  have hissues2 : db1.Issues db2 0 0 := by
    refine ⟨burns_modifyStatistics h2 fun _ hs => hs, rewardFrame_modifyStatistics h2 fun _ =>
      ⟨rfl, rfl⟩, ?_⟩
    obtain ⟨s, hs, -⟩ := modifyStatistics_eq_some h2
    rw [imbalance_modifyStatistics hs h2]
    simp [AccountStatistics.held]
  have hissues := (hissues1.trans hissues2).trans (createStaking_issues db2 op reward)
  have hframe := hissues.frame
  have hpercent : db2.pocPercentOf op.stakingType = db.pocPercentOf op.stakingType := by
    obtain ⟨s, -, rfl⟩ := modifyStatistics_eq_some h2
    obtain ⟨m, -, rfl⟩ := adjustBalance_eq_some h1
    rfl
  have hcore : (-op.stakAmount).coreAmount = -op.stakAmount.amount := by
    rw [Asset.coreAmount_neg, Asset.coreAmount, if_pos hasset]
  -- the levels
  have hlength' : refs.length = 8 := length_referrersAbove hrefs
  rw [hframe.stakingParameters] at h4
  have hsnd : (refs.zip db.stakingParameters.pocRef).map Prod.snd = db.stakingParameters.pocRef :=
    List.map_snd_zip (by omega)
  obtain ⟨hissues4, hnonneg, hle, honce⟩ := payReferrers_issues (b := b) (by
    intro e he
    rw [hframe.stakingParameters]
    exact hb e.2 (hsnd ▸ List.mem_map.2 ⟨e, he, rfl⟩)) h4
  rw [hsnd] at hle
  have hframe5 := hframe.trans hissues4.frame
  -- the gold holders, the apostles and the supply
  have hissues5 : db4.Issues db5 0 gcwd := by
    refine ⟨burns_modifyFees h5 fun _ => ⟨rfl, rfl⟩, rewardFrame_modifyCore h5, ?_⟩
    obtain ⟨c, hc, -⟩ := modifyCore_eq_some h5
    rw [imbalance_modifyCore hc h5]
    dsimp only
    omega
  obtain ⟨hissues6, hapostolos⟩ := payApostolos_issues h6
  have hissues5' := (hissues.trans hissues4).trans hissues5
  have hissues6' := hissues5'.trans hissues6
  have hburns6' := hissues6'.burns
  obtain ⟨hsupply7, hmax7, hburned7, himb7⟩ := increaseSupply_ledger h7
  have htotal : (⟨reward, referrals, gcwd, apostolos⟩ : StakingIssue).total =
      reward + sumOf referrals + gcwd + apostolos := rfl
  refine ⟨?_, ?_, hmax7.trans hburns6'.max, fun hdb => ?_, ?_, ?_, ⟨hnonneg, hle⟩,
    fun hnum => ?_, ?_, ?_⟩
  · rw [himb7, hissues6'.imbalance, hcore]
    omega
  · rw [hsupply7, hburned7, add_right_comm, hburns6'.supply]
  · obtain ⟨-, hge, hbound⟩ := hburns6'.bound hdb
    rw [hburned7]
    refine ⟨hge, hbound.trans (le_of_eq ?_)⟩
    rw [List.length_zip, hlength', hlength]
    rfl
  · have hle := le_amountOf_of_adjustBalance hpos h1
    rw [hasset] at hle
    exact hle
  · rw [← hpercent]
    exact hreward
  · obtain ⟨hnodup, hmem⟩ := honce (hframe.headBlockNum ▸ hnum)
    exact ⟨hnodup, fun hself => (hmem _ hself).2 rfl⟩
  · rw [← hframe5.stakingParameters]
    exact hgcwd
  · rw [hissues5'.burns.race] at hapostolos
    exact hapostolos

/-! ### The check -/

/-- What of a reward is left as an amount: from 2^63 on it is negative. -/
theorem stakingReward_eq_some {a x : Int} {p : Nat} (ha : 0 ≤ a) (ha' : a < 2 ^ 63)
    (hp : p < 2 ^ 64) (h : stakingReward a p = some x) :
    a * p / 10000 < 2 ^ 64 ∧ x = if a * p / 10000 < 2 ^ 63 then a * p / 10000
      else a * p / 10000 - 2 ^ 64 := by
  rw [stakingReward] at h
  split at h
  · next hzero =>
    cases h
    have hmul : a * (p : Int) = 0 := by
      rcases hzero with rfl | rfl
      · exact zero_mul _
      · exact mul_zero _
    rw [hmul]
    decide
  · split at h
    · next hp =>
      cases h
      subst hp
      rw [graphene100Percent, Nat.cast_ofNat, mul_ediv_cancel _ (by decide), if_pos ha']
      exact ⟨by omega, rfl⟩
    · obtain ⟨n, rfl⟩ := eq_ofNat_of_zero_le ha
      have hn : n < 2 ^ 63 := by omega
      have hword : toUInt128 (n : Int) = n := by
        unfold toUInt128
        omega
      have hmul : n * p < 2 ^ 128 := by
        calc n * p < 2 ^ 63 * 2 ^ 64 := Nat.mul_lt_mul'' hn hp
          _ ≤ 2 ^ 128 := by decide
      rw [hword, Nat.mod_eq_of_lt hmul, graphene100Percent] at h
      obtain ⟨hr, h⟩ := ite_none_right_eq_some.1 h
      obtain rfl := some.inj h
      refine ⟨by omega, ?_⟩
      unfold toInt64
      omega

theorem stakingReward_small {a x : Int} {p : Nat} (ha : 0 ≤ a) (ha' : a ≤ grapheneMaxShareSupply)
    (hp : p < 2 ^ 16) (h : stakingReward a p = some x) : x = a * p / 10000 ∧ 0 ≤ x := by
  unfold grapheneMaxShareSupply at ha'
  have hnonneg : 0 ≤ a * (p : Int) := mul_nonneg ha (natCast_nonneg p)
  have hmul : a * (p : Int) ≤ 10 ^ 15 * 2 ^ 16 :=
    mul_le_mul (by omega) (by omega) (by omega) (by omega)
  obtain ⟨-, hx⟩ := stakingReward_eq_some ha (by omega) (by omega) h
  rw [if_pos (by omega)] at hx
  exact ⟨hx, by omega⟩

theorem stakingRefAmount_le {p : StakingParameters} {account : Account} {percent : Nat} {r : Int}
    (ha : 0 ≤ amount) (ha' : amount ≤ grapheneMaxShareSupply) (hpercent : percent < 2 ^ 16)
    (h : stakingRefAmount p account amount level percent = some r) :
    r ≤ amount * percent / 10000 := by
  have hnonneg : 0 ≤ amount * percent / 10000 :=
    ediv_nonneg (mul_nonneg ha (natCast_nonneg percent)) (by decide)
  rw [stakingRefAmount] at h
  split at h
  · next levels denominator _ _ =>
    split at h
    · obtain ⟨x, hx, h⟩ := bind_eq_some_iff.1 h
      obtain ⟨hx, hx0⟩ := stakingReward_small ha ha' hpercent hx
      split at h
      · next hdenominator =>
        unfold graphene1Percent at hdenominator
        unfold grapheneMaxShareSupply at ha'
        have hmul : amount * (percent : Int) ≤ 10 ^ 15 * 2 ^ 16 :=
          mul_le_mul (by omega) (by omega) (by omega) (by omega)
        obtain ⟨-, hr⟩ := stakingReward_eq_some hx0 (by omega) (by omega) h
        -- a share of a share
        have hle : x * (denominator : Int) ≤ x * 10000 := mul_le_mul_of_nonneg_left (by omega) hx0
        omega
      · cases h
        exact hx.le
    · cases h
      exact hnonneg
  · cases h
    exact hnonneg

/-- What the types and limits of the chain give. The parameters of the race, with the reward of the
apostles, are those that the chain starts with: nothing changes them. -/
structure StakingLimits (db : Database) : Prop where
  supply : 0 ≤ db.currentSupply
  max : db.maxSupply ≤ grapheneMaxShareSupply
  balance : ∀ a, db.balances.amountOf a 0 ≤ grapheneMaxShareSupply
  credit : db.CreditBound
  percent : ∀ stakingType, db.pocPercentOf stakingType < 2 ^ 63
  refs : db.stakingParameters.pocRef.length = 8 ∧ ∀ p ∈ db.stakingParameters.pocRef, p < 2 ^ 16
  gcwd : db.stakingParameters.pocGcwd < 2 ^ 16
  apostolos : db.greatraceParameters.apostolosReward ≤ 10000

theorem amountOf_le_of_entries {limit : Int} (hlimit : 0 ≤ limit)
    (h : ∀ e ∈ db.balances.entries, e.2.balance ≤ limit) (x : AssetId) :
    db.balances.amountOf a x ≤ limit := by
  rw [Balances.amountOf]
  cases hb : db.balances.lookup (a, x) with
  | none => exact hlimit
  | some b => exact h ⟨(a, x), b⟩ (AList.mem_lookup_iff.1 hb)

theorem StakingLimits.convertAndPayFee (h : db.StakingLimits) (payer : AccountId) (fee : Asset)
    (coreFee : Int) : (db.convertAndPayFee payer fee coreFee).StakingLimits := by
  have hburns := burns_convertAndPayFee db payer fee coreFee
  have hsupply := hburns.supply
  have hburned : (db.convertAndPayFee payer fee coreFee).burnedCredits = db.burnedCredits := rfl
  have hnonneg := h.supply
  exact ⟨by omega, hburns.max.le.trans h.max, h.balance, (hburns.bound h.credit).1, h.percent,
    h.refs, h.gcwd, h.apostolos⟩

section Shares

variable {amount : Int} {percent gcwd : Nat} {refs : List Nat}

/-- Shares rounded down apart are at most the share for the sum of the percentages. -/
theorem shares_le_share (amount : Int) (percent gcwd : Nat) (refs : List Nat) :
    amount * percent / 10000 + (refs.map fun p : Nat => amount * p / 10000).sum + amount *
      gcwd / 10000 ≤ amount * (percent + refs.sum + gcwd : Nat) / 10000 := by
  have hsum := Shares.sum_share_le_share amount (show (0 : Int) < 10000 by decide)
    (((percent :: gcwd :: refs).map fun p : Nat => (p : Int)))
  have hcast : ((percent :: gcwd :: refs).map fun p : Nat => (p : Int)).sum =
      ((percent + refs.sum + gcwd : Nat) : Int) := by
    rw [map_cons, map_cons, sum_cons, sum_cons]
    push_cast
    ring
  rw [hcast] at hsum
  simp only [Shares.share, map_cons, sum_cons, List.map_map, Function.comp_def] at hsum
  omega

theorem sum_refs_le (hlength : refs.length = 8) (hrefs : ∀ p ∈ refs, p < 2 ^ 16) :
    refs.sum ≤ 8 * 65535 := by
  have hle := List.sum_le_card_nsmul refs 65535 fun p hp => le_of_lt_succ (hrefs p hp)
  rw [hlength] at hle
  exact hle

/-- Without the percentage of the term, the share is far from 2^63. -/
theorem share_le_add (ha : 0 ≤ amount) (ha' : amount ≤ grapheneMaxShareSupply)
    (hlength : refs.length = 8) (hrefs : ∀ p ∈ refs, p < 2 ^ 16) (hgcwd : gcwd < 2 ^ 16) :
    amount * (percent + refs.sum + gcwd : Nat) / 10000 ≤ amount * percent / 10000 +
    6 * 10 ^ 16 := by
  unfold grapheneMaxShareSupply at ha'
  have hsum := sum_refs_le hlength hrefs
  have hrest : amount * ((refs.sum + gcwd : Nat) : Int) ≤ 10 ^ 15 * (9 * 65535) :=
    mul_le_mul (by omega) (by omega) (by omega) (by omega)
  have hsplit : amount * ((percent + refs.sum + gcwd : Nat) : Int) =
      amount * percent + amount * ((refs.sum + gcwd : Nat) : Int) := by
    push_cast
    ring
  omega

end Shares

/-- An amount as `int64_t` that was computed as `uint64_t`. -/
def asAmount (r : Int) : Int := if r < 2 ^ 63 then r else r - 2 ^ 64

/-- The arithmetic of the check: what is credited, `reward`, `refs`, `gcwd` and `apostolos`, against
the limit that `possible` and the amount were checked with. A share for the sum that is negative as
an amount is the only thing that goes wrong, unless the reward is negative as well. -/
theorem check_iff {supply limit possible refs shares gcwd apostolos : Int} (ended : Int)
    (hamount : 0 ≤ amount) (hsupply : 0 ≤ supply) (hlimit : limit ≤ 10 ^ 15)
    (hrefs : 0 ≤ refs ∧ refs ≤ shares) (hgcwd : 0 ≤ gcwd)
    (hapostolos : 0 ≤ apostolos ∧ apostolos ≤ amount) (hended : 0 ≤ ended ∧ ended ≤ 9 * 10 ^ 15)
    (hsum : reward + shares + gcwd ≤ possible) (hnear : possible ≤ reward + 6 * 10 ^ 16)
    (hcheck : supply + amount + asAmount possible ≤ limit) :
    supply + (asAmount reward + refs + gcwd + apostolos) - ended ≤ limit ↔ possible < 2 ^ 63 ∨
    2 ^ 63 ≤ reward := by
  unfold asAmount at *
  split at hcheck <;> split <;> omega

theorem Issued.apostolos_le (hdb : db.StakingLimits) (h : Issued op db db' issue b)
    (hamount : 0 ≤ op.stakAmount.amount) : 0 ≤ issue.apostolos ∧
    issue.apostolos ≤ op.stakAmount.amount := by
  rcases h.apostolos with hzero | hapostolos
  · rw [hzero]
    exact ⟨le_rfl, hamount⟩
  · obtain ⟨hshare, hnonneg⟩ :=
      stakingReward_small hamount (h.amount.trans (hdb.balance op.account))
      (lt_of_le_of_lt hdb.apostolos (by decide)) hapostolos
    have hmul : op.stakAmount.amount * (db.greatraceParameters.apostolosReward : Int) ≤
        op.stakAmount.amount * 10000 :=
      mul_le_mul_of_nonneg_left (Int.ofNat_le.2 hdb.apostolos) hamount
    refine ⟨hnonneg, hshare.le.trans ?_⟩
    exact (Int.ediv_le_ediv (by decide) hmul).trans (Int.mul_ediv_cancel _ (by decide)).le

/-- **Whether the check was strong enough.** -/
theorem Issued.within_limit_iff {possibleReward : Int} (hdb : db.StakingLimits)
    (h : Issued op db db' issue fun p => op.stakAmount.amount * p / 10000)
    (hamount : 0 ≤ op.stakAmount.amount)
    (hpossible : stakingReward op.stakAmount.amount (db.possiblePercent op.stakingType) =
    some possibleReward)
    (hcheck : db.currentSupply + op.stakAmount.amount + possibleReward ≤ db.maxSupply) :
    db'.currentSupply ≤ db'.maxSupply ↔
      op.stakAmount.amount * (db.pocPercentOf op.stakingType + db.stakingParameters.pocRef.sum +
          db.stakingParameters.pocGcwd : Nat) / 10000 < 2 ^ 63 ∨
        2 ^ 63 ≤ op.stakAmount.amount * db.pocPercentOf op.stakingType / 10000 := by
  have hamount' := h.amount.trans (hdb.balance op.account)
  have hword : op.stakAmount.amount < 2 ^ 63 := by
    unfold grapheneMaxShareSupply at hamount'
    omega
  have hpercent : db.pocPercentOf op.stakingType < 2 ^ 63 := hdb.percent _
  have hrefs := sum_refs_le hdb.refs.1 hdb.refs.2
  have hgold := hdb.gcwd
  -- the sum of the percentages does not leave the word
  have hsum : db.possiblePercent op.stakingType = db.pocPercentOf op.stakingType +
      db.stakingParameters.pocRef.sum + db.stakingParameters.pocGcwd := by
    rw [possiblePercent, mod_eq_of_lt (by omega)]
  rw [hsum] at hpossible
  obtain ⟨-, hpossible⟩ := stakingReward_eq_some hamount hword (by omega) hpossible
  obtain ⟨-, hreward⟩ := stakingReward_eq_some hamount hword (by omega) h.reward
  obtain ⟨hgcwd, hgcwd0⟩ := stakingReward_small hamount hamount' hdb.gcwd h.gcwd
  have hshares := shares_le_share op.stakAmount.amount (db.pocPercentOf op.stakingType)
    db.stakingParameters.pocGcwd db.stakingParameters.pocRef
  rw [← hgcwd] at hshares
  obtain ⟨hended, hended'⟩ := h.burned hdb.credit
  unfold grapheneMaxShareSupply at hended'
  have hsupply := h.supply
  have htotal : issue.total = issue.reward + sumOf issue.referrals + issue.gcwd + issue.apostolos :=
    rfl
  rw [hpossible] at hcheck
  rw [← check_iff (db'.burnedCredits - db.burnedCredits) hamount hdb.supply hdb.max h.referrals
    hgcwd0 (h.apostolos_le hdb hamount) ⟨by omega, by omega⟩ hshares
    (share_le_add hamount hamount' hdb.refs.1 hdb.refs.2 hdb.gcwd) hcheck, h.max,
    show asAmount _ = issue.reward from hreward.symm]
  omega

/-- **What a staking issues.** For every accepted staking, the supply grows by the sum of what was
credited, where a credit of the system that ended has left it; the ledger of the core asset is
balanced, so that the amounts are in balances, vesting balances, the books of withheld income and
the accumulated fees; and from block 24940000 on no account is rewarded twice as a referrer, nor the
staker. The supply is within its limit exactly if the share for the sum of all percentages is below
2^63, or the reward of the staker alone is not. -/
theorem staking_supply_iff {op : PocStakOperation} (hdb : db.StakingLimits)
    (h : db.pocStak op = some db') :
    ∃ coreFee db₁ issue, db.prepareFee op.account op.fee = some coreFee ∧
      pocStakIssue op (db.convertAndPayFee op.account op.fee coreFee) = some (db₁, issue) ∧
      db₁.adjustBalance op.account (-op.fee) = some db' ∧
      db'.currentSupply + db'.burnedCredits - (db.currentSupply + db.burnedCredits) = issue.total ∧
      db'.imbalance = db.imbalance ∧ (hardforkCore1480BlockNum ≤ db.headBlockNum →
        (issue.referrals.map Prod.fst).Nodup ∧ op.account ∉ issue.referrals.map Prod.fst) ∧
      (db'.currentSupply ≤ db'.maxSupply ↔
        op.stakAmount.amount * (db.pocPercentOf op.stakingType + db.stakingParameters.pocRef.sum +
          db.stakingParameters.pocGcwd : Nat) / 10000 < 2 ^ 63 ∨
        2 ^ 63 ≤ op.stakAmount.amount * db.pocPercentOf op.stakingType / 10000) := by
  obtain ⟨hvalidate, h⟩ := ite_none_right_eq_some.1 h
  obtain ⟨-, hpos, hasset, -⟩ := of_decide_eq_true hvalidate
  obtain ⟨coreFee, db₁, m, hfee, hevaluate, happly, hm, rfl⟩ := applyOperation_eq_some h
  obtain ⟨⟨db₁, issue⟩, hissue, rfl⟩ := map_eq_some_iff.1 happly
  -- the check is made before the fee is entered
  obtain ⟨-, -, hcheck⟩ := of_decide_eq_true hevaluate
  obtain ⟨possibleReward, hpossible, hcheck⟩ := (any_eq_true _ _).1 hcheck
  obtain ⟨core, hcore, hcheck⟩ := (any_eq_true _ _).1 hcheck
  have hlimit := of_decide_eq_true hcheck
  obtain ⟨hsupply, hmax⟩ := currentSupply_eq hcore
  have hfeeBurns := burns_convertAndPayFee db op.account op.fee coreFee
  have hfeeSupply :
      (db.convertAndPayFee op.account op.fee coreFee).currentSupply = db.currentSupply :=
    add_right_cancel hfeeBurns.supply
  rw [← hsupply, ← hmax, ← hfeeSupply, ← hfeeBurns.max] at hlimit
  have hdb' := hdb.convertAndPayFee op.account op.fee coreFee
  -- and the fee is taken from the balance after everything else
  have hpaid : db₁.adjustBalance op.account (-op.fee) = some { db₁ with balances := m } := by
    rw [adjustBalance, hm]
    rfl
  have hamount' : op.stakAmount.amount ≤ grapheneMaxShareSupply := by
    obtain ⟨db2, h2, -⟩ := bind_eq_some_iff.1 hissue
    have hle := le_amountOf_of_adjustBalance hpos h2
    rw [hasset] at hle
    exact hle.trans (hdb.balance op.account)
  have hissued :=
    pocStakIssue_issued (b := fun p => op.stakAmount.amount * p / 10000) hissue hasset hpos
    hdb.refs.1 fun p hp => ⟨ediv_nonneg (mul_nonneg hpos.le (natCast_nonneg p)) (by decide),
      fun account level r hr => stakingRefAmount_le hpos.le hamount' (hdb.refs.2 p hp) hr⟩
  refine ⟨coreFee, db₁, issue, hfee, hissue, hpaid, ?_, ?_, hissued.once, ?_⟩
  · rw [(burns_adjustBalance hpaid).supply, hissued.supply, hfeeBurns.supply]
    omega
  · rw [imbalance_adjustBalance hpaid, hissued.imbalance, imbalance_convertAndPayFee hfee,
      Asset.coreAmount_neg]
    omega
  · have hiff := hissued.within_limit_iff hdb' hpos.le hpossible hlimit
    exact hiff

/-! ### A staking beyond the limit -/

/-- Two accounts at the sixth fork, with the given percentage for three months and the given
percentage for the first level. -/
def stakingChain (percent ref : Nat) (amount : Int) : Database :=
  { start hardforkCwd6Time [{ referrer := 0 }, { referrer := 0 }] amount with
    poc3Percent := percent
    stakingParameters := { pocRef := [ref, 200, 100, 100, 100, 100, 100, 100] } }

/-- The staking of an amount for three months by the second account. -/
def stakeThree (amount : Int) : PocStakOperation := ⟨.core 0, 1, .core amount, 3⟩

/-- A thousand coins for forty-five percent: the supply is within its limit, since the
shares are small. -/
theorem staking_supply_iff_default :
    ∃ db', (stakingChain 4500 500 100000000000000).pocStak (stakeThree 100000000) = some db' ∧
      db'.currentSupply ≤ db'.maxSupply := by
  have hlimits : (stakingChain 4500 500 100000000000000).StakingLimits := by
    have hcredit : ∀ e ∈ (stakingChain 4500 500 100000000000000).statistics.entries,
        e.2.totalCredit ≤ grapheneMaxShareSupply := by decide +kernel
    refine ⟨by decide +kernel, by decide +kernel, fun a => amountOf_le_of_entries (by decide)
      (by decide +kernel) 0, fun a s hs => hcredit ⟨a, s⟩ (AList.mem_lookup_iff.1 hs),
      fun stakingType => ?_, by decide +kernel, by decide +kernel, by decide +kernel⟩
    rw [pocPercentOf]
    split
    · decide
    · split <;> decide
  obtain ⟨db', h⟩ := isSome_iff_exists.1
    (show ((stakingChain 4500 500 100000000000000).pocStak
      (stakeThree 100000000)).isSome by decide +kernel)
  obtain ⟨_, _, _, -, -, -, -, -, -, hiff⟩ := staking_supply_iff hlimits h
  exact ⟨db', h, hiff.2 (.inl (by decide +kernel))⟩

/-- Half of the supply, staked for a percentage with nearly 2^63 as the reward: with the largest
percentage for a level that is not even paid, `posible_reward` is negative, the check passes, and
the supply is nearly ten thousand times its limit. -/
theorem staking_beyond_limit :
    ((stakingChain 922297200 65535 100000000000000).pocStak (stakeThree 100000000000000)).any
      fun db' =>
      db'.currentSupply = 9223177000000000000 ∧ db'.maxSupply = 1000000000000000 := by
  decide +kernel

end Database

end CrowdwizChain
