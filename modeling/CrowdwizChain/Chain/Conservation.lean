import CrowdwizChain.Chain.AccountStatus
import CrowdwizChain.Chain.Flipcoin

/-!
# Rewards out of nothing

Status upgrades and flips hand out two kinds of referral rewards for the same fee: the linear
bonus, which is paid out of it, and the leader bonus, which is not. What they hand out can be
read off from the state before, which is the `RewardPlan` of the step. The two steps conserve
the core asset exactly when the leader shares of the plan are covered by what is lost to
rounding, which before block 24940000 is only the odd unit of a flip; or, as a third source, by
a credit of account zero that ends although a part of it had been repaid, which the closing
takes out of the supply once more.
-/

namespace CrowdwizChain

open Option

/-- The rewards of a step: leader shares, and cuts of the fees. -/
structure RewardPlan where
  shares : List (AccountId × Int)
  cuts : List (AccountId × Int)

namespace RewardPlan

/-- The incomes of the plan, in their order. -/
def incomes (p : RewardPlan) (db : Database) : List (AccountId × Int) :=
  db.shareIncomes p.shares ++ db.cutIncomes p.cuts

/-- What the plan mints: the leader shares, and what ends a credit of account zero for the second
time, less what is rounded away. -/
def minted (p : RewardPlan) (db : Database) : Int :=
  Database.sumOf p.shares + db.credits.repaidTwice db.headBlockTime (p.incomes db) -
    db.dustOf p.cuts

/-- The leader shares are covered by what is rounded away. -/
def Covered (p : RewardPlan) (db : Database) (rounding : Int) : Prop := p.minted db = rounding

instance (p : RewardPlan) (db : Database) (rounding : Int) : Decidable (p.Covered db rounding) :=
  inferInstanceAs (Decidable (_ = _))

end RewardPlan

namespace Database

/-- The holdings of the core asset change by exactly the change of the supply. -/
def Conserved (db db' : Database) : Prop := db'.holdings - db.holdings = db'.supply - db.supply

variable {db db' : Database} {f : Flipcoin} {looser winner : AccountId} {id : Nat}

/-- Where the imbalance stays, the core asset is conserved exactly when nothing is minted. -/
theorem conserved_iff_of_imbalance (h : db'.imbalance = db.imbalance) :
    Conserved db db' ↔ db'.minted = db.minted := by
  have hhold := holdings_of_imbalance h
  rw [Conserved]
  omega

theorem pendingNonneg_of_entries
    (h : ∀ e ∈ db.statistics.entries, 0 ≤ e.2.pendingFees ∧ 0 ≤ e.2.pendingVestedFees) :
    db.PendingNonneg := by
  intro a fees vested ha
  obtain ⟨s, hs, heq⟩ := map_eq_some_iff.1 ha
  cases heq
  exact h ⟨a, s⟩ (AList.mem_lookup_iff.1 hs)

/-! ### The plan of an upgrade -/

/-- The rewards of an upgrade: the leaders from the referrer on, by the volume that the fee is, and
the cuts of the fees that are pending once the fee was entered. -/
def upgradePlan (db : Database) (op : AccountStatusUpgradeOperation) : Option RewardPlan :=
  (db.prepareFee op.accountToUpgrade op.fee).bind fun coreFee =>
    (db.pending op.accountToUpgrade).bind fun (fees, vested) =>
      (db.accounts.find op.accountToUpgrade).bind fun account =>
        (db.updatePv op.fee.amount account.referrer).map fun v =>
          { shares := v.leaderSharesFrom op.fee.amount account.referrer
            cuts := v.pendingCuts op.accountToUpgrade fees ++
              v.pendingCuts op.accountToUpgrade (vested + coreFee) }

theorem leaderSharesFrom_pays {db0 : Database} {volume : Int} {a : AccountId}
    (hv : db.referralView = db0.referralView) (hn : db.networkVolumes = db0.networkVolumes)
    (h : db.updateNvFrom volume a = some db') :
    db.Pays db' (db0.shareIncomes (db0.leaderSharesFrom volume a))
      (sumOf (db0.leaderSharesFrom volume a)) := by
  have hnext : db.accounts.nextId = db0.accounts.nextId := congrArg ReferralView.nextAccount hv
  have hpays := updateNv_pays hv h
  rw [hn, referralFuel, hnext] at hpays
  exact hpays

theorem shareIncomes_of_headBlockNum (h : db'.headBlockNum = db.headBlockNum) :
    db'.shareIncomes = db.shareIncomes ∧ db'.cutIncomes = db.cutIncomes ∧
    db'.dustOf = db.dustOf := by
  refine ⟨?_, ?_, ?_⟩
  · funext l
    rw [shareIncomes, shareIncomes, h]
  · funext l
    simp only [cutIncomes, rewardOf, h]
  · funext l
    simp only [dustOf, rewardOf, burnedOf, h]

theorem pending_convertAndPayFee {payer : AccountId} {fee : Asset} {coreFee : Int}
    (h : db.prepareFee payer fee = some coreFee) :
      ∃ fees vested, db.pending payer = some (fees, vested) ∧
      (db.convertAndPayFee payer fee coreFee).pending payer = some (fees, vested + coreFee) := by
  obtain ⟨-, -, hstats, -⟩ := prepareFee_eq_some h
  obtain ⟨s, hs⟩ := isSome_iff_exists.1 hstats
  refine ⟨s.pendingFees, s.pendingVestedFees, ?_, ?_⟩
  · rw [pending, hs, map_some]
  · rw [pending, convertAndPayFee, AList.lookup_modify, if_pos rfl, hs, map_some,
      map_some, AccountStatistics.payFee]

/-- **An upgrade mints what its plan says.** -/
theorem minted_accountStatusUpgrade {op : AccountStatusUpgradeOperation}
    (h : db.accountStatusUpgrade op = some db') :
    ∃ p, db.upgradePlan op = some p ∧ db'.minted = db.minted + p.minted db := by
  obtain ⟨-, coreFee, db1, m, hfee, -, hap, -, rfl⟩ := operation_eq_some h
  obtain ⟨fees, vested, hpending, hpending'⟩ := pending_convertAndPayFee hfee
  obtain ⟨hview, hnetwork, hcredits⟩ :=
    referralView_convertAndPayFee db op.accountToUpgrade op.fee coreFee
  obtain ⟨account, haccount, hap⟩ := bind_eq_some_iff.1 hap
  obtain ⟨d1, h1, hap⟩ := bind_eq_some_iff.1 hap
  obtain ⟨d2, h2, hap⟩ := bind_eq_some_iff.1 hap
  obtain ⟨d3, h3, hap⟩ := bind_eq_some_iff.1 hap
  obtain ⟨_, -, hap⟩ := bind_eq_some_iff.1 hap
  obtain ⟨_, -, rfl⟩ := map_eq_some_iff.1 hap
  obtain ⟨⟨v, hpv, hv, hn⟩, hn1, hc1, hm1⟩ := updatePv_congr hview h1
  have hpays2 := leaderSharesFrom_pays hv (hn1.trans (hnetwork.trans hn.symm)) h2
  have hpending2 : d2.pending op.accountToUpgrade = some (fees, vested + coreFee) := by
    rw [(updateNv_ledger h2).1.pending, (rewardFrame_updatePv h1).pending, hpending']
  have hpays3 := processFees_pays (hpays2.referral.trans hv) hpending2 h3
  have hpays := hpays2.trans hpays3
  have haccount' : db.accounts.find op.accountToUpgrade = some account := haccount
  have hplan : db.upgradePlan op = some
      { shares := v.leaderSharesFrom op.fee.amount account.referrer
        cuts := v.pendingCuts op.accountToUpgrade fees ++
          v.pendingCuts op.accountToUpgrade (vested + coreFee) } := by
    simp only [upgradePlan, hfee, hpending, haccount', hpv, bind_some, map_some]
  refine ⟨_, hplan, ?_⟩
  have htime : d1.headBlockTime = db.headBlockTime := (rewardFrame_updatePv h1).headBlockTime
  have hnum : v.headBlockNum = db.headBlockNum := (rewardFrame_updatePv hpv).headBlockNum
  obtain ⟨hshares, hcuts, hdust⟩ := shareIncomes_of_headBlockNum hnum
  have hminted := hpays.minted
  rw [hshares, hcuts, hdust, hc1, hcredits, htime, hm1] at hminted
  rw [RewardPlan.minted, RewardPlan.incomes]
  refine hminted.trans ?_
  dsimp only [convertAndPayFee, Database.minted]
  omega

/-! ### Settling a bet -/

theorem imbalance_removeFlipcoin (hf : db.flipcoins.find id = some f) :
    ({ db with flipcoins := db.flipcoins.remove id } : Database).imbalance = db.imbalance -
    f.stakes := by
  have hsum := Table.sumBy_remove (fun _ (f : Flipcoin) => f.stakes) hf
  simp only [imbalance, holdings, vesting, held, escrow, pools, supply, minted, hsum]
  omega

/-- Bets are made in the core asset, and are not negative. -/
def BetsInCore (db : Database) : Prop :=
  ∀ id f, db.flipcoins.find id = some f → f.bet.assetId = 0 ∧ 0 ≤ f.bet.amount

section

variable (hdb : db.PendingNonneg) (hbets : db.BetsInCore) (hf : db.flipcoins.find id = some f)

include hdb hbets hf

theorem flipFlipcoin_ledger (hstatus : f.status ≠ 0)
    (h : db.flipFlipcoin id f winner looser = some db') :
    db'.PendingNonneg ∧ db'.imbalance = db.imbalance := by
  obtain ⟨hcore, hpos⟩ := hbets id f hf
  obtain ⟨db1, db2, db3, db4, h1, hframe2, himb2, h3, h4, rfl⟩ := flipFlipcoin_eq_some h
  have hframe1 := rewardFrame_adjustBalance h1
  have hlog : (db1.logFlip id f winner looser).PendingNonneg := hframe1.pendingNonneg hdb
  have hdb2 := hframe2.pendingNonneg hlog
  obtain ⟨s, hs, -⟩ := modifyStatistics_eq_some h3
  have himb3 := imbalance_modifyStatistics hs h3
  have hdb3 : db3.PendingNonneg := by
    refine pendingNonneg_modifyStatistics hdb2 h3 fun s hfees hvested => ⟨hfees, ?_⟩
    have := cutFee_nonneg hpos (1000 * 2)
    simp only [AccountStatistics.payFee, flipReferralPrize, countReferralPrize]
    omega
  have himb4 := imbalance_processFees (hdb3 _) h4
  have hf4 : db4.flipcoins.find id = some f := by
    rw [(frame_processFees h4).flipcoins, (frame_modifyStatistics h3).flipcoins, hframe2.flipcoins]
    exact hframe1.flipcoins ▸ hf
  have himb1 : (db1.logFlip id f winner looser).imbalance = db1.imbalance -
      (.flipcoinWin id winner (flipPrize f) (flipReferralPrize f) : JournalEntry).minted -
      (.flipcoinLoose id looser f.bet : JournalEntry).minted := by
    rw [logFlip, imbalance_log, imbalance_log]
  rw [imbalance_adjustBalance h1] at himb1
  have hfee :
      (s.payFee (flipReferralPrize f).amount).held = s.held + (flipReferralPrize f).amount := by
    simp only [AccountStatistics.held, AccountStatistics.payFee]
    omega
  have hdb4 : db4.PendingNonneg := pendingNonneg_processFees hdb3 h4
  refine ⟨hdb4, ?_⟩
  rw [imbalance_removeFlipcoin hf4, himb4, himb3, hfee, himb2, himb1]
  simp only [JournalEntry.minted, Flipcoin.stakes, hstatus, if_false, Asset.coreAmount, flipPrize,
    flipReferralPrize, hcore, if_true]
  omega

/-- A settlement pays from the stakes, apart from what the journal notes. -/
theorem settleFlipcoin_ledger (h : db.settleFlipcoin id f = some db') :
    db'.PendingNonneg ∧ db'.imbalance = db.imbalance := by
  obtain ⟨heads, -, ⟨hstatus, h⟩ | ⟨hstatus, caller, -, h⟩⟩ := settleFlipcoin_cases h
  · obtain ⟨db1, h1, rfl⟩ := map_eq_some_iff.1 h
    have hframe1 := rewardFrame_adjustBalance h1
    have hf1 : (db1.log (.flipcoinCancel id f.bettor f.bet)).flipcoins.find id = some f :=
      hframe1.flipcoins ▸ hf
    refine ⟨hframe1.pendingNonneg hdb, (imbalance_removeFlipcoin hf1).trans ?_⟩
    rw [imbalance_log, imbalance_adjustBalance h1]
    simp only [JournalEntry.minted, Flipcoin.stakes, hstatus, if_true]
    omega
  · exact flipFlipcoin_ledger hdb hbets hf hstatus h

/-! ### The plan of a settlement -/

end

/-- The rewards of a flip: the leaders from the winner on, by the referral prize, and the cuts of
the fees of the winner that are pending once the referral prize was entered. -/
def flipPlan (db : Database) (f : Flipcoin) (winner looser : AccountId) : Option RewardPlan :=
  (db.pending winner).bind fun (fees, vested) =>
    (db.flipVolumes f winner looser (flipReferralPrize f).amount).map fun v =>
      { shares := db.leaderSharesFrom (flipReferralPrize f).amount winner
        cuts := v.pendingCuts winner fees ++
          v.pendingCuts winner (vested + (flipReferralPrize f).amount) }

/-- The rewards of a settlement; a bet that was not called has none. -/
def settlePlan (db : Database) (f : Flipcoin) : Option RewardPlan :=
  (db.flipHeads f).bind fun heads =>
    if f.status = 0 then some ⟨[], []⟩
    else f.caller.bind fun caller =>
      if heads then db.flipPlan f f.bettor caller else db.flipPlan f caller f.bettor

/-- What is lost of the stakes because the prize and the referral prize are rounded down. -/
def flipRounding (f : Flipcoin) : Int :=
  if f.status = 0 then 0
  else 2 * f.bet.coreAmount - (flipPrize f).coreAmount - (flipReferralPrize f).coreAmount

theorem flipVolumes_congr {d' : Database} (hv : db'.referralView = db.referralView)
    {referralPrize : Int} (h : db'.flipVolumes f winner looser referralPrize = some d') :
    (∃ d, db.flipVolumes f winner looser referralPrize = some d ∧
      d'.referralView = d.referralView ∧ d.headBlockNum = db.headBlockNum) ∧
      d'.credits = db'.credits ∧ d'.minted = db'.minted := by
  have htime := headBlockTime_of_view hv
  rw [flipVolumes, htime] at h
  rw [flipVolumes]
  split at h
  · next hcwd =>
    rw [if_pos hcwd]
    obtain ⟨d1', h1, h2⟩ := bind_eq_some_iff.1 h
    obtain ⟨⟨d1, hd1, hv1, -⟩, -, hc1, hm1⟩ := updatePv_congr hv h1
    obtain ⟨⟨d2, hd2, hv2, -⟩, -, hc2, hm2⟩ := updatePv_congr hv1 h2
    refine ⟨⟨d2, ?_, hv2, ?_⟩, hc2.trans hc1, hm2.trans hm1⟩
    · rw [hd1, bind_some, hd2]
    · exact ((rewardFrame_updatePv hd1).trans (rewardFrame_updatePv hd2)).headBlockNum
  · next hcwd =>
    rw [if_neg hcwd]
    obtain ⟨⟨d, hd, hv', -⟩, -, hc, hm⟩ := updatePv_congr hv h
    exact ⟨⟨d, hd, hv', (rewardFrame_updatePv hd).headBlockNum⟩, hc, hm⟩

/-- A flip mints what its plan says, less what is lost of the stakes. -/
theorem minted_flipFlipcoin (hstatus : f.status ≠ 0)
    (h : db.flipFlipcoin id f winner looser = some db') :
    ∃ p, db.flipPlan f winner looser = some p ∧
    db'.minted = db.minted + p.minted db - flipRounding f := by
  obtain ⟨d1, h1, h⟩ := bind_eq_some_iff.1 h
  obtain ⟨d2, h2, h⟩ := bind_eq_some_iff.1 h
  obtain ⟨d3, h3, h⟩ := bind_eq_some_iff.1 h
  obtain ⟨d4, h4, h⟩ := bind_eq_some_iff.1 h
  obtain ⟨d5, h5, rfl⟩ := map_eq_some_iff.1 h
  have hminted1 : (d1.logFlip id f winner looser).minted = db.minted - flipRounding f := by
    obtain ⟨m, -, rfl⟩ := adjustBalance_eq_some h1
    simp only [logFlip, log, Database.minted, List.map_cons, List.sum_cons, JournalEntry.minted,
      flipRounding, if_neg hstatus]
    omega
  have hcredits1 : (d1.logFlip id f winner looser).credits = db.credits := by
    obtain ⟨m, -, rfl⟩ := adjustBalance_eq_some h1
    rfl
  have hframe1 : db.WalkFrame (d1.logFlip id f winner looser) :=
    (walkFrame_adjustBalance h1).trans ⟨rfl, rfl⟩
  have hpays2 := leaderSharesFrom_pays hframe1.referral hframe1.network h2
  have hv2 : d2.referralView = db.referralView := hpays2.referral.trans hframe1.referral
  obtain ⟨⟨v, hvolumes, hv3, hnum⟩, hc3, hm3⟩ := flipVolumes_congr hv2 h3
  have hpays4 := pays_modifyStatistics h4 fun _ => ⟨rfl, rfl⟩
  have hv4 : d4.referralView = v.referralView := hpays4.referral.trans hv3
  -- the referral prize is pending
  obtain ⟨s, hs, hd4⟩ := modifyStatistics_eq_some h4
  have hpending : db.pending winner = some (s.pendingFees, s.pendingVestedFees) := by
    have hpending3 : d3.pending winner = some (s.pendingFees, s.pendingVestedFees) := by
      rw [pending, hs, map_some]
    rw [(flipVolumes_ledger h3).1.pending, (updateNv_ledger h2).1.pending] at hpending3
    obtain ⟨m, -, rfl⟩ := adjustBalance_eq_some h1
    exact hpending3
  have hpending4 : d4.pending winner =
      some (s.pendingFees, s.pendingVestedFees + (flipReferralPrize f).amount) := by
    rw [hd4, pending, AList.lookup_modify, if_pos rfl, hs, map_some, map_some,
      AccountStatistics.payFee]
  have hpays5 := processFees_pays hv4 hpending4 h5
  have hplan : db.flipPlan f winner looser = some
      { shares := db.leaderSharesFrom (flipReferralPrize f).amount winner
        cuts := v.pendingCuts winner s.pendingFees ++
          v.pendingCuts winner (s.pendingVestedFees + (flipReferralPrize f).amount) } := by
    simp only [flipPlan, hpending, hvolumes, bind_some, map_some]
  refine ⟨_, hplan, ?_⟩
  have htime2 := headBlockTime_of_view hv2
  have htime1 : (d1.logFlip id f winner looser).headBlockTime = db.headBlockTime :=
    hframe1.headBlockTime
  have htime4 : d4.headBlockTime = db.headBlockTime := by
    rw [(frame_modifyStatistics h4).headBlockTime, (flipVolumes_ledger h3).1.headBlockTime, htime2]
  have hcredits4 : d4.credits = d2.credits := by
    rw [hpays4.credits, hc3, Credits.incomes_nil]
  have hminted4 : d4.minted = d2.minted := by
    rw [hpays4.minted, hm3, Credits.repaidTwice_nil]
    omega
  obtain ⟨-, hcuts, hdust⟩ := shareIncomes_of_headBlockNum hnum
  have hminted2 := hpays2.minted
  have hcredits2 := hpays2.credits
  rw [hcredits1, htime1] at hminted2 hcredits2
  have hminted5 := hpays5.minted
  rw [hcredits4, htime4, hcredits2, hcuts, hdust, hminted4, hminted2, hminted1] at hminted5
  rw [RewardPlan.minted, RewardPlan.incomes, Credits.repaidTwice_append]
  refine hminted5.trans ?_
  dsimp only
  omega

/-- **A settlement mints what its plan says**, less what is lost of the stakes. -/
theorem minted_settleFlipcoin (h : db.settleFlipcoin id f = some db') :
    ∃ p, db.settlePlan f = some p ∧ db'.minted = db.minted + p.minted db - flipRounding f := by
  obtain ⟨heads, hheads, ⟨hstatus, h⟩ | ⟨hstatus, caller, hcaller, h⟩⟩ := settleFlipcoin_cases h
  · rw [settlePlan, hheads, bind_some, if_pos hstatus]
    refine ⟨_, rfl, ?_⟩
    obtain ⟨d, hd, rfl⟩ := map_eq_some_iff.1 h
    obtain ⟨m, -, rfl⟩ := adjustBalance_eq_some hd
    simp [RewardPlan.minted, RewardPlan.incomes, shareIncomes, cutIncomes, sumOf, dustOf, log,
      Database.minted, JournalEntry.minted, flipRounding, hstatus]
  · rw [settlePlan, hheads, bind_some, if_neg hstatus, hcaller, bind_some]
    cases heads <;> exact minted_flipFlipcoin hstatus h

/-- **Status upgrades and flips conserve the core asset exactly when the leader shares that they
grant are covered** by what is rounded away; from any state, for any referral tree. -/
theorem rewards_conserved_iff (db db' : Database) (hdb : db.PendingNonneg) :
    (∀ op : AccountStatusUpgradeOperation, db.accountStatusUpgrade op = some db' →
      (Conserved db db' ↔ ∃ p, db.upgradePlan op = some p ∧ p.Covered db 0)) ∧
    ∀ (id : Nat) (f : Flipcoin), db.BetsInCore → db.flipcoins.find id = some f →
      db.settleFlipcoin id f = some db' →
        (Conserved db db' ↔ ∃ p, db.settlePlan f = some p ∧ p.Covered db (flipRounding f)) := by
  constructor
  · intro op h
    obtain ⟨p, hp, hminted⟩ := minted_accountStatusUpgrade h
    rw [conserved_iff_of_imbalance (imbalance_accountStatusUpgrade hdb h), hminted]
    constructor
    · intro heq
      exact ⟨p, hp, show p.minted db = 0 by omega⟩
    · rintro ⟨p', hp', hcovered⟩
      cases hp.symm.trans hp'
      have hzero : p.minted db = 0 := hcovered
      omega
  · intro id f hbets hf h
    obtain ⟨p, hp, hminted⟩ := minted_settleFlipcoin h
    rw [conserved_iff_of_imbalance (settleFlipcoin_ledger hdb hbets hf h).2, hminted]
    constructor
    · intro heq
      exact ⟨p, hp, show p.minted db = flipRounding f by omega⟩
    · rintro ⟨p', hp', hcovered⟩
      cases hp.symm.trans hp'
      have hrounding : p.minted db = flipRounding f := hcovered
      omega

/-! ### An upgrade under a leader -/

/-- Accounts zero to four, an account that is a leader if its status is three, and an account
that it has referred. -/
def leaderChain (status : Nat) : Database :=
  { start hardforkCwd5Time
      [{ referrer := 0 }, { referrer := 0 }, { referrer := 0 }, { referrer := 0 },
        { referrer := 0 },
        { referrer := 0
          referralStatusType := status
          referralStatusExpirationDate := hardforkCwd5Time + 1000
          referralLevels := 8
          statusDenominator := 10000 },
        { referrer := 5 }] 3000000000 with
    parameters := { rootAccount := 0 } }

/-- The upgrade of the referred account, for twenty thousand coins. -/
def upgradeSix : AccountStatusUpgradeOperation := ⟨⟨2000000000, 0⟩, 6, 3⟩

/-- Without a leader above, nothing is minted. -/
theorem rewards_conserved_iff_no_leader :
    ∃ db', (leaderChain 1).accountStatusUpgrade upgradeSix = some db' ∧
      Conserved (leaderChain 1) db' := by
  refine ⟨_, (some_get (by decide +kernel)).symm, ?_⟩
  refine ((rewards_conserved_iff _ _ (pendingNonneg_of_entries (by decide +kernel))).1 upgradeSix
    (some_get (by decide +kernel)).symm).2 ?_
  exact ⟨_, (some_get (by decide +kernel)).symm, by decide +kernel⟩

/-- The referrer is a leader: one percent of the fee is handed out on top of it. -/
theorem leader_reward_unaccounted :
    ∃ db', (leaderChain 3).accountStatusUpgrade upgradeSix = some db' ∧
      db'.holdings - (leaderChain 3).holdings = 20000000 ∧
      db'.supply - (leaderChain 3).supply = 0 ∧ ¬Conserved (leaderChain 3) db' := by
  refine ⟨_, (some_get (by decide +kernel)).symm, by decide +kernel, by decide +kernel, ?_⟩
  unfold Conserved
  decide +kernel

end Database

end CrowdwizChain
