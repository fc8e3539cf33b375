import CrowdwizChain.Chain.ReferralView

/-!
# What will be handed out

The shares that `update_nv` grants and the cuts that `process_fees` pays can be read off from the
state before the first of them is granted. `leaderShares` and `linearCuts` do so: they are the two
walks without the money. That the walks with the money hand out just this is
`updateNv_pays` and `payOutFees_cuts`, each by induction over the rounds of the walk.

`Pays db db' incomes minted` is what the two have in common: on the way from `db` to `db'` the
incomes were deposited as cashback, one after the other, and the journal says that the amount was
minted besides what ended credits account for.
-/

namespace CrowdwizChain

open Option List Transition

/-- The state that the nested levels of `pay_out_fees` share, without the database. -/
structure CutState where
  networkCut : Int
  totalDenominatorVolume : Int
  accountsSet : List AccountId

/-- The part of the state that decides about the cuts. -/
def PayState.cutState (st : PayState) : CutState :=
  ⟨st.networkCut, st.totalDenominatorVolume, st.accountsSet⟩

namespace Database

/-! ### The two walks, without the money -/

/-- The shares of `update_nv`, from the account on. The walk enters the volume into the network
volumes, so it has them with it. -/
def leaderShares (db : Database) (volume : Int) : Nat → Nat → Nat → AccountId → List AccountId →
    (AccountId → Option (Int × Nat)) → List (AccountId × Int)
  | 0, _, _, _, _, _ => []
  | n + 1, level, maxRewardLevel, a, accountsSet, volumes =>
    match db.accounts.find a, (volumes a).bind fun v => db.decayed v.1 v.2 with
    | some account, some currentNv =>
      let nv := if db.parameters.minNvStatus ≤ db.activeStatus account then currentNv + volume
        else currentNv
      let (rewardCut, maxRewardLevel) :=
        db.leaderShare volume nv maxRewardLevel a account accountsSet
      let rest :=
        if (level + 1) % 256 ≤ db.parameters.nvLevels ∧ db.parameters.rootAccount < a then
          (db.nextRewardable a).elim [] fun ref =>
            leaderShares db volume n ((level + 1) % 256) maxRewardLevel ref
              (if 0 < rewardCut then a :: accountsSet else accountsSet)
              (Function.update volumes a (some (nv, db.headBlockTime)))
        else []
      if 0 < rewardCut then (a, rewardCut) :: rest else rest
    | _, _ => []

/-- The shares of `update_nv` for a whole chain of referrers. -/
def leaderSharesFrom (db : Database) (volume : Int) (a : AccountId) : List (AccountId × Int) :=
  db.leaderShares volume db.referralFuel 1 0 a [] db.networkVolumes

/-- The referrer has not got a cut yet; until block 24940000 this is not looked at. -/
def mayPay (db : Database) (accountsSet : List AccountId) (ref : AccountId) : Bool :=
  db.headBlockNum < hardforkCore1480BlockNum ∨ ref ∉ accountsSet

/-- The cut of one level, if it has one, and the state after it. -/
def levelCuts (db : Database) (coreFeeTotal : Int) (level percent : Nat) (ref : AccountId)
    (account : Account) (c : CutState) : List (AccountId × Int) × CutState :=
  if 0 < percent ∧ 0 < c.networkCut ∧ level ≤ account.referralLevels then
    let (cut, volume) := db.parameters.feeCut (db.activeStatus account) account.statusDenominator
      coreFeeTotal percent c.totalDenominatorVolume
    ([(ref, cut)], ⟨c.networkCut - cut, volume, ref :: c.accountsSet⟩)
  else ([], c)

/-- The cuts of `pay_out_fees`, over the percentages from a level on. -/
def linearCuts (db : Database) (coreFeeTotal : Int) : List Nat → Nat → AccountId → CutState →
    List (AccountId × Int)
  | [], _, _, _ => []
  | percent :: percents, level, ref, c =>
    (db.accounts.find ref).elim [] fun account =>
      let (cuts, c) := db.levelCuts coreFeeTotal level percent ref account c
      cuts ++ if percents = [] then []
        else (db.nextRewardable ref).elim [] fun next =>
          if ref ≠ next ∧ db.mayPay c.accountsSet next then
            linearCuts db coreFeeTotal percents (level + 1) next c
          else []

/-- The cuts of `pay_out_fees` for the fees of an account. -/
def linearCutsFrom (db : Database) (a : AccountId) (coreFeeTotal : Int) : List (AccountId × Int) :=
  (db.accounts.find a).elim [] fun account =>
    (if db.parameters.cashback ∧ 0 < db.activeStatus account then some a
    else db.nextRewardable a).elim [] fun ref =>
      if (a ≠ ref ∨ db.parameters.cashback) ∧ db.mayPay [] ref then
        db.linearCuts coreFeeTotal db.parameters.refPercentOfFee 1 ref ⟨coreFeeTotal, 0, []⟩
      else []

/-- The cuts for what is pending, if there is something. -/
def pendingCuts (db : Database) (a : AccountId) (amount : Int) : List (AccountId × Int) :=
  if 0 < amount then db.linearCutsFrom a amount else []

/-- What of a cut is handed out. -/
def rewardOf (db : Database) (cut : Int) : Int :=
  cutFee cut (graphene100Percent - burnedPercent db.headBlockNum)

/-- What of a cut is burned. -/
def burnedOf (db : Database) (cut : Int) : Int := cutFee cut (burnedPercent db.headBlockNum)

/-- The incomes that some cuts are. -/
def cutIncomes (db : Database) (cuts : List (AccountId × Int)) : List (AccountId × Int) :=
  cuts.map fun c => (c.1, db.rewardOf c.2)

/-- What is lost of some cuts because the two parts are rounded down. -/
def dustOf (db : Database) (cuts : List (AccountId × Int)) : Int :=
  (cuts.map fun c => c.2 - db.rewardOf c.2 - db.burnedOf c.2).sum

/-- The incomes that some shares are: from block 24940000 on the null account gets them. -/
def shareIncomes (db : Database) (shares : List (AccountId × Int)) : List (AccountId × Int) :=
  if db.headBlockNum < hardforkCore1480BlockNum then shares else []

/-! ### Payments -/

/-- Some incomes are deposited, the amount is minted, and what the walks read stays. -/
structure Pays (db db' : Database) (incomes : List (AccountId × Int)) (minted : Int) : Prop where
  referral : db'.referralView = db.referralView
  credits : db'.credits = db.credits.incomes db.headBlockTime incomes
  minted : db'.minted = db.minted + minted + db.credits.repaidTwice db.headBlockTime incomes

variable {db db' db₀ : Database} {a ref : AccountId} {total volume : Int} {requireVesting : Bool}
  {level : Nat} {account : Account} {st : PayState}

theorem Pays.refl (db : Database) : db.Pays db [] 0 := ⟨rfl, rfl, by simp⟩

theorem Pays.trans {db'' : Database} {incomes incomes' : List (AccountId × Int)}
    {minted minted' : Int} (h : db.Pays db' incomes minted) (h' : db'.Pays db'' incomes' minted') :
    db.Pays db'' (incomes ++ incomes') (minted + minted') := by
  have htime := headBlockTime_of_view h.referral
  refine ⟨h'.referral.trans h.referral, ?_, ?_⟩
  · rw [h'.credits, h.credits, htime, Credits.incomes_append]
  · rw [h'.minted, h.minted, h.credits, htime, Credits.repaidTwice_append]
    omega

theorem Pays.of_eq (hview : db'.referralView = db.referralView)
    (hcredits : db'.credits = db.credits) (hminted : db'.minted = db.minted) : db.Pays db' [] 0 :=
  ⟨hview, hcredits, by simpa using hminted⟩

theorem pays_log (db : Database) (e : JournalEntry) : db.Pays (db.log e) [] e.minted := by
  refine ⟨rfl, rfl, ?_⟩
  simp only [log, Database.minted, map_cons, sum_cons, Credits.repaidTwice_nil]
  omega

theorem pays_adjustBalance {d : Asset} (h : db.adjustBalance a d = some db') :
    db.Pays db' [] 0 := by
  obtain ⟨m, -, rfl⟩ := adjustBalance_eq_some h
  exact Pays.of_eq rfl rfl rfl

theorem pays_modifyCore {f : AssetObject → AssetObject} (h : db.modifyCore f = some db') :
    db.Pays db' [] 0 := by
  obtain ⟨c, -, rfl⟩ := modifyCore_eq_some h
  exact Pays.of_eq rfl rfl rfl

theorem pays_modifyStatistics {f : AccountStatistics → AccountStatistics}
    (h : db.modifyStatistics a f = some db')
    (hf : ∀ s, (f s).personal = s.personal ∧ (f s).credit = s.credit) : db.Pays db' [] 0 := by
  refine Pays.of_eq (referralView_modifyStatistics h fun s => (hf s).1)
    (credits_modifyStatistics h fun s => (hf s).2) ?_
  obtain ⟨s, -, rfl⟩ := modifyStatistics_eq_some h
  rfl

theorem pays_depositCashback {amount : Int} {countIncome : Bool}
    (h : db.depositCashback a amount requireVesting countIncome = some db') :
    db.Pays db' [(a, amount)] 0 := by
  obtain ⟨hcredits, hminted⟩ := depositCashback_credits h
  refine ⟨(walkFrame_depositCashback h).referral, hcredits, ?_⟩
  rw [hminted, Credits.repaidTwice, Credits.repaidTwice_nil]
  omega

/-! ### The leader bonus -/

/-- The amounts of some shares or cuts, added up. -/
def sumOf (l : List (AccountId × Int)) : Int := (l.map Prod.snd).sum

/-- The share of one account, as a list. -/
def shareOf (a : AccountId) (rewardCut : Int) : List (AccountId × Int) :=
  if 0 < rewardCut then [(a, rewardCut)] else []

theorem shareIncomes_append (db : Database) (l l' : List (AccountId × Int)) :
    db.shareIncomes (l ++ l') = db.shareIncomes l ++ db.shareIncomes l' := by
  unfold shareIncomes
  split <;> rfl

theorem shareIncomes_congr (hv : db'.referralView = db.referralView) (l : List (AccountId × Int)) :
    db'.shareIncomes l = db.shareIncomes l := by
  have hnum := headBlockNum_of_view hv
  rw [shareIncomes, shareIncomes, hnum]

theorem sumOf_append (l l' : List (AccountId × Int)) : sumOf (l ++ l') = sumOf l + sumOf l' := by
  simp [sumOf]

theorem leaderShare_congr (hv : db'.referralView = db.referralView) {account' : Account}
    (h : account'.referral = account.referral) (volume nv : Int) (maxRewardLevel : Nat)
    (a : AccountId)
    (accountsSet : List AccountId) :
    db'.leaderShare volume nv maxRewardLevel a account' accountsSet =
      db.leaderShare volume nv maxRewardLevel a account accountsSet := by
  have hnum := headBlockNum_of_view hv
  have hparams := parameters_of_view hv
  simp only [leaderShare, hnum, hparams, activeStatus_congr hv h]

/-- Entering a volume changes one network volume, and nothing that the walk reads besides. -/
theorem enterNv_pays {nv : Int} (h : db.enterNv volume a account = some (db', nv)) :
    ∃ currentNv, ((db.networkVolumes a).bind fun v => db.decayed v.1 v.2) = some currentNv ∧
      nv = (if db.parameters.minNvStatus ≤ db.activeStatus account then currentNv + volume
        else currentNv) ∧
      db'.networkVolumes = Function.update db.networkVolumes a (some (nv, db.headBlockTime)) ∧
      db.Pays db' [] 0 := by
  obtain ⟨s, hs, h⟩ := bind_eq_some_iff.1 h
  obtain ⟨currentNv, hnv, h⟩ := bind_eq_some_iff.1 h
  obtain ⟨db1, h1, heq⟩ := map_eq_some_iff.1 h
  cases heq
  refine ⟨currentNv, ?_, rfl, ?_, pays_modifyStatistics h1 fun _ => ⟨rfl, rfl⟩⟩
  · rw [networkVolumes, hs]
    exact hnv
  · obtain ⟨s', hs', rfl⟩ := modifyStatistics_eq_some h1
    refine (AList.map_lookup_modify AccountStatistics.network _ a _).trans ?_
    rw [hs']
    rfl

theorem grantShare_pays {rewardCut : Int} (h : db.grantShare a rewardCut = some db') :
    db.WalkFrame db' ∧
      db.Pays db' (db.shareIncomes (shareOf a rewardCut)) (sumOf (shareOf a rewardCut)) := by
  rw [grantShare] at h
  rw [shareOf]
  split at h
  · next hpos =>
    rw [if_pos hpos, shareIncomes]
    have hsum : sumOf [(a, rewardCut)] = 0 + (JournalEntry.leaderReward a rewardCut).minted := by
      simp [sumOf, JournalEntry.minted]
    obtain ⟨db1, h1, rfl⟩ := map_eq_some_iff.1 h
    rw [hsum]
    split at h1
    · next hnum =>
      rw [if_pos hnum]
      exact ⟨(walkFrame_depositCashback h1).trans ⟨rfl, rfl⟩,
        (pays_depositCashback h1).trans (pays_log _ _)⟩
    · next hnum =>
      rw [if_neg hnum]
      exact ⟨(walkFrame_adjustBalance h1).trans ⟨rfl, rfl⟩,
        (pays_adjustBalance h1).trans (pays_log _ _)⟩
  · next hpos =>
    cases h
    rw [if_neg hpos, shareIncomes, ite_self]
    exact ⟨WalkFrame.refl _, Pays.refl _⟩

/-- One round of the walk without the money. -/
theorem leaderShares_succ {currentNv : Int} {n maxRewardLevel : Nat} {accountsSet : List AccountId}
    {volumes : AccountId → Option (Int × Nat)} (ha : db.accounts.find a = some account)
    (hnv : ((volumes a).bind fun v => db.decayed v.1 v.2) = some currentNv) :
    let nv := if db.parameters.minNvStatus ≤ db.activeStatus account then currentNv + volume
      else currentNv
    let share := db.leaderShare volume nv maxRewardLevel a account accountsSet
    db.leaderShares volume (n + 1) level maxRewardLevel a accountsSet volumes = shareOf a share.1 ++
        if (level + 1) % 256 ≤ db.parameters.nvLevels ∧ db.parameters.rootAccount < a then
          (db.nextRewardable a).elim [] fun ref =>
            db.leaderShares volume n ((level + 1) % 256) share.2 ref
              (if 0 < share.1 then a :: accountsSet else accountsSet)
              (Function.update volumes a (some (nv, db.headBlockTime)))
        else [] := by
  intro nv share
  rw [leaderShares, ha, hnv, shareOf]
  by_cases hpos : 0 < share.1
  · rw [if_pos hpos]
    exact if_pos hpos
  · rw [if_neg hpos, nil_append]
    exact if_neg hpos

/-- **`update_nv` grants the shares that can be read off before.** -/
theorem updateNv_pays {n : Nat} {maxRewardLevel : Nat} {accountsSet : List AccountId}
    (hv : db.referralView = db₀.referralView)
    (h : updateNv n volume level maxRewardLevel a accountsSet db = some db') :
    let shares := db₀.leaderShares volume n level maxRewardLevel a accountsSet db.networkVolumes
    db.Pays db' (db₀.shareIncomes shares) (sumOf shares) := by
  induction n generalizing level maxRewardLevel a accountsSet db with
  | zero => cases h
  | succ n ih =>
    obtain ⟨account', haccount', h⟩ := bind_eq_some_iff.1 h
    obtain ⟨account, haccount, href⟩ := find_of_referralView hv haccount'
    obtain ⟨⟨db1, nv⟩, h1, h⟩ := bind_eq_some_iff.1 h
    obtain ⟨currentNv, hcurrent, hnv, hnetwork1, hpays1⟩ := enterNv_pays h1
    have hparams := parameters_of_view hv
    have htime := headBlockTime_of_view hv
    simp only [decayed_congr hv] at hcurrent
    rw [activeStatus_congr hv href, hparams] at hnv
    have hv1 : db1.referralView = db₀.referralView := hpays1.referral.trans hv
    rw [leaderShares_succ haccount hcurrent, ← hnv]
    rcases hshare : db₀.leaderShare volume nv maxRewardLevel a account accountsSet
      with ⟨rewardCut, maxRewardLevel'⟩
    dsimp only at h
    rw [leaderShare_congr hv1 href, hshare] at h
    obtain ⟨db2, h2, h⟩ := bind_eq_some_iff.1 h
    obtain ⟨hframe2, hpays2⟩ := grantShare_pays h2
    have hv2 : db2.referralView = db₀.referralView := hframe2.referral.trans hv1
    have hparams2 := parameters_of_view hv2
    rw [shareIncomes_congr hv1] at hpays2
    intro shares
    have hstep := hpays1.trans hpays2
    rw [nil_append, zero_add] at hstep
    rw [show shares = _ from rfl, shareIncomes_append, sumOf_append]
    refine hstep.trans ?_
    rw [hparams2, nextRewardable_congr hv2] at h
    split at h
    · next hgo =>
      obtain ⟨ref, href', h⟩ := bind_eq_some_iff.1 h
      rw [if_pos hgo, href', elim_some, ← htime, ← hnetwork1, ← hframe2.network]
      exact ih hv2 h
    · next hgo =>
      cases h
      rw [if_neg hgo, shareIncomes, ite_self]
      exact Pays.refl _

/-! ### The linear bonus -/

theorem cutIncomes_append (db : Database) (l l' : List (AccountId × Int)) :
    db.cutIncomes (l ++ l') = db.cutIncomes l ++ db.cutIncomes l' := map_append

theorem dustOf_append (db : Database) (l l' : List (AccountId × Int)) :
    db.dustOf (l ++ l') = db.dustOf l + db.dustOf l' := by
  simp [dustOf]

theorem rewardOf_congr (hv : db'.referralView = db.referralView) (cut : Int) :
    db'.rewardOf cut = db.rewardOf cut ∧ db'.burnedOf cut = db.burnedOf cut := by
  have hnum := headBlockNum_of_view hv
  simp only [rewardOf, burnedOf, hnum, and_self]

/-- A cut is an income of the referrer, and loses what is rounded down. -/
theorem payCut_pays {cut reward : Int}
    (h : db.payCut level ref cut requireVesting = some (db', reward)) :
    db.Pays db' (db.cutIncomes [(ref, cut)]) (-db.dustOf [(ref, cut)]) := by
  obtain ⟨db1, h1, h⟩ := bind_eq_some_iff.1 h
  obtain ⟨db2, h2, heq⟩ := map_eq_some_iff.1 h
  cases heq
  have hpays1 : db.Pays db1 [] 0 := by
    split at h1
    · cases h1
      exact Pays.refl _
    · split at h1
      · exact pays_adjustBalance h1
      · exact pays_modifyCore h1
  have hdust : -db.dustOf [(ref, cut)] = 0 + 0 + (JournalEntry.linearReward ref level cut
      (db.rewardOf cut) (db.burnedOf cut)).minted := by
    simp only [dustOf, map_cons, map_nil, sum_cons, sum_nil, JournalEntry.minted]
    omega
  rw [hdust]
  exact (hpays1.trans (pays_depositCashback h2)).trans (pays_log _ _)

theorem countGrReward_pays {reward : Int} (h : db.countGrReward ref reward = some db') :
    db.Pays db' [] 0 := by
  rcases countGrReward_eq_some h with rfl | ⟨db1, t, h1, rfl⟩
  · exact Pays.refl _
  · exact { pays_modifyStatistics h1 fun _ => ⟨rfl, rfl⟩ with }

/-- What `pay_out_fees` does to the database before it enters the rest, with the cuts
that it pays. -/
inductive CutSteps : Database → Database → List (AccountId × Int) → Prop
  | refl (db : Database) : CutSteps db db []
  | cut {db db' : Database} {level : Nat} {ref : AccountId} {cut reward : Int}
      {requireVesting : Bool}
      (h : db.payCut level ref cut requireVesting = some (db', reward)) :
      CutSteps db db' [(ref, cut)]
  | count {db db' : Database} {ref : AccountId} {reward : Int}
      (h : db.countGrReward ref reward = some db') :
      CutSteps db db' []
  | trans {db db' db'' : Database} {l l' : List (AccountId × Int)} (h : CutSteps db db' l)
      (h' : CutSteps db' db'' l') : CutSteps db db'' (l ++ l')

variable {cuts : List (AccountId × Int)}

theorem CutSteps.pays (h : db.CutSteps db' cuts) :
    db.Pays db' (db.cutIncomes cuts) (-db.dustOf cuts) := by
  induction h with
  | refl => exact Pays.refl _
  | cut h => exact payCut_pays h
  | count h => exact countGrReward_pays h
  | trans _ _ ih ih' =>
    rw [cutIncomes_append, dustOf_append, neg_add]
    refine ih.trans ?_
    simpa only [cutIncomes, dustOf, rewardOf_congr ih.referral] using ih'

section

variable (h : db.CutSteps db' cuts) (hv : db.referralView = db₀.referralView)

include h hv

theorem CutSteps.referralView : db'.referralView = db₀.referralView := h.pays.referral.trans hv

theorem CutSteps.pays_of_view : db.Pays db' (db₀.cutIncomes cuts) (-db₀.dustOf cuts) := by
  simpa only [cutIncomes, dustOf, rewardOf_congr hv] using h.pays

end

section

variable (hv : st.db.referralView = db₀.referralView)

include hv

/-- One level pays the cut of the level, or nothing. -/
theorem payLevel_cuts {percent : Nat} {st' : PayState}
    (haccount : db₀.accounts.find ref = some account)
    (h : payLevel total requireVesting level percent ref st = some st') :
    let cuts := db₀.levelCuts total level percent ref account st.cutState
    st.db.CutSteps st'.db cuts.1 ∧ st'.cutState = cuts.2 ∧
    st'.networkCut = st.networkCut - sumOf cuts.1 := by
  obtain ⟨account', haccount', h⟩ := bind_eq_some_iff.1 h
  obtain ⟨_, hfind, href⟩ := find_of_referralView hv haccount'
  cases haccount.symm.trans hfind
  have hparams := parameters_of_view hv
  have hlevels : account'.referralLevels = account.referralLevels := by
    rw [Account.eq_of_referral href]
  have hdenominator : account'.statusDenominator = account.statusDenominator := by
    rw [Account.eq_of_referral href]
  rw [hlevels, hdenominator, hparams, activeStatus_congr hv href] at h
  rw [levelCuts, PayState.cutState]
  split at h
  · next hcond =>
    rw [if_pos hcond]
    rcases hcut : db₀.parameters.feeCut (db₀.activeStatus account) account.statusDenominator total
      percent st.totalDenominatorVolume with ⟨cut, volume⟩
    rw [hcut] at h
    obtain ⟨⟨db1, reward⟩, h1, h⟩ := bind_eq_some_iff.1 h
    obtain ⟨db2, h2, rfl⟩ := map_eq_some_iff.1 h
    have hcounts : db1.CutSteps db2 [] := optional_step h2 (fun _ => .count) (.refl _)
    exact ⟨.trans (.cut h1) hcounts, rfl, by simp [sumOf]⟩
  · next hcond =>
    cases h
    rw [if_neg hcond]
    exact ⟨.refl _, rfl, by simp [sumOf]⟩

theorem notYetPaid_eq (ref : AccountId) :
    notYetPaid st ref = db₀.mayPay st.cutState.accountsSet ref := by
  have hnum := headBlockNum_of_view hv
  rw [notYetPaid, mayPay, hnum]
  rfl

theorem payLevels_cuts {percents : List Nat} {st' : PayState}
    (h : payLevels total requireVesting percents level ref st = some st') :
    let cuts := db₀.linearCuts total percents level ref st.cutState
    st.db.CutSteps st'.db cuts ∧ st'.networkCut = st.networkCut - sumOf cuts := by
  induction percents generalizing level ref st with
  | nil =>
    cases h
    exact ⟨.refl _, by simp [linearCuts, sumOf]⟩
  | cons percent percents ih =>
    obtain ⟨st1, h1, h⟩ := bind_eq_some_iff.1 h
    obtain ⟨account', haccount', -⟩ := bind_eq_some_iff.1 h1
    obtain ⟨account, haccount, -⟩ := find_of_referralView hv haccount'
    obtain ⟨hsteps1, hstate1, hcut1⟩ := payLevel_cuts hv haccount h1
    have hv1 := hsteps1.referralView hv
    rw [linearCuts, haccount, elim_some]
    rcases hcuts : db₀.levelCuts total level percent ref account st.cutState with ⟨cuts, c⟩
    rw [hcuts] at hsteps1 hstate1 hcut1
    dsimp only at hsteps1 hstate1 hcut1 ⊢
    rw [sumOf_append, ← sub_sub, ← hcut1]
    -- nothing more is paid where the walk stops
    have hstop : st1.db.CutSteps st1.db [] ∧ st1.networkCut = st1.networkCut - sumOf [] :=
      ⟨.refl _, by simp [sumOf]⟩
    refine And.imp hsteps1.trans id ?_
    split at h
    · next hnil =>
      cases h
      rw [if_pos hnil]
      exact hstop
    · next hnil =>
      rw [if_neg hnil]
      obtain ⟨next, hnext, h⟩ := bind_eq_some_iff.1 h
      obtain ⟨_, -, h⟩ := bind_eq_some_iff.1 h
      rw [nextRewardable_congr hv1] at hnext
      rw [hnext, elim_some]
      rw [notYetPaid_eq hv1, hstate1] at h
      split at h
      · next hgo =>
        rw [if_pos hgo, ← hstate1]
        exact ih hv1 h
      · next hgo =>
        cases h
        rw [if_neg hgo]
        exact hstop

end

/-- **`pay_out_fees` pays the cuts that can be read off before**, and enters the rest. -/
theorem payOutFees_cuts (hv : db.referralView = db₀.referralView)
    (h : db.payOutFees a total requireVesting = some db') :
    let cuts := db₀.linearCutsFrom a total
    ∃ db1, db.CutSteps db1 cuts ∧ db1.modifyCore (fun c =>
      { c with accumulatedFees := c.accumulatedFees + (total - sumOf cuts) }) = some db' := by
  obtain ⟨account', haccount', h⟩ := bind_eq_some_iff.1 h
  obtain ⟨account, haccount, hreferral⟩ := find_of_referralView hv haccount'
  have hparams := parameters_of_view hv
  rw [hparams, activeStatus_congr hv hreferral, nextRewardable_congr hv] at h
  obtain ⟨ref, href, h⟩ := bind_eq_some_iff.1 h
  obtain ⟨_, -, h⟩ := bind_eq_some_iff.1 h
  obtain ⟨st, hst, h⟩ := bind_eq_some_iff.1 h
  rw [linearCutsFrom, haccount, elim_some, href, elim_some]
  intro cuts
  rw [notYetPaid_eq hv] at hst
  split at hst
  · next hgo =>
    rw [show cuts = _ from if_pos hgo]
    obtain ⟨hsteps, hrest⟩ := payLevels_cuts hv hst
    rw [hrest] at h
    exact ⟨st.db, hsteps, h⟩
  · next hgo =>
    cases hst
    rw [show cuts = _ from if_neg hgo]
    refine ⟨db, .refl _, ?_⟩
    rwa [show sumOf [] = 0 from rfl, sub_zero]

theorem payOutPending_cuts {amount : Int} (hv : db.referralView = db₀.referralView)
    (h : db.payOutPending a amount requireVesting = some db') :
    let cuts := db₀.pendingCuts a amount
    (amount ≤ 0 ∧ db' = db ∧ cuts = []) ∨ ∃ db1, db.CutSteps db1 cuts ∧ db1.modifyCore (fun c =>
      { c with accumulatedFees := c.accumulatedFees + (amount - sumOf cuts) }) = some db' := by
  rw [payOutPending] at h
  rw [pendingCuts]
  split at h
  · next hpos =>
    rw [if_pos hpos]
    exact .inr (payOutFees_cuts hv h)
  · next hpos =>
    cases h
    rw [if_neg hpos]
    exact .inl ⟨not_lt.1 hpos, rfl, rfl⟩

/-! ### The ledger of a distribution -/

theorem CutSteps.ledger (h : db.CutSteps db' cuts) :
    db.RewardFrame db' ∧ db'.imbalance = db.imbalance + sumOf cuts := by
  induction h with
  | refl => exact ⟨RewardFrame.refl _, (add_zero _).symm⟩
  | cut h => exact ⟨rewardFrame_payCut h, by simp [imbalance_payCut h, sumOf]⟩
  | count h => exact ⟨(countGrReward_ledger h).1, by simp [countGrReward_ledger h, sumOf]⟩
  | trans _ _ ih ih' =>
    refine ⟨ih.1.trans ih'.1, ?_⟩
    rw [ih'.2, ih.2, sumOf_append, add_assoc]

/-- **The ledger of a distribution**: the whole fee is handed out. -/
theorem payOutPending_ledger {amount : Int}
    (h : db.payOutPending a amount requireVesting = some db') :
    db.RewardFrame db' ∧ (0 ≤ amount → db'.imbalance = db.imbalance + amount) := by
  rcases payOutPending_cuts rfl h with ⟨hle, rfl, -⟩ | ⟨db1, hsteps, hcore⟩
  · exact ⟨RewardFrame.refl _, fun hamount => by omega⟩
  · obtain ⟨hframe, himb⟩ := hsteps.ledger
    obtain ⟨c, hc, -⟩ := modifyCore_eq_some hcore
    refine ⟨hframe.trans (rewardFrame_modifyCore hcore), fun _ => ?_⟩
    rw [imbalance_modifyCore hc hcore, himb]
    simp only
    omega

/-- The two distributions of `process_fees`, and the entry that nothing is pending any more. -/
theorem processFees_eq_some (h : db.processFees a = some db') :
    ∃ fees vested, db.pending a = some (fees, vested) ∧ ((db' = db ∧ fees ≤ 0 ∧ vested ≤ 0) ∨
        ∃ db1 db2, db.payOutPending a fees true = some db1 ∧
          db1.payOutPending a vested false = some db2 ∧ db2.modifyStatistics a (fun s =>
            { s with
              lifetimeFeesPaid := s.lifetimeFeesPaid + (s.pendingFees + s.pendingVestedFees)
              pendingFees := 0
              pendingVestedFees := 0 }) = some db') := by
  obtain ⟨⟨fees, vested⟩, hpending, h⟩ := bind_eq_some_iff.1 h
  refine ⟨fees, vested, hpending, ?_⟩
  dsimp only at h
  split at h
  · obtain ⟨db1, h1, h⟩ := bind_eq_some_iff.1 h
    rw [(payOutPending_ledger h1).1.pending, hpending, bind_some] at h
    obtain ⟨db2, h2, h⟩ := bind_eq_some_iff.1 h
    exact .inr ⟨db1, db2, h1, h2, h⟩
  · exact .inl ⟨(some.inj h).symm, by omega, by omega⟩

theorem frame_processFees (h : db.processFees a = some db') : db.Frame db' := by
  obtain ⟨fees, vested, -, ⟨rfl, -⟩ | ⟨db1, db2, h1, h2, h⟩⟩ := processFees_eq_some h
  · exact Frame.refl _
  · exact (((payOutPending_ledger h1).1.trans (payOutPending_ledger h2).1).toFrame).trans
      (frame_modifyStatistics h)

/-- **Processing the fees of an account** leaves everything balanced: what is pending is handed
out, and no longer pending. -/
theorem imbalance_processFees
    (ha : ∀ fees vested, db.pending a = some (fees, vested) → 0 ≤ fees ∧ 0 ≤ vested)
    (h : db.processFees a = some db') : db'.imbalance = db.imbalance := by
  obtain ⟨fees, vested, hpending, ⟨rfl, -⟩ | ⟨db1, db2, h1, h2, h⟩⟩ := processFees_eq_some h
  · rfl
  · obtain ⟨hfees, hvested⟩ := ha fees vested hpending
    have himb1 := (payOutPending_ledger h1).2 hfees
    have himb2 := (payOutPending_ledger h2).2 hvested
    obtain ⟨s, hs, -⟩ := modifyStatistics_eq_some h
    -- the two amounts are still what is pending
    have hs' : some (s.pendingFees, s.pendingVestedFees) = some (fees, vested) := by
      rw [← hpending, ← (payOutPending_ledger h1).1.pending,
        ← (payOutPending_ledger h2).1.pending, pending, hs]
      rfl
    obtain ⟨hsfees, hsvested⟩ := Prod.mk.inj (some.inj hs')
    rw [imbalance_modifyStatistics hs h]
    simp only [AccountStatistics.held]
    omega

/-- Processed fees are no longer pending, and the others are as before. -/
theorem pendingNonneg_processFees (hdb : db.PendingNonneg) (h : db.processFees a = some db') :
    db'.PendingNonneg := by
  obtain ⟨fees, vested, -, ⟨rfl, -⟩ | ⟨db1, db2, h1, h2, h⟩⟩ := processFees_eq_some h
  · exact hdb
  · have hdb2 := ((payOutPending_ledger h1).1.trans (payOutPending_ledger h2).1).pendingNonneg hdb
    exact pendingNonneg_modifyStatistics hdb2 h fun s _ _ => ⟨le_rfl, le_rfl⟩

/-! ### The payments of a distribution -/

theorem payOutPending_pays {amount : Int} (hv : db.referralView = db₀.referralView)
    (h : db.payOutPending a amount requireVesting = some db') :
    let cuts := db₀.pendingCuts a amount
    db.Pays db' (db₀.cutIncomes cuts) (-db₀.dustOf cuts) := by
  intro cuts
  rcases payOutPending_cuts hv h with ⟨-, rfl, hnone⟩ | ⟨db1, hsteps, hcore⟩
  · rw [show cuts = [] from hnone]
    exact Pays.refl _
  · have hpays := (hsteps.pays_of_view hv).trans (pays_modifyCore hcore)
    rwa [append_nil, add_zero] at hpays

/-- **`process_fees` pays the cuts of all that is pending.** -/
theorem processFees_pays {fees vested : Int} (hv : db.referralView = db₀.referralView)
    (hpending : db.pending a = some (fees, vested)) (h : db.processFees a = some db') :
    let cuts := db₀.pendingCuts a fees ++ db₀.pendingCuts a vested
    db.Pays db' (db₀.cutIncomes cuts) (-db₀.dustOf cuts) := by
  obtain ⟨fees', vested', hpending', hcases⟩ := processFees_eq_some h
  obtain ⟨rfl, rfl⟩ := Prod.mk.inj (some.inj (hpending.symm.trans hpending'))
  rcases hcases with ⟨rfl, hfees, hvested⟩ | ⟨db1, db2, h1, h2, h⟩
  · rw [pendingCuts, pendingCuts, if_neg (not_lt.2 hfees), if_neg (not_lt.2 hvested)]
    exact Pays.refl _
  · have hpays1 := payOutPending_pays hv h1
    have hpays2 := payOutPending_pays (hpays1.referral.trans hv) h2
    have hpays := (hpays1.trans hpays2).trans (pays_modifyStatistics h fun _ => ⟨rfl, rfl⟩)
    rw [append_nil, add_zero, ← cutIncomes_append, ← neg_add, ← dustOf_append] at hpays
    exact hpays

/-! ### Entering personal volumes -/

/-- Two databases with the same view have the same view after `update_pv`, which changes neither the
network volumes nor the credits. -/
theorem updatePv_congr {d' : Database} (hv : db'.referralView = db.referralView)
    (h : db'.updatePv volume a = some d') :
    (∃ d, db.updatePv volume a = some d ∧ d'.referralView = d.referralView ∧
      d.networkVolumes = db.networkVolumes) ∧
      d'.networkVolumes = db'.networkVolumes ∧ d'.credits = db'.credits ∧
      d'.minted = db'.minted := by
  obtain ⟨account', haccount', h⟩ := bind_eq_some_iff.1 h
  obtain ⟨s', hs', h⟩ := bind_eq_some_iff.1 h
  obtain ⟨pv, hpv', h⟩ := bind_eq_some_iff.1 h
  obtain ⟨account, haccount, href⟩ := find_of_referralView hv haccount'
  have htime := headBlockTime_of_view hv
  have hpersonal := congrFun (congrArg ReferralView.personal hv) a
  simp only [referralView, hs', map_some] at hpersonal
  obtain ⟨s, hs, heq⟩ := map_eq_some_iff.1 hpersonal.symm
  have hpv : db.getPv s = some pv := by
    have hvolume : s.personalVolumeInPeriod = s'.personalVolumeInPeriod := congrArg Prod.fst heq
    have hdate : s.lastPvUpdateDate = s'.lastPvUpdateDate := congrArg Prod.snd heq
    rw [getPv, hvolume, hdate, ← decayed_congr hv]
    exact hpv'
  rw [activeStatus_congr hv href, htime] at h
  have hd : db.updatePv volume a = some { db with
      statistics := db.statistics.modify a fun s =>
        { s with
          personalVolumeInPeriod := if 0 < db.activeStatus account then pv + volume else pv
          lastPvUpdateDate := db.headBlockTime } } := by
    rw [updatePv, haccount, bind_some, hs, bind_some, hpv, bind_some, modifyStatistics,
      hs, map_some]
  refine ⟨⟨_, hd, ?_, ?_⟩, ?_⟩
  · obtain ⟨_, -, rfl⟩ := modifyStatistics_eq_some h
    have hview : ∀ {d : Database} {f : AccountStatistics → AccountStatistics},
        ({ d with statistics := d.statistics.modify a f } : Database).referralView =
        { d.referralView with
            personal := Function.update d.referralView.personal a
              ((d.statistics.lookup a).map fun s => (f s).personal) } := by
      intro d f
      have hmap := AList.map_lookup_modify AccountStatistics.personal d.statistics a f
      simp only [referralView, hmap]
    rw [hview, hview, hv, hs, hs']
    rfl
  · refine AList.map_lookup_modify_of_eq ?_ db.statistics a
    exact fun _ => rfl
  · have hnetwork := networkVolumes_modifyStatistics h fun _ => rfl
    have hcredits := credits_modifyStatistics h fun _ => rfl
    obtain ⟨_, -, rfl⟩ := modifyStatistics_eq_some h
    exact ⟨hnetwork, hcredits, rfl⟩

end Database

end CrowdwizChain
