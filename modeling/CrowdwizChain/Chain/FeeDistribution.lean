import CrowdwizChain.Chain.Solid

/-!
# Where a fee goes

`process_fees` pays the pending fees of an account out: cuts for up to eight levels of
referrers, of which a part is burned from block 24940000 on, and the rest for the accumulated
fees. On a database in which the references of rewards lead somewhere (`Solid`, `Tree`) it never
fails (`processFees_total`).

What it credits is measured by `credited`: the rewards and burned amounts that the journal has
of the levels, and the accumulated fees. `CutSteps.credited` follows it through the levels. Of
every cut the two parts are rounded down separately, at 20 and 80 percent, later at 40 and 60:
nothing is lost exactly if the cut is a multiple of five, and `fees_credited_iff` is that
condition for the whole call.
-/

namespace CrowdwizChain

open Option List

/-- What a line of `pay_out_fees` credits: the reward, and what is burned. -/
def JournalEntry.handedOut : JournalEntry → Int
  | .linearReward _ _ _ reward burned => reward + burned
  | _ => 0

namespace Database

/-- **What the distributions of fees have credited**: the rewards and the burned parts of all levels
so far, and the accumulated fees. -/
def credited (db : Database) : Int :=
  (db.journal.map JournalEntry.handedOut).sum + db.accumulatedFees

/-! ### What is credited -/

variable {db db' db₀ : Database} {a ref : AccountId} {total : Int} {requireVesting : Bool}
  {st : PayState} {level : Nat}

theorem credited_log (db : Database) (e : JournalEntry) :
    (db.log e).credited = db.credited + e.handedOut := by
  simp only [credited, log, accumulatedFees, map_cons, sum_cons]
  omega

theorem DepositFrame.credited (h : db.DepositFrame db') : db'.credited = db.credited := by
  obtain ⟨l, hl, hmem⟩ := h.journal
  have hzero : (l.map JournalEntry.handedOut).sum = 0 := by
    refine List.sum_eq_zero fun x hx => ?_
    obtain ⟨e, he, rfl⟩ := List.mem_map.1 hx
    obtain ⟨_, _, _, _, rfl⟩ := hmem e he
    rfl
  rw [Database.credited, Database.credited, hl, h.fees, map_append, sum_append, hzero, zero_add]

theorem credited_payCut {cut reward : Int}
    (h : db.payCut level ref cut requireVesting = some (db', reward)) :
    db'.credited = db.credited + (db.rewardOf cut + db.burnedOf cut) := by
  obtain ⟨db1, h1, h⟩ := bind_eq_some_iff.1 h
  obtain ⟨db2, h2, heq⟩ := map_eq_some_iff.1 h
  cases heq
  have hburned : db1.credited = db.credited := by
    split at h1
    · cases h1
      rfl
    · split at h1
      · exact (depositFrame_adjustBalance h1).credited
      · exact (depositFrame_modifyCore h1 fun _ => rfl).credited
  rw [credited_log, (depositFrame_depositCashback h2).credited, hburned]
  rfl

theorem credited_countGrReward {reward : Int} (h : db.countGrReward ref reward = some db') :
    db'.credited = db.credited := by
  rcases countGrReward_eq_some h with rfl | ⟨db1, t, h1, rfl⟩
  · rfl
  · exact (depositFrame_modifyStatistics h1).credited

/-- **The cuts are credited, up to the dust.** -/
theorem CutSteps.credited {cuts : List (AccountId × Int)} (h : db.CutSteps db' cuts) :
    db'.credited = db.credited + sumOf cuts - db.dustOf cuts := by
  induction h with
  | refl => simp [sumOf, dustOf]
  | cut h =>
    have hpaid := credited_payCut h
    simp only [sumOf, dustOf, map_cons, map_nil, sum_cons, sum_nil]
    omega
  | count h =>
    rw [credited_countGrReward h]
    simp [sumOf, dustOf]
  | trans h _ ih ih' =>
    rw [ih', ih, sumOf_append, dustOf_append]
    simp only [dustOf, rewardOf_congr h.pays.referral]
    omega

theorem credited_payOutPending {amount : Int} (hv : db.referralView = db₀.referralView)
    (hamount : 0 ≤ amount) (h : db.payOutPending a amount requireVesting = some db') :
    db'.credited = db.credited + amount - db₀.dustOf (db₀.pendingCuts a amount) := by
  rcases payOutPending_cuts hv h with ⟨hzero, rfl, hnone⟩ | ⟨db1, hsteps, hcore⟩
  · rw [hnone, show amount = 0 by omega]
    simp [dustOf]
  · have hrest := accumulatedFees_modifyCore hcore fun _ => rfl
    have hcredited := hsteps.credited
    obtain ⟨c, -, rfl⟩ := modifyCore_eq_some hcore
    simp only [dustOf, rewardOf_congr hv] at hcredited ⊢
    simp only [credited] at hcredited ⊢
    omega

/-- **What `process_fees` credits** is what was pending, less the dust of all cuts. -/
theorem credited_processFees {fees vested : Int} (hpending : db.pending a = some (fees, vested))
    (hfees : 0 ≤ fees) (hvested : 0 ≤ vested) (h : db.processFees a = some db') :
    db'.credited = db.credited + (fees + vested) -
      db.dustOf (db.pendingCuts a fees ++ db.pendingCuts a vested) := by
  obtain ⟨fees', vested', hpending', hcases⟩ := processFees_eq_some h
  obtain ⟨rfl, rfl⟩ := Prod.mk.inj (some.inj (hpending.symm.trans hpending'))
  rcases hcases with ⟨rfl, hfees', hvested'⟩ | ⟨db1, db2, h1, h2, h⟩
  · rw [pendingCuts, pendingCuts, if_neg (not_lt.2 hfees'), if_neg (not_lt.2 hvested')]
    have hstop : db'.dustOf ([] ++ []) = 0 := rfl
    omega
  · have hcredited1 := credited_payOutPending rfl hfees h1
    have hcredited2 := credited_payOutPending (payOutPending_pays rfl h1).referral hvested h2
    rw [(depositFrame_modifyStatistics h).credited, dustOf_append]
    omega

/-! ### The dust -/

/-- What is lost of a cut is less than one unit for each part, and nothing exactly if
the parts are whole. -/
theorem dust_eq_zero_iff (db : Database) (cut : Int) : 0 ≤ cut - db.rewardOf cut - db.burnedOf cut ∧
      (cut - db.rewardOf cut - db.burnedOf cut = 0 ↔
        db.headBlockNum < hardforkCore1480BlockNum ∨ cut % 5 = 0) := by
  rw [rewardOf, burnedOf, cutFee_eq, cutFee_eq]
  by_cases h0 : db.headBlockNum < hardforkCore1480BlockNum
  · have hp : burnedPercent db.headBlockNum = 0 := if_pos h0
    simp only [hp, graphene100Percent, h0, true_or, iff_true]
    omega
  · by_cases h1 : db.headBlockNum < hardforkCore1481BlockNum
    · have hp : burnedPercent db.headBlockNum = 2000 := by
        rw [burnedPercent, if_neg h0, if_pos h1]
        rfl
      simp only [hp, graphene100Percent, h0, false_or]
      omega
    · have hp : burnedPercent db.headBlockNum = 4000 := by
        rw [burnedPercent, if_neg h0, if_neg h1]
        rfl
      simp only [hp, graphene100Percent, h0, false_or]
      omega

/-- Dust does not cancel, so that none of it in a list of cuts means none in each. -/
theorem dustOf_eq_zero_iff (db : Database) (cuts : List (AccountId × Int)) :
    0 ≤ db.dustOf cuts ∧ (db.dustOf cuts = 0 ↔
      db.headBlockNum < hardforkCore1480BlockNum ∨ ∀ c ∈ cuts, c.2 % 5 = 0) := by
  induction cuts with
  | nil => exact ⟨le_rfl, fun _ => .inr (by simp), fun _ => rfl⟩
  | cons c cuts ih =>
    obtain ⟨hpos, hzero⟩ := db.dust_eq_zero_iff c.2
    have hcons :
        db.dustOf (c :: cuts) = c.2 - db.rewardOf c.2 - db.burnedOf c.2 + db.dustOf cuts := by
      simp [dustOf]
    rw [hcons, forall_mem_cons]
    refine ⟨by omega, ?_⟩
    have hsplit : c.2 - db.rewardOf c.2 - db.burnedOf c.2 + db.dustOf cuts = 0 ↔
        c.2 - db.rewardOf c.2 - db.burnedOf c.2 = 0 ∧ db.dustOf cuts = 0 := by omega
    tauto

/-! ### The distribution goes through -/

theorem feeCut_nonneg (p : ChainParameters) (activeStatus statusDenominator : Nat) {volume : Int}
    (percent : Nat) (htotal : 0 ≤ total) (hvolume : 0 ≤ volume) :
    0 ≤ (p.feeCut activeStatus statusDenominator total percent volume).1 ∧
      0 ≤ (p.feeCut activeStatus statusDenominator total percent volume).2 := by
  have hcut : 0 ≤ cutFee total percent := cutFee_nonneg htotal percent
  have hrest : 0 ≤ cutFee (cutFee total percent) (graphene100Percent - statusDenominator) :=
    cutFee_nonneg hcut _
  have hshare : 0 ≤ cutFee (cutFee total percent) statusDenominator := cutFee_nonneg hcut _
  -- the bonus only moves the collected volume
  have hbonus : ∀ cut volume : Int, 0 ≤ cut → 0 ≤ volume →
      0 ≤ (if activeStatus = p.denominatorBonusLevel ∧ 0 < volume then (cut + volume, (0 : Int))
        else (cut, volume)).1 ∧
      0 ≤ (if activeStatus = p.denominatorBonusLevel ∧ 0 < volume then (cut + volume, (0 : Int))
        else (cut, volume)).2 := by
    intro cut volume hcut hvolume
    split
    · exact ⟨add_nonneg hcut hvolume, le_rfl⟩
    · exact ⟨hcut, hvolume⟩
  rw [ChainParameters.feeCut]
  split
  · dsimp only
    split
    · exact hbonus _ _ hshare (add_nonneg hvolume hrest)
    · exact hbonus _ _ hcut hvolume
  · exact ⟨hcut, hvolume⟩

theorem Solid.payCut (h : db.Solid) (href : (db.accounts.find ref).isSome) {cut : Int}
    (hcut : 0 ≤ cut) (level : Nat) (requireVesting : Bool) :
    ∃ db' reward, db.payCut level ref cut requireVesting = some (db', reward) ∧ db'.Solid := by
  rw [Database.payCut]
  have hburned := cutFee_nonneg hcut (burnedPercent db.headBlockNum)
  have hfirst : ∃ db1, (if db.headBlockNum < hardforkCore1480BlockNum then some db
      else if db.headBlockNum < hardforkCore1481BlockNum then
        db.adjustBalance grapheneNullAccount (.core (cutFee cut (burnedPercent db.headBlockNum)))
      else db.modifyCore fun c =>
        { c with currentSupply := c.currentSupply - cutFee cut (burnedPercent db.headBlockNum) }) =
        some db1 ∧ db1.Solid ∧ (db1.accounts.find ref).isSome := by
    split
    · exact ⟨db, rfl, h, href⟩
    · split
      · obtain ⟨db1, h1, hsolid1⟩ := h.adjustBalance grapheneNullAccount (d := .core _) hburned
        exact ⟨db1, h1, hsolid1, ((rewardFrame_adjustBalance h1).accounts ref).trans href⟩
      · obtain ⟨db1, h1, hsolid1⟩ := h.modifyCore fun c =>
          { c with currentSupply := c.currentSupply - cutFee cut (burnedPercent db.headBlockNum) }
        exact ⟨db1, h1, hsolid1, ((rewardFrame_modifyCore h1).accounts ref).trans href⟩
  obtain ⟨db1, h1, hsolid1, href1⟩ := hfirst
  obtain ⟨db2, h2, hsolid2⟩ := hsolid1.depositCashback href1
    (cutFee cut (graphene100Percent - burnedPercent db.headBlockNum)) requireVesting true
  rw [h1, bind_some, h2]
  exact ⟨_, _, rfl, hsolid2.log _⟩

theorem Solid.countGrReward (h : db.Solid) (href : (db.accounts.find ref).isSome) (reward : Int) :
    ∃ db', db.countGrReward ref reward = some db' ∧ db'.Solid := by
  rw [Database.countGrReward]
  split
  · obtain ⟨account, haccount⟩ := isSome_iff_exists.1 href
    obtain ⟨db1, h1, hsolid1⟩ := h.modifyStatistics (h.statistics ref account haccount)
      (f := fun s => { s with currentPeriodGr := s.currentPeriodGr + reward }) fun _ hs => hs
    have haccount1 : db1.accounts.find ref = some account := by
      obtain ⟨s, -, rfl⟩ := modifyStatistics_eq_some h1
      exact haccount
    rw [h1, bind_some, haccount1, bind_some]
    cases hteam : account.grTeam with
    | none => exact ⟨db1, rfl, hsolid1⟩
    | some team =>
      obtain ⟨t, ht⟩ := isSome_iff_exists.1 (hsolid1.team ref account team haccount1 hteam)
      refine ⟨_, by dsimp only; rw [ht]; rfl, ?_⟩
      refine { hsolid1 with team := fun b account' i hb hi => ?_ }
      rw [Table.find_modify]
      split
      · rw [ht]
        rfl
      · exact hsolid1.team b account' i hb hi
  · exact ⟨db, rfl, h⟩

/-- What every level needs: the database is solid, and no amount is negative. -/
structure Ready (st : PayState) (db₀ : Database) : Prop where
  view : st.db.referralView = db₀.referralView
  solid : st.db.Solid
  volume : 0 ≤ st.totalDenominatorVolume

theorem isSome_of_referralView (hv : db.referralView = db₀.referralView)
    (ha : (db₀.accounts.find a).isSome) : (db.accounts.find a).isSome := by
  obtain ⟨account, haccount⟩ := isSome_iff_exists.1 ha
  obtain ⟨account', haccount', -⟩ := find_of_referralView hv.symm haccount
  exact isSome_iff_exists.2 ⟨account', haccount'⟩

theorem payLevel_total (requireVesting : Bool) (level percent : Nat) (htotal : 0 ≤ total)
    (hst : Ready st db₀) (href : (db₀.accounts.find ref).isSome) :
    ∃ st', payLevel total requireVesting level percent ref st = some st' ∧ Ready st' db₀ := by
  have href' := isSome_of_referralView hst.view href
  obtain ⟨account, haccount⟩ := isSome_iff_exists.1 href'
  obtain ⟨account0, haccount0⟩ := isSome_iff_exists.1 href
  have hpays : ∀ st', payLevel total requireVesting level percent ref st = some st' →
      st'.db.referralView = st.db.referralView :=
    fun st' h => (payLevel_cuts hst.view haccount0 h).1.pays.referral
  suffices hsuff : ∃ st', payLevel total requireVesting level percent ref st = some st' ∧
      st'.db.Solid ∧ 0 ≤ st'.totalDenominatorVolume by
    obtain ⟨st', h, hsolid, hvolume⟩ := hsuff
    exact ⟨st', h, (hpays st' h).trans hst.view, hsolid, hvolume⟩
  rw [payLevel, haccount, bind_some]
  split
  · rcases hcut :
      st.db.parameters.feeCut (st.db.activeStatus account) account.statusDenominator total
      percent st.totalDenominatorVolume with ⟨cut, volume⟩
    obtain ⟨hcut0, hvolume0⟩ := feeCut_nonneg st.db.parameters (st.db.activeStatus account)
      account.statusDenominator percent htotal hst.volume
    rw [hcut] at hcut0 hvolume0
    obtain ⟨db1, reward, h1, hsolid1⟩ := hst.solid.payCut href' hcut0 level requireVesting
    have href1 := ((rewardFrame_payCut h1).accounts ref).trans href'
    dsimp only
    rw [h1, bind_some]
    split
    · obtain ⟨db2, h2, hsolid2⟩ := hsolid1.countGrReward href1 reward
      rw [h2]
      exact ⟨_, rfl, hsolid2, hvolume0⟩
    · exact ⟨_, rfl, hsolid1, hvolume0⟩
  · exact ⟨st, rfl, hst.solid, hst.volume⟩

/-- The walk over the levels goes through, by induction over them. -/
theorem payLevels_total (requireVesting : Bool) (percents : List Nat) (level : Nat)
    (htotal : 0 ≤ total)
    (hst : Ready st db₀) (hsolid0 : db₀.Solid) (htree : db₀.Tree)
    (href : (db₀.accounts.find ref).isSome) :
    ∃ st', payLevels total requireVesting percents level ref st = some st' ∧ Ready st' db₀ := by
  induction percents generalizing level ref st with
  | nil => exact ⟨st, rfl, hst⟩
  | cons percent percents ih =>
    obtain ⟨st1, h1, hst1⟩ := payLevel_total requireVesting level percent htotal hst href
    rw [payLevels, h1, bind_some]
    split
    · exact ⟨st1, rfl, hst1⟩
    · obtain ⟨next, hnext, hfind⟩ := nextRewardable_isSome hsolid0 htree href
      obtain ⟨_, haccount⟩ := isSome_iff_exists.1 (isSome_of_referralView hst1.view hfind)
      rw [nextRewardable_congr hst1.view, hnext, bind_some, haccount, bind_some]
      split
      · exact ih (level + 1) hst1 hfind
      · exact ⟨st1, rfl, hst1⟩

theorem payOutFees_total (hv : db.referralView = db₀.referralView) (hsolid : db.Solid)
    (hsolid0 : db₀.Solid) (htree : db₀.Tree) (ha : (db₀.accounts.find a).isSome)
    (htotal : 0 ≤ total) :
    ∃ db', db.payOutFees a total requireVesting = some db' ∧ db'.Solid := by
  obtain ⟨account, haccount⟩ := isSome_iff_exists.1 (isSome_of_referralView hv ha)
  have hfirst : ∃ ref, (if db.parameters.cashback ∧ 0 < db.activeStatus account then some a
      else db.nextRewardable a) = some ref ∧ (db₀.accounts.find ref).isSome := by
    split
    · exact ⟨a, rfl, ha⟩
    · rw [nextRewardable_congr hv]
      exact nextRewardable_isSome hsolid0 htree ha
  obtain ⟨ref, href, hfind⟩ := hfirst
  obtain ⟨_, hreferrer⟩ := isSome_iff_exists.1 (isSome_of_referralView hv hfind)
  have hst : Ready ⟨db, total, 0, []⟩ db₀ := ⟨hv, hsolid, le_rfl⟩
  rw [payOutFees, haccount, bind_some, href, bind_some, hreferrer, bind_some]
  dsimp only
  split
  · obtain ⟨st, h, hst⟩ :=
      payLevels_total requireVesting db.parameters.refPercentOfFee 1 htotal hst hsolid0 htree hfind
    rw [h, bind_some]
    exact hst.solid.modifyCore _
  · exact hsolid.modifyCore _

theorem payOutPending_total (amount : Int) (requireVesting : Bool)
    (hv : db.referralView = db₀.referralView) (hsolid : db.Solid) (hsolid0 : db₀.Solid)
    (htree : db₀.Tree) (ha : (db₀.accounts.find a).isSome) :
    ∃ db', db.payOutPending a amount requireVesting = some db' ∧ db'.Solid := by
  rw [payOutPending]
  split
  · next hpos => exact payOutFees_total hv hsolid hsolid0 htree ha hpos.le
  · exact ⟨db, rfl, hsolid⟩

/-- **`process_fees` goes through** where the references lead somewhere. -/
theorem processFees_total (hsolid : db.Solid) (htree : db.Tree) (ha : (db.accounts.find a).isSome) :
    ∃ db', db.processFees a = some db' ∧ db'.Solid := by
  obtain ⟨account, haccount⟩ := isSome_iff_exists.1 ha
  obtain ⟨s, hs⟩ := isSome_iff_exists.1 (hsolid.statistics a account haccount)
  have hpending : db.pending a = some (s.pendingFees, s.pendingVestedFees) := by
    rw [pending, hs]
    rfl
  rw [processFees, hpending, bind_some]
  dsimp only
  split
  · obtain ⟨db1, h1, hsolid1⟩ := payOutPending_total s.pendingFees true rfl hsolid hsolid htree ha
    have hv1 := (payOutPending_pays rfl h1).referral
    obtain ⟨db2, h2, hsolid2⟩ :=
      payOutPending_total s.pendingVestedFees false hv1 hsolid1 hsolid htree ha
    have hv2 := (payOutPending_pays hv1 h2).referral.trans hv1
    obtain ⟨account2, haccount2⟩ := isSome_iff_exists.1 (isSome_of_referralView hv2 ha)
    rw [h1, bind_some, (payOutPending_ledger h1).1.pending, hpending, bind_some, h2, bind_some]
    exact hsolid2.modifyStatistics (hsolid2.statistics a account2 haccount2) fun _ hs => hs
  · exact ⟨db, rfl, hsolid⟩

theorem pending_processFees {fees vested : Int} (hpending : db.pending a = some (fees, vested))
    (hfees : 0 ≤ fees) (hvested : 0 ≤ vested) (h : db.processFees a = some db') :
    db'.pending a = some (0, 0) := by
  obtain ⟨fees', vested', hpending', hcases⟩ := processFees_eq_some h
  obtain ⟨rfl, rfl⟩ := Prod.mk.inj (some.inj (hpending.symm.trans hpending'))
  rcases hcases with ⟨rfl, hfees', hvested'⟩ | ⟨db1, db2, -, -, h⟩
  · obtain rfl := le_antisymm hfees' hfees
    obtain rfl := le_antisymm hvested' hvested
    exact hpending
  · obtain ⟨s, hs, rfl⟩ := modifyStatistics_eq_some h
    rw [pending, AList.lookup_modify, if_pos rfl, hs]
    rfl

/-- **Where a fee goes.** On a solid database with a referral tree `process_fees` goes through for
every account, whatever the percentages and the height are; afterwards nothing is pending, the books
of the core asset are balanced as before, and no more is credited than was pending. It is the same
amount exactly if no part of a cut is rounded: until block 24940000, or where all cuts due are
multiples of five. -/
theorem fees_credited_iff {db : Database} (hsolid : db.Solid) (htree : db.Tree) {a : AccountId}
    (ha : (db.accounts.find a).isSome) {fees vested : Int}
    (hpending : db.pending a = some (fees, vested)) (hfees : 0 ≤ fees) (hvested : 0 ≤ vested) :
    ∃ db', db.processFees a = some db' ∧ db'.pending a = some (0, 0) ∧
      db'.imbalance = db.imbalance ∧ db'.credited - db.credited ≤ fees + vested ∧
      (db'.credited - db.credited = fees + vested ↔ db.headBlockNum < hardforkCore1480BlockNum ∨
          ∀ c ∈ db.pendingCuts a fees ++ db.pendingCuts a vested, c.2 % 5 = 0) := by
  obtain ⟨db', h, -⟩ := processFees_total hsolid htree ha
  have hcredited := credited_processFees hpending hfees hvested h
  obtain ⟨hdust, hiff⟩ := db.dustOf_eq_zero_iff (db.pendingCuts a fees ++ db.pendingCuts a vested)
  refine ⟨db', h, pending_processFees hpending hfees hvested h, ?_, by omega, ?_⟩
  · refine imbalance_processFees (fun fees' vested' hpending' => ?_) h
    obtain ⟨rfl, rfl⟩ := Prod.mk.inj (some.inj (hpending.symm.trans hpending'))
    exact ⟨hfees, hvested⟩
  · rw [← hiff]
    omega

/-! ### A fee that is not handed out -/

/-- An account with some pending fees, and its referrer, at a height at which a fifth
of a cut is burned. -/
def feeChain (fees : Int) : Database :=
  let db := { start hardforkCwd5Time
      [{ referrer := 0 }, { referrer := 0 }, { referrer := 0 }, { referrer := 0 },
        { referrer := 0 },
        { referrer := 0
          referralStatusType := 3
          referralStatusExpirationDate := hardforkCwd5Time + 1000
          referralLevels := 8
          statusDenominator := 10000 },
        { referrer := 5 }] 3000000000 with
    headBlockNum := hardforkCore1480BlockNum
    parameters := { rootAccount := 0 } }
  { db with statistics := db.statistics.modify 6 fun s => { s with pendingFees := fees } }

/-- A cut of two hundred is split without a rest. -/
theorem fees_credited_iff_whole :
    ∃ db', (feeChain 1000).processFees 6 = some db' ∧ db'.pending 6 = some (0, 0) ∧
      db'.credited - (feeChain 1000).credited = 1000 := by
  have hsolid : (feeChain 1000).Solid :=
    solid_of_entries (by decide +kernel) (by decide +kernel) (by decide +kernel)
  have htree : (feeChain 1000).Tree :=
    ⟨by decide +kernel, by decide +kernel, referralRooted_of_lt (by decide +kernel)⟩
  obtain ⟨db', h, hpending, -, -, hiff⟩ := fees_credited_iff hsolid htree (a := 6)
    (by decide +kernel) (show (feeChain 1000).pending 6 = some (1000, 0) by decide +kernel)
    (by decide) le_rfl
  exact ⟨db', h, hpending, hiff.2 (.inr (by decide +kernel))⟩

/-- Of a fee of seven the cut is one, and neither the reward nor the burned part of it is a whole
unit: six are credited. The percentages add up to half of the fee. -/
theorem fee_unit_lost : (feeChain 7).parameters.refPercentOfFee.sum = 5000 ∧
      ((feeChain 7).processFees 6).any (fun db' => db'.pending 6 = some (0, 0) ∧
        db'.credited - (feeChain 7).credited = 6) := by
  decide +kernel

end Database

end CrowdwizChain
