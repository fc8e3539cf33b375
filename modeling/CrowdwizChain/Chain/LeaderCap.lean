import CrowdwizChain.Chain.FeeDistribution
import CrowdwizChain.Lib.Shares

/-!
# The bound of the leader bonus

On its way up `update_nv` hands over the highest percentage that was granted so far, and a
leader gets the difference to the percentage of their own level. The walk is followed here
account by account: `updateNvTrace` is `update_nv` with a record of every visit, the percentages
before and after it and the cut.

The percentages of the visits adjoin (`Adjoin`), so their differences add up to the highest one,
and the cuts are the differences' shares of the volume, rounded down: together they are at most
the share of the highest percentage. Nothing is assumed of the eight thresholds and rewards,
which need not be in order: the cascade of the source may pass over a higher reward of a lower
level, and then grants less.
-/

namespace CrowdwizChain

open Option List

/-- A call of `update_nv` for one account of the path: the network volume after the
volume was entered, whether the status is one of a leader, `max_reward_level` before and
after, and `reward_cut`. -/
structure LeaderVisit where
  account : AccountId
  nv : Int
  leads : Bool
  before : Nat
  after : Nat
  cut : Int

/-- The rewards of the levels whose thresholds were reached on the path. -/
def ChainParameters.reachedRewards (p : ChainParameters) (visits : List LeaderVisit) : List Nat :=
  visits.flatMap fun x =>
    if x.leads then ((p.nvLevelThreshold.zip p.nvLevelReward).filter (·.1 ≤ x.nv)).map Prod.snd
      else []

/-- The largest of some percentages. -/
def largest (l : List Nat) : Nat := l.foldr max 0

theorem le_largest {l : List Nat} {r : Nat} (h : r ∈ l) : r ≤ largest l := by
  induction l with
  | nil => cases h
  | cons x l ih =>
    rcases mem_cons.1 h with rfl | h
    · exact le_max_left _ _
    · exact (ih h).trans (le_max_right _ _)

theorem largest_le {l : List Nat} {m : Nat} (h : ∀ r ∈ l, r ≤ m) : largest l ≤ m := by
  induction l with
  | nil => exact Nat.zero_le m
  | cons x l ih =>
    rw [forall_mem_cons] at h
    exact max_le h.1 (ih h.2)

/-- What the journal says about a leader's reward. -/
def JournalEntry.leaderReward? : JournalEntry → Option (AccountId × Int)
  | .leaderReward a amount => some (a, amount)
  | _ => none

namespace LeaderVisit

/-- The visit grants what lies between two percentages, the second of which is the reward of a level
whose threshold was reached. -/
structure Ok (p : ChainParameters) (volume : Int) (x : LeaderVisit) : Prop where
  le : x.before ≤ x.after
  cut : x.cut = cutFee volume (x.after - x.before)
  reached : x.before < x.after → x.after ∈ p.reachedRewards [x]

/-- The percentages of the visits adjoin, from the first one on. -/
def Adjoin : Nat → List LeaderVisit → Prop
  | _, [] => True
  | m, x :: visits => x.before = m ∧ Adjoin x.after visits

variable {p : ChainParameters} {volume : Int}

variable {visits : List LeaderVisit} {m : Nat}

section

variable (h : Adjoin m visits) (hok : ∀ x ∈ visits, x.Ok p volume)

include h hok

/-- What was granted before bounds the percentages of all later visits from below. -/
theorem Adjoin.le {x : LeaderVisit} (hx : x ∈ visits) : m ≤ x.before := by
  induction visits generalizing m with
  | nil => cases hx
  | cons y visits ih =>
    obtain ⟨rfl, h⟩ := h
    rw [forall_mem_cons] at hok
    rcases mem_cons.1 hx with rfl | hx
    · exact le_rfl
    · exact hok.1.le.trans (ih h hok.2 hx)

/-- **No percentage is granted twice.** -/
theorem Adjoin.pairwise : visits.Pairwise fun x y => x.after ≤ y.before := by
  induction visits generalizing m with
  | nil => exact .nil
  | cons x visits ih =>
    obtain ⟨rfl, h⟩ := h
    rw [forall_mem_cons] at hok
    exact .cons (fun y hy => h.le hok.2 hy) (ih h hok.2)

/-- The differences of the percentages add up to at most the last of them. -/
theorem Adjoin.sum_le {top : Nat} (hm : m ≤ top) (htop : ∀ x ∈ visits, x.after ≤ top) :
    (visits.map fun x => ((x.after - x.before : Nat) : Int)).sum ≤ top - m := by
  induction visits generalizing m with
  | nil =>
    rw [map_nil, sum_nil]
    omega
  | cons x visits ih =>
    obtain ⟨rfl, h⟩ := h
    rw [forall_mem_cons] at hok htop
    have hrest := ih h hok.2 htop.1 htop.2
    have hle := hok.1.le
    rw [map_cons, sum_cons]
    omega

end

/-- **The cuts together** are at most the cut of the highest percentage. -/
theorem sum_cut_le (hvolume : 0 ≤ volume) (h : Adjoin 0 visits)
    (hok : ∀ x ∈ visits, x.Ok p volume) :
    (visits.map LeaderVisit.cut).sum ≤ cutFee volume (largest (visits.map LeaderVisit.after)) := by
  have hcuts : visits.map LeaderVisit.cut =
      (visits.map fun x => ((x.after - x.before : Nat) : Int)).map (Shares.share volume 10000) := by
    rw [List.map_map]
    refine map_congr_left fun x hx => ?_
    rw [(hok x hx).cut, cutFee_eq]
    rfl
  have hsum := h.sum_le hok (Nat.zero_le (largest (visits.map LeaderVisit.after)))
    fun x hx => le_largest (List.mem_map.2 ⟨x, hx, rfl⟩)
  rw [hcuts, cutFee_eq]
  refine (Shares.sum_share_le_share volume (by decide) _).trans ?_
  refine Shares.share_mono hvolume (by decide) ?_
  exact hsum

/-- The highest percentage granted is the reward of a level that was reached. -/
theorem largest_after_le (h : Adjoin 0 visits) (hok : ∀ x ∈ visits, x.Ok p volume) :
    largest (visits.map LeaderVisit.after) ≤ largest (p.reachedRewards visits) := by
  -- a visit without a grant leaves the percentage that came from below
  suffices hsuff : ∀ {visits : List LeaderVisit} {m top : Nat}, Adjoin m visits →
      (∀ x ∈ visits, x.Ok p volume) → m ≤ top → (∀ r ∈ p.reachedRewards visits, r ≤ top) →
      ∀ r ∈ visits.map LeaderVisit.after, r ≤ top by
    exact largest_le (hsuff h hok (Nat.zero_le _) fun r hr => le_largest hr)
  intro visits
  induction visits with
  | nil => simp
  | cons x visits ih =>
    rintro m top ⟨rfl, h⟩ hok hm htop
    rw [forall_mem_cons] at hok
    have hsplit :
        p.reachedRewards (x :: visits) = p.reachedRewards [x] ++ p.reachedRewards visits := by
      simp [ChainParameters.reachedRewards]
    rw [hsplit, List.forall_mem_append] at htop
    have hx : x.after ≤ top := by
      rcases hok.1.le.eq_or_lt with heq | hlt
      · exact heq ▸ hm
      · exact htop.1 _ (hok.1.reached hlt)
    rw [map_cons, forall_mem_cons]
    exact ⟨hx, ih h hok.2 hx htop.2⟩

end LeaderVisit

namespace Database

/-- The leaders' rewards in the journal, the latest first. -/
def leaderRewards (db : Database) : List (AccountId × Int) :=
  db.journal.filterMap JournalEntry.leaderReward?

/-- The visits that grant something. -/
def granted (visits : List LeaderVisit) : List (AccountId × Int) :=
  visits.flatMap fun x => shareOf x.account x.cut

/-- `update_nv`, with a record of the visits. -/
def updateNvTrace : Nat → Int → Nat → Nat → AccountId → List AccountId → Database →
    Option (Database × List LeaderVisit)
  | 0, _, _, _, _, _, _ => none
  | n + 1, volume, level, maxRewardLevel, a, accountsSet, db =>
    (db.accounts.find a).bind fun account =>
      (db.enterNv volume a account).bind fun (db, nv) =>
        let share := db.leaderShare volume nv maxRewardLevel a account accountsSet
        let visit : LeaderVisit :=
          ⟨a, nv, db.parameters.minNvStatus ≤ db.activeStatus account, maxRewardLevel,
            share.2, share.1⟩
        (db.grantShare a share.1).bind fun db =>
          let accountsSet := if 0 < share.1 then a :: accountsSet else accountsSet
          let level := (level + 1) % 256
          if level ≤ db.parameters.nvLevels ∧ db.parameters.rootAccount < a then
            (db.nextRewardable a).bind fun ref =>
              (updateNvTrace n volume level share.2 ref accountsSet db).map fun r =>
                (r.1, visit :: r.2)
          else some (db, [visit])

variable {db db' : Database} {a : AccountId}

theorem updateNvTrace_fst (n : Nat) (volume : Int) (level maxRewardLevel : Nat) (a : AccountId)
    (accountsSet : List AccountId) (db : Database) :
    (updateNvTrace n volume level maxRewardLevel a accountsSet db).map Prod.fst =
      updateNv n volume level maxRewardLevel a accountsSet db := by
  induction n generalizing level maxRewardLevel a accountsSet db with
  | zero => rfl
  | succ n ih =>
    rw [updateNvTrace, updateNv, Option.map_bind]
    congr 1
    funext account
    rw [Function.comp_apply, Option.map_bind]
    congr 1
    funext r
    rw [Function.comp_apply, Option.map_bind]
    congr 1
    funext db2
    dsimp only [Function.comp_apply]
    split
    · rw [Option.map_bind]
      congr 1
      funext ref
      rw [Function.comp_apply, Option.map_map, ← ih]
      rfl
    · rfl

/-! ### One visit -/

theorem leaderRewards_log (db : Database) (a : AccountId) (amount : Int) :
    (db.log (.leaderReward a amount)).leaderRewards = (a, amount) :: db.leaderRewards := rfl

theorem DepositFrame.leaderRewards (h : db.DepositFrame db') :
    db'.leaderRewards = db.leaderRewards := by
  obtain ⟨l, hl, hmem⟩ := h.journal
  have hnil : l.filterMap JournalEntry.leaderReward? = [] := by
    refine List.filterMap_eq_nil_iff.2 fun e he => ?_
    obtain ⟨_, _, _, _, rfl⟩ := hmem e he
    rfl
  rw [Database.leaderRewards, hl, List.filterMap_append, hnil, nil_append]
  rfl

theorem leaderRewards_grantShare {cut : Int} (h : db.grantShare a cut = some db') :
    db'.leaderRewards = shareOf a cut ++ db.leaderRewards := by
  rw [grantShare] at h
  rw [shareOf]
  split at h
  · next hpos =>
    rw [if_pos hpos]
    obtain ⟨db1, h1, rfl⟩ := map_eq_some_iff.1 h
    rw [leaderRewards_log]
    split at h1
    · rw [(depositFrame_depositCashback h1).leaderRewards]
      rfl
    · rw [(depositFrame_adjustBalance h1).leaderRewards]
      rfl
  · next hpos =>
    cases h
    rw [if_neg hpos, nil_append]

theorem leaderCut_spec (p : ChainParameters) (volume nv : Int) (maxRewardLevel : Nat) :
    maxRewardLevel ≤ (p.leaderCut volume nv maxRewardLevel).2 ∧
        (p.leaderCut volume nv maxRewardLevel).1 =
        cutFee volume ((p.leaderCut volume nv maxRewardLevel).2 - maxRewardLevel) ∧
      (maxRewardLevel < (p.leaderCut volume nv maxRewardLevel).2 →
        ∃ threshold, (threshold, (p.leaderCut volume nv maxRewardLevel).2) ∈
          p.nvLevelThreshold.zip p.nvLevelReward ∧ threshold ≤ nv) := by
  rw [ChainParameters.leaderCut]
  split
  · next level hlevel =>
    have hcond := List.find?_some hlevel
    have hmem := mem_reverse.1 (List.mem_of_find?_eq_some hlevel)
    obtain ⟨hnv, hlt⟩ := of_decide_eq_true hcond
    exact ⟨hlt.le, rfl, fun _ => ⟨level.1, hmem, hnv⟩⟩
  · refine ⟨le_rfl, ?_, fun h => absurd h (lt_irrefl _)⟩
    rw [Nat.sub_self, cutFee_eq]
    simp

theorem leaderShare_ok (db : Database) (volume nv : Int) (maxRewardLevel : Nat) (a : AccountId)
    (account : Account) (accountsSet : List AccountId) :
    let share := db.leaderShare volume nv maxRewardLevel a account accountsSet
    LeaderVisit.Ok db.parameters volume
      ⟨a, nv, db.parameters.minNvStatus ≤ db.activeStatus account, maxRewardLevel, share.2,
        share.1⟩ := by
  intro share
  by_cases hcond : db.parameters.minNvStatus ≤ db.activeStatus account ∧
      db.parameters.nvLevelThreshold.headD 0 ≤ nv ∧
      (db.headBlockNum < hardforkCore1480BlockNum ∨ a ∉ accountsSet)
  · obtain ⟨hle, hcut, hreached⟩ := leaderCut_spec db.parameters volume nv maxRewardLevel
    have hshare : share = db.parameters.leaderCut volume nv maxRewardLevel := if_pos hcond
    rw [← hshare] at hle hcut hreached
    refine ⟨hle, hcut, fun hlt => ?_⟩
    obtain ⟨threshold, hmem, hnv⟩ := hreached hlt
    simp only [ChainParameters.reachedRewards, flatMap_cons, List.flatMap_nil, append_nil,
      hcond.1, decide_true, if_true, List.mem_map, mem_filter, decide_eq_true_eq]
    exact ⟨(threshold, share.2), ⟨hmem, hnv⟩, rfl⟩
  · have hshare : share = (0, maxRewardLevel) := if_neg hcond
    rw [hshare]
    refine ⟨le_rfl, ?_, fun h => absurd h (lt_irrefl _)⟩
    rw [Nat.sub_self, cutFee_eq]
    simp

/-! ### The walk -/

/-- **The visits of a walk**, by induction on its rounds. -/
theorem updateNvTrace_visits {n : Nat} {volume : Int} {level maxRewardLevel : Nat}
    {accountsSet : List AccountId} {visits : List LeaderVisit}
    (h : updateNvTrace n volume level maxRewardLevel a accountsSet db = some (db', visits)) :
    (∀ x ∈ visits, x.Ok db.parameters volume) ∧ LeaderVisit.Adjoin maxRewardLevel visits ∧
      db'.leaderRewards = (granted visits).reverse ++ db.leaderRewards := by
  induction n generalizing level maxRewardLevel a accountsSet db db' visits with
  | zero => cases h
  | succ n ih =>
    obtain ⟨account, -, h⟩ := bind_eq_some_iff.1 h
    obtain ⟨⟨db1, nv⟩, h1, h⟩ := bind_eq_some_iff.1 h
    obtain ⟨db2, h2, h⟩ := bind_eq_some_iff.1 h
    obtain ⟨_, -, -, -, hpays⟩ := enterNv_pays h1
    have hparams1 := parameters_of_view hpays.referral
    have hparams2 := parameters_of_view (grantShare_pays h2).1.referral
    have hrewards1 : db1.leaderRewards = db.leaderRewards := by
      obtain ⟨s, -, hmodify⟩ := enterNv_eq_some h1
      exact (depositFrame_modifyStatistics hmodify).leaderRewards
    have hok := leaderShare_ok db1 volume nv maxRewardLevel a account accountsSet
    have hrewards2 := leaderRewards_grantShare h2
    have hreverse : ∀ cut, (shareOf a cut).reverse = shareOf a cut := by
      intro cut
      unfold shareOf
      split <;> rfl
    dsimp only at h hok
    rw [hparams1] at hok
    split at h
    · obtain ⟨ref, -, h⟩ := bind_eq_some_iff.1 h
      obtain ⟨⟨db3, rest⟩, h3, heq⟩ := map_eq_some_iff.1 h
      cases heq
      obtain ⟨hokRest, hadjoin, hrewards⟩ := ih h3
      rw [hparams2, hparams1] at hokRest
      rw [hparams1, forall_mem_cons]
      refine ⟨⟨hok, hokRest⟩, ⟨rfl, hadjoin⟩, ?_⟩
      rw [hrewards, hrewards2, hrewards1]
      simp [granted, hreverse]
    · cases h
      rw [hparams1]
      refine ⟨fun x hx => ?_, ⟨rfl, trivial⟩, ?_⟩
      · obtain rfl := mem_singleton.1 hx
        exact hok
      · rw [hrewards2, hrewards1]
        simp [granted, hreverse]

/-- What is granted is positive, and the other cuts are zero. -/
theorem sumOf_granted {p : ChainParameters} {volume : Int} (hvolume : 0 ≤ volume)
    {visits : List LeaderVisit} (hok : ∀ x ∈ visits, x.Ok p volume) :
    sumOf (granted visits) = (visits.map LeaderVisit.cut).sum := by
  induction visits with
  | nil => rfl
  | cons x visits ih =>
    rw [forall_mem_cons] at hok
    have hcut : 0 ≤ x.cut := by
      rw [hok.1.cut]
      exact cutFee_nonneg hvolume _
    have hshare : sumOf (shareOf x.account x.cut) = x.cut := by
      rw [shareOf]
      split
      · simp [sumOf]
      · simp only [sumOf, map_nil, sum_nil]
        omega
    have hsplit : granted (x :: visits) = shareOf x.account x.cut ++ granted visits := rfl
    rw [hsplit, sumOf_append, hshare, ih hok.2, map_cons, sum_cons]

/-! ### The walk goes through -/

theorem Solid.grantShare (h : db.Solid) (ha : (db.accounts.find a).isSome) (cut : Int) :
    ∃ db', db.grantShare a cut = some db' ∧ db'.Solid := by
  rw [Database.grantShare]
  split
  · next hpos =>
    split
    · obtain ⟨db1, h1, hsolid1⟩ := h.depositCashback ha cut false true
      exact ⟨_, by rw [h1]; rfl, hsolid1.log _⟩
    · obtain ⟨db1, h1, hsolid1⟩ := h.adjustBalance grapheneNullAccount (d := .core cut) hpos.le
      exact ⟨_, by rw [h1]; rfl, hsolid1.log _⟩
  · exact ⟨db, rfl, h⟩

theorem Solid.enterNv (h : db.Solid) (hperiod : 0 < db.parameters.referralStatisticSeconds)
    {account : Account} (ha : db.accounts.find a = some account) (volume : Int) :
    ∃ db' nv, db.enterNv volume a account = some (db', nv) ∧ db'.Solid := by
  have hstatistics := h.statistics a account ha
  obtain ⟨s, hs⟩ := isSome_iff_exists.1 hstatistics
  obtain ⟨currentNv, hnv⟩ := isSome_iff_exists.1
    (decayed_isSome hperiod s.networkVolumeInPeriod s.lastNvUpdateDate)
  obtain ⟨db1, h1, hsolid1⟩ := h.modifyStatistics hstatistics (f := fun s =>
      { s with
        networkVolumeInPeriod := if db.parameters.minNvStatus ≤ db.activeStatus account
          then currentNv + volume else currentNv
        lastNvUpdateDate := db.headBlockTime }) fun _ hs => hs
  rw [Database.enterNv, hs, bind_some, getNv, hnv, bind_some]
  exact ⟨db1, _, by dsimp only; rw [h1]; rfl, hsolid1⟩

/-- The walk ends at the latest at the root account, by induction on the way there. -/
theorem updateNv_total {n k : Nat} (volume : Int) (level maxRewardLevel : Nat) {c : AccountId}
    (accountsSet : List AccountId) {db0 : Database} (hv : db.referralView = db0.referralView)
    (hsolid : db.Solid) (hsolid0 : db0.Solid) (htree : db0.Tree) (hc : db0.AtRoot c)
    (hclimbs : Ascent.Climbs db0.referrerOf db0.AtRoot k a c) (hk : k < n) :
    ∃ db', updateNv n volume level maxRewardLevel a accountsSet db = some db' := by
  induction n generalizing k level maxRewardLevel a c accountsSet db with
  | zero => exact absurd hk (Nat.not_lt_zero k)
  | succ n ih =>
    have hparams := parameters_of_view hv
    have hfind := isSome_of_referralView hv (isSome_of_climbs hc hclimbs)
    obtain ⟨account, haccount⟩ := isSome_iff_exists.1 hfind
    obtain ⟨db1, nv, h1, hsolid1⟩ := hsolid.enterNv (hparams ▸ htree.period) haccount volume
    obtain ⟨_, -, -, -, hpays1⟩ := enterNv_pays h1
    have hv1 : db1.referralView = db0.referralView := hpays1.referral.trans hv
    have hfind1 := isSome_of_referralView hv1 (isSome_of_climbs hc hclimbs)
    rw [updateNv, haccount, bind_some, h1, bind_some]
    dsimp only
    obtain ⟨db2, h2, hsolid2⟩ := hsolid1.grantShare hfind1
      (db1.leaderShare volume nv maxRewardLevel a account accountsSet).1
    have hv2 : db2.referralView = db0.referralView := (grantShare_pays h2).1.referral.trans hv1
    have hparams2 := parameters_of_view hv2
    rw [h2, bind_some, hparams2, nextRewardable_congr hv2]
    split
    · next hgo =>
      obtain ⟨ref, k', c', href, hlt, hc', hclimbs'⟩ :=
        nextRewardable_climbs hsolid0 htree hc hclimbs hgo.2
      rw [href, bind_some]
      exact ih _ _ _ hv2 hsolid2 hc' hclimbs' (by omega)
    · exact ⟨db2, rfl⟩

/-- **The leader bonus is bounded.** A call of `update_nv` from the bottom goes through wherever the
references of rewards lead somewhere and the referrals form a tree. Whatever the thresholds and
rewards of the levels are, the books of the core asset change by what it writes down as granted,
which is at most the cut of the highest percentage that was granted on the path, and that is at most
the largest reward of a level that was reached; and what an account gets is the cut of the
percentages between the highest one granted below it and its own. -/
theorem leader_bonus_capped (db : Database) (a : AccountId) {volume : Int} (hvolume : 0 ≤ volume) :
    (db.Solid → db.Tree → (db.accounts.find a).isSome → (db.updateNvFrom volume a).isSome) ∧
      ∀ db', db.updateNvFrom volume a = some db' →
        ∃ visits, updateNvTrace db.referralFuel volume 1 0 a [] db = some (db', visits) ∧
          db'.leaderRewards = (granted visits).reverse ++ db.leaderRewards ∧
          db'.imbalance = db.imbalance ∧
          sumOf (granted visits) ≤ cutFee volume (largest (visits.map LeaderVisit.after)) ∧
          largest (visits.map LeaderVisit.after) ≤ largest (db.parameters.reachedRewards visits) ∧
          sumOf (granted visits) ≤ cutFee volume (largest (db.parameters.reachedRewards visits)) ∧
          (∀ x ∈ visits, x.before ≤ x.after ∧ x.cut = cutFee volume (x.after - x.before)) ∧
          visits.Pairwise fun x y => x.after ≤ y.before := by
  constructor
  · intro hsolid htree ha
    obtain ⟨k, c, hc, hclimbs, hlt⟩ := htree.exists_climbs ha
    obtain ⟨db', h⟩ := updateNv_total volume 1 0 [] rfl hsolid hsolid htree hc hclimbs
      (hlt.trans_le (Nat.le_add_right _ 256))
    exact isSome_iff_exists.2 ⟨db', h⟩
  · intro db' h
    have himbalance := (updateNv_ledger h).2
    rw [updateNvFrom, ← updateNvTrace_fst] at h
    obtain ⟨⟨db'', visits⟩, htrace, rfl⟩ := map_eq_some_iff.1 h
    obtain ⟨hok, hadjoin, hrewards⟩ := updateNvTrace_visits htrace
    have hsum :
        sumOf (granted visits) ≤ cutFee volume (largest (visits.map LeaderVisit.after)) := by
      rw [sumOf_granted hvolume hok]
      exact LeaderVisit.sum_cut_le hvolume hadjoin hok
    have hlargest := LeaderVisit.largest_after_le hadjoin hok
    have hmono : cutFee volume (largest (visits.map LeaderVisit.after)) ≤
        cutFee volume (largest (db.parameters.reachedRewards visits)) := by
      rw [cutFee_eq, cutFee_eq]
      exact Shares.share_mono hvolume (by decide) (Int.ofNat_le.2 hlargest)
    exact ⟨visits, htrace, hrewards, himbalance, hsum, hlargest, hsum.trans hmono,
      fun x hx => ⟨(hok x hx).le, (hok x hx).cut⟩, hadjoin.pairwise hok⟩

/-- A leader of the first level gets one percent of twenty thousand coins, which is the bound. -/
theorem leader_bonus_capped_one : ∃ db' visits, (feeChain 0).updateNvFrom 2000000000 5 = some db' ∧
      updateNvTrace (feeChain 0).referralFuel 2000000000 1 0 5 [] (feeChain 0) =
      some (db', visits) ∧ db'.leaderRewards = [(5, 20000000)] ∧
      sumOf (granted visits) ≤ cutFee 2000000000 (largest (visits.map LeaderVisit.after)) := by
  have hsolid : (feeChain 0).Solid :=
    solid_of_entries (by decide +kernel) (by decide +kernel) (by decide +kernel)
  have htree : (feeChain 0).Tree :=
    ⟨by decide +kernel, by decide +kernel, referralRooted_of_lt (by decide +kernel)⟩
  obtain ⟨htotal, hbound⟩ :=
    leader_bonus_capped (feeChain 0) 5 (show (0 : Int) ≤ 2000000000 by decide)
  obtain ⟨db', h⟩ := isSome_iff_exists.1 (htotal hsolid htree (by decide +kernel))
  obtain ⟨visits, htrace, -, -, hsum, -⟩ := hbound db' h
  have hrewards : ((feeChain 0).updateNvFrom 2000000000 5).any
      (fun db' => db'.leaderRewards = [(5, 20000000)]) = true := by decide +kernel
  rw [h, any_some, decide_eq_true_eq] at hrewards
  exact ⟨db', visits, h, htrace, hrewards, hsum⟩

end Database

end CrowdwizChain
