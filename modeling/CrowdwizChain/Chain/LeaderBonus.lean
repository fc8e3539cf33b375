import CrowdwizChain.Chain.Cashback

/-!
# The leader bonus

`account_statistics_object::update_nv`: a volume is entered into the network volume of an account
and of the rewardable referrers above it. On the way up, an account whose network volume has reached
a threshold gets a share of the volume, less the share that was already handed out below it.

The shares are credited, as cashback or (from block 24940000 on) to the null account, and nothing
pays for them: the journal has an entry for each, and apart from these entries the walk changes
nothing of what `imbalance` adds up.
-/

namespace CrowdwizChain

open Option

/-- The nested conditions of `update_nv` on the levels, from the highest to the lowest: the first
one whose threshold is reached and whose reward exceeds what was handed out. The share of the
volume, and the reward handed out from there on. -/
def ChainParameters.leaderCut (p : ChainParameters) (volume nv : Int) (maxRewardLevel : Nat) :
    Int × Nat :=
  match (p.nvLevelThreshold.zip p.nvLevelReward).reverse.find?
      fun level => level.1 ≤ nv ∧ maxRewardLevel < level.2 with
  | some level => (cutFee volume (level.2 - maxRewardLevel), level.2)
  | none => (0, maxRewardLevel)

namespace Database

/-- The first part of `update_nv`: the volume is entered. The new network volume is given back. -/
def enterNv (db : Database) (volume : Int) (a : AccountId) (account : Account) :
    Option (Database × Int) :=
  (db.statistics.lookup a).bind fun s =>
    (db.getNv s).bind fun currentNv =>
      let nv := if db.parameters.minNvStatus ≤ db.activeStatus account then currentNv + volume
        else currentNv
      (db.modifyStatistics a fun s =>
        { s with networkVolumeInPeriod := nv, lastNvUpdateDate := db.headBlockTime }).map (·, nv)

/-- The second part of `update_nv`: the share of the account and the reward handed out so far. -/
def leaderShare (db : Database) (volume nv : Int) (maxRewardLevel : Nat) (a : AccountId)
    (account : Account) (accountsSet : List AccountId) : Int × Nat :=
  if db.parameters.minNvStatus ≤ db.activeStatus account ∧
      db.parameters.nvLevelThreshold.headD 0 ≤ nv ∧
      (db.headBlockNum < hardforkCore1480BlockNum ∨ a ∉ accountsSet) then
    db.parameters.leaderCut volume nv maxRewardLevel
  else (0, maxRewardLevel)

/-- The third part of `update_nv`: the share is credited. -/
def grantShare (db : Database) (a : AccountId) (rewardCut : Int) : Option Database :=
  if 0 < rewardCut then
    (if db.headBlockNum < hardforkCore1480BlockNum then
      db.depositCashback a rewardCut false true
    else db.adjustBalance grapheneNullAccount (.core rewardCut)).map
      (·.log (.leaderReward a rewardCut))
  else some db

/-- `account_statistics_object::update_nv` -/
def updateNv : Nat → Int → Nat → Nat → AccountId → List AccountId → Database → Option Database
  | 0, _, _, _, _, _, _ => none
  | n + 1, volume, level, maxRewardLevel, a, accountsSet, db =>
    (db.accounts.find a).bind fun account =>
      (db.enterNv volume a account).bind fun (db, nv) =>
        let (rewardCut, maxRewardLevel) :=
          db.leaderShare volume nv maxRewardLevel a account accountsSet
        (db.grantShare a rewardCut).bind fun db =>
          let accountsSet := if 0 < rewardCut then a :: accountsSet else accountsSet
          let level := (level + 1) % 256
          if level ≤ db.parameters.nvLevels ∧ db.parameters.rootAccount < a then
            (db.nextRewardable a).bind fun ref =>
              updateNv n volume level maxRewardLevel ref accountsSet db
          else some db

/-- The call of `update_nv` for a whole chain of referrers. -/
def updateNvFrom (db : Database) (volume : Int) (a : AccountId) : Option Database :=
  updateNv db.referralFuel volume 1 0 a [] db

/-! ### The ledger of the walk -/

variable {db db' : Database} {a : AccountId} {volume : Int}

theorem enterNv_eq_some {nv : Int} {account : Account}
    (h : db.enterNv volume a account = some (db', nv)) :
    ∃ s, db.statistics.lookup a = some s ∧ db.modifyStatistics a (fun s =>
      { s with networkVolumeInPeriod := nv, lastNvUpdateDate := db.headBlockTime }) = some db' := by
  obtain ⟨s, hs, h⟩ := bind_eq_some_iff.1 h
  obtain ⟨currentNv, -, h⟩ := bind_eq_some_iff.1 h
  obtain ⟨db1, h1, heq⟩ := map_eq_some_iff.1 h
  cases heq
  exact ⟨s, hs, h1⟩

theorem rewardFrame_grantShare {rewardCut : Int} (h : db.grantShare a rewardCut = some db') :
    db.RewardFrame db' := by
  rw [grantShare] at h
  split at h
  · obtain ⟨db1, h1, rfl⟩ := map_eq_some_iff.1 h
    refine RewardFrame.trans ?_ (rewardFrame_log db1 rfl)
    split at h1
    · exact (depositCashback_steps h1).rewardFrame
    · exact rewardFrame_adjustBalance h1
  · cases h
    exact RewardFrame.refl db

/-- The share is not paid for, and the journal says so. -/
theorem imbalance_grantShare {rewardCut : Int} (h : db.grantShare a rewardCut = some db') :
    db'.imbalance = db.imbalance := by
  rw [grantShare] at h
  split at h
  · obtain ⟨db1, h1, rfl⟩ := map_eq_some_iff.1 h
    have himb : db1.imbalance = db.imbalance + rewardCut := by
      split at h1
      · exact imbalance_depositCashback h1
      · rw [imbalance_adjustBalance h1, Asset.coreAmount_core]
    rw [imbalance_log, himb, JournalEntry.minted]
    omega
  · cases h
    rfl

/-- What one round of the walk does before it goes on to the next referrer. -/
theorem updateNv_succ_eq_some {n : Nat} {level maxRewardLevel : Nat} {accountsSet : List AccountId}
    (h : updateNv (n + 1) volume level maxRewardLevel a accountsSet db = some db') :
    ∃ db2, db.RewardFrame db2 ∧ db2.imbalance = db.imbalance ∧
      (db' = db2 ∨ ∃ level' maxRewardLevel' ref accountsSet',
        updateNv n volume level' maxRewardLevel' ref accountsSet' db2 = some db') := by
  obtain ⟨account, -, h⟩ := bind_eq_some_iff.1 h
  obtain ⟨⟨db1, nv⟩, h1, h⟩ := bind_eq_some_iff.1 h
  obtain ⟨db2, h2, h⟩ := bind_eq_some_iff.1 h
  obtain ⟨s, hs, henter⟩ := enterNv_eq_some h1
  refine ⟨db2, ?_, ?_, ?_⟩
  · exact (rewardFrame_modifyStatistics henter fun _ => ⟨rfl, rfl⟩).trans
      (rewardFrame_grantShare h2)
  · rw [imbalance_grantShare h2, imbalance_modifyStatistics hs henter]
    simp [AccountStatistics.held]
  · by_cases hgo : (level + 1) % 256 ≤ db2.parameters.nvLevels ∧ db2.parameters.rootAccount < a
    · rw [if_pos hgo] at h
      obtain ⟨ref, -, h⟩ := bind_eq_some_iff.1 h
      exact .inr ⟨_, _, ref, _, h⟩
    · rw [if_neg hgo] at h
      exact .inl (some.inj h).symm

/-- **The ledger of the walk**: apart from the shares in the journal, nothing is added or lost. -/
theorem updateNv_ledger {n : Nat} {level maxRewardLevel : Nat} {accountsSet : List AccountId}
    (h : updateNv n volume level maxRewardLevel a accountsSet db = some db') :
    db.RewardFrame db' ∧ db'.imbalance = db.imbalance := by
  induction n generalizing level maxRewardLevel a accountsSet db with
  | zero => cases h
  | succ n ih =>
    obtain ⟨db2, hframe, himb, rfl | ⟨level', max', ref, set', h'⟩⟩ := updateNv_succ_eq_some h
    · exact ⟨hframe, himb⟩
    · obtain ⟨hframe', himb'⟩ := ih h'
      exact ⟨hframe.trans hframe', himb'.trans himb⟩

end Database

end CrowdwizChain
