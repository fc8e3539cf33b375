import CrowdwizChain.Chain.Holdings

/-!
# Volumes and the referral chain

The first part of `account_object.cpp`: the personal and the network volume of an account, which
decay linearly over the statistic period, and `next_rewardable`, which climbs from an account to
the next referrer that is to be rewarded and passes over ("compresses") the inactive ones.

A volume is decayed by `volume * seconds / referral_statistic_seconds`, all in `uint64_t`: the
product wraps, and the division is by a parameter of the committee. The loop of `next_rewardable`
counts its rounds in a `uint8_t`. It has fuel for every account and every value of the counter, so
that it runs out only where the loop of the source does not end.
-/

namespace CrowdwizChain

namespace Database

/-! ### Volumes -/

/-- `decrease_vol` of `get_pv` and `get_nv`; the division by zero of the source is `none`. -/
def decreaseVol (db : Database) (volume : Int) (lastUpdate : Nat) : Option Int :=
  let seconds := toUInt64 ((db.headBlockTime : Int) - lastUpdate)
  if db.parameters.referralStatisticSeconds = 0 then none
  else some
    (toInt64 ((toUInt64 volume * seconds % 2 ^ 64 / db.parameters.referralStatisticSeconds : Nat)))

/-- `get_pv` and `get_nv`, for a volume and the date of its last update. -/
def decayed (db : Database) (volume : Int) (lastUpdate : Nat) : Option Int :=
  (db.decreaseVol volume lastUpdate).map fun decrease =>
    if decrease < volume ∧ lastUpdate ≠ 0 then volume - decrease else 0

/-- `account_statistics_object::get_pv` -/
def getPv (db : Database) (s : AccountStatistics) : Option Int :=
  db.decayed s.personalVolumeInPeriod s.lastPvUpdateDate

/-- `account_statistics_object::get_nv` -/
def getNv (db : Database) (s : AccountStatistics) : Option Int :=
  db.decayed s.networkVolumeInPeriod s.lastNvUpdateDate

/-- `active_referral_status` at the time of the head block. -/
def activeStatus (db : Database) (a : Account) : Nat := a.activeReferralStatus db.headBlockTime

/-- `account_statistics_object::update_pv`, for the statistics of an account. -/
def updatePv (db : Database) (volume : Int) (a : AccountId) : Option Database :=
  (db.accounts.find a).bind fun account =>
    (db.statistics.lookup a).bind fun s =>
      (db.getPv s).bind fun currentPv =>
        db.modifyStatistics a fun s =>
          { s with
            personalVolumeInPeriod :=
              if 0 < db.activeStatus account then currentPv + volume else currentPv
            lastPvUpdateDate := db.headBlockTime }

/-! ### The next account to be rewarded -/

/-- The condition of the loop of `next_rewardable`: the referrer is passed over. The volume is only
looked at for an active account. -/
def compressed (db : Database) (ref : AccountId) (account : Account) (currentCompression : Nat) :
    Option Bool :=
  if currentCompression ≤ db.parameters.compressionLevels ∧ db.parameters.rootAccount < ref then
    if db.activeStatus account = 0 then some true
    else (db.statistics.lookup ref).bind fun s =>
      (db.getPv s).map fun pv =>
        pv ≤ db.parameters.compressionLimit ∧
          db.activeStatus account < db.parameters.minNotCompressed
  else some false

/-- The loop of `next_rewardable`, from the account whose referrer comes next. -/
def climb (db : Database) : Nat → Nat → AccountId → Option AccountId
  | 0, _, _ => none
  | n + 1, currentCompression, a =>
    (db.accounts.find a).bind fun account =>
      (db.accounts.find account.referrer).bind fun referrer =>
        let count := (currentCompression + 1) % 256
        (db.compressed account.referrer referrer count).bind fun again =>
          if again then climb db n count account.referrer else some account.referrer

/-- The rounds that loops along the referral chain get. -/
def referralFuel (db : Database) : Nat := db.accounts.nextId + 256

/-- `next_rewardable` -/
def nextRewardable (db : Database) (a : AccountId) : Option AccountId :=
  if a ≤ db.parameters.rootAccount then some db.parameters.rootAccount
  else if db.parameters.compression then
    (db.climb db.referralFuel 0 a).map fun ref => max ref db.parameters.rootAccount
  else (db.accounts.find a).map Account.referrer

/-! ### What they change -/

variable {db db' : Database} {volume : Int} {a : AccountId}

variable (h : db.updatePv volume a = some db')

include h

theorem updatePv_eq_some : ∃ s pv, db.statistics.lookup a = some s ∧ db.modifyStatistics a (fun s =>
      { s with personalVolumeInPeriod := pv, lastPvUpdateDate := db.headBlockTime }) =
        some db' := by
  obtain ⟨account, -, h⟩ := Option.bind_eq_some_iff.1 h
  obtain ⟨s, hs, h⟩ := Option.bind_eq_some_iff.1 h
  obtain ⟨pv, -, h⟩ := Option.bind_eq_some_iff.1 h
  exact ⟨s, _, hs, h⟩

theorem rewardFrame_updatePv : db.RewardFrame db' := by
  obtain ⟨s, pv, -, h⟩ := updatePv_eq_some h
  exact rewardFrame_modifyStatistics h fun _ => ⟨rfl, rfl⟩

theorem imbalance_updatePv : db'.imbalance = db.imbalance := by
  obtain ⟨s, pv, hs, h⟩ := updatePv_eq_some h
  rw [imbalance_modifyStatistics hs h]
  simp [AccountStatistics.held]

end Database

end CrowdwizChain
