import CrowdwizChain.Chain.Types

/-!
# The parameters that the committee sets

`chain_parameters`, `gamezone_chain_parameters`, `staking_chain_parameters` and
`greatrace_chain_parameters`, with their defaults. The committee can set the first three; nothing in
the source changes the last ones.
Numbered families of parameters (`ref_01_percent_of_fee` … `ref_08_percent_of_fee`) are lists in the
order of their numbers. Parameters that no modelled function reads are left out.
-/

namespace CrowdwizChain

/-- `chain_parameters`. -/
structure ChainParameters where
  blockInterval : Nat := 5
  maintenanceInterval : Nat := 3600
  maintenanceSkipSlots : Nat := 3
  committeeProposalReviewPeriod : Nat := 3600
  maximumTransactionSize : Nat := 2048
  maximumBlockSize : Nat := 2000000
  maximumTimeUntilExpiration : Nat := 86400
  maximumProposalLifetime : Nat := 7200
  reservePercentOfFee : Nat := 2000
  networkPercentOfFee : Nat := 2000
  lifetimeReferrerPercentOfFee : Nat := 3000
  cashbackVestingPeriodSeconds : Nat := 31536000
  witnessPayPerBlock : Int := 10 * grapheneBlockchainPrecision
  workerBudgetPerDay : Int := 500000 * grapheneBlockchainPrecision
  /-- `basic_fee` of `account_create_operation`, in `current_fees` -/
  accountCreateBasicFee : Nat := 500000
  accountsPerFeeScale : Nat := 1000
  accountFeeScaleBitshifts : Nat := 4
  /-- `ref_01_percent_of_fee` … `ref_08_percent_of_fee` -/
  refPercentOfFee : List Nat := [2000, 1000, 600, 400, 300, 200, 200, 300]
  /-- `status_levels_00` … `status_levels_04` -/
  statusLevels : List Nat := [0, 3, 5, 7, 8]
  denominator : Bool := true
  /-- `status_denominator_00` … `status_denominator_04` -/
  statusDenominator : List Nat := [0, 7000, 8000, 9000, 10000]
  denominatorBonusLevel : Nat := 4
  nvLevels : Nat := 30
  minNvStatus : Nat := 3
  compressionLevels : Nat := 30
  compression : Bool := true
  cashback : Bool := true
  /-- `alllow_non_partner_register` -/
  allowNonPartnerRegister : Bool := true
  minNotCompressed : Nat := 3
  compressionLimit : Int := 0
  referralStatisticSeconds : Nat := 7776000
  rootAccount : AccountId := 27
  /-- `nv_level_threshold_01` … `nv_level_threshold_08` -/
  nvLevelThreshold : List Int :=
    [15000, 35000, 100000, 250000, 450000, 700000, 1500000, 3000000].map
      (grapheneBlockchainPrecision * ·)
  /-- `nv_level_reward_01` … `nv_level_reward_08` -/
  nvLevelReward : List Nat := [100, 200, 300, 400, 500, 600, 700, 800]
  /-- `status_threshold_01` … `status_threshold_04` -/
  statusThreshold : List Int := [3000, 2000, 1000, 0].map (grapheneBlockchainPrecision * ·)

/-- The price, the prize and the number of cells of one level of a matrix. -/
structure MatrixLevel where
  price : Int
  prize : Int
  cells : Nat

/-- A level whose prices are given in whole coins. -/
def MatrixLevel.ofCoins (price prize : Int) (cells : Nat) : MatrixLevel :=
  ⟨grapheneBlockchainPrecision * price, grapheneBlockchainPrecision * prize, cells⟩

/-- `gamezone_chain_parameters`. -/
structure GamezoneParameters where
  matrixLastsBlocks : Nat := 177
  matrixIdleBlocks : Nat := 16671
  /-- the eight levels, from level one on -/
  matrixLevels : List MatrixLevel :=
    [.ofCoins 9 18 2, .ofCoins 16 32 2, .ofCoins 29 58 2, .ofCoins 52 104 2,
     .ofCoins 94 188 2, .ofCoins 170 340 2, .ofCoins 309 618 2, .ofCoins 555 1110 2]
  lotteryGoodsTotalParticipants : Nat := 5000
  lotteryGoodsExpiration : Nat := 2592000
  flipcoinMinBetAmount : Int := 1000

/-- `staking_chain_parameters`. -/
structure StakingParameters where
  /-- `poc_ref_01` … `poc_ref_08` -/
  pocRef : List Nat := [500, 200, 100, 100, 100, 100, 100, 100]
  pocGcwd : Nat := 500
  /-- `poc_status_levels_00` … `poc_status_levels_04` -/
  pocStatusLevels : List Nat := [1, 3, 5, 7, 8]
  /-- `poc_status_denominator_00` … `poc_status_denominator_04` -/
  pocStatusDenominator : List Nat := [2000, 8000, 10000, 10000, 10000]
  pocVoteDuration : Nat := 86400
  pocVoteIntervalDays : Nat := 90
  pocMinVotes : Nat := 160
  pocFilterPercent : Nat := 1000
  poc3MinAmount : Int := grapheneBlockchainPrecision * 250
  poc6MinAmount : Int := grapheneBlockchainPrecision * 250
  poc12MinAmount : Int := grapheneBlockchainPrecision * 1000

/-- `greatrace_chain_parameters`. -/
structure GreatraceParameters where
  voteDuration : Nat := 24 * 60 * 60
  minTeamStatus : Nat := 4
  minTeamVolume : Int := 0
  minGrBet : Int := grapheneBlockchainPrecision * 5
  minVoteLastRank : Nat := 7
  /-- `interval_1` … `interval_14`, in days -/
  intervals : List Nat := [7, 21, 7, 21, 7, 21, 7, 7, 21, 7, 21, 7, 21, 7]
  apostolosReward : Nat := graphene1Percent
deriving DecidableEq

/-- The days of an interval of the race. -/
def GreatraceParameters.interval (p : GreatraceParameters) (n : Nat) : Nat :=
  p.intervals.getD (n - 1) 0

end CrowdwizChain
