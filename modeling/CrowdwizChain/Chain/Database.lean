import CrowdwizChain.Chain.Parameters
import CrowdwizChain.Lib.OrderedTable
import CrowdwizChain.Lib.Run

/-!
# The chain database

The objects of `libraries/chain` that the modelled functions read and write, and the database that
holds them. The id of an object is the number of its row. Tables that an end-of-block sweep walks
in the order of their expiration while rewriting it are `OrderedTable`s, the others are `Table`s.
Statistics and balances are found by their owner in the source; they are keyed by it here. The
dynamic data of an asset is kept with the asset.

Fields that no modelled function reads (names, urls, memos, keys) are left out.
-/

namespace CrowdwizChain

/-! ### Objects -/

/-- `account_object`. -/
structure Account where
  /-- the characters of the name -/
  name : List Char := []
  referrer : AccountId
  referralLevels : Nat := 0
  referralStatusType : Nat := 0
  referralStatusPaidFee : Int := 0
  referralStatusExpirationDate : Nat := 0
  statusDenominator : Nat := 0
  isLifetimeMember : Bool := false
  whitelistedAccounts : List AccountId := []
  cashbackVb : Option Nat := none
  grTeam : Option Nat := none
  apostolos : Bool := false
  lastGrRank : Nat := 0

/-- `account_object::active_referral_status` -/
def Account.activeReferralStatus (a : Account) (now : Nat) : Nat :=
  if now ≤ a.referralStatusExpirationDate then a.referralStatusType else 0

/-- `account_statistics_object`. -/
structure AccountStatistics where
  totalCoreInOrders : Int := 0
  coreInBalance : Int := 0
  hasCashbackVb : Bool := false
  isVoting : Bool := false
  lifetimeFeesPaid : Int := 0
  pendingFees : Int := 0
  pendingVestedFees : Int := 0
  personalVolumeInPeriod : Int := 0
  networkVolumeInPeriod : Int := 0
  lastPvUpdateDate : Nat := 0
  lastNvUpdateDate : Nat := 0
  matrix : Nat := 0
  matrixActiveLevels : Nat := 1
  matrixCellsOpened : Nat := 0
  matrixRoomsOpened : Nat := 0
  lotteryGoodsRating : Nat := 0
  p2pCompleteDeals : Nat := 0
  p2pCanceledDeals : Nat := 0
  p2pArbitrageLoose : Nat := 0
  p2pDealsVolume : Int := 0
  p2pBanned : Nat := 0
  p2pGatewayActive : Bool := true
  p2pCurrentMonthRating : Nat := 0
  firstMonthIncome : Int := 0
  secondMonthIncome : Int := 0
  thirdMonthIncome : Int := 0
  currentMonthIncome : Int := 0
  currentPeriodGr : Int := 0
  lastPeriodGr : Int := 0
  totalCredit : Int := 0
  allowedToRepay : Int := 0
  creditRepaid : Int := 0
  creditor : AccountId := 0
  poc3Vote : Int := 0
  poc6Vote : Int := 0
  poc12Vote : Int := 0
  hadStaking : Bool := false

/-- `account_statistics_object::pay_fee`: the vesting threshold is no longer looked at. -/
def AccountStatistics.payFee (s : AccountStatistics) (coreFee : Int) : AccountStatistics :=
  { s with pendingVestedFees := s.pendingVestedFees + coreFee }

/-- `account_balance_object`, without the owner and the asset that it is found by. -/
structure AccountBalance where
  balance : Int
  maintenanceFlag : Bool := false

/-- All `account_balance_object`s, by owner and asset. -/
abbrev Balances := AList (fun _ : AccountId × AssetId => AccountBalance)

/-- A `price`, the ratio of two amounts. -/
structure Price where
  base : Asset
  quote : Asset
deriving DecidableEq

/-- `asset_object` and its `asset_dynamic_data_object`. -/
structure AssetObject where
  symbol : String
  coreExchangeRate : Price
  /-- `options.max_supply` -/
  maxSupply : Int := grapheneMaxShareSupply
  currentSupply : Int := 0
  accumulatedFees : Int := 0
  feePool : Int := 0

/-- `linear_vesting_policy` -/
structure LinearVestingPolicy where
  beginTimestamp : Nat
  vestingCliffSeconds : Nat := 0
  vestingDurationSeconds : Nat := 0
  beginBalance : Int

/-- `cdd_vesting_policy`, the policy by coin days destroyed. -/
structure CddVestingPolicy where
  vestingSeconds : Nat
  coinSecondsEarned : Nat
  startClaim : Nat := 0
  coinSecondsEarnedLastUpdate : Nat

/-- `vesting_policy` -/
inductive VestingPolicy
  | linear (policy : LinearVestingPolicy)
  | cdd (policy : CddVestingPolicy)

/-- `vesting_balance_object`. -/
structure VestingBalance where
  owner : AccountId
  balance : Asset
  policy : VestingPolicy

/-- `gr_team_object`; the volumes of the race are by interval. -/
structure GrTeam where
  name : List Char := []
  description : List Char := []
  logo : List Char := []
  captain : AccountId
  players : List AccountId := []
  grIntervalVolume : Nat → Int := fun _ => 0
  firstHalfVolume : Int := 0
  secondHalfVolume : Int := 0
  totalVolume : Int := 0
  lastGrRank : Nat := 0

/-- `gr_invite_object`. -/
structure GrInvite where
  captain : AccountId
  player : AccountId
  team : Nat

/-- The ranks of the race, each with a volume that has to be reached (but for the elite, which is
the best of the masters) and a reward. -/
inductive GrRank
  | iron | bronze | silver | gold | platinum | diamond | master | elite
deriving DecidableEq

/-- `gr_votes_object`: `gr_iron_volume`, `gr_iron_reward` and so on. -/
structure GrVotes where
  player : AccountId
  volume : GrRank → Int
  reward : GrRank → Int

/-- The stakes of some bettors on one side of a bet, `map<account_id_type, share_type>`. -/
abbrev Stakes := AList (fun _ : AccountId => Int)

/-- `gr_range_bet_object`. -/
structure GrRangeBet where
  team : Nat
  lowerRank : Nat
  upperRank : Nat
  totalPrize : Int := 0
  totalTrueBets : Int := 0
  totalFalseBets : Int := 0
  trueBets : Stakes := ∅
  falseBets : Stakes := ∅
deriving DecidableEq

/-- `gr_team_bet_object`. -/
structure GrTeamBet where
  team1 : Nat
  team2 : Nat
  totalPrize : Int := 0
  totalTeam1Bets : Int := 0
  totalTeam2Bets : Int := 0
  team1Bets : Stakes := ∅
  team2Bets : Stakes := ∅
deriving DecidableEq

/-- `flipcoin_object`. -/
structure Flipcoin where
  bettor : AccountId
  caller : Option AccountId := none
  bet : Asset
  nonce : Nat
  expiration : Nat
  /-- 0 = active, 1 = filled, 2 = flipped -/
  status : Nat

/-- `matrix_object`. -/
structure Matrix where
  startBlockNumber : Nat
  finishBlockNumber : Nat
  status : Nat := 0
  amount : Int := 0
  totalAmount : Int := 0
  last120kAmount : Int := 0
  levels : List MatrixLevel

/-- `matrix_rooms_object`. -/
structure MatrixRoom where
  matrix : Nat
  matrixPlayer : AccountId
  matrixLevel : Nat
  totalCells : Nat
  /-- 0 = cells closed, 1 = cells opened, 2 = closed -/
  status : Nat
  cells : List AccountId := []

/-- `p2p_adv_object`. -/
structure P2pAdv where
  p2pGateway : AccountId
  advType : Bool
  maxCwd : Int
  minCwd : Int
  price : Int
  blackList : List AccountId := []
  status : Nat := 1
  minP2pCompleteDeals : Nat := 0
  minAccountStatus : Nat := 0
  timelimitForApprove : Nat := 3600
  timelimitForReply : Nat := 3600

/-- `p2p_order_object`. -/
structure P2pOrder where
  p2pAdv : Nat
  orderType : Bool
  amount : Asset
  price : Int
  p2pGateway : AccountId
  p2pClient : AccountId
  status : Nat
  timeForApprove : Nat
  timeForReply : Nat
  arbitrageInitiator : Option AccountId := none
deriving DecidableEq

/-- `credit_offer_object`. -/
structure CreditOffer where
  creditor : AccountId
  minIncome : Int
  creditAmount : Asset
  repayAmount : Asset

/-- `pledge_offer_object`. -/
structure PledgeOffer where
  creator : AccountId
  debitor : AccountId := 0
  creditor : AccountId := 0
  pledgeAmount : Asset
  creditAmount : Asset
  repayAmount : Asset
  pledgeDays : Nat
  expiration : Nat := 0
  /-- 0 = active, 1 = filled, 8 = marked for removal -/
  status : Nat := 0
deriving DecidableEq

/-- `approved_transfer_object`. -/
structure ApprovedTransfer where
  fromAccount : AccountId
  toAccount : AccountId
  arbitr : AccountId
  amount : Asset
  expiration : Nat
  /-- 0 = open, 1 = disputed, 2 = marked for removal -/
  status : Nat := 0

/-! ### The database -/

/-- The time at which the first race starts. -/
def grStartTime : Nat := 1623088800

/-- The volumes of the ranks of the race, until a vote changes them. -/
def GrRank.defaultVolume : GrRank → Int
  | .iron => grapheneBlockchainPrecision * 4500
  | .bronze => grapheneBlockchainPrecision * 9000
  | .silver => grapheneBlockchainPrecision * 27000
  | .gold => grapheneBlockchainPrecision * 50000
  | .platinum => grapheneBlockchainPrecision * 90000
  | .diamond => grapheneBlockchainPrecision * 125000
  | .master => grapheneBlockchainPrecision * 250000
  | .elite => 0

/-- The rewards of the ranks of the race, until a vote changes them. -/
def GrRank.defaultReward : GrRank → Int
  | .iron => grapheneBlockchainPrecision * 2000
  | .bronze => grapheneBlockchainPrecision * 4000
  | .silver => grapheneBlockchainPrecision * 12000
  | .gold => grapheneBlockchainPrecision * 30000
  | .platinum => grapheneBlockchainPrecision * 60000
  | .diamond => grapheneBlockchainPrecision * 100000
  | .master => grapheneBlockchainPrecision * 250000
  | .elite => grapheneBlockchainPrecision * 250000

/-- What an observer writes down while blocks and operations are applied: some of the virtual
operations that the code pushes, and some of the lines of its reward log. -/
inductive JournalEntry
  /-- a line of `update_nv`: an account got a leader's reward -/
  | leaderReward (account : AccountId) (amount : Int)
  /-- a line of `pay_out_fees`: an account of the given level got the reward, and the amount was
  burned or taken out of the supply, out of a cut of the fee -/
  | linearReward (account : AccountId) (level : Nat) (cut reward burned : Int)
  /-- `credit_total_repay_operation`, and what had been repaid of the credit before -/
  | creditTotalRepay (debitor creditor : AccountId) (repayAmount creditRepaid : Int)
  /-- `flipcoin_cancel_operation` -/
  | flipcoinCancel (flipcoin : Nat) (bettor : AccountId) (bet : Asset)
  /-- `flipcoin_win_operation` -/
  | flipcoinWin (flipcoin : Nat) (winner : AccountId) (payout referralPayout : Asset)
  /-- `flipcoin_loose_operation` -/
  | flipcoinLoose (flipcoin : Nat) (looser : AccountId) (bet : Asset)
  /-- `matrix_room_closed_operation` -/
  | matrixRoomClosed (player : AccountId) (matrixRoom matrixLevel : Nat) (levelReward : Int)

/-- The state that blocks and operations change. -/
structure Database where
  headBlockNum : Nat
  headBlockTime : Nat
  /-- the hexadecimal digits of the id of the head block -/
  headBlockId : List Nat
  parameters : ChainParameters
  gamezoneParameters : GamezoneParameters
  stakingParameters : StakingParameters
  greatraceParameters : GreatraceParameters := {}
  /-- parameters of the chain that the next maintenance puts into force -/
  pendingParameters : Option ChainParameters := none
  /-- `current_gr_interval` of the dynamic global properties -/
  currentGrInterval : Nat
  nextGrIntervalTime : Nat := grStartTime
  grBetIntervalTime : Nat := grStartTime
  endGrVoteTime : Nat := 0
  grVoteIsActive : Bool := false
  grVolume : GrRank → Int := GrRank.defaultVolume
  grReward : GrRank → Int := GrRank.defaultReward
  grTop3Reward : Int := grapheneBlockchainPrecision * 10000
  accountsRegisteredThisInterval : Nat := 0
  nextPocVoteTime : Nat := 1601078400
  endPocVoteTime : Nat := 0
  pocVoteIsActive : Bool := false
  poc3Percent : Nat := 45 * graphene1Percent
  poc6Percent : Nat := 78 * graphene1Percent
  poc12Percent : Nat := 97 * graphene1Percent
  gcwdPrice : Int := grapheneBlockchainPrecision * 13000
  accounts : Table Account
  statistics : AList (fun _ : AccountId => AccountStatistics)
  balances : Balances
  assets : Table AssetObject
  vestingBalances : Table VestingBalance
  grTeams : Table GrTeam
  grInvites : Table GrInvite := .empty
  grVotes : Table GrVotes := .empty
  grRangeBets : Table GrRangeBet := .empty
  grTeamBets : Table GrTeamBet := .empty
  flipcoins : Table Flipcoin
  matrices : Table Matrix
  matrixRooms : Table MatrixRoom
  p2pAdvs : Table P2pAdv
  p2pOrders : Table P2pOrder
  creditOffers : Table CreditOffer
  pledgeOffers : OrderedTable PledgeOffer.expiration
  approvedTransfers : OrderedTable ApprovedTransfer.expiration
  /-- the notes of an observer, newest first; nothing reads them -/
  journal : List JournalEntry

namespace Database

/-- `modify` on the statistics of an account, which must exist. -/
def modifyStatistics (db : Database) (a : AccountId)
    (f : AccountStatistics → AccountStatistics) : Option Database :=
  (db.statistics.lookup a).map fun _ => { db with statistics := db.statistics.modify a f }

/-- `modify` on the dynamic data of the core asset, which must exist. -/
def modifyCore (db : Database) (f : AssetObject → AssetObject) : Option Database :=
  (db.assets.find 0).map fun _ => { db with assets := db.assets.modify 0 f }

/-- A new entry of the journal. -/
def log (db : Database) (e : JournalEntry) : Database := { db with journal := e :: db.journal }

theorem modifyStatistics_eq_some {db db' : Database} {a : AccountId}
    {f : AccountStatistics → AccountStatistics} (h : db.modifyStatistics a f = some db') :
    ∃ s, db.statistics.lookup a = some s ∧
    db' = { db with statistics := db.statistics.modify a f } := by
  obtain ⟨s, hs, rfl⟩ := Option.map_eq_some_iff.1 h
  exact ⟨s, hs, rfl⟩

theorem modifyCore_eq_some {db db' : Database} {f : AssetObject → AssetObject}
    (h : db.modifyCore f = some db') :
    ∃ c, db.assets.find 0 = some c ∧ db' = { db with assets := db.assets.modify 0 f } := by
  obtain ⟨c, hc, rfl⟩ := Option.map_eq_some_iff.1 h
  exact ⟨c, hc, rfl⟩

/-- A chain with the given accounts, each with empty statistics and the same amount of the core
asset, and nothing else. -/
def start (time : Nat) (accounts : List Account) (amount : Int) : Database where
  headBlockNum := 0
  headBlockTime := time
  headBlockId := []
  parameters := {}
  gamezoneParameters := {}
  stakingParameters := {}
  currentGrInterval := 0
  accounts := accounts.foldl Table.create Table.empty
  statistics := (List.range accounts.length).foldl (fun m a => m.insert a {}) ∅
  balances := (List.range accounts.length).foldl (fun m a => m.insert (a, 0) ⟨amount, true⟩) ∅
  assets := Table.empty.create
    { symbol := "CWD"
      coreExchangeRate := ⟨⟨1, 0⟩, ⟨1, 0⟩⟩
      currentSupply := amount * accounts.length }
  vestingBalances := .empty
  grTeams := .empty
  flipcoins := .empty
  matrices := .empty
  matrixRooms := .empty
  p2pAdvs := .empty
  p2pOrders := .empty
  creditOffers := .empty
  pledgeOffers := .empty
  approvedTransfers := .empty
  journal := []

end Database

end CrowdwizChain
