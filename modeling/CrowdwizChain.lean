import CrowdwizChain.Chain.AccountFee
import CrowdwizChain.Chain.AccountName
import CrowdwizChain.Chain.BlockDatabase
import CrowdwizChain.Chain.BlockSummary
import CrowdwizChain.Chain.ApprovedTransferSettle
import CrowdwizChain.Chain.AuthoritySound
import CrowdwizChain.Chain.Budget
import CrowdwizChain.Chain.Conservation
import CrowdwizChain.Chain.CreditLedger
import CrowdwizChain.Chain.FlipcoinFairness
import CrowdwizChain.Chain.GoldDividend
import CrowdwizChain.Chain.LeaderCap
import CrowdwizChain.Chain.LotteryLife
import CrowdwizChain.Chain.MaintenanceWalk
import CrowdwizChain.Chain.MatrixPool
import CrowdwizChain.Chain.P2pDeadline
import CrowdwizChain.Chain.PledgeLife
import CrowdwizChain.Chain.PocTally
import CrowdwizChain.Chain.RaceVote
import CrowdwizChain.Chain.SettlementFund
import CrowdwizChain.Chain.StakingSupply
import CrowdwizChain.Chain.StatusContract
import CrowdwizChain.Chain.StatusSweep
import CrowdwizChain.Chain.TransactionHistory
import CrowdwizChain.Chain.Vesting
import CrowdwizChain.Chain.WitnessSchedule
import CrowdwizChain.Db.UndoSession
