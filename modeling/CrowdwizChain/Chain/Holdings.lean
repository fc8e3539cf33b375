import CrowdwizChain.Chain.Balance

/-!
# Where the core asset is

The core asset of the chain is in balances, in vesting balances, in fees that were paid and not yet
distributed, in income that is withheld for a credit, in escrow of one kind or another, in the fee
pools of other assets and in the accumulated fees. `Database.holdings` adds all of this up.

A step that neither makes nor burns anything changes the holdings by what it changes of the supply.
Where the code does not keep to this, the journal has an entry for it, and `JournalEntry.minted`
says by how much. So there is one quantity that every routine below should leave alone, or change by
exactly the amount that it is handed: `Database.imbalance`, the holdings less the supply less what
the journal says was minted.
-/

namespace CrowdwizChain

/-- The amount, if it is one of the core asset. -/
def Asset.coreAmount (a : Asset) : Int := if a.assetId = 0 then a.amount else 0

@[simp] theorem Asset.coreAmount_core (n : Int) : (Asset.core n).coreAmount = n := rfl

@[simp] theorem Asset.coreAmount_neg (a : Asset) : (-a).coreAmount = -a.coreAmount := by
  unfold coreAmount
  split <;> simp_all

/-- What an account has paid, or earned and not received, on the books of its statistics: pending
fees, and income withheld for a credit that has not been passed on to the creditor. -/
def AccountStatistics.held (s : AccountStatistics) : Int :=
  s.pendingFees + s.pendingVestedFees + (s.allowedToRepay - s.creditRepaid)

/-- What is held for a bet: the stake of the bettor, and once it was called that of the caller. -/
def Flipcoin.stakes (f : Flipcoin) : Int :=
  if f.status = 0 then f.bet.coreAmount else 2 * f.bet.coreAmount

/-- By how much an entry of the journal moves the holdings against the supply. -/
def JournalEntry.minted : JournalEntry → Int
  | .leaderReward _ amount => amount
  | .linearReward _ _ cut reward burned => reward + burned - cut
  | .creditTotalRepay _ creditor _ creditRepaid => if creditor = 0 then creditRepaid else 0
  | .flipcoinCancel _ _ _ => 0
  | .flipcoinWin _ _ payout referralPayout => payout.coreAmount + referralPayout.coreAmount
  | .flipcoinLoose _ _ bet => -(2 * bet.coreAmount)
  | .matrixRoomClosed _ _ _ _ => 0

/-- The entry is about a bet. -/
def JournalEntry.isFlipcoin : JournalEntry → Bool
  | .flipcoinCancel .. | .flipcoinWin .. | .flipcoinLoose .. => true
  | _ => false

namespace Database

/-- The core asset in the escrow of bets, orders, transfers, pledges, matrices and the bets on the
race. -/
def escrow (db : Database) : Int :=
  db.flipcoins.sumBy (fun _ f => f.stakes) +
    db.p2pOrders.sumBy (fun _ o => if 2 ≤ o.status then o.amount.coreAmount else 0) +
    db.approvedTransfers.sumBy (fun _ o => o.amount.coreAmount) +
    db.pledgeOffers.sumBy (fun _ o => if o.status = 1 then o.pledgeAmount.coreAmount else 0) +
    db.matrices.sumBy (fun _ m => if m.status = 0 then m.amount else 0) +
    db.grRangeBets.sumBy (fun _ b => b.totalPrize) + db.grTeamBets.sumBy (fun _ b => b.totalPrize)

/-- The books of all accounts. -/
def held (db : Database) : Int := db.statistics.sumBy fun _ s => s.held

/-- The core asset in vesting balances. -/
def vesting (db : Database) : Int := db.vestingBalances.sumBy fun _ v => v.balance.coreAmount

/-- The core asset that the asset objects hold: accumulated fees of the core asset, and the fee
pools of all assets. -/
def pools (db : Database) : Int :=
  db.assets.sumBy fun id a => (if id = 0 then a.accumulatedFees else 0) + a.feePool

/-- `current_supply` of the core asset. -/
def supply (db : Database) : Int :=
  db.assets.sumBy fun id a => if id = 0 then a.currentSupply else 0

/-- Everything that is somewhere. -/
def holdings (db : Database) : Int :=
  Balances.total db.balances 0 + db.vesting + db.held + db.escrow + db.pools

/-- What the journal says was minted. -/
def minted (db : Database) : Int := (db.journal.map JournalEntry.minted).sum

/-- The holdings that neither the supply nor the journal accounts for. -/
def imbalance (db : Database) : Int := db.holdings - db.supply - db.minted

/-! ### What the bookkeeping leaves alone

Rewards, fees and cashback are entered into balances, vesting balances, statistics, the core asset,
the teams of the race and the vesting balance of an account. `Frame` says what is the same before
and after. -/

/-- Everything but the books of the accounts is unchanged. -/
structure Frame (db db' : Database) : Prop where
  headBlockNum : db'.headBlockNum = db.headBlockNum
  headBlockTime : db'.headBlockTime = db.headBlockTime
  headBlockId : db'.headBlockId = db.headBlockId
  stakingParameters : db'.stakingParameters = db.stakingParameters
  flipcoins : db'.flipcoins = db.flipcoins
  creditOffers : db'.creditOffers = db.creditOffers
  accounts : ∀ a, (db'.accounts.find a).isSome = (db.accounts.find a).isSome
  statistics : ∀ a, (db'.statistics.lookup a).isSome = (db.statistics.lookup a).isSome
  journal : db'.journal.filter JournalEntry.isFlipcoin = db.journal.filter JournalEntry.isFlipcoin

variable {db db' : Database} {a : AccountId} {f : AccountStatistics → AccountStatistics}

theorem Frame.refl (db : Database) : db.Frame db :=
  ⟨rfl, rfl, rfl, rfl, rfl, rfl, fun _ => rfl, fun _ => rfl, rfl⟩

theorem Frame.trans {db'' : Database} (h : db.Frame db') (h' : db'.Frame db'') : db.Frame db'' where
  headBlockNum := h'.headBlockNum.trans h.headBlockNum
  headBlockTime := h'.headBlockTime.trans h.headBlockTime
  headBlockId := h'.headBlockId.trans h.headBlockId
  stakingParameters := h'.stakingParameters.trans h.stakingParameters
  flipcoins := h'.flipcoins.trans h.flipcoins
  creditOffers := h'.creditOffers.trans h.creditOffers
  accounts a := (h'.accounts a).trans (h.accounts a)
  statistics a := (h'.statistics a).trans (h.statistics a)
  journal := h'.journal.trans h.journal

theorem frame_modifyStatistics (h : db.modifyStatistics a f = some db') : db.Frame db' := by
  obtain ⟨s, hs, rfl⟩ := modifyStatistics_eq_some h
  exact { Frame.refl db with statistics := fun a' => AList.isSome_lookup_modify _ a a' f }

/-- The fees that an account has paid and that are not yet distributed. -/
def pending (db : Database) (a : AccountId) : Option (Int × Int) :=
  (db.statistics.lookup a).map fun s => (s.pendingFees, s.pendingVestedFees)

/-- As `Frame`, and the pending fees are unchanged too: so it is for all rewards. -/
structure RewardFrame (db db' : Database) : Prop extends Frame db db' where
  pending : ∀ a, db'.pending a = db.pending a

theorem RewardFrame.refl (db : Database) : db.RewardFrame db := ⟨Frame.refl db, fun _ => rfl⟩

theorem RewardFrame.trans {db'' : Database} (h : db.RewardFrame db') (h' : db'.RewardFrame db'') :
    db.RewardFrame db'' :=
  ⟨h.toFrame.trans h'.toFrame, fun a => (h'.pending a).trans (h.pending a)⟩

theorem rewardFrame_adjustBalance {d : Asset} (h : db.adjustBalance a d = some db') :
    db.RewardFrame db' := by
  obtain ⟨m, -, rfl⟩ := adjustBalance_eq_some h
  exact { RewardFrame.refl db with }

theorem rewardFrame_modifyStatistics (h : db.modifyStatistics a f = some db')
    (hf : ∀ s, (f s).pendingFees = s.pendingFees ∧
      (f s).pendingVestedFees = s.pendingVestedFees) : db.RewardFrame db' := by
  refine ⟨frame_modifyStatistics h, fun a' => ?_⟩
  obtain ⟨s, hs, rfl⟩ := modifyStatistics_eq_some h
  rw [pending, pending, AList.lookup_modify]
  split
  · next heq =>
    subst heq
    simp [hs, hf s]
  · rfl

theorem rewardFrame_modifyCore {f : AssetObject → AssetObject} (h : db.modifyCore f = some db') :
    db.RewardFrame db' := by
  obtain ⟨c, -, rfl⟩ := modifyCore_eq_some h
  exact { RewardFrame.refl db with }

theorem rewardFrame_log (db : Database) {e : JournalEntry} (he : e.isFlipcoin = false) :
    db.RewardFrame (db.log e) := by
  refine { RewardFrame.refl db with journal := ?_ }
  rw [log, List.filter_cons, if_neg (by simp [he])]

/-- The pending fees of no account are negative. -/
def PendingNonneg (db : Database) : Prop :=
  ∀ a fees vested, db.pending a = some (fees, vested) → 0 ≤ fees ∧ 0 ≤ vested

theorem RewardFrame.pendingNonneg (h : db.RewardFrame db') (hdb : db.PendingNonneg) :
    db'.PendingNonneg := by
  intro a fees vested ha
  exact hdb a fees vested ((h.pending a).symm.trans ha)

theorem pendingNonneg_modifyStatistics (hdb : db.PendingNonneg)
    (h : db.modifyStatistics a f = some db')
    (hf : ∀ s, 0 ≤ s.pendingFees → 0 ≤ s.pendingVestedFees →
      0 ≤ (f s).pendingFees ∧ 0 ≤ (f s).pendingVestedFees) : db'.PendingNonneg := by
  obtain ⟨s, hs, rfl⟩ := modifyStatistics_eq_some h
  intro a' fees vested ha'
  rw [pending, AList.lookup_modify] at ha'
  split at ha'
  · next heq =>
    subst heq
    simp only [hs, Option.map_some, Option.some.injEq, Prod.mk.injEq] at ha'
    obtain ⟨hfees, hvested⟩ := hdb a' s.pendingFees s.pendingVestedFees (by rw [pending, hs]; rfl)
    have hres := hf s hfees hvested
    rwa [ha'.1, ha'.2] at hres
  · exact hdb a' fees vested ha'

/-! ### How the primitive updates move the imbalance -/

theorem imbalance_adjustBalance {d : Asset} (h : db.adjustBalance a d = some db') :
    db'.imbalance = db.imbalance + d.coreAmount := by
  obtain ⟨m, hm, rfl⟩ := adjustBalance_eq_some h
  have htotal := Balances.total_adjust hm 0
  have hd : d.coreAmount = if 0 = d.assetId then d.amount else 0 := by
    simp only [Asset.coreAmount, eq_comm]
  simp only [imbalance, holdings, vesting, held, escrow, pools, supply, minted, htotal, hd]
  omega

theorem imbalance_modifyStatistics {s : AccountStatistics} (hs : db.statistics.lookup a = some s)
    (h : db.modifyStatistics a f = some db') :
    db'.imbalance = db.imbalance + ((f s).held - s.held) := by
  obtain ⟨s', hs', rfl⟩ := modifyStatistics_eq_some h
  have hsum := AList.sumBy_modify (fun _ s => AccountStatistics.held s) f hs
  simp only [imbalance, holdings, vesting, held, escrow, pools, supply, minted, hsum]
  omega

theorem imbalance_modifyCore {f : AssetObject → AssetObject} {c : AssetObject}
    (hc : db.assets.find 0 = some c) (h : db.modifyCore f = some db') :
    db'.imbalance = db.imbalance + ((f c).accumulatedFees - c.accumulatedFees) +
      ((f c).feePool - c.feePool) - ((f c).currentSupply - c.currentSupply) := by
  obtain ⟨c', -, rfl⟩ := modifyCore_eq_some h
  have hpools := Table.sumBy_modify
    (fun id (a : AssetObject) => (if id = 0 then a.accumulatedFees else 0) + a.feePool) f hc
  have hsupply :=
    Table.sumBy_modify (fun id (a : AssetObject) => if id = 0 then a.currentSupply else 0) f hc
  simp only [if_true] at hpools hsupply
  simp only [imbalance, holdings, vesting, held, escrow, pools, supply, minted, hpools, hsupply]
  omega

theorem imbalance_log (db : Database) (e : JournalEntry) :
    (db.log e).imbalance = db.imbalance - e.minted := by
  simp only [imbalance, holdings, vesting, held, escrow, pools, supply, minted, log,
    List.map_cons, List.sum_cons]
  omega

/-- The holdings move with the supply and with what the journal says was minted, where the
imbalance stays. -/
theorem holdings_of_imbalance (h : db'.imbalance = db.imbalance) :
    db'.holdings - db.holdings = db'.supply - db.supply + (db'.minted - db.minted) := by
  simp only [imbalance] at h
  omega

end Database

end CrowdwizChain
