import CrowdwizChain.Chain.RewardPlan
import Mathlib.Data.Prod.Lex

/-!
# Flipping a coin

The `flipcoin_*` evaluators of `gamezone_evaluator.cpp` and the end-of-block settlement
`database::proceed_bets` of `db_update.cpp`.

A bet is debited when it is made, and the one who calls it is debited an amount that must be the
same; the object keeps the bet and not what the caller paid. A bet that nobody calls for an hour
is refunded. A called one is decided ten seconds later by a digit of the id of the block: the
winner gets ninety percent of both stakes, and the other ten go to the fees of the winner, which
are distributed at once.
-/

namespace CrowdwizChain

open Option

/-! ### Operations -/

/-- `flipcoin_bet_operation` -/
structure FlipcoinBetOperation where
  fee : Asset
  bettor : AccountId
  bet : Asset
  nonce : Nat

/-- `flipcoin_call_operation` -/
structure FlipcoinCallOperation where
  fee : Asset
  flipcoin : Nat
  caller : AccountId
  bet : Asset

/-- `flipcoin_bet_operation::validate` -/
def FlipcoinBetOperation.validate (op : FlipcoinBetOperation) : Bool :=
  0 ≤ op.fee.amount ∧ 0 < op.bet.amount

/-- `flipcoin_call_operation::validate` -/
def FlipcoinCallOperation.validate (op : FlipcoinCallOperation) : Bool :=
  0 ≤ op.fee.amount ∧ 0 ≤ op.bet.amount

/-- `count_prize`: ninety percent of two stakes. -/
def countPrize (a : Int) : Int := cutFee a (9000 * 2)

/-- `count_referral_prize`: ten percent of two stakes. -/
def countReferralPrize (a : Int) : Int := cutFee a (1000 * 2)

theorem countPrize_add_countReferralPrize_le (a : Int) :
    countPrize a + countReferralPrize a ≤ 2 * a := by
  rw [countPrize, countReferralPrize, cutFee_eq, cutFee_eq]
  omega

namespace Database

/-! ### Evaluators -/

/-- `flipcoin_bet_evaluator::do_evaluate` -/
def flipcoinBetEvaluate (op : FlipcoinBetOperation) (db : Database) : Bool :=
  (db.accounts.find op.bettor).isSome ∧ (db.assets.find op.bet.assetId).isSome ∧
    op.bet.assetId = 0 ∧
    (hardforkCwd5Time ≤ db.headBlockTime →
      db.gamezoneParameters.flipcoinMinBetAmount ≤ op.bet.amount) ∧
    op.bet.amount ≤ db.getBalance op.bettor op.bet.assetId

/-- `flipcoin_bet_evaluator::do_apply` -/
def flipcoinBetApply (op : FlipcoinBetOperation) (db : Database) : Option Database :=
  (db.adjustBalance op.bettor (-op.bet)).map fun db =>
    { db with
      flipcoins := db.flipcoins.create
        { bettor := op.bettor
          bet := op.bet
          status := 0
          nonce := op.nonce
          expiration := timePointSec db.headBlockTime 3600 } }

/-- The bet operation. -/
def flipcoinBet (db : Database) (op : FlipcoinBetOperation) : Option Database :=
  if op.validate then
    db.applyOperation op.bettor op.fee (flipcoinBetEvaluate op) (flipcoinBetApply op)
  else none

/-- `flipcoin_call_evaluator::do_evaluate`: the amounts are compared, the assets are not. -/
def flipcoinCallEvaluate (op : FlipcoinCallOperation) (db : Database) : Bool :=
  (db.accounts.find op.caller).isSome ∧ (db.assets.find op.bet.assetId).isSome ∧
    op.bet.amount ≤ db.getBalance op.caller op.bet.assetId ∧
    (db.flipcoins.find op.flipcoin).any fun f =>
      f.status = 0 ∧ db.headBlockTime ≤ f.expiration ∧ f.bet.amount = op.bet.amount

/-- `flipcoin_call_evaluator::do_apply` -/
def flipcoinCallApply (op : FlipcoinCallOperation) (db : Database) : Option Database :=
  (db.adjustBalance op.caller (-op.bet)).map fun db =>
    { db with
      flipcoins := db.flipcoins.modify op.flipcoin fun f =>
        { f with
          status := 1
          caller := some op.caller
          expiration := timePointSec db.headBlockTime 10 } }

/-- The call operation. -/
def flipcoinCall (db : Database) (op : FlipcoinCallOperation) : Option Database :=
  if op.validate then
    db.applyOperation op.caller op.fee (flipcoinCallEvaluate op) (flipcoinCallApply op)
  else none

/-! ### Settlement -/

/-- The digit of the id of the block that decides: an even one is heads. -/
def flipHeads (db : Database) (f : Flipcoin) : Option Bool :=
  db.headBlockId[min ((8 + f.nonce) % 256) 39]?.map fun digit => digit % 2 = 0

/-- A bet that was not called goes back. -/
def cancelFlipcoin (db : Database) (id : Nat) (f : Flipcoin) : Option Database :=
  (db.adjustBalance f.bettor f.bet).map fun db =>
    { db.log (.flipcoinCancel id f.bettor f.bet) with flipcoins := db.flipcoins.remove id }

/-- The volumes that a flip counts for. -/
def flipVolumes (db : Database) (f : Flipcoin) (winner looser : AccountId) (referralPrize : Int) :
    Option Database :=
  if hardforkCwd2Time ≤ db.headBlockTime then
    (db.updatePv f.bet.amount winner).bind fun db => db.updatePv f.bet.amount looser
  else db.updatePv referralPrize winner

/-- The prize of the winner. -/
def flipPrize (f : Flipcoin) : Asset := ⟨countPrize f.bet.amount, f.bet.assetId⟩

/-- The part of the stakes that becomes a fee of the winner. -/
def flipReferralPrize (f : Flipcoin) : Asset := ⟨countReferralPrize f.bet.amount, f.bet.assetId⟩

/-- The two virtual operations of a flip. -/
def logFlip (db : Database) (id : Nat) (f : Flipcoin) (winner looser : AccountId) : Database :=
  (db.log (.flipcoinWin id winner (flipPrize f) (flipReferralPrize f))).log
    (.flipcoinLoose id looser f.bet)

/-- A called bet is won by one of the two. -/
def flipFlipcoin (db : Database) (id : Nat) (f : Flipcoin) (winner looser : AccountId) :
    Option Database :=
  (db.adjustBalance winner (flipPrize f)).bind fun db =>
    ((db.logFlip id f winner looser).updateNvFrom (flipReferralPrize f).amount winner).bind
      fun db =>
      (db.flipVolumes f winner looser (flipReferralPrize f).amount).bind fun db =>
        (db.modifyStatistics winner (·.payFee (flipReferralPrize f).amount)).bind fun db =>
          (db.processFees winner).map fun db =>
            { db with flipcoins := db.flipcoins.remove id }

/-- One round of the loop of `proceed_bets`. The accounts of both sides must exist. -/
def settleFlipcoin (db : Database) (id : Nat) (f : Flipcoin) : Option Database :=
  (db.flipHeads f).bind fun heads =>
    if f.status = 0 then db.cancelFlipcoin id f
    else
      f.caller.bind fun caller =>
        (db.accounts.find caller).bind fun _ =>
          (db.accounts.find f.bettor).bind fun _ =>
            if heads then db.flipFlipcoin id f f.bettor caller
            else db.flipFlipcoin id f caller f.bettor

/-- The first bet in the order of expiration and id. -/
def firstFlipcoin (db : Database) : Option (Σ _ : Nat, Flipcoin) :=
  db.flipcoins.rows.entries.argmin fun e => toLex (e.2.expiration, e.1)

/-- The loop of `proceed_bets`, with a round for every bet. -/
def proceedBetsLoop : Nat → Database → Option Database
  | 0, db => some db
  | n + 1, db =>
    match db.firstFlipcoin with
    | none => some db
    | some e =>
      if e.2.expiration ≤ db.headBlockTime ∧ e.2.status < 2 then
        (db.settleFlipcoin e.1 e.2).bind (proceedBetsLoop n)
      else some db

/-- `database::proceed_bets` -/
def proceedBets (db : Database) : Option Database :=
  proceedBetsLoop db.flipcoins.rows.entries.length db

/-! ### What the operations do -/

variable {db db' : Database} {f : Flipcoin}

theorem flipcoinBet_eq_some {op : FlipcoinBetOperation} (h : db.flipcoinBet op = some db') :
    0 < op.bet.amount ∧ op.bet.assetId = 0 ∧
      Balances.adjustAll db.balances [(op.bettor, -op.bet), (op.bettor, -op.fee)] =
        some db'.balances ∧
      db'.flipcoins = db.flipcoins.create
        { bettor := op.bettor
          bet := op.bet
          status := 0
          nonce := op.nonce
          expiration := timePointSec db.headBlockTime 3600 } ∧
      db'.journal = db.journal := by
  obtain ⟨hv, coreFee, db1, m, -, hev, hap, hm, rfl⟩ := operation_eq_some h
  obtain ⟨db2, hadj, rfl⟩ := map_eq_some_iff.1 hap
  obtain ⟨m1, hm1, rfl⟩ := adjustBalance_eq_some hadj
  simp only [FlipcoinBetOperation.validate, decide_eq_true_eq] at hv
  simp only [flipcoinBetEvaluate, decide_eq_true_eq] at hev
  exact ⟨hv.2, hev.2.2.1, Balances.adjustAll_pair hm1 hm, rfl, rfl⟩

theorem flipcoinCall_eq_some {op : FlipcoinCallOperation} (h : db.flipcoinCall op = some db') :
    ∃ f, db.flipcoins.find op.flipcoin = some f ∧ f.status = 0 ∧ f.bet.amount = op.bet.amount ∧
      Balances.adjustAll db.balances [(op.caller, -op.bet), (op.caller, -op.fee)] =
      some db'.balances ∧ db'.flipcoins = db.flipcoins.modify op.flipcoin (fun f =>
        { f with
          status := 1
          caller := some op.caller
          expiration := timePointSec db.headBlockTime 10 }) ∧
      db'.journal = db.journal := by
  obtain ⟨-, coreFee, db1, m, -, hev, hap, hm, rfl⟩ := operation_eq_some h
  obtain ⟨db2, hadj, rfl⟩ := map_eq_some_iff.1 hap
  obtain ⟨m1, hm1, rfl⟩ := adjustBalance_eq_some hadj
  simp only [flipcoinCallEvaluate, decide_eq_true_eq, any_eq_true] at hev
  obtain ⟨-, -, -, f, hf, hstatus, -, hamount⟩ := hev
  exact ⟨f, hf, hstatus, hamount, Balances.adjustAll_pair hm1 hm, rfl, rfl⟩

/-! ### What a settlement does -/

/-- The entries of the journal that settle a bet. -/
inductive Settles (id : Nat) (f : Flipcoin) : List JournalEntry → Prop
  | cancel : f.status = 0 → Settles id f [.flipcoinCancel id f.bettor f.bet]
  | flip (winner looser : AccountId) : f.status ≠ 0 →
    Settles id f [.flipcoinLoose id looser f.bet,
      .flipcoinWin id winner (flipPrize f) (flipReferralPrize f)]

theorem flipVolumes_ledger {winner looser : AccountId} {referralPrize : Int}
    (h : db.flipVolumes f winner looser referralPrize = some db') :
    db.RewardFrame db' ∧ db'.imbalance = db.imbalance := by
  rw [flipVolumes] at h
  split at h
  · obtain ⟨db1, h1, h2⟩ := bind_eq_some_iff.1 h
    exact ⟨(rewardFrame_updatePv h1).trans (rewardFrame_updatePv h2),
      (imbalance_updatePv h2).trans (imbalance_updatePv h1)⟩
  · exact ⟨rewardFrame_updatePv h, imbalance_updatePv h⟩

/-- The steps of a flip: the prize is paid and noted (`db₁`), the volumes are entered and the
leaders rewarded (`db₂`), the referral prize becomes a fee of the winner (`db₃`), the fees are
distributed (`db₄`), and the bet goes. -/
theorem flipFlipcoin_eq_some {id : Nat} {winner looser : AccountId}
    (h : db.flipFlipcoin id f winner looser = some db') :
    ∃ db1 db2 db3 db4 : Database, db.adjustBalance winner (flipPrize f) = some db1 ∧
      (db1.logFlip id f winner looser).RewardFrame db2 ∧
      db2.imbalance = (db1.logFlip id f winner looser).imbalance ∧
      db2.modifyStatistics winner (·.payFee (flipReferralPrize f).amount) = some db3 ∧
      db3.processFees winner = some db4 ∧
      db' = { db4 with flipcoins := db4.flipcoins.remove id } := by
  obtain ⟨db1, h1, h⟩ := bind_eq_some_iff.1 h
  obtain ⟨db1', hnv, h⟩ := bind_eq_some_iff.1 h
  obtain ⟨db2, hpv, h⟩ := bind_eq_some_iff.1 h
  obtain ⟨db3, h3, h⟩ := bind_eq_some_iff.1 h
  obtain ⟨db4, h4, rfl⟩ := map_eq_some_iff.1 h
  obtain ⟨hframe, himb⟩ := updateNv_ledger hnv
  obtain ⟨hframe', himb'⟩ := flipVolumes_ledger hpv
  exact ⟨db1, db2, db3, db4, h1, hframe.trans hframe', himb'.trans himb, h3, h4, rfl⟩

theorem flipFlipcoin_frame {id : Nat} {winner looser : AccountId}
    (h : db.flipFlipcoin id f winner looser = some db') : db'.flipcoins = db.flipcoins.remove id ∧
      db'.headBlockTime = db.headBlockTime ∧ db'.headBlockId = db.headBlockId ∧
      db'.journal.filter JournalEntry.isFlipcoin =
        [.flipcoinLoose id looser f.bet,
          .flipcoinWin id winner (flipPrize f) (flipReferralPrize f)] ++
          db.journal.filter JournalEntry.isFlipcoin := by
  obtain ⟨db1, db2, db3, db4, h1, hframe2, -, h3, h4, rfl⟩ := flipFlipcoin_eq_some h
  obtain ⟨m, -, rfl⟩ := adjustBalance_eq_some h1
  have hframe := (hframe2.toFrame.trans (frame_modifyStatistics h3)).trans (frame_processFees h4)
  exact ⟨congrArg (Table.remove · id) hframe.flipcoins, hframe.headBlockTime, hframe.headBlockId,
    hframe.journal⟩

/-- A bet that was not called is given back; else the side of the coin says who wins. -/
theorem settleFlipcoin_cases {id : Nat} (h : db.settleFlipcoin id f = some db') :
    ∃ heads, db.flipHeads f = some heads ∧ (f.status = 0 ∧ db.cancelFlipcoin id f = some db' ∨
      f.status ≠ 0 ∧ ∃ caller, f.caller = some caller ∧ db.flipFlipcoin id f
        (if heads then f.bettor else caller) (if heads then caller else f.bettor) = some db') := by
  obtain ⟨heads, hheads, h⟩ := bind_eq_some_iff.1 h
  refine ⟨heads, hheads, ?_⟩
  split at h
  · next hstatus => exact .inl ⟨hstatus, h⟩
  · next hstatus =>
    obtain ⟨caller, hcaller, h⟩ := bind_eq_some_iff.1 h
    obtain ⟨_, -, h⟩ := bind_eq_some_iff.1 h
    obtain ⟨_, -, h⟩ := bind_eq_some_iff.1 h
    refine .inr ⟨hstatus, caller, hcaller, ?_⟩
    cases heads <;> exact h

/-- **A settlement removes the bet and pays it once**: the bets change by nothing else, and the
entries about bets in the journal are those of this settlement. -/
theorem settleFlipcoin_eq_some {id : Nat} (h : db.settleFlipcoin id f = some db') :
    db'.flipcoins = db.flipcoins.remove id ∧ db'.headBlockTime = db.headBlockTime ∧
      ∃ es, Settles id f es ∧ db'.journal.filter JournalEntry.isFlipcoin =
        es ++ db.journal.filter JournalEntry.isFlipcoin := by
  obtain ⟨heads, -, ⟨hstatus, h⟩ | ⟨hstatus, caller, -, h⟩⟩ := settleFlipcoin_cases h
  · obtain ⟨db1, h1, rfl⟩ := map_eq_some_iff.1 h
    obtain ⟨m, -, rfl⟩ := adjustBalance_eq_some h1
    exact ⟨rfl, rfl, _, .cancel hstatus, rfl⟩
  · obtain ⟨hflipcoins, htime, -, hjournal⟩ := flipFlipcoin_frame h
    exact ⟨hflipcoins, htime, _, .flip _ _ hstatus, hjournal⟩

end Database

end CrowdwizChain
