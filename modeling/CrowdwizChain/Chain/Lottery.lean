import CrowdwizChain.Chain.Evaluator
import CrowdwizChain.Chain.Referral

/-!
# Lotteries of goods

The `lottery_goods_*` evaluators of `gamezone_evaluator.cpp` and the end-of-block sweep
`database::proceed_lottery_goods` of `db_update.cpp`.

A lot is created with a number of tickets and their price. Whoever buys a ticket pays the price,
and with the last ticket the lot is sold out. The sweep then draws the winner, with digits of
the id of the block; when the winner confirms that the goods were delivered, the owner gets the
price of all tickets. A lot that expires before it is sold out is removed by the sweep, and
every ticket is refunded.

The digits are read through a pointer into a string that does not exist any more. What is read is a
parameter of the model, `blockIdInt`, and nothing is assumed of it.

Each function notes what it pays out for which lot (`Lottery.payments`), where it also adjusts the
balance; the notes are not read by anything.
-/

namespace CrowdwizChain

open Option OrderedTable Balances Database

/-- `lottery_goods_object`, without the texts -/
structure LotteryGoods where
  id : Nat
  owner : AccountId
  participants : List AccountId := []
  totalParticipants : Nat
  ticketPrice : Asset
  expiration : Nat
  latencySec : Nat
  /-- 0 new, 1 sold out, 2 drawn, 3 owner paid, 8 to be removed -/
  status : Nat := 0
  winner : Option AccountId := none
  /-- the bytes of a memo -/
  winnerContacts : Option (List Nat) := none

namespace LotteryGoods

/-- A ticket is sold; with the last one the lot is sold out. -/
def sell (lot : LotteryGoods) (participant : AccountId) (now : Nat) :
    LotteryGoods :=
  let participants := lot.participants ++ [participant]
  if lot.totalParticipants ≤ participants.length then
    { lot with
      participants := participants
      status := 1
      expiration := timePointSec now lot.latencySec }
  else { lot with participants := participants }

/-- What the owner of a lot gets on delivery. -/
def profit (lot : LotteryGoods) : Asset :=
  ⟨lot.ticketPrice.amount * lot.totalParticipants, lot.ticketPrice.assetId⟩

end LotteryGoods

/-- What was paid for a lot, and to whom. -/
abbrev LotteryPayment := Nat × AccountId × Asset

/-- The lots, with the chain database. -/
structure Lottery where
  db : Database
  lotteryGoods : OrderedTable LotteryGoods.expiration := .empty
  /-- the notes of an observer; nothing reads them -/
  payments : List LotteryPayment := []

/-! ### Operations -/

/-- `lottery_goods_create_lot_operation` -/
structure LotteryGoodsCreateLotOperation where
  fee : Asset
  owner : AccountId
  totalParticipants : Nat
  ticketPrice : Asset
  latencySec : Nat

/-- `lottery_goods_buy_ticket_operation` -/
structure LotteryGoodsBuyTicketOperation where
  fee : Asset
  lotId : Nat
  participant : AccountId
  ticketPrice : Asset

/-- `lottery_goods_send_contacts_operation` -/
structure LotteryGoodsSendContactsOperation where
  fee : Asset
  lotId : Nat
  winner : AccountId
  owner : AccountId
  winnerContacts : List Nat

/-- `lottery_goods_confirm_delivery_operation` -/
structure LotteryGoodsConfirmDeliveryOperation where
  fee : Asset
  lotId : Nat
  winner : AccountId
  owner : AccountId

namespace Lottery

/-- `evaluator::evaluate` and `evaluator::apply` around the two parts of an operation. -/
def applyOperation (l : Lottery) (payer : AccountId) (fee : Asset) (doEvaluate : Lottery → Bool)
    (doApply : Lottery → Option Lottery) : Option Lottery :=
  (l.db.prepareFee payer fee).bind fun coreFee =>
    if doEvaluate l then
      (doApply { l with db := l.db.convertAndPayFee payer fee coreFee }).bind fun l =>
        (l.db.adjustBalance payer (-fee)).map fun db => { l with db := db }
    else none

/-- The account in whose whitelist the admins are. -/
def adminWhitelist : AccountId := 27

/-- `lottery_goods_create_lot_evaluator::do_evaluate` -/
def createLotEvaluate (op : LotteryGoodsCreateLotOperation) (l : Lottery) : Bool :=
  (0 < op.totalParticipants ∧
      op.totalParticipants ≤ l.db.gamezoneParameters.lotteryGoodsTotalParticipants) &&
    (0 < op.latencySec ∧ op.latencySec ≤ 100) && op.ticketPrice.assetId = 0 &&
    if hardforkCwd4Time ≤ l.db.headBlockTime then
      (l.db.accounts.find op.owner).any fun owner => owner.referralStatusType = 4
    else
      (l.db.accounts.find op.owner).isSome &&
        (l.db.accounts.find adminWhitelist).any fun admin => op.owner ∈ admin.whitelistedAccounts

/-- `lottery_goods_create_lot_evaluator::do_apply` -/
def createLotApply (op : LotteryGoodsCreateLotOperation) (l : Lottery) : Option Lottery :=
  some { l with
    lotteryGoods := l.lotteryGoods.create
      { id := l.lotteryGoods.nextId
        owner := op.owner
        totalParticipants := op.totalParticipants
        ticketPrice := op.ticketPrice
        latencySec := op.latencySec
        expiration :=
          if hardforkCwd4Time ≤ l.db.headBlockTime then
            timePointSec l.db.headBlockTime l.db.gamezoneParameters.lotteryGoodsExpiration
          else timePointSec hardforkCwd4Time 2592000 } }

/-- `lottery_goods_create_lot_evaluator` -/
def createLot (l : Lottery) (op : LotteryGoodsCreateLotOperation) : Option Lottery :=
  if 0 ≤ op.fee.amount ∧ 0 < op.ticketPrice.amount then
    l.applyOperation op.owner op.fee (createLotEvaluate op) (createLotApply op)
  else none

/-- `lottery_goods_buy_ticket_evaluator::do_evaluate` -/
def buyTicketEvaluate (op : LotteryGoodsBuyTicketOperation) (l : Lottery) : Bool :=
  (l.db.assets.find op.ticketPrice.assetId).isSome && (l.db.accounts.find op.participant).isSome &&
    (l.lotteryGoods.find op.lotId).any fun lot =>
      op.ticketPrice.assetId = 0 &&
        op.ticketPrice.amount ≤ l.db.getBalance op.participant op.ticketPrice.assetId &&
        lot.status = 0 && lot.participants.length < lot.totalParticipants &&
        lot.ticketPrice.amount = op.ticketPrice.amount

/-- `lottery_goods_buy_ticket_evaluator::do_apply` -/
def buyTicketApply (op : LotteryGoodsBuyTicketOperation) (l : Lottery) : Option Lottery :=
  (l.lotteryGoods.find op.lotId).bind fun lot =>
    (if hardforkCwd2Time ≤ l.db.headBlockTime then
      l.db.updatePv lot.ticketPrice.amount op.participant
    else some l.db).bind fun db =>
      (db.adjustBalance op.participant (-op.ticketPrice)).map fun db =>
        { l with
          db := db
          lotteryGoods := l.lotteryGoods.modify op.lotId fun lot =>
            lot.sell op.participant l.db.headBlockTime }

/-- `lottery_goods_buy_ticket_evaluator` -/
def buyTicket (l : Lottery) (op : LotteryGoodsBuyTicketOperation) : Option Lottery :=
  if 0 ≤ op.fee.amount ∧ 0 < op.ticketPrice.amount then
    l.applyOperation op.participant op.fee (buyTicketEvaluate op) (buyTicketApply op)
  else none

/-- `lottery_goods_send_contacts_evaluator` -/
def sendContacts (l : Lottery) (op : LotteryGoodsSendContactsOperation) : Option Lottery :=
  if 0 ≤ op.fee.amount then
    l.applyOperation op.winner op.fee
      (fun l => (l.lotteryGoods.find op.lotId).any fun lot =>
        lot.winner = some op.winner && lot.owner = op.owner && lot.winnerContacts.isNone)
      fun l => some { l with
        lotteryGoods := l.lotteryGoods.modify op.lotId fun lot =>
          { lot with winnerContacts := some op.winnerContacts } }
  else none

/-- `lottery_goods_confirm_delivery_evaluator::do_apply` -/
def confirmDeliveryApply (op : LotteryGoodsConfirmDeliveryOperation) (l : Lottery) :
    Option Lottery :=
  (l.lotteryGoods.find op.lotId).bind fun lot =>
    (l.db.adjustBalance lot.owner lot.profit).bind fun db =>
      (db.modifyStatistics op.owner fun s =>
        { s with lotteryGoodsRating := s.lotteryGoodsRating + 1 }).map fun db =>
        { l with
          db := db
          lotteryGoods := l.lotteryGoods.modify op.lotId fun lot => { lot with status := 3 }
          payments := l.payments ++ [(op.lotId, lot.owner, lot.profit)] }

/-- `lottery_goods_confirm_delivery_evaluator` -/
def confirmDelivery (l : Lottery) (op : LotteryGoodsConfirmDeliveryOperation) : Option Lottery :=
  if 0 ≤ op.fee.amount then
    l.applyOperation op.winner op.fee
      (fun l => (l.lotteryGoods.find op.lotId).any fun lot =>
        lot.status = 2 && lot.winner = some op.winner && lot.owner = op.owner)
      (confirmDeliveryApply op)
  else none

/-! ### The sweep -/

/-- The lots that the loop does something with. -/
def proceeds (lot : LotteryGoods) : Bool :=
  lot.status = 0 || (lot.status = 1 && lot.totalParticipants = lot.participants.length &&
    0 < lot.totalParticipants)

/-- The winner is drawn, with a fix for one lot, or the lot is marked to be removed. -/
def mark (blockIdInt : Nat → Nat) (lot : LotteryGoods) : LotteryGoods :=
  if lot.status = 1 then
    { lot with
      winner := if lot.id = 48 then some 164
        else lot.participants[blockIdInt lot.id % lot.totalParticipants]?
      status := 2
      expiration := 0 }
  else { lot with status := 8, expiration := 0 }

/-- The refunds for a lot that was not sold out. -/
def refunds (lot : LotteryGoods) : List LotteryPayment :=
  if lot.status = 0 then lot.participants.map fun a => (lot.id, a, lot.ticketPrice) else []

/-- The refunds are paid, one after another. -/
def payRefunds (st : Balances × List LotteryPayment) (lot : LotteryGoods) :
    Option (Balances × List LotteryPayment) :=
  (st.1.adjustAll ((refunds lot).map Prod.snd)).map fun m => (m, st.2 ++ refunds lot)

/-- `database::proceed_lottery_goods` -/
def proceedLotteryGoods (l : Lottery) (blockIdInt : Nat → Nat) : Option Lottery :=
  (OrderedTable.sweep proceeds (mark blockIdInt) (fun st _ lot => payRefunds st lot)
    (timePointSec l.db.headBlockTime 5) l.lotteryGoods (l.db.balances, l.payments)).map
    fun (t, m, payments) =>
      { db := { l.db with balances := m }
        lotteryGoods := OrderedTable.eraseBack LotteryGoods.status 8 t.rows.length t
        payments := payments }

/-! ### What accepted operations have done -/

variable {l l' : Lottery}

theorem applyOperation_eq_some {payer : AccountId} {fee : Asset} {ev : Lottery → Bool}
    {ap : Lottery → Option Lottery} (h : l.applyOperation payer fee ev ap = some l') :
    ∃ coreFee l1 m, ev l = true ∧
      ap { l with db := l.db.convertAndPayFee payer fee coreFee } = some l1 ∧
      l1.db.balances.adjust payer (-fee) = some m ∧
      l' = { l1 with db := { l1.db with balances := m } } := by
  obtain ⟨coreFee, -, h⟩ := bind_eq_some_iff.1 h
  split at h
  · next hev =>
    obtain ⟨l1, hap, h⟩ := bind_eq_some_iff.1 h
    obtain ⟨db, hdb, rfl⟩ := map_eq_some_iff.1 h
    obtain ⟨m, hm, rfl⟩ := adjustBalance_eq_some hdb
    exact ⟨coreFee, l1, m, hev, hap, hm, rfl⟩
  · cases h

/-- A new lot has no participants and no winner; its price is positive and in the core asset. -/
theorem createLot_eq_some {op : LotteryGoodsCreateLotOperation} (h : l.createLot op = some l') :
    0 < op.totalParticipants ∧ op.ticketPrice.assetId = 0 ∧ 0 < op.ticketPrice.amount ∧
      (∃ expiration, l'.lotteryGoods = l.lotteryGoods.create
        { id := l.lotteryGoods.nextId
          owner := op.owner
          totalParticipants := op.totalParticipants
          ticketPrice := op.ticketPrice
          latencySec := op.latencySec
          expiration }) ∧
      l'.payments = l.payments ∧
      l.db.balances.adjustAll [(op.owner, -op.fee)] = some l'.db.balances := by
  obtain ⟨hv, h⟩ := ite_none_right_eq_some.1 h
  obtain ⟨coreFee, l1, m, hev, hap, hm, rfl⟩ := applyOperation_eq_some h
  cases hap
  simp only [createLotEvaluate, Bool.and_eq_true, decide_eq_true_eq] at hev
  obtain ⟨⟨⟨htotal, -⟩, hcore⟩, -⟩ := hev
  refine ⟨htotal.1, hcore, hv.2, ⟨_, rfl⟩, rfl, ?_⟩
  exact adjustAll_concat (adjustAll_nil _) hm

/-- A ticket is bought for a lot that is not sold out, at its price. -/
theorem buyTicket_eq_some {op : LotteryGoodsBuyTicketOperation} (h : l.buyTicket op = some l') :
    ∃ lot, l.lotteryGoods.find op.lotId = some lot ∧ lot.status = 0 ∧
      lot.participants.length < lot.totalParticipants ∧ op.ticketPrice.assetId = 0 ∧
      lot.ticketPrice.amount = op.ticketPrice.amount ∧
      l'.lotteryGoods = l.lotteryGoods.modify op.lotId
        (fun lot => lot.sell op.participant l.db.headBlockTime) ∧
      l'.payments = l.payments ∧
      l.db.balances.adjustAll [(op.participant, -op.ticketPrice), (op.participant, -op.fee)] =
        some l'.db.balances := by
  rw [buyTicket] at h
  split at h
  · obtain ⟨coreFee, l1, m, hev, hap, hm, rfl⟩ := applyOperation_eq_some h
    simp only [buyTicketEvaluate, Bool.and_eq_true, any_eq_true, decide_eq_true_eq] at hev
    obtain ⟨-, lot, hlot, ⟨⟨⟨hcore, -⟩, hstatus⟩, hsize⟩, hprice⟩ := hev
    obtain ⟨lot', -, hap⟩ := bind_eq_some_iff.1 hap
    obtain ⟨db, hpv, hap⟩ := bind_eq_some_iff.1 hap
    obtain ⟨db1, hadjust, rfl⟩ := map_eq_some_iff.1 hap
    obtain ⟨m1, hm1, rfl⟩ := adjustBalance_eq_some hadjust
    -- the volume of the buyer is not a balance
    have hbalances : db.balances = l.db.balances := by
      split at hpv
      · obtain ⟨s, pv, -, hpv⟩ := updatePv_eq_some hpv
        obtain ⟨s, -, rfl⟩ := modifyStatistics_eq_some hpv
        rfl
      · cases hpv
        rfl
    rw [hbalances] at hm1
    exact ⟨lot, hlot, hstatus, hsize, hcore, hprice, rfl, rfl, adjustAll_pair hm1 hm⟩
  · cases h

theorem sendContacts_eq_some {op : LotteryGoodsSendContactsOperation}
    (h : l.sendContacts op = some l') :
    ∃ lot, l.lotteryGoods.find op.lotId = some lot ∧
        l'.lotteryGoods = l.lotteryGoods.modify op.lotId
        (fun lot => { lot with winnerContacts := some op.winnerContacts }) ∧
      l'.payments = l.payments ∧
      l.db.balances.adjustAll [(op.winner, -op.fee)] = some l'.db.balances := by
  obtain ⟨-, h⟩ := ite_none_right_eq_some.1 h
  obtain ⟨coreFee, l1, m, hev, hap, hm, rfl⟩ := applyOperation_eq_some h
  obtain ⟨lot, hlot, -⟩ := any_eq_true _ _ |>.1 hev
  cases hap
  exact ⟨lot, hlot, rfl, rfl, adjustAll_concat (adjustAll_nil _) hm⟩

/-- On delivery, a lot that is drawn pays its owner. -/
theorem confirmDelivery_eq_some {op : LotteryGoodsConfirmDeliveryOperation}
    (h : l.confirmDelivery op = some l') :
    ∃ lot, l.lotteryGoods.find op.lotId = some lot ∧ lot.status = 2 ∧
      l'.lotteryGoods = l.lotteryGoods.modify op.lotId (fun lot => { lot with status := 3 }) ∧
      l'.payments = l.payments ++ [(op.lotId, lot.owner, lot.profit)] ∧
      l.db.balances.adjustAll [(lot.owner, lot.profit), (op.winner, -op.fee)] =
      some l'.db.balances := by
  obtain ⟨-, h⟩ := ite_none_right_eq_some.1 h
  obtain ⟨coreFee, l1, m, hev, hap, hm, rfl⟩ := applyOperation_eq_some h
  simp only [any_eq_true, Bool.and_eq_true, decide_eq_true_eq] at hev
  obtain ⟨lot, hlot, ⟨hstatus, -⟩, -⟩ := hev
  obtain ⟨lot', hlot', hap⟩ := bind_eq_some_iff.1 hap
  cases hlot.symm.trans hlot'
  obtain ⟨db, hadjust, hap⟩ := bind_eq_some_iff.1 hap
  obtain ⟨m1, hm1, rfl⟩ := adjustBalance_eq_some hadjust
  obtain ⟨db1, hrating, rfl⟩ := map_eq_some_iff.1 hap
  obtain ⟨s, -, rfl⟩ := modifyStatistics_eq_some hrating
  exact ⟨lot, hlot, hstatus, rfl, rfl, adjustAll_pair hm1 hm⟩

/-! ### What the sweep has done -/

theorem proceeds_mark (blockIdInt : Nat → Nat) (lot : LotteryGoods) :
    proceeds (mark blockIdInt lot) = false := by
  unfold mark
  split <;> rfl

theorem foldlM_payRefunds (X : List (Σ _ : Nat, LotteryGoods)) (m : Balances)
    (payments : List LotteryPayment) :
    X.foldlM (fun st e => payRefunds st e.2) (m, payments) =
      (m.adjustAll ((X.flatMap fun e => refunds e.2).map Prod.snd)).map fun m' =>
        (m', payments ++ X.flatMap fun e => refunds e.2) := by
  induction X generalizing m payments with
  | nil => simp
  | cons e X ih =>
    rw [List.foldlM_cons, List.flatMap_cons, List.map_append, adjustAll_append]
    cases hm : m.adjustAll ((refunds e.2).map Prod.snd) with
    | none => simp [payRefunds, hm]
    | some m1 =>
      have hpay : payRefunds (m, payments) e.2 = some (m1, payments ++ refunds e.2) := by
        simp [payRefunds, hm]
      rw [hpay, Option.bind_eq_bind, bind_some, ih, bind_some, List.append_assoc]

/-- **The sweep**, where no lot is marked yet: some of the lots that qualify are drawn or removed,
each of them once, and the refunds for those that are removed are all that is paid. -/
theorem proceedLotteryGoods_eq_some {blockIdInt : Nat → Nat}
    (h : l.proceedLotteryGoods blockIdInt = some l')
    (hstatus : ∀ id lot, l.lotteryGoods.find id = some lot → lot.status ≤ 3) :
    ∃ X : List (Σ _ : Nat, LotteryGoods), X.NodupKeys ∧
      (∀ e ∈ X, l.lotteryGoods.find e.1 = some e.2 ∧ proceeds e.2 = true) ∧
      l'.lotteryGoods.nextId = l.lotteryGoods.nextId ∧
      (∀ id, l'.lotteryGoods.find id = (l.lotteryGoods.find id).bind fun lot =>
        if id ∈ X.keys then if lot.status = 1 then some (mark blockIdInt lot) else none
        else some lot) ∧
      l'.payments = l.payments ++ X.flatMap (fun e => refunds e.2) ∧
      l.db.balances.adjustAll ((X.flatMap fun e => refunds e.2).map Prod.snd) =
      some l'.db.balances := by
  obtain ⟨⟨t, m, payments⟩, hsweep, rfl⟩ := map_eq_some_iff.1 h
  obtain ⟨X, hnodup, hX, hfold, hfind⟩ := sweep_acts (proceeds_mark blockIdInt) hsweep
  rw [foldlM_payRefunds] at hfold
  obtain ⟨m', hm, heq⟩ := map_eq_some_iff.1 hfold
  cases heq
  have hle : ∀ e ∈ t.rows, e.2.status ≤ 8 := by
    intro e he
    have hrow := mem_rows.1 he
    rw [hfind] at hrow
    obtain ⟨lot, hlot, heq⟩ := map_eq_some_iff.1 hrow
    have := hstatus _ _ hlot
    rw [← heq]
    unfold mark
    split
    · split <;> simp
    · omega
  obtain ⟨hnext, herase⟩ := eraseBack_find LotteryGoods.status hle le_rfl
  refine ⟨X, hnodup, hX, hnext.trans (nextId_sweep hsweep), fun id => ?_, rfl, hm⟩
  rw [herase, hfind]
  cases hlot : l.lotteryGoods.find id with
  | none => rfl
  | some lot =>
    have hle := hstatus id lot hlot
    rw [map_some, bind_some, bind_some]
    split
    · next hin =>
      by_cases hone : lot.status = 1 <;> simp [mark, hone]
    · rw [if_neg (by omega)]

/-- **The sweep goes through**, if every lot with an expiration is either unsold or sold out: what
has expired is drawn or removed. -/
theorem proceedLotteryGoods_ends (blockIdInt : Nat → Nat) (hnow : l.db.headBlockTime + 5 < 2 ^ 32)
    (hrows : ∀ id lot, l.lotteryGoods.find id = some lot →
      0 ≤ lot.ticketPrice.amount ∧ lot.status ≤ 3 ∧ (lot.expiration ≠ 0 → proceeds lot = true)) :
    ∃ l', l.proceedLotteryGoods blockIdInt = some l' ∧
        ∀ id lot, l'.lotteryGoods.find id = some lot →
        lot.expiration ≤ 1 ∨ l.db.headBlockTime + 5 ≤ lot.expiration := by
  have hbound : timePointSec l.db.headBlockTime 5 = l.db.headBlockTime + 5 := Nat.mod_eq_of_lt hnow
  obtain ⟨X, t', -, hX, -, hfind, hsweep⟩ := sweep_ends proceeds (mark blockIdInt)
    (fun st _ lot => payRefunds st lot) (fun lot => by unfold mark; split <;> rfl) l.lotteryGoods
    (show 1 < timePointSec l.db.headBlockTime 5 by omega)
    (fun e he hne _ => (hrows e.1 e.2 (mem_rows.1 he)).2.2 hne)
  -- refunds are credits
  obtain ⟨m, hm⟩ := adjustAll_isSome (m := l.db.balances)
    (l := (X.flatMap fun e => refunds e.2).map Prod.snd) (by
      intro p hp
      obtain ⟨q, hq, rfl⟩ := List.mem_map.1 hp
      obtain ⟨e, he, hq⟩ := List.mem_flatMap.1 hq
      unfold refunds at hq
      split at hq
      · obtain ⟨a, -, rfl⟩ := List.mem_map.1 hq
        exact (hrows e.1 e.2 (mem_rows.1 ((hX e).1 he).1)).1
      · cases hq)
  have hrun := hsweep (l.db.balances, l.payments)
  rw [foldlM_payRefunds, hm, map_some, map_some] at hrun
  refine ⟨_, by rw [proceedLotteryGoods, hrun]; rfl, fun id lot hlot => ?_⟩
  have hlot := find_of_eraseBack hlot
  rw [hfind] at hlot
  obtain ⟨r, hold, rfl⟩ := map_eq_some_iff.1 hlot
  split
  · left
    unfold mark
    split <;> simp
  · next hout =>
    by_contra hnot
    have hrow := (hX ⟨id, r⟩).2 ⟨mem_rows.2 hold, by simp only; omega, by simp only; omega, ⟨id, r⟩,
      mem_rows.2 hold, by simp only; omega, by simp only; omega⟩
    exact hout (List.mem_map.2 ⟨_, hrow, rfl⟩)

end Lottery

end CrowdwizChain
