import CrowdwizChain.Chain.Evaluator

/-!
# Approved transfers

The `approved_transfer_*` evaluators of `financial_evaluator.cpp` and the end-of-block sweep
`database::proceed_approved_transfer` of `db_update.cpp`.

A transfer is created with its amount taken from the sender and held in an
`approved_transfer_object`. The sender can approve it at any time; the recipient can open a dispute,
which the arbiter then decides for one of the two sides, keeping five percent; and a transfer whose
expiration has passed while no dispute was opened is cancelled by the sweep. Opening a dispute sets
the expiration to zero, which is also what the sweep does to mark a transfer for removal.
-/

namespace CrowdwizChain

open Option Balances

/-! ### Operations -/

/-- `approved_transfer_create_operation` -/
structure ApprovedTransferCreateOperation where
  fee : Asset
  fromAccount : AccountId
  toAccount : AccountId
  arbitr : AccountId
  amount : Asset
  expiration : Nat

/-- `approved_transfer_approve_operation` and `approved_transfer_open_dispute_operation`, which
have the same fields. -/
structure ApprovedTransferOperation where
  fee : Asset
  fromAccount : AccountId
  toAccount : AccountId
  arbitr : AccountId
  amount : Asset
  ato : Nat

/-- `approved_transfer_resolve_dispute_operation` -/
structure ApprovedTransferResolveDisputeOperation extends ApprovedTransferOperation where
  winner : AccountId

/-- `approved_transfer_create_operation::validate` -/
def ApprovedTransferCreateOperation.validate (op : ApprovedTransferCreateOperation) : Bool :=
  op.fromAccount ≠ op.arbitr ∧ op.toAccount ≠ op.arbitr ∧ op.fromAccount ≠ op.toAccount ∧
    0 < op.amount.amount ∧ 0 ≤ op.fee.amount

/-- The operation names the transfer as it is stored. -/
def ApprovedTransferOperation.Matches (op : ApprovedTransferOperation) (o : ApprovedTransfer) :
    Bool :=
  o.fromAccount = op.fromAccount ∧ o.toAccount = op.toAccount ∧ o.arbitr = op.arbitr ∧
    o.amount = op.amount

/-- `arbitr_reward`: the share of the arbiter, rounded down. -/
def arbitrReward (a : Int) (p : Nat) : Int := cutFee a p

/-- The commission of the arbiter of a transfer, five percent. -/
def approvedTransferArbitrComission : Nat := 5 * graphene1Percent

namespace Database

/-- `approved_transfer_create_evaluator::do_evaluate` -/
def approvedTransferCreateEvaluate (op : ApprovedTransferCreateOperation) (db : Database) : Bool :=
  hardforkCwd6Time ≤ db.headBlockTime ∧ db.headBlockTime < op.expiration ∧
    op.amount.assetId = 0 ∧ (db.accounts.find op.fromAccount).isSome ∧
    (db.assets.find op.amount.assetId).isSome ∧
    op.amount.amount ≤ db.getBalance op.fromAccount op.amount.assetId

/-- `approved_transfer_create_evaluator::do_apply` -/
def approvedTransferCreateApply (op : ApprovedTransferCreateOperation) (db : Database) :
    Option Database :=
  (db.adjustBalance op.fromAccount (-op.amount)).map fun db =>
    { db with
      approvedTransfers := db.approvedTransfers.create
        { fromAccount := op.fromAccount
          toAccount := op.toAccount
          arbitr := op.arbitr
          amount := op.amount
          expiration := op.expiration
          status := 0 } }

/-- The create operation, fee included. -/
def approvedTransferCreate (db : Database) (op : ApprovedTransferCreateOperation) :
    Option Database :=
  if op.validate then
    db.applyOperation op.fromAccount op.fee (approvedTransferCreateEvaluate op)
      (approvedTransferCreateApply op)
  else none

/-- `approved_transfer_approve_evaluator::do_evaluate` -/
def approvedTransferApproveEvaluate (op : ApprovedTransferOperation) (db : Database) : Bool :=
  (db.approvedTransfers.find op.ato).any op.Matches

/-- `approved_transfer_approve_evaluator::do_apply` -/
def approvedTransferApproveApply (op : ApprovedTransferOperation) (db : Database) :
    Option Database :=
  (db.approvedTransfers.find op.ato).bind fun o =>
    (db.adjustBalance o.toAccount o.amount).map fun db =>
      { db with approvedTransfers := db.approvedTransfers.remove op.ato }

/-- The approve operation, which the sender pays for and authorises. -/
def approvedTransferApprove (db : Database) (op : ApprovedTransferOperation) : Option Database :=
  db.applyOperation op.fromAccount op.fee (approvedTransferApproveEvaluate op)
    (approvedTransferApproveApply op)

/-- `approved_transfer_open_dispute_evaluator::do_evaluate` -/
def approvedTransferOpenDisputeEvaluate (op : ApprovedTransferOperation) (db : Database) : Bool :=
  (db.approvedTransfers.find op.ato).any fun o => op.Matches o && o.status == 0

/-- `approved_transfer_open_dispute_evaluator::do_apply` -/
def approvedTransferOpenDisputeApply (op : ApprovedTransferOperation) (db : Database) :
    Option Database :=
  (db.approvedTransfers.find op.ato).map fun _ =>
    { db with
      approvedTransfers := db.approvedTransfers.modify op.ato fun o =>
        { o with status := 1, expiration := 0 } }

/-- The open-dispute operation, which the recipient pays for and authorises. -/
def approvedTransferOpenDispute (db : Database) (op : ApprovedTransferOperation) :
    Option Database :=
  db.applyOperation op.toAccount op.fee (approvedTransferOpenDisputeEvaluate op)
    (approvedTransferOpenDisputeApply op)

/-- `approved_transfer_resolve_dispute_evaluator::do_evaluate` -/
def approvedTransferResolveDisputeEvaluate (op : ApprovedTransferResolveDisputeOperation)
    (db : Database) : Bool :=
  (db.approvedTransfers.find op.ato).any fun o =>
    op.toApprovedTransferOperation.Matches o && o.status == 1 &&
      (op.winner == op.fromAccount || op.winner == op.toAccount)

/-- `approved_transfer_resolve_dispute_evaluator::do_apply` -/
def approvedTransferResolveDisputeApply (op : ApprovedTransferResolveDisputeOperation)
    (db : Database) : Option Database :=
  (db.approvedTransfers.find op.ato).bind fun o =>
    let arbitrAmount := arbitrReward o.amount.amount approvedTransferArbitrComission
    let winnerAmount := o.amount.amount - arbitrAmount
    (db.adjustBalance op.winner ⟨winnerAmount, o.amount.assetId⟩).bind fun db =>
      (db.adjustBalance o.arbitr ⟨arbitrAmount, o.amount.assetId⟩).map fun db =>
        { db with approvedTransfers := db.approvedTransfers.remove op.ato }

/-- The resolve-dispute operation, which the arbiter pays for and authorises. -/
def approvedTransferResolveDispute (db : Database)
    (op : ApprovedTransferResolveDisputeOperation) : Option Database :=
  db.applyOperation op.arbitr op.fee (approvedTransferResolveDisputeEvaluate op)
    (approvedTransferResolveDisputeApply op)

/-! ### The sweep -/

/-- The condition under which the loop of the sweep cancels a transfer. -/
def approvedTransferExpired (headTime : Nat) (o : ApprovedTransfer) : Bool :=
  o.status == 0 && decide (o.expiration ≤ headTime)

/-- `database::proceed_approved_transfer`: expired transfers are refunded and marked, in the order
of their expiration, and the marked ones are then removed from the back of the index by status. -/
def proceedApprovedTransfer (db : Database) : Option Database :=
  (OrderedTable.sweep (approvedTransferExpired db.headBlockTime)
    (fun o => { o with status := 2, expiration := 0 })
    (fun m _ o => Balances.adjust m o.fromAccount o.amount)
    db.headBlockTime db.approvedTransfers db.balances).map fun (t, m) =>
      { db with
        balances := m
        approvedTransfers := OrderedTable.eraseBack ApprovedTransfer.status 2 t.rows.length t }

/-! ### What each of them does -/

variable {db db' : Database}

theorem approvedTransferCreate_eq_some {op : ApprovedTransferCreateOperation}
    (h : db.approvedTransferCreate op = some db') :
    op.validate = true ∧ approvedTransferCreateEvaluate op db = true ∧ adjustAll db.balances
        [(op.fromAccount, -op.amount), (op.fromAccount, -op.fee)] = some db'.balances ∧
      db'.approvedTransfers = db.approvedTransfers.create
        ⟨op.fromAccount, op.toAccount, op.arbitr, op.amount, op.expiration, 0⟩ ∧
      db'.headBlockTime = db.headBlockTime := by
  obtain ⟨hv, coreFee, db1, m, -, hev, hap, hm, rfl⟩ := operation_eq_some h
  obtain ⟨db2, hadj, rfl⟩ := map_eq_some_iff.1 hap
  obtain ⟨m1, hm1, rfl⟩ := adjustBalance_eq_some hadj
  exact ⟨hv, hev, adjustAll_pair hm1 hm, rfl, rfl⟩

theorem approvedTransferApprove_eq_some {op : ApprovedTransferOperation}
    (h : db.approvedTransferApprove op = some db') :
    ∃ o, db.approvedTransfers.find op.ato = some o ∧ op.Matches o = true ∧ adjustAll db.balances
        [(o.toAccount, o.amount), (op.fromAccount, -op.fee)] = some db'.balances ∧
      db'.approvedTransfers = db.approvedTransfers.remove op.ato ∧
      db'.headBlockTime = db.headBlockTime := by
  obtain ⟨coreFee, db1, m, -, hev, hap, hm, rfl⟩ := applyOperation_eq_some h
  obtain ⟨o, ho, hap⟩ := bind_eq_some_iff.1 hap
  obtain ⟨db2, hadj, rfl⟩ := map_eq_some_iff.1 hap
  obtain ⟨m1, hm1, rfl⟩ := adjustBalance_eq_some hadj
  have ho' : db.approvedTransfers.find op.ato = some o := ho
  refine ⟨o, ho', ?_, adjustAll_pair hm1 hm, rfl, rfl⟩
  simpa [approvedTransferApproveEvaluate, ho'] using hev

theorem approvedTransferOpenDispute_eq_some {op : ApprovedTransferOperation}
    (h : db.approvedTransferOpenDispute op = some db') :
    ∃ o, db.approvedTransfers.find op.ato = some o ∧ op.Matches o = true ∧ o.status = 0 ∧
      adjustAll db.balances [(op.toAccount, -op.fee)] = some db'.balances ∧
      db'.approvedTransfers = db.approvedTransfers.modify op.ato
        (fun o => { o with status := 1, expiration := 0 }) ∧
        db'.headBlockTime = db.headBlockTime := by
  obtain ⟨coreFee, db1, m, -, hev, hap, hm, rfl⟩ := applyOperation_eq_some h
  obtain ⟨o, ho, rfl⟩ := map_eq_some_iff.1 hap
  have ho' : db.approvedTransfers.find op.ato = some o := ho
  simp only [approvedTransferOpenDisputeEvaluate, ho', any_some, Bool.and_eq_true,
    beq_iff_eq] at hev
  refine ⟨o, ho', hev.1, hev.2, ?_, rfl, rfl⟩
  have hm' : adjust db.balances op.toAccount (-op.fee) = some m := hm
  rw [adjustAll_cons, hm']
  rfl

theorem approvedTransferResolveDispute_eq_some {op : ApprovedTransferResolveDisputeOperation}
    (h : db.approvedTransferResolveDispute op = some db') :
      ∃ o, db.approvedTransfers.find op.ato = some o ∧
      op.toApprovedTransferOperation.Matches o = true ∧ o.status = 1 ∧
      (op.winner = op.fromAccount ∨ op.winner = op.toAccount) ∧
      adjustAll db.balances [(op.winner, ⟨o.amount.amount -
            arbitrReward o.amount.amount approvedTransferArbitrComission, o.amount.assetId⟩),
          (o.arbitr, ⟨arbitrReward o.amount.amount approvedTransferArbitrComission,
          o.amount.assetId⟩), (op.arbitr, -op.fee)] = some db'.balances ∧
      db'.approvedTransfers = db.approvedTransfers.remove op.ato ∧
      db'.headBlockTime = db.headBlockTime := by
  obtain ⟨coreFee, db1, m, -, hev, hap, hm, rfl⟩ := applyOperation_eq_some h
  obtain ⟨o, ho, hap⟩ := bind_eq_some_iff.1 hap
  obtain ⟨db2, hadj, hap⟩ := bind_eq_some_iff.1 hap
  obtain ⟨m1, hm1, rfl⟩ := adjustBalance_eq_some hadj
  obtain ⟨db3, hadj, rfl⟩ := map_eq_some_iff.1 hap
  obtain ⟨m2, hm2, rfl⟩ := adjustBalance_eq_some hadj
  have ho' : db.approvedTransfers.find op.ato = some o := ho
  simp only [approvedTransferResolveDisputeEvaluate, ho', any_some, Bool.and_eq_true,
    Bool.or_eq_true, beq_iff_eq] at hev
  exact ⟨o, ho', hev.1.1, hev.1.2, hev.2, adjustAll_concat (adjustAll_pair hm1 hm2) hm, rfl, rfl⟩

end Database

end CrowdwizChain
