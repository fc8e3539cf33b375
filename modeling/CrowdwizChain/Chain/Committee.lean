import CrowdwizChain.Chain.Evaluator

/-!
# The committee

The operations by which the committee sets the parameters of the chain, of
`committee_member_evaluator.cpp`, with `chain_parameters::validate`, and the checks of
`proposal_create_evaluator`. The parameters can be set by a proposed transaction only, so that the
committee can go on governing only if it can make a proposal.

New parameters of the chain are pending until the next maintenance. The other two kinds of
parameters are in force at once, and nothing is checked about them.

Fields of the parameters are unsigned integers of a fixed width (`ChainParameters.InRange`), and
`validate` subtracts two of them as such.
-/

namespace CrowdwizChain

open Option

/-! ### Operations -/

/-- The widths of the fields of `chain_parameters` that are checked. -/
structure ChainParameters.InRange (p : ChainParameters) : Prop where
  blockInterval : p.blockInterval < 2 ^ 8
  maintenanceInterval : p.maintenanceInterval < 2 ^ 32
  committeeProposalReviewPeriod : p.committeeProposalReviewPeriod < 2 ^ 32
  maximumProposalLifetime : p.maximumProposalLifetime < 2 ^ 32

/-- `chain_parameters::validate`; the validation of the fee schedule does nothing. -/
def ChainParameters.validate (p : ChainParameters) : Bool :=
  p.reservePercentOfFee ≤ graphene100Percent && p.networkPercentOfFee ≤ graphene100Percent &&
    p.lifetimeReferrerPercentOfFee ≤ graphene100Percent &&
    p.networkPercentOfFee + p.lifetimeReferrerPercentOfFee ≤ graphene100Percent &&
    1 ≤ p.blockInterval && p.blockInterval ≤ 30 && 0 < p.blockInterval &&
    p.blockInterval < p.maintenanceInterval && p.maintenanceInterval % p.blockInterval = 0 &&
    1024 ≤ p.maximumTransactionSize && 1024 * 5 ≤ p.maximumBlockSize &&
    p.blockInterval < p.maximumTimeUntilExpiration &&
    -- a subtraction of `uint32_t`
    p.blockInterval < (p.maximumProposalLifetime + 2 ^ 32 - p.committeeProposalReviewPeriod) %
    2 ^ 32

/-- `committee_member_update_global_parameters_operation` -/
structure CommitteeMemberUpdateGlobalParametersOperation where
  fee : Asset
  newParameters : ChainParameters

/-- `committee_member_update_gamezone_parameters_operation` -/
structure CommitteeMemberUpdateGamezoneParametersOperation where
  fee : Asset
  newParameters : GamezoneParameters

/-- `committee_member_update_staking_parameters_operation` -/
structure CommitteeMemberUpdateStakingParametersOperation where
  fee : Asset
  newParameters : StakingParameters

/-- `committee_member_update_global_parameters_operation::validate` -/
def CommitteeMemberUpdateGlobalParametersOperation.validate
    (op : CommitteeMemberUpdateGlobalParametersOperation) : Bool :=
  0 ≤ op.fee.amount && op.newParameters.validate

/-- `committee_member_update_gamezone_parameters_operation::validate` -/
def CommitteeMemberUpdateGamezoneParametersOperation.validate
    (op : CommitteeMemberUpdateGamezoneParametersOperation) : Bool :=
  0 ≤ op.fee.amount

/-- `committee_member_update_staking_parameters_operation::validate` -/
def CommitteeMemberUpdateStakingParametersOperation.validate
    (op : CommitteeMemberUpdateStakingParametersOperation) : Bool :=
  0 ≤ op.fee.amount

/-- An operation of a proposal: one of the committee, or another one, of which it is known whether
it is valid, whose authority it requires, and how many other authorities. -/
inductive ProposedOperation
  | globalParameters (op : CommitteeMemberUpdateGlobalParametersOperation)
  | gamezoneParameters (op : CommitteeMemberUpdateGamezoneParametersOperation)
  | stakingParameters (op : CommitteeMemberUpdateStakingParametersOperation)
  | other (valid : Bool) (required : List AccountId) (otherAuthorities : Nat)

namespace ProposedOperation

/-- `operation_validate` -/
def validate : ProposedOperation → Bool
  | globalParameters op => op.validate
  | gamezoneParameters op => op.validate
  | stakingParameters op => op.validate
  | other valid _ _ => valid

/-- `operation_get_required_authorities`, the accounts: the operations of the committee are
paid for by its account. -/
def requiredAccounts : ProposedOperation → List AccountId
  | other _ required _ => required
  | _ => [grapheneCommitteeAccount]

/-- `operation_get_required_authorities`, the number of other authorities -/
def otherAuthorities : ProposedOperation → Nat
  | other _ _ n => n
  | _ => 0

end ProposedOperation

/-- `proposal_create_operation`, what its evaluator reads of it. -/
structure ProposalCreateOperation where
  proposedOps : List ProposedOperation
  expirationTime : Nat
  reviewPeriodSeconds : Option Nat

namespace Database

/-! ### Evaluators -/

/-- `committee_member_update_global_parameters`, in a proposed transaction -/
def committeeMemberUpdateGlobalParameters (db : Database)
    (op : CommitteeMemberUpdateGlobalParametersOperation) : Option Database :=
  if op.validate then
    db.applyOperation grapheneCommitteeAccount op.fee (fun _ => true) fun db =>
      some { db with pendingParameters := some op.newParameters }
  else none

/-- `committee_member_update_gamezone_parameters`, in a proposed transaction -/
def committeeMemberUpdateGamezoneParameters (db : Database)
    (op : CommitteeMemberUpdateGamezoneParametersOperation) : Option Database :=
  if op.validate then
    db.applyOperation grapheneCommitteeAccount op.fee (fun _ => true) fun db =>
      some { db with gamezoneParameters := op.newParameters }
  else none

/-- `committee_member_update_staking_parameters`, in a proposed transaction -/
def committeeMemberUpdateStakingParameters (db : Database)
    (op : CommitteeMemberUpdateStakingParametersOperation) : Option Database :=
  if op.validate then
    db.applyOperation grapheneCommitteeAccount op.fee (fun _ => true) fun db =>
      some { db with stakingParameters := op.newParameters }
  else none

/-- The part of `database::perform_chain_maintenance` about the parameters: the scaling of the fee
for new accounts is taken back, and pending parameters come into force. -/
def maintainParameters (db : Database) : Option Database :=
  let p := db.parameters
  if p.accountsPerFeeScale = 0 then none
  else
    let unscaled : ChainParameters :=
      { p with
        accountCreateBasicFee := p.accountCreateBasicFee >>>
          (p.accountFeeScaleBitshifts *
            (db.accountsRegisteredThisInterval / p.accountsPerFeeScale)) }
    some { db with parameters := db.pendingParameters.getD unscaled, pendingParameters := none }

/-- `proposal_create_evaluator::do_evaluate`. The check that the review period is as long as the
committee requires is commented out in the source. -/
def proposalCreateEvaluate (op : ProposalCreateOperation) (db : Database) : Bool :=
  db.headBlockTime < op.expirationTime &&
    op.expirationTime ≤ timePointSec db.headBlockTime db.parameters.maximumProposalLifetime &&
    (op.reviewPeriodSeconds.all fun review => review < op.expirationTime - db.headBlockTime) &&
    (op.proposedOps.all fun o => o.otherAuthorities = 0) &&
    (!(op.proposedOps.flatMap ProposedOperation.requiredAccounts).contains
      grapheneCommitteeAccount || op.reviewPeriodSeconds.isSome) &&
    !op.proposedOps.isEmpty && op.proposedOps.all ProposedOperation.validate

/-! ### Whether the committee can go on governing -/

variable {db db' : Database}

theorem committeeMemberUpdateGlobalParameters_eq_some
    {op : CommitteeMemberUpdateGlobalParametersOperation}
    (h : db.committeeMemberUpdateGlobalParameters op = some db') :
    op.validate = true ∧ db'.pendingParameters = some op.newParameters := by
  obtain ⟨hvalid, coreFee, db1, m, -, -, happly, -, rfl⟩ := operation_eq_some h
  cases happly
  exact ⟨hvalid, rfl⟩

theorem maintainParameters_eq_some (h : db.maintainParameters = some db') :
    ∀ p, db.pendingParameters = some p → db'.parameters = p := by
  intro p hp
  obtain ⟨-, h⟩ := ite_none_left_eq_some.1 h
  cases h
  rw [hp]
  rfl

/-- The times of a proposal to update the parameters of the chain further. -/
def furtherUpdate (op : CommitteeMemberUpdateGlobalParametersOperation) (expiration review : Nat) :
    ProposalCreateOperation where
  proposedOps := [.globalParameters op]
  expirationTime := expiration
  reviewPeriodSeconds := some review

/-- What is checked about a proposal to update the parameters further: the times, and the update. -/
theorem proposalCreateEvaluate_furtherUpdate (op : CommitteeMemberUpdateGlobalParametersOperation)
    (expiration review : Nat) :
    db.proposalCreateEvaluate (furtherUpdate op expiration review) = true ↔
        (db.headBlockTime < expiration ∧
        expiration ≤ timePointSec db.headBlockTime db.parameters.maximumProposalLifetime ∧
        review < expiration - db.headBlockTime) ∧ op.validate = true := by
  unfold proposalCreateEvaluate furtherUpdate
  simp [ProposedOperation.otherAuthorities, ProposedOperation.requiredAccounts,
    ProposedOperation.validate, and_assoc]

/-- At some time a proposal can be made to update the parameters of the chain further, with a review
period that is not below the one of the committee. -/
def CanPropose (db : Database) (time : Nat) : Prop :=
  ∃ expiration review, expiration < 2 ^ 32 ∧ review < 2 ^ 32 ∧
    db.parameters.committeeProposalReviewPeriod ≤ review ∧
    ∀ op : CommitteeMemberUpdateGlobalParametersOperation, op.validate = true →
      proposalCreateEvaluate (furtherUpdate op expiration review)
        { db with headBlockTime := time } = true

/-- An update that passes its validation, with the default parameters. -/
def defaultUpdate : CommitteeMemberUpdateGlobalParametersOperation := ⟨Asset.core 0, {}⟩

/-- At one time: the lifetime of a proposal is longer than its review period, and the time at which
it ends is not beyond the last one that there is. -/
theorem canPropose_iff (time : Nat) (htime : time < 2 ^ 32) (hrange : db.parameters.InRange) :
    db.CanPropose time ↔
        db.parameters.committeeProposalReviewPeriod < db.parameters.maximumProposalLifetime ∧
        time + db.parameters.maximumProposalLifetime < 2 ^ 32 := by
  have hperiod := hrange.committeeProposalReviewPeriod
  have hlifetime := hrange.maximumProposalLifetime
  constructor
  · rintro ⟨expiration, review, -, -, hreview, haccepts⟩
    obtain ⟨⟨hstart, hend, hlong⟩, -⟩ := (proposalCreateEvaluate_furtherUpdate _ _ _).1
      (haccepts defaultUpdate (by decide))
    simp only [timePointSec] at hstart hend hlong
    omega
  · rintro ⟨hlong, hend⟩
    refine ⟨time + db.parameters.maximumProposalLifetime,
      db.parameters.committeeProposalReviewPeriod, hend, hperiod, le_refl _, fun op hop => ?_⟩
    refine (proposalCreateEvaluate_furtherUpdate _ _ _).2 ⟨⟨?_, ?_, ?_⟩, hop⟩
    all_goals
      simp only [timePointSec]
      omega

/-- **When governance is not locked out.** Parameters that an accepted update has set, and that
the maintenance has put into force, leave the committee able to propose a further update at every
time of 31 bits exactly if the review period is shorter than the lifetime of a proposal, and this
one is not above 2³¹. -/
theorem governance_not_locked_out_iff (op : CommitteeMemberUpdateGlobalParametersOperation)
    {db₁ db₂ : Database} (hrange : op.newParameters.InRange)
    (hop : db.committeeMemberUpdateGlobalParameters op = some db₁)
    (hmaintain : db₁.maintainParameters = some db₂) : (∀ time < 2 ^ 31, db₂.CanPropose time) ↔
      op.newParameters.committeeProposalReviewPeriod < op.newParameters.maximumProposalLifetime ∧
        op.newParameters.maximumProposalLifetime ≤ 2 ^ 31 := by
  obtain ⟨-, hpending⟩ := committeeMemberUpdateGlobalParameters_eq_some hop
  have hparameters := maintainParameters_eq_some hmaintain _ hpending
  rw [← hparameters] at hrange ⊢
  constructor
  · intro hall
    -- the last second is the hardest one
    have hlast := (canPropose_iff (2 ^ 31 - 1) (by decide) hrange).1 (hall _ (by decide))
    omega
  · rintro ⟨hlong, hshort⟩ time htime
    exact (canPropose_iff time (by omega) hrange).2 ⟨hlong, by omega⟩

/-- A chain with the committee account alone. -/
def committeeOnly : Database := .start hardforkCwd5Time [{ referrer := 0 }] 1000

/-- The default parameters leave governance open. -/
theorem governance_not_locked_out_by_default :
    ∃ db₁ db₂, committeeOnly.committeeMemberUpdateGlobalParameters defaultUpdate = some db₁ ∧
      db₁.maintainParameters = some db₂ ∧ ∀ time < 2 ^ 31, db₂.CanPropose time := by
  refine ⟨_, _, (some_get (by decide)).symm, (some_get (by decide)).symm, ?_⟩
  exact (governance_not_locked_out_iff defaultUpdate
    ⟨by decide, by decide, by decide, by decide⟩ (some_get (by decide)).symm
    (some_get (by decide)).symm).2 (by decide)

/-- A review period longer than the lifetime of a proposal: the difference wraps, and
is accepted. -/
def longReview : CommitteeMemberUpdateGlobalParametersOperation :=
  ⟨Asset.core 0, { committeeProposalReviewPeriod := 10000, maximumProposalLifetime := 7200 }⟩

/-- The update is accepted and comes into force, and no proposal with a sufficient review period can
be made any more, at any time. -/
theorem governance_locked_out : longReview.validate = true ∧
      ∃ db₁ db₂, committeeOnly.committeeMemberUpdateGlobalParameters longReview = some db₁ ∧
        db₁.maintainParameters = some db₂ ∧ ∀ time < 2 ^ 31, ¬db₂.CanPropose time := by
  refine ⟨by decide, _, _, (some_get (by decide)).symm, (some_get (by decide)).symm, ?_⟩
  rintro time - ⟨expiration, review, -, -, hreview, haccepts⟩
  obtain ⟨⟨hstart, hend, hlong⟩, -⟩ := (proposalCreateEvaluate_furtherUpdate _ _ _).1
    (haccepts defaultUpdate (by decide))
  have hperiod : 10000 ≤ review := hreview
  have hlifetime : expiration ≤ (time + 7200) % 2 ^ 32 := hend
  have hwait : review < expiration - time := hlong
  omega

end Database

end CrowdwizChain
