import CrowdwizChain.Chain.RewardPlan

/-!
# New accounts, and new referrers

`account_create_evaluator` and `change_referrer_evaluator` of `account_evaluator.cpp`, with the
operations of `protocol/account.cpp`. A new account gets the next number and statistics of its own,
and every so many accounts the fee of this operation is shifted up. An account that gets another
referrer has its fees distributed to the old ones first.

From a hardfork on, a new referrer is looked at for loops: its referrers are gone through, one after
another, for as many rounds as the committee allows for compression.

Of `account_create_operation` the authorities, the voting options and the extensions are left out
with their checks, so that the model accepts more than the chain does.
-/

namespace CrowdwizChain

open Option

/-! ### Names -/

/-- `GRAPHENE_MIN_ACCOUNT_NAME_LENGTH` -/
def grapheneMinAccountNameLength : Nat := 1
/-- `GRAPHENE_MAX_ACCOUNT_NAME_LENGTH` -/
def grapheneMaxAccountNameLength : Nat := 63

/-- The letters that a name may have. -/
def isNameLetter (c : Char) : Bool := 'a' ≤ c ∧ c ≤ 'z'
/-- The digits that a name may have. -/
def isNameDigit (c : Char) : Bool := '0' ≤ c ∧ c ≤ '9'

/-- The checks of one round of `is_valid_name`, on the characters up to the next dot. -/
def isValidLabel (label : List Char) : Bool :=
  grapheneMinAccountNameLength ≤ label.length ∧ label.head?.any isNameLetter ∧
    (label.getLast?.any fun c => isNameLetter c || isNameDigit c) ∧
    (label.tail.dropLast.all fun c => isNameLetter c || isNameDigit c || c == '-')

/-- The loop of `is_valid_name`, from one label to the next. -/
def validLabels : Nat → List Char → Bool
  | 0, _ => false
  | n + 1, name =>
    let label := name.takeWhile (· ≠ '.')
    isValidLabel label &&
      match name.dropWhile (· ≠ '.') with
      | [] => true
      | _ :: rest => validLabels n rest

/-- `is_valid_name` -/
def isValidName (name : List Char) : Bool :=
  grapheneMinAccountNameLength ≤ name.length ∧ name.length ≤ grapheneMaxAccountNameLength ∧
    validLabels (name.length + 1) name

/-! ### Operations -/

/-- `account_create_operation` -/
structure AccountCreateOperation where
  fee : Asset
  registrar : AccountId
  referrer : AccountId
  referrerPercent : Nat := 0
  name : List Char

/-- `account_create_operation::validate` -/
def AccountCreateOperation.validate (op : AccountCreateOperation) : Bool :=
  0 ≤ op.fee.amount ∧ isValidName op.name ∧ op.referrerPercent ≤ graphene100Percent

/-- `change_referrer_operation` -/
structure ChangeReferrerOperation where
  fee : Asset
  accountId : AccountId
  newReferrer : AccountId

/-- `change_referrer_operation::validate` -/
def ChangeReferrerOperation.validate (op : ChangeReferrerOperation) : Bool := 0 ≤ op.fee.amount

namespace Database

/-! ### New accounts -/

/-- `account_create_evaluator::do_evaluate` -/
def accountCreateEvaluate (op : AccountCreateOperation) (db : Database) : Bool :=
  (db.accounts.find op.registrar).any Account.isLifetimeMember ∧
    (db.accounts.find op.referrer).any (fun referrer =>
      (db.parameters.rootAccount < op.referrer ∧ db.parameters.allowNonPartnerRegister = false) →
        0 < db.activeStatus referrer) ∧
    (op.name ≠ [] → db.accounts.inOrder.all fun e => e.2.name ≠ op.name)

/-- After every so many new accounts the basic fee of `account_create_operation`, a `uint64_t`, is
shifted to the left. The remainder by zero of the source is `none`. -/
def scaleAccountFee (db : Database) : Option Database :=
  let p := db.parameters
  if p.accountsPerFeeScale = 0 then none
  else if db.accountsRegisteredThisInterval % p.accountsPerFeeScale = 0 ∧
    p.accountFeeScaleBitshifts ≠ 0 then
    some { db with
      parameters := { p with
        accountCreateBasicFee := p.accountCreateBasicFee <<< p.accountFeeScaleBitshifts % 2 ^ 64 } }
  else some db

/-- `account_create_evaluator::do_apply` -/
def accountCreateApply (op : AccountCreateOperation) (db : Database) : Option Database :=
  (db.accounts.find op.referrer).bind fun _ =>
    scaleAccountFee { db with
      accounts := db.accounts.create
        { name := op.name
          referrer := op.referrer
          referralLevels := db.parameters.statusLevels.headD 0
          statusDenominator := db.parameters.statusDenominator.headD 0 }
      statistics := db.statistics.insert db.accounts.nextId {}
      accountsRegisteredThisInterval := (db.accountsRegisteredThisInterval + 1) % 2 ^ 32 }

/-- The creation of an account, which its registrar pays for. -/
def accountCreate (db : Database) (op : AccountCreateOperation) : Option Database :=
  if op.validate then
    db.applyOperation op.registrar op.fee (accountCreateEvaluate op) (accountCreateApply op)
  else none

/-! ### New referrers -/

/-- The loop of `change_referrer_evaluator` that looks for the account among the referrers of the
new referrer, from one account up: whether the change is allowed. -/
def changeReferrerLoop (db : Database) (accountId : AccountId) : Nat → Account → Option Bool
  | 0, _ => some true
  | n + 1, account =>
    (db.accounts.find account.referrer).bind fun tmpAcc =>
      if account.referrer = accountId then some false
      else if tmpAcc.referrer < db.parameters.rootAccount then some true
      else changeReferrerLoop db accountId n tmpAcc

/-- `change_referrer_evaluator::do_evaluate` -/
def changeReferrerEvaluate (op : ChangeReferrerOperation) (db : Database) : Bool :=
  (db.accounts.find op.accountId).any fun account =>
    ¬op.newReferrer < db.parameters.rootAccount ∧ op.newReferrer ≠ account.referrer ∧
      op.accountId ≠ op.newReferrer ∧ hardforkCwd7Time ≤ db.headBlockTime ∧
      (hardforkCore1480BlockNum < db.headBlockNum → ((db.accounts.find op.newReferrer).bind
          (db.changeReferrerLoop op.accountId db.parameters.compressionLevels)) = some true)

/-- `change_referrer_evaluator::do_apply` -/
def changeReferrerApply (op : ChangeReferrerOperation) (db : Database) : Option Database :=
  (db.processFees op.accountId).map fun db =>
    { db with
      accounts := db.accounts.modify op.accountId fun a => { a with referrer := op.newReferrer } }

/-- The change of a referrer, which the account itself pays for. -/
def changeReferrer (db : Database) (op : ChangeReferrerOperation) : Option Database :=
  if op.validate then
    db.applyOperation op.accountId op.fee (changeReferrerEvaluate op) (changeReferrerApply op)
  else none

/-! ### What they change -/

variable {db db' : Database}

/-- The fee of the next account is all that a scaling changes. -/
theorem scaleAccountFee_eq_some (h : db.scaleAccountFee = some db') :
    ∃ fee, db' = { db with parameters := { db.parameters with accountCreateBasicFee := fee } } := by
  obtain ⟨-, h⟩ := ite_none_left_eq_some.1 h
  split at h
  · exact ⟨_, (some.inj h).symm⟩
  · exact ⟨db.parameters.accountCreateBasicFee, (some.inj h).symm⟩

/-- A new account has the next number, and a referrer that exists. -/
theorem accountCreate_eq_some {op : AccountCreateOperation} (h : db.accountCreate op = some db') :
    ∃ account fee, account.referrer = op.referrer ∧ (db.accounts.find op.referrer).isSome ∧
      db'.accounts = db.accounts.create account ∧
      db'.parameters = { db.parameters with accountCreateBasicFee := fee } ∧
      db'.headBlockNum = db.headBlockNum := by
  obtain ⟨-, coreFee, db1, m, -, -, h1, -, rfl⟩ := operation_eq_some h
  obtain ⟨referrer, href, h1⟩ := bind_eq_some_iff.1 h1
  obtain ⟨fee, rfl⟩ := scaleAccountFee_eq_some h1
  exact ⟨_, fee, rfl, isSome_iff_exists.2 ⟨referrer, href⟩, rfl, rfl, rfl⟩

/-- What has been checked of a new referrer, and what the change of it leaves of the accounts. -/
theorem changeReferrer_eq_some {op : ChangeReferrerOperation}
    (h : db.changeReferrer op = some db') :
    (db.accounts.find op.accountId).isSome ∧ op.accountId ≠ op.newReferrer ∧
      (hardforkCore1480BlockNum < db.headBlockNum →
        ∃ referrer, db.accounts.find op.newReferrer = some referrer ∧
          db.changeReferrerLoop op.accountId db.parameters.compressionLevels referrer = some true) ∧
      ∃ db1 : Database, db1.referralView = db.referralView ∧
          db'.accounts = db1.accounts.modify op.accountId
          (fun a => { a with referrer := op.newReferrer }) ∧
        db'.parameters = db.parameters ∧ db'.headBlockNum = db.headBlockNum := by
  obtain ⟨-, coreFee, db1, m, -, hev, h1, -, rfl⟩ := operation_eq_some h
  obtain ⟨db2, h2, rfl⟩ := map_eq_some_iff.1 h1
  obtain ⟨fees, vested, hpending, -⟩ := processFees_eq_some h2
  have hview := (processFees_pays rfl hpending h2).referral.trans
    (referralView_convertAndPayFee db op.accountId op.fee coreFee).1
  simp only [changeReferrerEvaluate, any_eq_true, decide_eq_true_eq] at hev
  obtain ⟨account, haccount, -, -, hne, -, hloop⟩ := hev
  refine ⟨isSome_iff_exists.2 ⟨account, haccount⟩, hne,
    fun hfork => bind_eq_some_iff.1 (hloop hfork), db2, hview, rfl,
    congrArg ReferralView.parameters hview, congrArg ReferralView.headBlockNum hview⟩

end Database

end CrowdwizChain
