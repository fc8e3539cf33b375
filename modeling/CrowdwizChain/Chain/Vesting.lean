import CrowdwizChain.Chain.Cashback
import CrowdwizChain.Chain.VolumeDecay

/-!
# Vesting balances

`vesting_balance_object.cpp` and `vesting_balance_evaluator.cpp`. A linear policy releases what it
began with bit by bit; what was withdrawn is not recorded, but taken to be what the balance lacks.
The policy by coin days records the coin seconds that were earned, up to the balance for the whole
period, and spends them on withdrawals.

`vestingStep` is what happens to vesting balances over time, and `vestingStep_row` says once what
a step can do to a row. The bounds on withdrawals by a linear policy (`linear_vesting`) follow,
and those on coin seconds (`coin_days_vesting`) as far as the product of a vested amount and the
period fits into an `int64_t`.
-/

namespace CrowdwizChain

open Option Database Int Transition

/-! ### The policies -/

namespace LinearVestingPolicy

/-- `total_vested` after some seconds. The product of 64 and 32 bits is within `fc::uint128`. -/
def totalVested (p : LinearVestingPolicy) (elapsedSeconds : Nat) : Int :=
  if elapsedSeconds < p.vestingDurationSeconds then
    p.beginBalance * elapsedSeconds / p.vestingDurationSeconds
  else p.beginBalance

/-- `linear_vesting_policy::get_allowed_withdraw` -/
def getAllowedWithdraw (p : LinearVestingPolicy) (balance : Int) (now : Nat) : Int :=
  if p.beginTimestamp < now then
    let elapsedSeconds := now - p.beginTimestamp
    if p.vestingCliffSeconds ≤ elapsedSeconds then
      p.totalVested elapsedSeconds - (p.beginBalance - balance)
    else 0
  else 0

end LinearVestingPolicy

namespace CddVestingPolicy

/-- `cdd_vesting_policy::get_allowed_withdraw` -/
def getAllowedWithdraw (p : CddVestingPolicy) (balance : Int) (now : Nat) : Int :=
  if now ≤ p.startClaim then 0
  else (p.computeCoinSecondsEarned balance now / max p.vestingSeconds 1 : Nat)

/-- `cdd_vesting_policy::on_withdraw` -/
def onWithdraw (p : CddVestingPolicy) (balance : Int) (now : Nat) (amount : Int) :
    CddVestingPolicy :=
  let p := p.onDeposit balance now
  { p with coinSecondsEarned := toUInt128 (p.coinSecondsEarned - amount * max p.vestingSeconds 1) }

end CddVestingPolicy

namespace VestingBalance

/-- `vesting_balance_object::get_allowed_withdraw` -/
def getAllowedWithdraw (v : VestingBalance) (now : Nat) : Int :=
  match v.policy with
  | .linear p => p.getAllowedWithdraw v.balance.amount now
  | .cdd p => p.getAllowedWithdraw v.balance.amount now

/-- `vesting_balance_object::is_withdraw_allowed`; by coin days, another asset is
refused by the comparison. -/
def isWithdrawAllowed (v : VestingBalance) (now : Nat) (amount : Asset) : Bool :=
  amount.assetId = v.balance.assetId ∧ amount.amount ≤ v.getAllowedWithdraw now

/-- `vesting_balance_object::withdraw` -/
def withdraw (v : VestingBalance) (now : Nat) (amount : Int) : VestingBalance :=
  { v with
    policy := match v.policy with
      | .linear p => .linear p
      | .cdd p => .cdd (p.onWithdraw v.balance.amount now amount)
    balance := ⟨v.balance.amount - amount, v.balance.assetId⟩ }

end VestingBalance

/-! ### The operations -/

/-- `vesting_policy_initializer` -/
inductive VestingPolicyInitializer
  | linear (beginTimestamp vestingCliffSeconds vestingDurationSeconds : Nat)
  | cdd (startClaim vestingSeconds : Nat)

/-- `init_policy_visitor` -/
def VestingPolicyInitializer.init (initBalance : Int) (now : Nat) : VestingPolicyInitializer →
    VestingPolicy
  | .linear beginTimestamp vestingCliffSeconds vestingDurationSeconds =>
    .linear ⟨beginTimestamp, vestingCliffSeconds, vestingDurationSeconds, initBalance⟩
  | .cdd startClaim vestingSeconds => .cdd ⟨vestingSeconds, 0, startClaim, now⟩

/-- `vesting_balance_create_operation` -/
structure VestingBalanceCreateOperation where
  creator : AccountId
  owner : AccountId
  amount : Asset
  policy : VestingPolicyInitializer

/-- `vesting_balance_withdraw_operation` -/
structure VestingBalanceWithdrawOperation where
  vestingBalance : Nat
  owner : AccountId
  amount : Asset

namespace Database

/-- The vesting balance that `vesting_balance_create` makes. -/
def vestingOf (db : Database) (op : VestingBalanceCreateOperation) : VestingBalance :=
  ⟨op.owner, op.amount, op.policy.init op.amount.amount db.headBlockTime⟩

/-- `vesting_balance_create_evaluator` -/
def vestingBalanceCreate (db : Database) (op : VestingBalanceCreateOperation) : Option Database :=
  if (db.accounts.find op.creator).isSome ∧ (db.accounts.find op.owner).isSome ∧
      0 < op.amount.amount ∧ op.amount.amount ≤ db.getBalance op.creator op.amount.assetId ∧
        (db.assets.find op.amount.assetId).isSome then
    (db.modifyStatistics op.owner fun s =>
      if op.amount.assetId = 4 then { s with hadStaking := true } else s).bind fun db =>
      (db.adjustBalance op.creator (-op.amount)).map fun db =>
        { db with vestingBalances := db.vestingBalances.create (db.vestingOf op) }
  else none

/-- `vesting_balance_withdraw_evaluator` -/
def vestingBalanceWithdraw (db : Database) (op : VestingBalanceWithdrawOperation) :
    Option Database :=
  (db.vestingBalances.find op.vestingBalance).bind fun vbo =>
    if 0 < op.amount.amount ∧ op.owner = vbo.owner ∧
        vbo.isWithdrawAllowed db.headBlockTime op.amount ∧ (db.accounts.find op.owner).isSome then
      { db with
        vestingBalances := db.vestingBalances.modify op.vestingBalance fun v =>
          v.withdraw db.headBlockTime op.amount.amount }.adjustBalance op.owner op.amount
    else none

end Database

/-! ### The life of vesting balances -/

/-- What happens to vesting balances. -/
inductive VestingEvent
  | create (op : VestingBalanceCreateOperation)
  | withdraw (op : VestingBalanceWithdrawOperation)
  /-- a deposit into a balance by coin days; nothing is deposited into a linear one -/
  | deposit (id : Nat) (amount : Int) (requireVesting : Bool)
  | lazy (ovbid : Option Nat) (amount : Int) (seconds : Nat) (owner : AccountId)
      (requireVesting : Bool)
  /-- all else, fees and the time included -/
  | other (e : Database)

/-- One event. -/
def vestingStep (db : Database) : VestingEvent → Option Database
  | .create op => db.vestingBalanceCreate op
  | .withdraw op => db.vestingBalanceWithdraw op
  | .deposit id amount requireVesting => (db.vestingBalances.find id).bind fun v =>
    match v.policy with
    | .linear _ => none
    | .cdd p => some { db with
        vestingBalances := db.vestingBalances.modify id fun v =>
          v.depositCore p db.headBlockTime amount requireVesting }
  | .lazy ovbid amount seconds owner requireVesting =>
    (db.depositLazyVesting ovbid amount seconds owner requireVesting).map Prod.fst
  | .other e => some { e with
      vestingBalances := db.vestingBalances
      headBlockTime := max db.headBlockTime e.headBlockTime }

/-- What an event withdraws from a balance. -/
def VestingEvent.taken (id : Nat) : VestingEvent → Int
  | .withdraw op => if op.vestingBalance = id then op.amount.amount else 0
  | _ => 0

/-- The time after an event. -/
def VestingEvent.timeAfter (now : Nat) : VestingEvent → Nat
  | .other e => max now e.headBlockTime
  | _ => now

variable {db db' : Database} {e : VestingEvent} {id : Nat} {v : VestingBalance}

/-- What an event can do to the vesting balance under a number. -/
inductive RowStep (db : Database) (id : Nat) : VestingEvent → Option VestingBalance →
    Option VestingBalance → Prop
  | kept {e r} (h : e.taken id = 0) : RowStep db id e r r
  | created {op} (h : 0 < op.amount.amount) :
      RowStep db id (.create op) none (some (db.vestingOf op))
  | lazy {ovbid amount seconds owner requireVesting}
      (h : db.lazyTarget ovbid seconds owner = some none) :
      RowStep db id (.lazy ovbid amount seconds owner requireVesting) none
        (some (db.newVesting amount seconds owner requireVesting))
  | withdrawn {op v} (hid : op.vestingBalance = id) (hpos : 0 < op.amount.amount)
      (h : v.isWithdrawAllowed db.headBlockTime op.amount) :
      RowStep db id (.withdraw op) (some v) (some (v.withdraw db.headBlockTime op.amount.amount))
  | deposited {e v p amount requireVesting} (hp : v.policy = .cdd p)
      (h : e = .deposit id amount requireVesting ∨
        ∃ owner, e = .lazy (some id) amount p.vestingSeconds owner requireVesting) :
      RowStep db id e (some v) (some (v.depositCore p db.headBlockTime amount requireVesting))

theorem rowStep_create (hmade : RowStep db db.vestingBalances.nextId e none (some v))
    (hkept : ∀ i, e.taken i = 0) (i : Nat) :
    RowStep db i e (db.vestingBalances.find i) ((db.vestingBalances.create v).find i) := by
  rw [Table.find_create]
  split
  · next hi =>
    subst hi
    rw [Table.find_nextId]
    exact hmade
  · exact .kept (hkept i)

theorem rowStep_modify {f : VestingBalance → VestingBalance}
    (hv : db.vestingBalances.find id = some v)
    (hrow : RowStep db id e (some v) (some (f v))) (hkept : ∀ i, i ≠ id → e.taken i = 0) (i : Nat) :
    RowStep db i e (db.vestingBalances.find i) ((db.vestingBalances.modify id f).find i) := by
  rw [Table.find_modify]
  split
  · next hi =>
    subst hi
    rw [hv]
    exact hrow
  · next hi => exact .kept (hkept i hi)

theorem Database.vestingBalanceCreate_eq_some {op : VestingBalanceCreateOperation}
    (h : db.vestingBalanceCreate op = some db') : 0 < op.amount.amount ∧ ∃ s m, db' = { db with
      statistics := s, balances := m, vestingBalances :=
        db.vestingBalances.create (db.vestingOf op) } := by
  obtain ⟨⟨-, -, hpos, -⟩, h⟩ := ite_none_right_eq_some.1 h
  obtain ⟨db1, h1, h⟩ := bind_eq_some_iff.1 h
  obtain ⟨db2, h2, rfl⟩ := map_eq_some_iff.1 h
  obtain ⟨s, -, rfl⟩ := map_eq_some_iff.1 h1
  obtain ⟨m, -, rfl⟩ := adjustBalance_eq_some h2
  exact ⟨hpos, _, m, rfl⟩

/-- **What an event does**: one row changes, and the time moves on. -/
theorem vestingStep_row (h : vestingStep db e = some db') :
    (∀ i, RowStep db i e (db.vestingBalances.find i) (db'.vestingBalances.find i)) ∧
      db'.headBlockTime = e.timeAfter db.headBlockTime := by
  cases e with
  | create op =>
    obtain ⟨hpos, s, m, rfl⟩ := vestingBalanceCreate_eq_some h
    exact ⟨rowStep_create (.created hpos) fun _ => rfl, rfl⟩
  | withdraw op =>
    obtain ⟨v, hv, h⟩ := bind_eq_some_iff.1 h
    obtain ⟨⟨hpos, -, hallowed, -⟩, h⟩ := ite_none_right_eq_some.1 h
    obtain ⟨m, -, rfl⟩ := adjustBalance_eq_some h
    have hkept : ∀ i, i ≠ op.vestingBalance → (VestingEvent.withdraw op).taken i = 0 :=
      fun i hi => if_neg (Ne.symm hi)
    exact ⟨rowStep_modify hv (.withdrawn rfl hpos hallowed) hkept, rfl⟩
  | deposit id amount requireVesting =>
    obtain ⟨v, hv, h⟩ := bind_eq_some_iff.1 h
    split at h
    · cases h
    · next p hp =>
      cases h
      exact ⟨rowStep_modify hv (.deposited hp (.inl rfl)) fun _ _ => rfl, rfl⟩
  | lazy ovbid amount seconds owner requireVesting =>
    obtain ⟨⟨db1, new⟩, hlazy, rfl⟩ := map_eq_some_iff.1 h
    unfold depositLazyVesting at hlazy
    split at hlazy
    · cases hlazy
      exact ⟨fun _ => .kept rfl, rfl⟩
    · obtain ⟨target, htarget, hlazy⟩ := bind_eq_some_iff.1 hlazy
      rcases target with _ | ⟨id, vbo, p⟩
      · cases hlazy
        exact ⟨rowStep_create (.lazy htarget) fun _ => rfl, rfl⟩
      · obtain ⟨-, hlazy⟩ := ite_none_right_eq_some.1 hlazy
        cases hlazy
        obtain ⟨hv, -, rfl, hp, rfl⟩ := lazyTarget_eq_some htarget
        exact ⟨rowStep_modify hv (.deposited hp (.inr ⟨owner, rfl⟩)) fun _ _ => rfl, rfl⟩
  | other e =>
    cases h
    exact ⟨fun _ => .kept rfl, rfl⟩

/-! ### Linear policies -/

namespace LinearVestingPolicy

variable {p : LinearVestingPolicy} {now now' : Nat}

section

variable (h : 0 ≤ p.beginBalance)

include h

theorem totalVested_le (s : Nat) : p.totalVested s ≤ p.beginBalance := by
  rw [totalVested]
  split
  · next hs =>
    refine Int.ediv_le_of_le_mul (by omega) (mul_le_mul_of_nonneg_left ?_ h)
    exact_mod_cast hs.le
  · exact le_rfl

theorem totalVested_nonneg (s : Nat) : 0 ≤ p.totalVested s := by
  rw [totalVested]
  split
  · exact ediv_nonneg (mul_nonneg h (natCast_nonneg s)) (natCast_nonneg _)
  · exact h

theorem totalVested_mono {s t : Nat} (hst : s ≤ t) : p.totalVested s ≤ p.totalVested t := by
  by_cases ht : t < p.vestingDurationSeconds
  · rw [totalVested, totalVested, if_pos ht, if_pos (hst.trans_lt ht)]
    refine Int.ediv_le_ediv (by omega) (mul_le_mul_of_nonneg_left ?_ h)
    exact_mod_cast hst
  · rw [totalVested.eq_def p t, if_neg ht]
    exact totalVested_le h s

/-- What has vested at some time: nothing before the cliff. -/
def vestedAt (p : LinearVestingPolicy) (now : Nat) : Int :=
  if p.beginTimestamp < now ∧ p.vestingCliffSeconds ≤ now - p.beginTimestamp then
    p.totalVested (now - p.beginTimestamp)
  else 0

theorem vestedAt_nonneg (now : Nat) : 0 ≤ p.vestedAt now := by
  rw [vestedAt]
  split
  · exact totalVested_nonneg h _
  · exact le_rfl

theorem vestedAt_mono (hle : now ≤ now') : p.vestedAt now ≤ p.vestedAt now' := by
  by_cases hnow : p.beginTimestamp < now ∧ p.vestingCliffSeconds ≤ now - p.beginTimestamp
  · rw [vestedAt, vestedAt, if_pos hnow, if_pos ⟨by omega, by omega⟩]
    exact totalVested_mono h (Nat.sub_le_sub_right hle _)
  · rw [vestedAt, if_neg hnow]
    exact vestedAt_nonneg h now'

theorem vestedAt_le (now : Nat) : p.vestedAt now ≤ if p.vestingDurationSeconds = 0 then
    p.beginBalance
      else p.beginBalance * (min (now - p.beginTimestamp) p.vestingDurationSeconds : Nat) /
        p.vestingDurationSeconds := by
  have htotal : p.totalVested (now - p.beginTimestamp) = if p.vestingDurationSeconds = 0 then
      p.beginBalance
      else p.beginBalance * (min (now - p.beginTimestamp) p.vestingDurationSeconds : Nat) /
        p.vestingDurationSeconds := by
    rw [totalVested]
    split
    · next hlt => rw [if_neg (by omega), min_eq_left hlt.le]
    · next hlt =>
      rw [min_eq_right (not_lt.1 hlt)]
      split
      · rfl
      · exact (mul_ediv_cancel _ (by omega)).symm
  rw [← htotal, vestedAt]
  split
  · exact le_rfl
  · exact totalVested_nonneg h _

end

/-- As long as no more was withdrawn than had vested, the rest of that is allowed. -/
theorem getAllowedWithdraw_eq {total : Int} (hnonneg : 0 ≤ total) (hle : total ≤ p.vestedAt now) :
    p.getAllowedWithdraw (p.beginBalance - total) now = p.vestedAt now - total := by
  rw [vestedAt] at hle ⊢
  rw [getAllowedWithdraw]
  dsimp only
  split
  · split
    · next hbegin hcliff => rw [if_pos ⟨hbegin, hcliff⟩]; omega
    · next hbegin hcliff => rw [if_neg fun h => hcliff h.2] at hle ⊢; omega
  · next hbegin => rw [if_neg fun h => hbegin h.1] at hle ⊢; omega

end LinearVestingPolicy

/-- A balance by a linear policy, of which some total was withdrawn by now. -/
structure LinearRow (owner : AccountId) (asset : AssetId) (p : LinearVestingPolicy) (now : Nat)
    (total : Int) (v : VestingBalance) : Prop where
  row : v = ⟨owner, ⟨p.beginBalance - total, asset⟩, .linear p⟩
  nonneg : 0 ≤ total
  vested : total ≤ p.vestedAt now

/-- What a list of events withdraws from a balance. -/
def withdrawn (id : Nat) (l : List VestingEvent) : Int := (l.map (VestingEvent.taken id)).sum

section Linear

variable {owner : AccountId} {asset : AssetId} {p : LinearVestingPolicy} {now now' : Nat}
    {total : Int}

theorem LinearRow.allowed (h : LinearRow owner asset p now total v) (hp : 0 ≤ p.beginBalance)
    (hle : now ≤ now') : v.getAllowedWithdraw now' = p.vestedAt now' - total := by
  rw [h.row]
  exact p.getAllowedWithdraw_eq h.nonneg (h.vested.trans (p.vestedAt_mono hp hle))

variable (h : LinearRow owner asset p db.headBlockTime total v)
  (hp : 0 ≤ p.beginBalance)
  (hv : db.vestingBalances.find id = some v)

include h hp hv

/-- A step takes what it withdraws, and no more than is vested. -/
theorem LinearRow.step (hstep : vestingStep db e = some db') :
    ∃ v', db'.vestingBalances.find id = some v' ∧
      LinearRow owner asset p db'.headBlockTime (total + e.taken id) v' := by
  obtain ⟨hrow, htime⟩ := vestingStep_row hstep
  have hlater : db.headBlockTime ≤ db'.headBlockTime := by
    rw [htime, VestingEvent.timeAfter.eq_def]
    split
    · exact le_max_left _ _
    · exact le_rfl
  have hrow := hrow id
  rw [hv] at hrow
  generalize hr : db'.vestingBalances.find id = r at hrow
  cases hrow with
  | kept htaken =>
    rw [htaken, add_zero]
    exact ⟨v, rfl, h.row, h.nonneg, h.vested.trans (p.vestedAt_mono hp hlater)⟩
  | @withdrawn op _ hid hpos hallowed =>
    have hle := (of_decide_eq_true hallowed).2
    rw [h.allowed hp le_rfl] at hle
    have hmono := p.vestedAt_mono hp hlater
    have htaken : (VestingEvent.withdraw op).taken id = op.amount.amount := if_pos hid
    refine ⟨_, rfl, ?_, by rw [htaken]; have := h.nonneg; omega, by rw [htaken]; omega⟩
    rw [h.row, htaken, VestingBalance.withdraw]
    simp only [sub_sub]
  | deposited hpolicy _ =>
    rw [h.row] at hpolicy
    cases hpolicy

/-- **A whole run** takes the sum of its withdrawals. -/
theorem LinearRow.run {l : List VestingEvent} (hrun : run vestingStep db l = some db') :
    ∃ v', db'.vestingBalances.find id = some v' ∧
      LinearRow owner asset p db'.headBlockTime (total + withdrawn id l) v' := by
  induction l generalizing db total v with
  | nil =>
    cases hrun
    exact ⟨v, hv, by rwa [withdrawn, List.map_nil, List.sum_nil, add_zero]⟩
  | cons e l ih =>
    obtain ⟨db1, hstep, hrun⟩ := bind_eq_some_iff.1 hrun
    obtain ⟨v1, hv1, hrow⟩ := h.step hp hv hstep
    have hends := ih hrow hv1 hrun
    rwa [add_assoc] at hends

end Linear

/-- The guarantees of a linear policy, when some total was withdrawn from a balance. -/
structure LinearSound (op : VestingBalanceCreateOperation) (begins cliff duration : Nat)
    (total : Int) (db : Database) (id : Nat) (v : VestingBalance) : Prop where
  within : total ≤ if duration = 0 then op.amount.amount
    else op.amount.amount * (min (db.headBlockTime - begins) duration : Nat) / duration
  early : db.headBlockTime ≤ begins ∨ db.headBlockTime - begins < cliff → total = 0
  left : v.balance = ⟨op.amount.amount - total, op.amount.assetId⟩
  nonneg : ∀ now, db.headBlockTime ≤ now → 0 ≤ v.getAllowedWithdraw now
  mono : ∀ now now', db.headBlockTime ≤ now → now ≤ now' →
    v.getAllowedWithdraw now ≤ v.getAllowedWithdraw now'
  all : ∀ now, db.headBlockTime ≤ now → begins < now → max cliff duration ≤ now - begins →
    v.getAllowedWithdraw now = v.balance.amount
  accepted : ∀ w : VestingBalanceWithdrawOperation, w.vestingBalance = id → w.owner = op.owner →
    (db.accounts.find w.owner).isSome → 0 < w.amount.amount →
      ((db.vestingBalanceWithdraw w).isSome ↔ w.amount.assetId = op.amount.assetId ∧
        w.amount.amount ≤ v.getAllowedWithdraw db.headBlockTime)

theorem LinearRow.sound {op : VestingBalanceCreateOperation} {begins cliff duration : Nat}
    {total : Int}
    (h : LinearRow op.owner op.amount.assetId ⟨begins, cliff, duration,
      op.amount.amount⟩ db.headBlockTime
      total v) (hpos : 0 ≤ op.amount.amount) (hv : db.vestingBalances.find id = some v) :
    LinearSound op begins cliff duration total db id v where
  within := h.vested.trans (LinearVestingPolicy.vestedAt_le hpos _)
  early hearly := by
    have hvested := h.vested
    have hnonneg := h.nonneg
    rw [LinearVestingPolicy.vestedAt, if_neg (by dsimp only; omega)] at hvested
    omega
  left := by rw [h.row]
  nonneg now hle := by
    have hvested := h.vested.trans (LinearVestingPolicy.vestedAt_mono hpos hle)
    rw [h.allowed hpos hle]
    omega
  mono now now' hle hle' := by
    have hmono :=
      LinearVestingPolicy.vestedAt_mono (p := ⟨begins, cliff, duration, op.amount.amount⟩) hpos hle'
    rw [h.allowed hpos hle, h.allowed hpos (hle.trans hle')]
    omega
  all now hle hbegins hend := by
    rw [h.allowed hpos hle, h.row, LinearVestingPolicy.vestedAt,
      if_pos ⟨hbegins, (le_max_left _ _).trans hend⟩, LinearVestingPolicy.totalVested,
      if_neg (not_lt.2 ((le_max_right _ _).trans hend))]
  accepted := by
    rintro w rfl howner hknown hwpos
    have hrow : v.owner = op.owner ∧ v.balance.assetId = op.amount.assetId := by
      rw [h.row]
      exact ⟨rfl, rfl⟩
    rw [vestingBalanceWithdraw, hv, bind_some, VestingBalance.isWithdrawAllowed, hrow.1, hrow.2]
    constructor
    · intro hsome
      split at hsome
      · next hcond => exact of_decide_eq_true hcond.2.2.1
      · cases hsome
    · intro hallowed
      rw [if_pos ⟨hwpos, howner, decide_eq_true hallowed, hknown⟩]
      obtain ⟨m, hm⟩ := Balances.adjust_isSome hwpos.le
      rw [adjustBalance, hm]
      rfl

/-- **Linear vesting.** Whatever happens after `vesting_balance_create`, the withdrawals stay within
what has vested, what is allowed is never negative and only grows with time, all is allowed in the
end, and exactly what is allowed is accepted. -/
theorem linear_vesting {db₀ db₁ db₂ : Database} {op : VestingBalanceCreateOperation}
    {begins cliff duration : Nat} {l : List VestingEvent}
    (hpolicy : op.policy = .linear begins cliff duration)
    (hcreate : vestingStep db₀ (.create op) = some db₁) (hrun : run vestingStep db₁ l = some db₂) :
    ∃ v, db₂.vestingBalances.find db₀.vestingBalances.nextId = some v ∧
      LinearSound op begins cliff duration (withdrawn db₀.vestingBalances.nextId l) db₂
        db₀.vestingBalances.nextId v := by
  obtain ⟨hpos, s, m, hdb1⟩ := vestingBalanceCreate_eq_some hcreate
  have hv1 : db₁.vestingBalances.find db₀.vestingBalances.nextId = some (db₀.vestingOf op) := by
    rw [hdb1]
    exact Table.find_create_self _
  have hrow1 : LinearRow op.owner op.amount.assetId ⟨begins, cliff, duration, op.amount.amount⟩
      db₁.headBlockTime 0 (db₀.vestingOf op) := by
    refine ⟨?_, le_rfl, LinearVestingPolicy.vestedAt_nonneg hpos.le _⟩
    rw [vestingOf, hpolicy, sub_zero]
    rfl
  obtain ⟨v, hv, hrow⟩ := hrow1.run hpos.le hv1 hrun
  rw [zero_add] at hrow
  exact ⟨v, hv, hrow.sound hpos.le hv⟩

/-- Two accounts, after the fork. -/
def vestingChain : Database :=
  Database.start hardforkCwd7Time (List.replicate 2 { referrer := 0 }) 1000

/-- A thousand over a hundred seconds, none of it in the first ten. -/
def vestSlowly : VestingBalanceCreateOperation :=
  ⟨0, 1, .core 1000, .linear hardforkCwd7Time 10 100⟩

/-- A minute later, 400 of the 600 that are vested are withdrawn. -/
theorem linear_vesting_minute :
    ∃ db₁ db₂ v, vestingStep vestingChain (.create vestSlowly) = some db₁ ∧
      run vestingStep db₁ [.other { vestingChain with headBlockTime := hardforkCwd7Time + 60 },
        .withdraw ⟨0, 1, .core 400⟩] = some db₂ ∧ db₂.vestingBalances.find 0 = some v ∧
          LinearSound vestSlowly hardforkCwd7Time 10 100 400 db₂ 0 v := by
  have hcreate :=
    some_get (show (vestingStep vestingChain (.create vestSlowly)).isSome by decide +kernel)
  have hrun := some_get (show (run vestingStep
    ((vestingStep vestingChain (.create vestSlowly)).get (by decide +kernel))
    [.other { vestingChain with headBlockTime := hardforkCwd7Time + 60 },
      .withdraw ⟨0, 1, .core 400⟩]).isSome by
      decide +kernel)
  obtain ⟨v, hv, hsound⟩ := linear_vesting rfl hcreate.symm hrun.symm
  exact ⟨_, _, v, hcreate.symm, hrun.symm, hv, hsound⟩

/-- All of it at once, beginning now. -/
def vestNow : VestingBalanceCreateOperation := ⟨0, 1, .core 1000, .linear hardforkCwd7Time 0 0⟩

/-- In the second in which it begins, nothing may be withdrawn yet. -/
theorem nothing_vested_at_begin :
    (vestingStep vestingChain (.create vestNow)).any fun db =>
    (db.vestingBalances.find 0).any fun v =>
      max 0 0 ≤ db.headBlockTime - hardforkCwd7Time ∧ v.balance.amount = 1000 ∧
        v.getAllowedWithdraw db.headBlockTime = 0 := by
  decide +kernel

/-! ### Coin days -/

namespace CddVestingPolicy

variable {p q : CddVestingPolicy} {balance a : Int} {t now : Nat}

/-- The coin seconds that were earned are at most those of the whole period, and all is within
the limits of the chain. -/
structure Within (p : CddVestingPolicy) (balance : Int) (now : Nat) : Prop where
  nonneg : 0 ≤ balance
  le_max : balance ≤ grapheneMaxShareSupply
  seconds : p.vestingSeconds < 2 ^ 32
  earned : (p.coinSecondsEarned : Int) ≤ balance * (max p.vestingSeconds 1 : Nat)
  updated : p.coinSecondsEarnedLastUpdate ≤ now

theorem Within.later (h : p.Within balance t) (ht : t ≤ now) : p.Within balance now :=
  { h with updated := h.updated.trans ht }

theorem Within.mul_le (h : p.Within balance t) {n : Int} (h0 : 0 ≤ n) (hn : n ≤ 2 ^ 32) :
    0 ≤ balance * n ∧ balance * n ≤ 10 ^ 15 * 2 ^ 32 :=
  ⟨mul_nonneg h.nonneg h0, mul_le_mul h.le_max hn h0 (by decide)⟩

section

variable (h : p.Within balance now) (hnow : now < 2 ^ 32)

include h hnow

theorem Within.compute_eq : (p.computeCoinSecondsEarned balance now : Int) =
      min (p.coinSecondsEarned + balance * ((now : Int) - p.coinSecondsEarnedLastUpdate))
        (balance * (max p.vestingSeconds 1 : Nat)) := by
  have hupdated := h.updated
  have hseconds := h.seconds
  have hearned := h.earned
  obtain ⟨hdelta0, hdelta⟩ :=
    h.mul_le (n := now - p.coinSecondsEarnedLastUpdate) (by omega) (by omega)
  obtain ⟨hcap0, hcap⟩ := h.mul_le (n := (max p.vestingSeconds 1 : Nat)) (by omega) (by omega)
  rw [computeCoinSecondsEarned]
  rw [toUInt128, toUInt128, Nat.mod_eq_of_lt (by omega)]
  omega

theorem Within.compute_le :
    (p.computeCoinSecondsEarned balance now : Int) ≤ balance * (max p.vestingSeconds 1 : Nat) :=
  (h.compute_eq hnow).trans_le (min_le_right _ _)

theorem Within.allowed_le :
    0 ≤ p.getAllowedWithdraw balance now ∧ p.getAllowedWithdraw balance now ≤ balance := by
  rw [getAllowedWithdraw]
  split
  · exact ⟨le_rfl, h.nonneg⟩
  · refine ⟨Int.natCast_nonneg _, ?_⟩
    push_cast
    refine Int.ediv_le_of_le_mul (by omega) ?_
    exact_mod_cast h.compute_le hnow

/-- What is earned and the balance change by the same amount: so does what may be
withdrawn at once. -/
theorem Within.shift (hseconds : q.vestingSeconds = p.vestingSeconds)
    (hclaim : q.startClaim = p.startClaim)
    (hupdated : q.coinSecondsEarnedLastUpdate = now) (hearned : (q.coinSecondsEarned : Int) =
      p.computeCoinSecondsEarned balance now + a * (max p.vestingSeconds 1 : Nat))
    (hmax : balance + a ≤ grapheneMaxShareSupply) : q.Within (balance + a) now ∧
      (p.startClaim < now →
      q.getAllowedWithdraw (balance + a) now = p.getAllowedWithdraw balance now + a) := by
  have hle := h.compute_le hnow
  have hpos : (0 : Int) < (max p.vestingSeconds 1 : Nat) := by omega
  have hcap : (q.coinSecondsEarned : Int) ≤ (balance + a) * (max p.vestingSeconds 1 : Nat) := by
    rw [hearned, add_mul]
    omega
  have hnonneg : 0 ≤ balance + a :=
    nonneg_of_mul_nonneg_left ((natCast_nonneg _).trans hcap) hpos
  have hwithin : q.Within (balance + a) now :=
    ⟨hnonneg, hmax, hseconds ▸ h.seconds, hseconds ▸ hcap, hupdated.le⟩
  refine ⟨hwithin, fun hstart => ?_⟩
  have hself : (q.computeCoinSecondsEarned (balance + a) now : Int) = q.coinSecondsEarned := by
    rw [hwithin.compute_eq hnow, hupdated, sub_self, mul_zero, add_zero, hseconds, min_eq_left hcap]
  rw [getAllowedWithdraw, getAllowedWithdraw, hclaim, if_neg (not_le.2 hstart),
    if_neg (not_le.2 hstart),
    hseconds, natCast_ediv, natCast_ediv, hself, hearned, add_mul_ediv_right _ _ hpos.ne']

theorem Within.onDeposit (ha : 0 ≤ a)
    (hmax : balance + a ≤ grapheneMaxShareSupply) :
    (p.onDeposit balance now).Within (balance + a) now := by
  refine ⟨add_nonneg h.nonneg ha, hmax, h.seconds, (h.compute_le hnow).trans ?_, le_rfl⟩
  exact mul_le_mul_of_nonneg_right (by omega) (natCast_nonneg _)

end

theorem toUInt128_toInt64 (ha : 0 ≤ a) (hlt : a < 2 ^ 63) : (toUInt128 (toInt64 a) : Int) = a := by
  rw [toUInt128, toInt64]
  omega

theorem Within.onDepositVested (h : p.Within balance now) (hnow : now < 2 ^ 32) (ha : 0 ≤ a)
    (hfits : a * (max p.vestingSeconds 1 : Nat) < 2 ^ 63)
    (hmax : balance + a ≤ grapheneMaxShareSupply) :
    (p.onDepositVested balance now a).Within (balance + a) now ∧ (p.startClaim < now →
      (p.onDepositVested balance now a).getAllowedWithdraw (balance + a) now =
        p.getAllowedWithdraw balance now + a) := by
  refine h.shift hnow rfl rfl rfl ?_ hmax
  have hle := h.compute_le hnow
  have hseconds := h.seconds
  have hcap := (h.mul_le (n := (max p.vestingSeconds 1 : Nat)) (by omega) (by omega)).2
  have hword := toUInt128_toInt64 (mul_nonneg ha (natCast_nonneg _)) hfits
  show (((p.computeCoinSecondsEarned balance now +
    toUInt128 (toInt64 (a * (max p.vestingSeconds 1 : Nat)))) % 2 ^ 128 : Nat) : Int) = _
  omega

theorem Within.onWithdraw (h : p.Within balance now) (hnow : now < 2 ^ 32) (hpos : 0 < a)
    (ha : a ≤ p.getAllowedWithdraw balance now) :
      (p.onWithdraw balance now a).Within (balance - a) now ∧
      (p.onWithdraw balance now a).getAllowedWithdraw (balance - a) now =
        p.getAllowedWithdraw balance now - a := by
  have hmax := h.le_max
  have hstart : p.startClaim < now := by
    by_contra hstart
    rw [getAllowedWithdraw, if_pos (not_lt.1 hstart)] at ha
    omega
  have hshift : (p.onWithdraw balance now a).Within (balance + -a) now ∧ (p.startClaim < now →
      (p.onWithdraw balance now a).getAllowedWithdraw (balance + -a) now =
        p.getAllowedWithdraw balance now + -a) := by
    refine h.shift hnow rfl rfl rfl ?_ (by omega)
    have hle := h.compute_le hnow
    have hseconds := h.seconds
    have hcap := (h.mul_le (n := (max p.vestingSeconds 1 : Nat)) (by omega) (by omega)).2
    -- what may be withdrawn is worth at most the coin seconds that were earned
    have hspent : a * (max p.vestingSeconds 1 : Nat) ≤ p.computeCoinSecondsEarned balance now := by
      rw [getAllowedWithdraw, if_neg (not_le.2 hstart), Int.natCast_ediv] at ha
      exact Int.mul_le_of_le_ediv (by omega) ha
    have hspent0 : 0 ≤ a * ((max p.vestingSeconds 1 : Nat) : Int) :=
      mul_nonneg hpos.le (Int.natCast_nonneg _)
    show (toUInt128 (p.computeCoinSecondsEarned balance now - a * (max p.vestingSeconds 1 : Nat)) :
      Int) = _
    rw [neg_mul, toUInt128]
    omega
  exact ⟨hshift.1, hshift.2 hstart⟩

end CddVestingPolicy

/-- The balances by coin days are within the limits. -/
structure Database.CoinDays (db : Database) : Prop where
  time : db.headBlockTime < 2 ^ 32
  rows : ∀ id v p, db.vestingBalances.find id = some v → v.policy = .cdd p →
    p.Within v.balance.amount db.headBlockTime

/-- The amounts and times are within the limits of the chain. -/
def VestingEvent.InRange (db : Database) : VestingEvent → Prop
  | .create op => op.amount.amount ≤ grapheneMaxShareSupply ∧
    ∀ startClaim seconds, op.policy = .cdd startClaim seconds → seconds < 2 ^ 32
  | .withdraw _ => True
  | .deposit id amount _ => 0 ≤ amount ∧
    ∀ v, db.vestingBalances.find id = some v → v.balance.amount + amount ≤ grapheneMaxShareSupply
  | .lazy ovbid amount seconds _ _ => 0 ≤ amount ∧ amount ≤ grapheneMaxShareSupply ∧
    seconds < 2 ^ 32 ∧ ∀ id v, ovbid = some id → db.vestingBalances.find id = some v →
      v.balance.amount + amount ≤ grapheneMaxShareSupply
  | .other e => e.headBlockTime < 2 ^ 32

/-- What is deposited as vested is worth coin seconds within `int64_t`, and a balance that
starts vested has a period. -/
def VestingEvent.VestedFits (db : Database) : VestingEvent → Prop
  | .deposit id amount false => ∀ v p, db.vestingBalances.find id = some v → v.policy = .cdd p →
    amount * (max p.vestingSeconds 1 : Nat) < 2 ^ 63
  | .lazy ovbid amount seconds owner false => amount * (max seconds 1 : Nat) < 2 ^ 63 ∧
    (db.lazyTarget ovbid seconds owner = some none → 0 < seconds)
  | _ => True

theorem Database.newVesting_within (db : Database) (owner : AccountId) {amount : Int}
    {seconds : Nat} {requireVesting : Bool}
    (hrange : 0 ≤ amount ∧ amount ≤ grapheneMaxShareSupply) (hseconds : seconds < 2 ^ 32)
    (hfits : requireVesting = false → amount * (max seconds 1 : Nat) < 2 ^ 63) :
    ∃ p, (db.newVesting amount seconds owner requireVesting).policy = .cdd p ∧
      p.Within amount db.headBlockTime ∧
        (requireVesting = false → 0 < seconds → 0 < db.headBlockTime →
        db.headBlockTime < 2 ^ 32 → p.getAllowedWithdraw amount db.headBlockTime = amount) := by
  have hle : amount * (seconds : Int) ≤ amount * (max seconds 1 : Nat) :=
    mul_le_mul_of_nonneg_left (by omega) hrange.1
  have hword : requireVesting = false →
      (toUInt128 (toInt64 (amount * seconds)) : Int) = amount * seconds :=
    fun hvested => CddVestingPolicy.toUInt128_toInt64 (mul_nonneg hrange.1 (natCast_nonneg _))
      (hle.trans_lt (hfits hvested))
  have hwithin : CddVestingPolicy.Within ⟨seconds, if requireVesting then 0 else
      toUInt128 (toInt64 (amount * seconds)), 0, db.headBlockTime⟩ amount db.headBlockTime := by
    refine ⟨hrange.1, hrange.2, hseconds, ?_, le_rfl⟩
    cases requireVesting with
    | true => exact mul_nonneg hrange.1 (natCast_nonneg _)
    | false => exact (hword rfl).trans_le hle
  refine ⟨_, rfl, hwithin, ?_⟩
  rintro rfl hpos hstart htime
  have hcompute := hwithin.compute_eq htime
  simp only [Bool.false_eq_true, if_false, hword rfl, sub_self, mul_zero, add_zero,
    max_eq_left (Nat.one_le_iff_ne_zero.2 hpos.ne'), min_self] at hcompute
  rw [CddVestingPolicy.getAllowedWithdraw, if_neg (not_le.2 hstart), natCast_ediv]
  simp only [Bool.false_eq_true, if_false, max_eq_left (Nat.one_le_iff_ne_zero.2 hpos.ne')]
  rw [hcompute, mul_ediv_cancel _ (by omega)]

/-- The limits of an event that deposits into a balance by coin days. -/
theorem deposit_limits {p : CddVestingPolicy} {amount : Int} {requireVesting : Bool}
    (hv : db.vestingBalances.find id = some v) (hp : v.policy = .cdd p)
    (he : e = .deposit id amount requireVesting ∨
      ∃ owner, e = .lazy (some id) amount p.vestingSeconds owner requireVesting)
    (hrange : e.InRange db) (hfits : e.VestedFits db) :
    0 ≤ amount ∧ v.balance.amount + amount ≤ grapheneMaxShareSupply ∧
      (requireVesting = false → amount * (max p.vestingSeconds 1 : Nat) < 2 ^ 63) := by
  rcases he with rfl | ⟨owner, rfl⟩
  · refine ⟨hrange.1, hrange.2 v hv, ?_⟩
    rintro rfl
    exact hfits v p hv hp
  · refine ⟨hrange.1, hrange.2.2.2 id v rfl hv, ?_⟩
    rintro rfl
    exact hfits.1

/-- **Every step keeps the coin days within their limits.** -/
theorem Database.CoinDays.step (h : db.CoinDays) (hrange : e.InRange db) (hfits : e.VestedFits db)
    (hstep : vestingStep db e = some db') : db'.CoinDays := by
  obtain ⟨hrow, htime⟩ := vestingStep_row hstep
  have hbounds : db.headBlockTime ≤ db'.headBlockTime ∧ db'.headBlockTime < 2 ^ 32 := by
    rw [htime]
    cases e with
    | other d => exact ⟨le_max_left _ _, max_lt h.time hrange⟩
    | _ => exact ⟨le_rfl, h.time⟩
  refine ⟨hbounds.2, fun id v' p' hv' hp' => CddVestingPolicy.Within.later ?_ hbounds.1⟩
  have hrow := hrow id
  rw [hv'] at hrow
  generalize hr : db.vestingBalances.find id = r at hrow
  cases hrow with
  | kept => exact h.rows id v' p' hr hp'
  | @created op hpos =>
    cases hpolicy : op.policy with
    | linear =>
      rw [vestingOf, hpolicy] at hp'
      cases hp'
    | cdd startClaim seconds =>
      rw [vestingOf, hpolicy] at hp'
      cases hp'
      exact ⟨hpos.le, hrange.1, hrange.2 _ _ hpolicy, mul_nonneg hpos.le (natCast_nonneg _), le_rfl⟩
  | @lazy _ amount seconds owner requireVesting htarget =>
    obtain ⟨h0, hmax, hseconds, -⟩ := hrange
    have hvested : requireVesting = false → amount * (max seconds 1 : Nat) < 2 ^ 63 := by
      rintro rfl
      exact hfits.1
    obtain ⟨p, hp, hwithin, -⟩ := db.newVesting_within owner ⟨h0, hmax⟩ hseconds hvested
    cases hp.symm.trans hp'
    exact hwithin
  | @withdrawn op v hid hpos hallowed =>
    rw [VestingBalance.withdraw] at hp'
    cases hp : v.policy with
    | linear =>
      rw [hp] at hp'
      cases hp'
    | cdd p =>
      rw [hp] at hp'
      cases hp'
      have hle := (of_decide_eq_true hallowed).2
      rw [VestingBalance.getAllowedWithdraw, hp] at hle
      exact ((h.rows id v p hr hp).onWithdraw h.time hpos hle).1
  | @deposited _ v p amount requireVesting hp he =>
    have hwithin := h.rows id v p hr hp
    obtain ⟨h0, hmax, hvested⟩ := deposit_limits hr hp he hrange hfits
    cases hp'
    cases requireVesting with
    | true => exact hwithin.onDeposit h.time h0 hmax
    | false => exact (hwithin.onDepositVested h.time h0 (hvested rfl) hmax).1

/-- The guarantees of the policy by coin days. -/
structure Database.CoinDaysSound (db : Database) : Prop where
  earned : ∀ id v p, db.vestingBalances.find id = some v → v.policy = .cdd p →
    (p.coinSecondsEarned : Int) ≤ v.balance.amount * (max p.vestingSeconds 1 : Nat)
  allowed : ∀ id v p now, db.vestingBalances.find id = some v → v.policy = .cdd p →
    db.headBlockTime ≤ now → now < 2 ^ 32 →
      0 ≤ v.getAllowedWithdraw now ∧ v.getAllowedWithdraw now ≤ v.balance.amount
  withdraw : ∀ op db' v p, db.vestingBalances.find op.vestingBalance = some v → v.policy = .cdd p →
    vestingStep db (.withdraw op) = some db' →
      ∃ v', db'.vestingBalances.find op.vestingBalance = some v' ∧
      v'.getAllowedWithdraw db.headBlockTime = v.getAllowedWithdraw db.headBlockTime -
      op.amount.amount
  depositVested : ∀ id v p amount, db.vestingBalances.find id = some v → v.policy = .cdd p →
    (VestingEvent.deposit id amount false).InRange db →
    (VestingEvent.deposit id amount false).VestedFits db → p.startClaim < db.headBlockTime →
      (v.depositCore p db.headBlockTime amount false).getAllowedWithdraw db.headBlockTime =
        v.getAllowedWithdraw db.headBlockTime + amount
  lazyVested : ∀ ovbid amount seconds owner, db.lazyTarget ovbid seconds owner = some none →
    (VestingEvent.lazy ovbid amount seconds owner false).InRange db →
    (VestingEvent.lazy ovbid amount seconds owner false).VestedFits db → 0 < db.headBlockTime →
      (db.newVesting amount seconds owner false).getAllowedWithdraw db.headBlockTime = amount

theorem Database.CoinDays.sound (h : db.CoinDays) : db.CoinDaysSound where
  earned id v p hv hp := (h.rows id v p hv hp).earned
  allowed id v p now hv hp hle hnow := by
    rw [VestingBalance.getAllowedWithdraw, hp]
    exact ((h.rows id v p hv hp).later hle).allowed_le hnow
  withdraw op db' v p hv hp hstep := by
    have hrow := (vestingStep_row hstep).1 op.vestingBalance
    rw [hv] at hrow
    generalize hr : db'.vestingBalances.find op.vestingBalance = r at hrow
    cases hrow with
    | kept htaken =>
      rw [VestingEvent.taken, if_pos rfl] at htaken
      exact ⟨v, rfl, by rw [htaken, sub_zero]⟩
    | withdrawn _ hpos hallowed =>
      refine ⟨_, rfl, ?_⟩
      have hle := (of_decide_eq_true hallowed).2
      rw [VestingBalance.getAllowedWithdraw, hp] at hle
      rw [VestingBalance.withdraw, VestingBalance.getAllowedWithdraw,
        VestingBalance.getAllowedWithdraw, hp]
      exact ((h.rows _ v p hv hp).onWithdraw h.time hpos hle).2
    | deposited _ he => rcases he with he | ⟨_, he⟩ <;> cases he
  depositVested id v p amount hv hp hrange hfits hstart := by
    rw [VestingBalance.getAllowedWithdraw, VestingBalance.getAllowedWithdraw, hp]
    exact ((h.rows id v p hv hp).onDepositVested h.time hrange.1 (hfits v p hv hp)
      (hrange.2 v hv)).2 hstart
  lazyVested ovbid amount seconds owner htarget hrange hfits hstart := by
    obtain ⟨p, hp, -, hall⟩ :=
      db.newVesting_within owner ⟨hrange.1, hrange.2.1⟩ hrange.2.2.1 fun _ => hfits.1
    rw [VestingBalance.getAllowedWithdraw, hp]
    exact hall rfl (hfits.2 htarget) hstart h.time

/-- **Coin days.** Starting without vesting balances, as long as vested amounts fit, the coin
seconds are at most those of the whole period, and withdrawals and vested deposits change what is
allowed by their amount. -/
theorem coin_days_vesting {l : List VestingEvent} (hempty : ∀ id, db.vestingBalances.find id = none)
    (htime : db.headBlockTime < 2 ^ 32)
    (hmeets : Along vestingStep (fun db e => e.InRange db ∧ e.VestedFits db) db l)
    (hrun : run vestingStep db l = some db') : db'.CoinDaysSound := by
  have hstart : db.CoinDays := by
    refine ⟨htime, fun id v p hv => ?_⟩
    rw [hempty id] at hv
    cases hv
  refine CoinDays.sound ?_
  exact invariant_of_along (fun h hmeets hstep => h.step hmeets.1 hmeets.2 hstep) hstart hmeets hrun

/-- A reward that is vested at once, and withdrawn. -/
theorem coin_days_vesting_reward : ∃ db, run vestingStep vestingChain
      [.lazy none 1000 31536000 1 false, .withdraw ⟨0, 1, .core 400⟩] = some db ∧
      db.CoinDaysSound := by
  refine ⟨_, (some_get (by decide +kernel)).symm, coin_days_vesting (fun _ => rfl) (by decide) ?_
    (some_get (by decide +kernel)).symm⟩
  refine ⟨⟨⟨by decide, by decide, by decide, ?_⟩, by decide, fun _ => by decide⟩, ?_⟩
  · rintro id v ⟨⟩
  · exact fun _ _ => ⟨⟨trivial, trivial⟩, fun _ _ => trivial⟩

/-- Vested rewards of a million coins and more, over a year: the coin seconds of the first are
negative, that is, more than all there can be; those of the second wrap, and only a part of it may
be withdrawn. Without a period, nothing may. -/
theorem vested_reward_not_withdrawable :
    ((vestingStep vestingChain (.lazy none 300000000000 31536000 1 false)).any fun db =>
      (db.vestingBalances.find 0).any fun v => match v.policy with
        | .linear _ => false
        | .cdd p => v.balance.amount * (max p.vestingSeconds 1 : Nat) < p.coinSecondsEarned) ∧
    ((vestingStep vestingChain (.lazy none 600000000000 31536000 1 false)).any fun db =>
      (db.vestingBalances.find 0).any fun v => v.getAllowedWithdraw db.headBlockTime <
        600000000000) ∧
    ((vestingStep vestingChain (.lazy none 1000 0 1 false)).any fun db =>
      (db.vestingBalances.find 0).any fun v => v.getAllowedWithdraw db.headBlockTime = 0) := by
  decide +kernel

end CrowdwizChain
