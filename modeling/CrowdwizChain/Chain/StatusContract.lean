import CrowdwizChain.Chain.AccountStatus

/-!
# What a status is worth

A status is paid for a year. An upgrade of the same status before the end adds a year; an upgrade to
another one starts a year of its own, and the unused part of what was paid becomes bonus days, at
the fee of the new status per day. This module compares the days with what was paid for them.

An account only records the last fee, as an amount of whatever asset it was paid in, and the time at
which the status ends. The observer of `StatusSystem` notes beside it the core fee of every period
that was paid for; so `unused` is the unused part of what was really paid. The record is as good as
the notes as long as all fees are paid in the core asset, no renewal is dearer than the period
before it, and the times stay within the 32 bits they have (`StatusSystem.Meets`). Otherwise a small
amount of a valuable asset buys any number of days, or a number that the loop never gets to.
-/

namespace CrowdwizChain

open Option List Function Nat Database Transition Int

/-- The seconds of the year that a fee pays for. -/
def statusYear : Nat := 365 * secondsPerDay

/-! ### Periods -/

/-- A period of a status: from the end of the period before it, at its core fee for a year. -/
structure Period where
  coreFee : Int
  ends : Nat

/-- The unused part of the core fees, from some time on. A fee is for a year: the amounts are
in fees times seconds. -/
def unused : List Period → Nat → Int
  | [], _ => 0
  | p :: ps, now => p.coreFee * (p.ends - now : Nat) + unused ps (max now p.ends)

theorem unused_nonneg {ps : List Period} (h : ∀ p ∈ ps, 0 ≤ p.coreFee) (now : Nat) :
    0 ≤ unused ps now := by
  induction ps generalizing now with
  | nil => exact le_rfl
  | cons p ps ih =>
    rw [forall_mem_cons] at h
    exact add_nonneg (mul_nonneg h.1 (natCast_nonneg _)) (ih h.2 _)

/-- **Periods of at least some fee** are worth at least that fee for the whole time. -/
theorem mul_le_unused {ps : List Period} {fee : Int} {ends : Nat} (hfee : 0 ≤ fee)
    (h : ∀ p ∈ ps, fee ≤ p.coreFee) (hends : ps.getLast?.map Period.ends = some ends) (now : Nat) :
    fee * (ends - now : Nat) ≤ unused ps now := by
  induction ps generalizing now with
  | nil => cases hends
  | cons p ps ih =>
    rw [forall_mem_cons] at h
    have hfirst : fee * (p.ends - now : Nat) ≤ p.coreFee * (p.ends - now : Nat) :=
      mul_le_mul_of_nonneg_right h.1 (natCast_nonneg _)
    rw [unused]
    cases ps with
    | nil =>
      obtain rfl : p.ends = ends := some.inj hends
      rw [unused, add_zero]
      exact hfirst
    | cons q ps =>
      have hrest := ih h.2 hends (max now p.ends)
      -- the time that is left is that of the first period and that of the others
      have hsplit :
          ((ends - now : Nat) : Int) ≤ (p.ends - now : Nat) + (ends - max now p.ends : Nat) := by
        omega
      calc fee * (ends - now : Nat) ≤ fee *
        ((p.ends - now : Nat) + (ends - max now p.ends : Nat)) :=
            mul_le_mul_of_nonneg_left hsplit hfee
        _ = fee * (p.ends - now : Nat) + fee * (ends - max now p.ends : Nat) := mul_add ..
        _ ≤ _ := add_le_add hfirst hrest

/-! ### The arithmetic of an upgrade -/

namespace Account

/-- Whether an upgrade adds a year to a status that has not expired. -/
def Renews (a : Account) (statusType now : Nat) : Prop :=
  statusType = a.referralStatusType ∧ now < a.referralStatusExpirationDate

instance (a : Account) (statusType now : Nat) : Decidable (a.Renews statusType now) :=
  inferInstanceAs (Decidable (_ ∧ _))

/-- The condition for an upgrade for a fee: a renewal is not dearer than the recorded fee, and the
new expiration stays within 32 bits, with the days that the recorded fee can buy at the new one. -/
def Fits (a : Account) (statusType : Nat) (fee : Int) (now : Nat) : Prop :=
  if a.Renews statusType now then
    fee ≤ a.referralStatusPaidFee ∧ a.referralStatusExpirationDate + statusYear < 2 ^ 32
  else now + statusYear < 2 ^ 32 ∧ (now < a.referralStatusExpirationDate →
    (now + statusYear : Nat) * fee + a.referralStatusPaidFee *
      (a.referralStatusExpirationDate - now : Nat) < 2 ^ 32 * fee)

instance (a : Account) (statusType : Nat) (fee : Int) (now : Nat) :
    Decidable (a.Fits statusType fee now) :=
  inferInstanceAs (Decidable (ite ..))

variable {a : Account} {statusType now : Nat} {fee : Int}

theorem shareMul_eq_some {x y z : Int} (h : shareMul x y = some z) : z = x * y := by
  rw [shareMul] at h
  split at h
  · exact (some.inj h).symm
  · cases h

/-- What is left, rounded down twice, is at most the fee for the time that is left. -/
theorem paidLastYear_le {paid : Int} (hpaid : 0 ≤ a.referralStatusPaidFee)
    (hnow : now < a.referralStatusExpirationDate) (h : a.paidLastYear now = some paid) :
    0 ≤ paid ∧
    paid * secondsPerDay ≤ a.referralStatusPaidFee *
    (a.referralStatusExpirationDate - now : Nat) := by
  obtain ⟨x, hx, h⟩ := bind_eq_some_iff.1 h
  have hday : (0 : Int) ≤ (a.referralStatusExpirationDate : Int) - now := by omega
  rw [tdiv_eq_ediv_of_nonneg hpaid, tdiv_eq_ediv_of_nonneg hday] at hx
  obtain rfl := shareMul_eq_some hx
  obtain rfl := shareMul_eq_some h
  have hrate0 : 0 ≤ a.referralStatusPaidFee / 365 := ediv_nonneg hpaid (by decide)
  have hdays0 : 0 ≤ ((a.referralStatusExpirationDate : Int) - now) / secondsPerDay :=
    ediv_nonneg hday (by decide)
  have hrate : a.referralStatusPaidFee / 365 * 365 ≤ a.referralStatusPaidFee :=
    Int.ediv_mul_le _ (by decide)
  have hdays : ((a.referralStatusExpirationDate : Int) - now) / secondsPerDay * secondsPerDay ≤
      (a.referralStatusExpirationDate - now : Nat) := by
    rw [Int.natCast_sub hnow.le]
    exact Int.ediv_mul_le _ (by decide)
  refine ⟨mul_nonneg (mul_nonneg hrate0 hdays0) (by decide), ?_⟩
  calc _ = a.referralStatusPaidFee / 365 * 365 *
        (((a.referralStatusExpirationDate : Int) - now) / secondsPerDay * secondsPerDay) := by ring
    _ ≤ _ := mul_le_mul hrate hdays (mul_nonneg hdays0 (by decide)) hpaid

theorem statusExpiration_of_renews (hrenews : a.Renews statusType now)
    (h : a.referralStatusExpirationDate + statusYear < 2 ^ 32) :
    a.statusExpiration statusType fee now = some (a.referralStatusExpirationDate + statusYear) := by
  rw [statusExpiration, if_pos (show _ ∧ _ from hrenews), timePointSec]
  exact congrArg some (mod_eq_of_lt h)

theorem statusExpiration_of_not_renews (hrenews : ¬ a.Renews statusType now)
    (h : now + statusYear < 2 ^ 32) : a.statusExpiration statusType fee now =
      (a.bonusDays fee now).map fun bonus => timePointSec (now + statusYear)
      (bonus * secondsPerDay) := by
  have hyear : timePointSec now (365 * secondsPerDay) = now + statusYear := mod_eq_of_lt h
  rw [statusExpiration, if_neg (show ¬ (_ ∧ _) from hrenews), hyear]

/-- **The days that a recorded fee buys**, if the calendar has that many: they are counted, unless a
product overflows, and at the new fee they are worth no more than what is left. -/
theorem bonusDays_of_fits (hpaid : 0 ≤ a.referralStatusPaidFee)
    (hnow : now < a.referralStatusExpirationDate)
    (hyear : now + statusYear < 2 ^ 32) (hfit : (now + statusYear : Nat) * fee +
      a.referralStatusPaidFee * (a.referralStatusExpirationDate - now : Nat) < 2 ^ 32 * fee) :
    (a.paidLastYear now = none ∧ a.bonusDays fee now = none) ∨
      ∃ days, a.bonusDays fee now = some days ∧ now + statusYear + days * secondsPerDay < 2 ^ 32 ∧
        ((days * secondsPerDay : Nat) : Int) * fee ≤
          a.referralStatusPaidFee * (a.referralStatusExpirationDate - now : Nat) := by
  have hworth := mul_nonneg hpaid (natCast_nonneg (a.referralStatusExpirationDate - now))
  have hfee : 0 < fee := by
    by_contra hneg
    have hmul : (2 ^ 32 - (now + statusYear : Nat) : Int) * fee ≤ 0 :=
      mul_nonpos_of_nonneg_of_nonpos (by omega) (not_lt.1 hneg)
    rw [sub_mul] at hmul
    omega
  rw [bonusDays, if_pos hnow]
  cases hlast : a.paidLastYear now with
  | none => exact .inl ⟨rfl, rfl⟩
  | some paid =>
    obtain ⟨hpaid0, hle⟩ := paidLastYear_le hpaid hnow hlast
    rw [bind_some, if_neg hfee.ne', tdiv_eq_ediv_of_nonneg hpaid0]
    have hdays0 : 0 ≤ paid / fee := ediv_nonneg hpaid0 hfee.le
    have hcast : ((paid / fee).toNat * secondsPerDay : Nat) = paid / fee * secondsPerDay := by
      rw [Nat.cast_mul, toNat_of_nonneg hdays0]
    -- the days in seconds, at the new fee
    have hdays : paid / fee * secondsPerDay * fee ≤
        a.referralStatusPaidFee * (a.referralStatusExpirationDate - now : Nat) := by
      calc paid / fee * secondsPerDay * fee = paid / fee * fee * secondsPerDay := by ring
        _ ≤ paid * secondsPerDay :=
          mul_le_mul_of_nonneg_right (Int.ediv_mul_le _ hfee.ne') (by decide)
        _ ≤ _ := hle
    have hends : (now + statusYear : Nat) + paid / fee * secondsPerDay < 2 ^ 32 := by
      refine Int.lt_of_mul_lt_mul_right ?_ hfee.le
      rw [add_mul]
      omega
    have hint : paid / fee < 2 ^ 31 := by
      unfold secondsPerDay at hends
      omega
    rw [if_pos hint]
    refine .inr ⟨_, rfl, by omega, ?_⟩
    rw [hcast]
    exact hdays

/-- **An upgrade that fits**, unless a product overflows, gives a new expiration: a year
from now or later, and for a status that is not renewed the time beyond the year is paid
for by the recorded fee. -/
theorem statusExpiration_of_fits (hpaid : 0 ≤ a.referralStatusPaidFee)
    (hfit : a.Fits statusType fee now) :
    (a.paidLastYear now = none ∨ (a.statusExpiration statusType fee now).isSome) ∧
      ∀ expiration, a.statusExpiration statusType fee now = some expiration →
        now + statusYear ≤ expiration ∧
        (¬ a.Renews statusType now → ((expiration - (now + statusYear) : Nat) : Int) * fee ≤
          a.referralStatusPaidFee * (a.referralStatusExpirationDate - now : Nat)) := by
  rw [Fits] at hfit
  split at hfit
  · next hrenews =>
    rw [statusExpiration_of_renews hrenews hfit.2]
    refine ⟨.inr rfl, fun expiration h => ?_⟩
    cases h
    have hnow := hrenews.2
    exact ⟨by omega, fun h => absurd hrenews h⟩
  · next hrenews =>
    obtain ⟨hyear, hfit⟩ := hfit
    rw [statusExpiration_of_not_renews hrenews hyear]
    -- a status that has expired leaves nothing
    by_cases hnow : now < a.referralStatusExpirationDate
    swap
    · rw [bonusDays, if_neg hnow]
      refine ⟨.inr rfl, fun expiration h => ?_⟩
      obtain rfl := some.inj h
      dsimp only
      rw [Nat.zero_mul, timePointSec, Nat.add_zero, Nat.mod_eq_of_lt hyear, Nat.sub_self,
        Nat.cast_zero, zero_mul]
      exact ⟨le_rfl, fun _ => mul_nonneg hpaid (natCast_nonneg _)⟩
    rcases bonusDays_of_fits hpaid hnow hyear (hfit hnow) with ⟨hnone, hdays⟩ | ⟨days,
      hdays, hlt, hworth⟩
    · rw [hdays]
      exact ⟨.inl hnone, fun _ h => by cases h⟩
    · rw [hdays]
      refine ⟨.inr rfl, fun expiration h => ?_⟩
      cases h
      dsimp only
      rw [timePointSec, Nat.mod_eq_of_lt hlt, Nat.add_sub_cancel_left]
      exact ⟨Nat.le_add_right _ _, fun _ => hworth⟩

end Account

/-! ### The statuses of a database -/

/-- What an account records of its status. -/
structure ReferralStatus where
  statusType : Nat := 0
  paidFee : Int := 0
  expirationDate : Nat := 0
deriving DecidableEq

/-- The status of an account. -/
def Account.status (a : Account) : ReferralStatus :=
  ⟨a.referralStatusType, a.referralStatusPaidFee, a.referralStatusExpirationDate⟩

theorem Account.statusExpiration_congr {a a' : Account} (h : a'.status = a.status)
    (statusType : Nat) (fee : Int) (now : Nat) :
    a'.statusExpiration statusType fee now = a.statusExpiration statusType fee now := by
  obtain ⟨htype, hpaid, hexpiration⟩ := ReferralStatus.mk.inj h
  simp only [statusExpiration, bonusDays, paidLastYear, htype, hpaid, hexpiration]

namespace Database

/-- The status of each account. -/
def statusOf (db : Database) : AccountId → Option ReferralStatus :=
  fun a => (db.accounts.find a).map Account.status

variable {db db' : Database}

variable {a : AccountId}

theorem statusOf_of_referralView (h : db'.referralView = db.referralView) :
    db'.statusOf = db.statusOf := by
  funext a
  have ha := congrArg (Option.map Account.status) (congrFun (congrArg ReferralView.account h) a)
  simp only [referralView, Option.map_map] at ha
  exact ha

theorem statusOf_modifyStatistics {f : AccountStatistics → AccountStatistics}
    (h : db.modifyStatistics a f = some db') : db'.statusOf = db.statusOf := by
  obtain ⟨s, -, rfl⟩ := modifyStatistics_eq_some h
  rfl

theorem statusOf_processFees (h : db.processFees a = some db') : db'.statusOf = db.statusOf := by
  obtain ⟨fees, vested, hpending, -⟩ := processFees_eq_some h
  exact statusOf_of_referralView (processFees_pays rfl hpending h).referral

/-- **What an upgrade does to the statuses.** -/
theorem accountStatusUpgrade_eq_some {op : AccountStatusUpgradeOperation}
    (h : db.accountStatusUpgrade op = some db') :
    ∃ account coreFee expiration, db.accounts.find op.accountToUpgrade = some account ∧
      db.prepareFee op.accountToUpgrade op.fee = some coreFee ∧
      account.statusExpiration op.referralStatusType op.fee.amount db.headBlockTime =
      some expiration ∧ db'.statusOf = update db.statusOf op.accountToUpgrade
        (some ⟨op.referralStatusType, op.fee.amount, expiration⟩) := by
  obtain ⟨-, coreFee, db5, m, hfee, -, happly, -, rfl⟩ := operation_eq_some h
  obtain ⟨account, haccount, happly⟩ := bind_eq_some_iff.1 happly
  obtain ⟨db1, h1, happly⟩ := bind_eq_some_iff.1 happly
  obtain ⟨db2, h2, happly⟩ := bind_eq_some_iff.1 happly
  obtain ⟨db3, h3, happly⟩ := bind_eq_some_iff.1 happly
  obtain ⟨account', haccount', happly⟩ := bind_eq_some_iff.1 happly
  obtain ⟨upgraded, hupgrade, rfl⟩ := map_eq_some_iff.1 happly
  obtain ⟨expiration, hexpiration, rfl⟩ := map_eq_some_iff.1 hupgrade
  -- volumes, rewards and fees leave the statuses and the time
  obtain ⟨_, _, -, h1'⟩ := updatePv_eq_some h1
  have hstatus1 : db1.statusOf = db.statusOf := (statusOf_modifyStatistics h1').trans rfl
  have htime1 : db1.headBlockTime = db.headBlockTime :=
    (rewardFrame_updatePv h1).headBlockTime.trans rfl
  have hstatus : db3.statusOf = db.statusOf :=
    (statusOf_processFees h3).trans
      ((statusOf_of_referralView (updateNv_pays rfl h2).referral).trans hstatus1)
  have htime : db3.headBlockTime = db.headBlockTime :=
    (frame_processFees h3).headBlockTime.trans ((updateNv_ledger h2).1.headBlockTime.trans htime1)
  have hsame : account'.status = account.status := by
    have heq := congrFun hstatus op.accountToUpgrade
    simp only [statusOf, haccount', show db.accounts.find op.accountToUpgrade =
      some account from haccount, map_some] at heq
    exact some.inj heq
  refine ⟨account, coreFee, expiration, haccount, hfee, ?_, ?_⟩
  · rw [← Account.statusExpiration_congr hsame, ← htime]
    exact hexpiration
  · funext a
    rw [update_apply, ← hstatus]
    simp only [statusOf, Table.find_modify]
    split
    · rw [haccount']
      rfl
    · rfl

/-- **The end of statuses**: an account keeps its status or has none. -/
theorem statusOf_autoResetStatus (db : Database) (a : AccountId) :
    db.autoResetStatus.statusOf a = db.statusOf a ∨ db.autoResetStatus.statusOf a = some {} := by
  rw [autoResetStatus]
  split
  swap
  · exact .inl rfl
  simp only [statusOf, Table.find_modifyAll, Option.map_map]
  cases db.accounts.find a with
  | none => exact .inl rfl
  | some account =>
    simp only [map_some, comp_apply]
    split
    · exact .inr rfl
    · exact .inl rfl

theorem mem_keys_of_statusOf {st : ReferralStatus} (h : db.statusOf a = some st) :
    a ∈ db.accounts.rows.keys := by
  obtain ⟨account, haccount, -⟩ := map_eq_some_iff.1 h
  exact AList.mem_keys.1 (AList.lookup_isSome.1 (isSome_of_eq_some haccount))

/-- The accounts have the statuses that they had, and new accounts have none. -/
def SameStatus (db e : Database) : Prop :=
  ∀ a ∈ e.accounts.rows.keys, e.statusOf a = some ((db.statusOf a).getD {})

instance (db e : Database) : Decidable (db.SameStatus e) := inferInstanceAs (Decidable (∀ a ∈ _, _))

end Database

/-! ### Runs -/

/-- What can happen on the chain, as far as statuses go. -/
inductive StatusAction
  | upgrade (op : AccountStatusUpgradeOperation)
  /-- `auto_reset_status` -/
  | reset
  /-- anything else, also that time passes: every part of the database may change but statuses -/
  | other (e : Database)

/-- The database, with the notes about the periods that were paid for. -/
structure StatusSystem where
  db : Database
  /-- the periods of the current status of each account -/
  periods : AccountId → List Period

namespace StatusSystem

/-- The periods after an upgrade, which has led to a database: one more for a renewal,
or a single one. -/
def paidPeriods (s : StatusSystem) (op : AccountStatusUpgradeOperation) (db : Database) :
    List Period :=
  let period : Period := ⟨(s.db.prepareFee op.accountToUpgrade op.fee).getD 0,
    ((db.statusOf op.accountToUpgrade).getD {}).expirationDate⟩
  if (s.db.accounts.find op.accountToUpgrade).any
    (·.Renews op.referralStatusType s.db.headBlockTime) then
    s.periods op.accountToUpgrade ++ [period]
  else [period]

/-- One action, with the notes kept. -/
def step (s : StatusSystem) : StatusAction → Option StatusSystem
  | .upgrade op => (s.db.accountStatusUpgrade op).map fun db =>
    ⟨db, Function.update s.periods op.accountToUpgrade (s.paidPeriods op db)⟩
  | .reset => some { s with db := s.db.autoResetStatus }
  | .other e => if s.db.SameStatus e then some { s with db := e } else none

/-- A chain on which no account has a status. -/
def Initial (s : StatusSystem) : Prop :=
  (∀ a ∈ s.db.accounts.rows.keys, s.db.statusOf a = some {}) ∧ ∀ a, s.periods a = []

/-- **The condition on an upgrade**: the fee is paid in the core asset, and fits the
status of the account. -/
def Meets (s : StatusSystem) : StatusAction → Prop
  | .upgrade op => op.fee.assetId = 0 ∧ (s.db.accounts.find op.accountToUpgrade).all fun a =>
      a.Fits op.referralStatusType op.fee.amount s.db.headBlockTime
  | _ => True

instance (s : StatusSystem) : (a : StatusAction) → Decidable (s.Meets a)
  | .upgrade _ => inferInstanceAs (Decidable (_ ∧ _))
  | .reset | .other _ => inferInstanceAs (Decidable True)

/-! ### The invariant -/

/-- A status is covered by periods that end when it ends, none cheaper than the recorded fee. -/
def Covered (st : ReferralStatus) (ps : List Period) : Prop :=
  0 ≤ st.paidFee ∧ (st.expirationDate = 0 ∨
    (∀ p ∈ ps, st.paidFee ≤ p.coreFee) ∧ ps.getLast?.map Period.ends = some st.expirationDate)

theorem covered_none (ps : List Period) : Covered {} ps := ⟨le_rfl, .inl rfl⟩

theorem Covered.mul_le_unused {st : ReferralStatus} {ps : List Period} (h : Covered st ps)
    (hfees : ∀ p ∈ ps, 0 ≤ p.coreFee) (now : Nat) :
    st.paidFee * (st.expirationDate - now : Nat) ≤ unused ps now := by
  obtain ⟨hpaid, hzero | ⟨hle, hends⟩⟩ := h
  · rw [hzero, Nat.zero_sub, Nat.cast_zero, mul_zero]
    exact unused_nonneg hfees now
  · exact CrowdwizChain.mul_le_unused hpaid hle hends now

/-- In every state that is reached, the statuses are covered. -/
structure Inv (s : StatusSystem) : Prop where
  fees : ∀ a, ∀ p ∈ s.periods a, 0 ≤ p.coreFee
  covered : ∀ a st, s.db.statusOf a = some st → Covered st (s.periods a)

variable {s s' : StatusSystem}

theorem Initial.inv (h : s.Initial) : s.Inv := by
  refine ⟨fun a => ?_, fun a st hst => ?_⟩
  · rw [h.2]
    simp
  · have heq := h.1 a (mem_keys_of_statusOf hst)
    rw [hst] at heq
    rw [some.inj heq]
    exact covered_none _

/-- **An upgrade that meets the condition**, and is accepted: the new status, and its periods. -/
theorem step_upgrade {op : AccountStatusUpgradeOperation} (hmeets : s.Meets (.upgrade op))
    (h : s.step (.upgrade op) = some s') :
    ∃ account expiration, s.db.accounts.find op.accountToUpgrade = some account ∧
      account.Fits op.referralStatusType op.fee.amount s.db.headBlockTime ∧ 0 ≤ op.fee.amount ∧
      s.db.prepareFee op.accountToUpgrade op.fee = some op.fee.amount ∧
      account.statusExpiration op.referralStatusType op.fee.amount s.db.headBlockTime =
      some expiration ∧ s'.db.statusOf = update s.db.statusOf op.accountToUpgrade
        (some ⟨op.referralStatusType, op.fee.amount, expiration⟩) ∧
      s'.periods = update s.periods op.accountToUpgrade
        ((if account.Renews op.referralStatusType s.db.headBlockTime then
          s.periods op.accountToUpgrade
          else []) ++ [⟨op.fee.amount, expiration⟩]) := by
  obtain ⟨db, hdb, rfl⟩ := map_eq_some_iff.1 h
  obtain ⟨account, coreFee, expiration, haccount, hfee, hexpiration, hstatus⟩ :=
    accountStatusUpgrade_eq_some hdb
  obtain ⟨hamount, -, -, -, hcore, -⟩ := prepareFee_eq_some hfee
  obtain rfl := hcore hmeets.1
  have hfits := hmeets.2
  rw [haccount, all_some, decide_eq_true_eq] at hfits
  refine ⟨account, expiration, haccount, hfits, hamount, hfee, hexpiration, hstatus, ?_⟩
  rw [paidPeriods, hfee, haccount, hstatus, update_self]
  simp only [getD_some, any_some, decide_eq_true_eq]
  split
  · rfl
  · rfl

/-- **A status stays covered.** A renewal adds a period at its own fee, which is recorded and not
above the others; any other upgrade starts with one period. -/
theorem Inv.step {action : StatusAction} (h : s.Inv) (hmeets : s.Meets action)
    (hs : s.step action = some s') : s'.Inv := by
  cases action with
  | upgrade op =>
    obtain ⟨account, expiration, haccount, hfits, hamount, -, hexpiration, hstatus, hperiods⟩ :=
      step_upgrade hmeets hs
    have hcovered := h.covered op.accountToUpgrade account.status (by
      rw [statusOf, haccount]
      rfl)
    -- the periods before a renewal are not cheaper than the recorded fee
    have hle : ∀ p ∈ s'.periods op.accountToUpgrade, op.fee.amount ≤ p.coreFee := by
      intro p hp
      rw [hperiods, update_self] at hp
      rcases mem_append.1 hp with hp | hp
      · split at hp
        · next hrenews =>
          rw [Account.Fits, if_pos hrenews] at hfits
          obtain ⟨-, hzero | ⟨hle, -⟩⟩ := hcovered
          · have hnow : _ < account.status.expirationDate := hrenews.2
            omega
          · exact hfits.1.trans (hle p hp)
        · cases hp
      · rw [mem_singleton.1 hp]
    refine ⟨fun a p hp => ?_, fun a st hst => ?_⟩
    · by_cases ha : a = op.accountToUpgrade
      · exact hamount.trans (hle p (ha ▸ hp))
      · rw [hperiods, update_of_ne ha] at hp
        exact h.fees a p hp
    · rw [hstatus, update_apply] at hst
      split at hst
      · next ha =>
        cases hst
        refine ⟨hamount, .inr ⟨ha ▸ hle, ?_⟩⟩
        rw [ha, hperiods, update_self, List.getLast?_concat]
        rfl
      · next ha =>
        rw [hperiods, update_of_ne ha]
        exact h.covered a st hst
  | reset =>
    cases hs
    refine ⟨h.fees, fun a st hst => ?_⟩
    rcases s.db.statusOf_autoResetStatus a with heq | heq
    · exact h.covered a st (heq.symm.trans hst)
    · cases heq.symm.trans hst
      exact covered_none _
  | other e =>
    rw [StatusSystem.step] at hs
    split at hs
    swap
    · cases hs
    next hsame =>
    cases hs
    refine ⟨h.fees, fun a st hst => ?_⟩
    have heq := hsame a (mem_keys_of_statusOf hst)
    cases hst' : s.db.statusOf a with
    | none =>
      rw [hst', hst] at heq
      rw [some.inj heq]
      exact covered_none _
    | some st' =>
      rw [hst', hst] at heq
      cases heq
      exact h.covered a _ hst'

/-- **A status is neither shortened nor given away.** In every run whose upgrades all meet the
condition, and for every upgrade that meets it then: unless a product overflows, which refuses the
upgrade, the new expiration is computed, without a division by zero and with a count that ends; if
the upgrade is accepted, the status lasts for a year from now at least; and what it lasts beyond
the year, if it is not a renewal, is worth no more at the new core fee than the unused part of the
core fees paid before. -/
theorem status_upgrade_fair {s₀ : StatusSystem} {actions : List StatusAction} (h₀ : s₀.Initial)
    (halong : Along step Meets s₀ actions) (hrun : run step s₀ actions = some s)
    {op : AccountStatusUpgradeOperation} {account : Account} {coreFee : Int}
    (haccount : s.db.accounts.find op.accountToUpgrade = some account)
    (hfee : s.db.prepareFee op.accountToUpgrade op.fee = some coreFee)
    (hmeets : s.Meets (.upgrade op)) :
    (account.paidLastYear s.db.headBlockTime = none ∨
        (account.statusExpiration op.referralStatusType op.fee.amount s.db.headBlockTime).isSome) ∧
      ∀ s', s.step (.upgrade op) = some s' → ∃ st, s'.db.statusOf op.accountToUpgrade = some st ∧
        s.db.headBlockTime + statusYear ≤ st.expirationDate ∧
        (¬ account.Renews op.referralStatusType s.db.headBlockTime →
          ((st.expirationDate - (s.db.headBlockTime + statusYear) : Nat) : Int) * coreFee ≤
            unused (s.periods op.accountToUpgrade) s.db.headBlockTime) := by
  have hinv : s.Inv := invariant_of_along Inv.step h₀.inv halong hrun
  have hcovered := hinv.covered op.accountToUpgrade account.status (by
    rw [statusOf, haccount]
    rfl)
  have hfits := hmeets.2
  rw [haccount, all_some, decide_eq_true_eq] at hfits
  obtain ⟨hcomputed, hfair⟩ := Account.statusExpiration_of_fits hcovered.1 hfits
  refine ⟨hcomputed, fun s' hs => ?_⟩
  obtain ⟨account', expiration, haccount', -, -, hfee', hexpiration, hstatus, -⟩ :=
    step_upgrade hmeets hs
  cases haccount.symm.trans haccount'
  cases hfee.symm.trans hfee'
  obtain ⟨hyear, hworth⟩ := hfair expiration hexpiration
  refine ⟨⟨op.referralStatusType, op.fee.amount, expiration⟩, ?_, hyear, fun hrenews => ?_⟩
  · rw [hstatus, update_self]
  · exact (hworth hrenews).trans (hcovered.mul_le_unused (hinv.fees _) _)

/-! ### A status for a few units -/

/-- Six accounts, the last of which has some of an asset besides the core asset; a unit of it is
worth the given amount. -/
def statusChain (rate : Int) : StatusSystem :=
  let db := Database.start hardforkCwd5Time (List.replicate 6 { referrer := 0 }) 1000000000
  { db := { db with
      parameters := { rootAccount := 0 }
      assets := db.assets.create
        { symbol := "UNIT"
          coreExchangeRate := ⟨⟨rate, 0⟩, ⟨1, 1⟩⟩
          currentSupply := 10000000
          feePool := 1000000000 }
      balances := db.balances.insert (5, 1) ⟨10000000, false⟩ }
    periods := fun _ => [] }

/-- The first status for three hundred coins. -/
def statusOne : AccountStatusUpgradeOperation := ⟨.core 30000000, 5, 1⟩

/-- The second one. -/
def statusTwo (fee : Asset) : AccountStatusUpgradeOperation := ⟨fee, 5, 2⟩

/-- The second status right after the first, for fifteen hundred coins. -/
theorem status_upgrade_fair_core :
    ∃ s s', run step (statusChain 50) [.upgrade statusOne] = some s ∧
      s.step (.upgrade (statusTwo (.core 150000000))) = some s' ∧
      ∃ st, s'.db.statusOf 5 = some st ∧ s.db.headBlockTime + statusYear ≤ st.expirationDate ∧
        ((st.expirationDate - (s.db.headBlockTime + statusYear) : Nat) : Int) * 150000000 ≤
          unused (s.periods 5) s.db.headBlockTime := by
  have hchain : (run step (statusChain 50) [.upgrade statusOne]).any fun s =>
      s.Meets (.upgrade (statusTwo (.core 150000000))) ∧
        s.db.prepareFee 5 (.core 150000000) = some 150000000 ∧
        (s.step (.upgrade (statusTwo (.core 150000000)))).isSome ∧
        (s.db.accounts.find 5).any fun a => ¬ a.Renews 2 s.db.headBlockTime := by
    decide +kernel
  obtain ⟨s, hrun, hs⟩ := (any_eq_true _ _).1 hchain
  obtain ⟨hmeets, hfee, hstep, haccount⟩ := of_decide_eq_true hs
  obtain ⟨s', hs'⟩ := isSome_iff_exists.1 hstep
  obtain ⟨account, haccount, hrenews⟩ := (any_eq_true _ _).1 haccount
  have hinitial : (statusChain 50).Initial := ⟨by decide +kernel, fun _ => rfl⟩
  obtain ⟨-, hfair⟩ := status_upgrade_fair hinitial (by decide +kernel) hrun haccount hfee hmeets
  obtain ⟨st, hst, hyear, hworth⟩ := hfair s' hs'
  exact ⟨s, s', hrun, hs', st, hst, hyear, hworth (of_decide_eq_true hrenews)⟩

/-- The same fee in another asset. In units that are worth fifty, the amount is a fiftieth of the
core fee, and the year for three hundred coins turns into ten years for fifteen hundred each. In
units that are worth fifty million, the upgrade passes its evaluation, no product overflows, and the
days are never counted. -/
theorem status_bought_by_units : (((run step (statusChain 50) [.upgrade statusOne]).any fun s =>
      (s.step (.upgrade (statusTwo ⟨3000000, 1⟩))).any fun s' =>
        s.db.prepareFee 5 ⟨3000000, 1⟩ = some 150000000 ∧
        s'.db.statusOf 5 = some ⟨2, 3000000,
        s.db.headBlockTime + statusYear + 3649 * secondsPerDay⟩ ∧
        unused (s.periods 5) s.db.headBlockTime = statusYear * 30000000 ∧
        statusYear * 30000000 < 3649 * secondsPerDay * 150000000) ∧
    (run step (statusChain 50000000) [.upgrade statusOne]).any fun s =>
      (statusTwo ⟨3, 1⟩).validate ∧ s.db.prepareFee 5 ⟨3, 1⟩ = some 150000000 ∧
        Database.accountStatusUpgradeEvaluate (statusTwo ⟨3, 1⟩) s.db ∧
        (s.db.accounts.find 5).any fun a => (a.paidLastYear s.db.headBlockTime).isSome ∧
          a.statusExpiration 2 3 s.db.headBlockTime = none) := by
  decide +kernel

end StatusSystem

end CrowdwizChain
