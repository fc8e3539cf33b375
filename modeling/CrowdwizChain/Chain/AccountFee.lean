import CrowdwizChain.Chain.Account
import CrowdwizChain.Chain.Committee

/-!
# The scaling of the fee for new accounts

Within a maintenance interval every `accounts_per_fee_scale`-th new account shifts the basic fee of
`account_create_operation` to the left (`Database.scaleAccountFee`), and at its end the maintenance
shifts it back (`Database.maintainParameters`): by as many bits, but at once, and from what a
`uint64_t` still holds of it.

The fee for a premium name is not scaled, so that the registrations can go on when nobody can pay
the basic fee any more. The last section follows all parameters through any run of the chain.
-/

namespace CrowdwizChain

open Transition Option Nat

/-! ### Shifts of a 64-bit number -/

/-- What is shifted back is the number exactly if no bit of it was lost. -/
theorem shiftRight_shiftLeft_mod_eq_iff (fee s : Nat) :
    (fee <<< s % 2 ^ 64) >>> s = fee ↔ fee * 2 ^ s < 2 ^ 64 := by
  rw [shiftLeft_eq, shiftRight_eq_div_pow]
  constructor
  · intro h
    by_contra hge
    have hlt : fee * 2 ^ s % 2 ^ 64 < 2 ^ s * fee := by
      rw [mul_comm (2 ^ s)]
      calc fee * 2 ^ s % 2 ^ 64 < 2 ^ 64 := mod_lt _ (by decide)
        _ ≤ fee * 2 ^ s := Nat.le_of_not_lt hge
    have := Nat.div_lt_of_lt_mul hlt
    omega
  · intro h
    rw [mod_eq_of_lt h]
    exact Nat.mul_div_cancel fee (Nat.two_pow_pos s)

theorem shiftLeft_mod_shiftLeft (fee s t : Nat) :
    (fee <<< s % 2 ^ 64) <<< t % 2 ^ 64 = fee <<< (s + t) % 2 ^ 64 := by
  simp only [shiftLeft_eq, mod_mul_mod, pow_add, mul_assoc]

theorem shiftLeft_mod_eq_zero (fee : Nat) {s : Nat} (hs : 64 ≤ s) : fee <<< s % 2 ^ 64 = 0 := by
  rw [shiftLeft_eq]
  exact mod_eq_zero_of_dvd (Dvd.dvd.mul_left (pow_dvd_pow 2 hs) fee)

namespace Database

variable {db db' : Database}

/-! ### One interval -/

theorem scaleAccountFee_parameters (h : db.scaleAccountFee = some db') :
    0 < db.parameters.accountsPerFeeScale ∧
      db'.accountsRegisteredThisInterval = db.accountsRegisteredThisInterval ∧
      db'.parameters = { db.parameters with
        accountCreateBasicFee :=
          if db.accountsRegisteredThisInterval % db.parameters.accountsPerFeeScale = 0 ∧
              db.parameters.accountFeeScaleBitshifts ≠ 0 then
            db.parameters.accountCreateBasicFee <<< db.parameters.accountFeeScaleBitshifts % 2 ^ 64
          else db.parameters.accountCreateBasicFee } := by
  obtain ⟨hscale, h⟩ := ite_none_left_eq_some.1 h
  refine ⟨pos_of_ne_zero hscale, ?_⟩
  split at h
  · next hshift =>
    cases h
    exact ⟨rfl, by rw [if_pos hshift]⟩
  · next hshift =>
    cases h
    exact ⟨rfl, by rw [if_neg hshift]⟩

theorem accountCreate_scales {op : AccountCreateOperation} (h : db.accountCreate op = some db') :
    0 < db.parameters.accountsPerFeeScale ∧
      db'.accountsRegisteredThisInterval = (db.accountsRegisteredThisInterval + 1) % 2 ^ 32 ∧
      db'.parameters = { db.parameters with
        accountCreateBasicFee :=
          if db'.accountsRegisteredThisInterval % db.parameters.accountsPerFeeScale = 0 ∧
              db.parameters.accountFeeScaleBitshifts ≠ 0 then
            db.parameters.accountCreateBasicFee <<< db.parameters.accountFeeScaleBitshifts % 2 ^ 64
          else db.parameters.accountCreateBasicFee } := by
  obtain ⟨-, coreFee, db1, m, -, -, h1, -, rfl⟩ := operation_eq_some h
  obtain ⟨referrer, -, h1⟩ := bind_eq_some_iff.1 h1
  obtain ⟨hpos, hcount, hparameters⟩ := scaleAccountFee_parameters h1
  rw [hcount]
  exact ⟨hpos, rfl, hparameters⟩

/-- What happens between two maintenances: new accounts, and anything else, which leaves the
parameters and the count of new accounts as they are. -/
inductive IntervalAction
  | accountCreate (op : AccountCreateOperation)
  | other (e : Database)

/-- One action of an interval. -/
def intervalStep (db : Database) : IntervalAction → Option Database
  | .accountCreate op => db.accountCreate op
  | .other e => some { e with
      parameters := db.parameters
      accountsRegisteredThisInterval := db.accountsRegisteredThisInterval }

/-- The number of accounts that an interval has registered. -/
def registered (actions : List IntervalAction) : Nat :=
  actions.countP fun a => match a with
    | .accountCreate _ => true
    | .other _ => false

theorem registered_accountCreate (op : AccountCreateOperation) (actions : List IntervalAction) :
    registered (.accountCreate op :: actions) = registered actions + 1 :=
  List.countP_cons_of_pos rfl

/-- The state after `n` registrations from the parameters `p`: the count wraps, but not before more
than 64 bits have been shifted out. -/
structure Scaled (p : ChainParameters) (n : Nat) (db : Database) : Prop where
  count : db.accountsRegisteredThisInterval = n % 2 ^ 32
  parameters : ∃ j, (n < 2 ^ 32 → j = n / p.accountsPerFeeScale) ∧ (2 ^ 32 ≤ n → 64 ≤ j) ∧
    db.parameters = { p with
      accountCreateBasicFee :=
        p.accountCreateBasicFee <<< (p.accountFeeScaleBitshifts * j) % 2 ^ 64 }

theorem succ_div_eq (n d : Nat) : (n + 1) / d = if (n + 1) % d = 0 then n / d + 1 else n / d := by
  simp only [Nat.succ_div, Nat.dvd_iff_mod_eq_zero]
  split <;> rfl

theorem Scaled.accountCreate {p : ChainParameters} {n : Nat} (h : Scaled p n db)
    (hscale : p.accountsPerFeeScale < 2 ^ 16) {op : AccountCreateOperation}
    (hop : db.accountCreate op = some db') : Scaled p (n + 1) db' := by
  obtain ⟨hpos, hcount, hparameters⟩ := accountCreate_scales hop
  obtain ⟨j, hsmall, hlarge, heq⟩ := h.parameters
  rw [h.count] at hcount
  refine ⟨by omega, ?_⟩
  rw [heq] at hparameters hpos
  dsimp only at hparameters hpos
  -- before the count wraps there are enough shifts
  have hmany : 2 ^ 32 ≤ n + 1 → 64 ≤ j := by
    intro hn
    rcases lt_or_ge n (2 ^ 32) with hlt | hge
    · rw [hsmall hlt, le_div_iff_mul_le hpos]
      omega
    · exact hlarge hge
  have hdiv : n + 1 < 2 ^ 32 → (n + 1) / p.accountsPerFeeScale =
      if db'.accountsRegisteredThisInterval % p.accountsPerFeeScale = 0 then j + 1 else j := by
    intro hn
    have hcount' : db'.accountsRegisteredThisInterval = n + 1 := by omega
    rw [hcount', succ_div_eq, hsmall (by omega)]
  by_cases hshift : db'.accountsRegisteredThisInterval % p.accountsPerFeeScale = 0
  · refine ⟨j + 1, fun hn => by rw [hdiv hn, if_pos hshift], fun hn => by have := hmany hn; omega,
      ?_⟩
    rw [hparameters]
    by_cases hbits : p.accountFeeScaleBitshifts = 0
    · simp [hbits]
    · rw [if_pos ⟨hshift, hbits⟩, shiftLeft_mod_shiftLeft, mul_succ]
  · refine ⟨j, fun hn => by rw [hdiv hn, if_neg hshift], hmany, ?_⟩
    rw [hparameters, if_neg fun hboth => hshift hboth.1]

/-- **The scaling of an interval**, by induction on what happens in it. -/
theorem Scaled.run {p : ChainParameters} (hscale : p.accountsPerFeeScale < 2 ^ 16)
    {actions : List IntervalAction} {n : Nat} (h : Scaled p n db)
    (hrun : run intervalStep db actions = some db') : Scaled p (n + registered actions) db' := by
  induction actions generalizing db n with
  | nil =>
    cases hrun
    exact h
  | cons a actions ih =>
    obtain ⟨db1, hstep, hrest⟩ := bind_eq_some_iff.1 hrun
    cases a with
    | accountCreate op =>
      have hnext := ih (h.accountCreate hscale hstep) hrest
      rwa [add_right_comm, add_assoc, ← registered_accountCreate op] at hnext
    | other e =>
      cases hstep
      exact ih (by exact ⟨h.count, h.parameters⟩) hrest

/-- **The fee is restored exactly if no bit was shifted out.** Whatever happens in an interval that
starts with a count of zero and ends without new parameters, the maintenance sets the basic fee to
its value at the start of the interval if and only if that value, shifted by all the bits of the
interval, is still a 64-bit number. -/
theorem account_fee_restored_iff {actions : List IntervalAction}
    (hstart : db.accountsRegisteredThisInterval = 0)
    (hscale : 0 < db.parameters.accountsPerFeeScale ∧ db.parameters.accountsPerFeeScale < 2 ^ 16)
    (hfee : db.parameters.accountCreateBasicFee < 2 ^ 64)
    (hrun : Transition.run intervalStep db actions = some db')
    (hpending : db'.pendingParameters = none) :
    ∃ db'', db'.maintainParameters = some db'' ∧
      (db''.parameters.accountCreateBasicFee = db.parameters.accountCreateBasicFee ↔
        db.parameters.accountCreateBasicFee * 2 ^ (db.parameters.accountFeeScaleBitshifts *
          (registered actions / db.parameters.accountsPerFeeScale)) < 2 ^ 64) := by
  have hzero : Scaled db.parameters 0 db := by
    refine ⟨hstart, 0, fun _ => (Nat.zero_div _).symm, fun h => by omega, ?_⟩
    rw [mul_zero, shiftLeft_zero, mod_eq_of_lt hfee]
  obtain ⟨hcount, j, hsmall, hlarge, hparameters⟩ := hzero.run hscale.2 hrun
  rw [zero_add] at hcount hsmall hlarge
  generalize registered actions = n at hcount hsmall hlarge ⊢
  generalize db.parameters = p at hscale hfee hparameters hsmall ⊢
  refine ⟨_, by rw [maintainParameters, hparameters]; exact if_neg (pos_iff_ne_zero.1 hscale.1), ?_⟩
  simp only [hpending, Option.getD_none, hcount]
  rcases lt_or_ge n (2 ^ 32) with hlt | hge
  · rw [mod_eq_of_lt hlt, hsmall hlt]
    exact shiftRight_shiftLeft_mod_eq_iff _ _
  · rcases Nat.eq_zero_or_pos p.accountFeeScaleBitshifts with hbits | hbits
    · simp [hbits]
    · -- the whole fee was shifted out
      have hout : 64 ≤ p.accountFeeScaleBitshifts * j :=
        (hlarge hge).trans (Nat.le_mul_of_pos_left j hbits)
      have hdiv : 64 ≤ n / p.accountsPerFeeScale := by
        rw [le_div_iff_mul_le hscale.1]
        omega
      have hpow : 2 ^ 64 ≤ 2 ^ (p.accountFeeScaleBitshifts * (n / p.accountsPerFeeScale)) :=
        Nat.pow_le_pow_right (by decide) (hdiv.trans (Nat.le_mul_of_pos_left _ hbits))
      rw [shiftLeft_mod_eq_zero _ hout, zero_shiftRight]
      constructor
      · intro h
        rw [← h, zero_mul]
        decide
      · intro h
        by_contra hne
        have hmul := mul_le_mul (pos_of_ne_zero (Ne.symm hne)) hpow
        omega

/-- A chain on which every new account shifts the fee, by sixteen bits. -/
def registrar : Database :=
  { start hardforkCwd5Time [{ referrer := 0, isLifetimeMember := true }] 1000000000 with
    parameters := { accountsPerFeeScale := 1, accountFeeScaleBitshifts := 16 } }

/-- New accounts with premium names, for the fee of these. -/
def premiumNames (names : List String) : List IntervalAction :=
  names.map fun name => .accountCreate
    { fee := ⟨300000000, 0⟩, registrar := 0, referrer := 0, name := name.toList }

/-- Two accounts, and the fee is back. -/
theorem account_fee_restored_iff_two :
    ∃ db db' : Database, run intervalStep registrar (premiumNames ["alice", "carole"]) = some db ∧
      db.parameters.accountCreateBasicFee = 500000 * 2 ^ 32 ∧
      db.maintainParameters = some db' ∧ db'.parameters.accountCreateBasicFee = 500000 := by
  have hrun : ((run intervalStep registrar (premiumNames ["alice", "carole"])).any fun db =>
      db.parameters.accountCreateBasicFee = 500000 * 2 ^ 32 && db.pendingParameters.isNone) =
        true := by
    decide +kernel
  obtain ⟨db, hdb, hrun⟩ := (any_eq_true _ _).1 hrun
  simp only [Bool.and_eq_true, decide_eq_true_eq, isNone_iff_eq_none] at hrun
  obtain ⟨db', hdb', hiff⟩ := account_fee_restored_iff
    (show registrar.accountsRegisteredThisInterval = 0 from rfl) (by decide) (by decide) hdb hrun.2
  exact ⟨db, db', hdb, hrun.1, hdb', hiff.2 (by decide)⟩

/-- **Three accounts, and the fee is another one.** -/
theorem account_fee_lost_three :
    ((run intervalStep registrar (premiumNames ["alice", "carole", "dorothea"])).bind fun db =>
      db.maintainParameters.map fun db => db.parameters.accountCreateBasicFee) = some 41248 := by
  decide +kernel

/-! ### The parameters over any time -/

/-- A step of the chain. Anything else leaves the parameters alone. -/
inductive ParameterStep (db db' : Database) : Prop
  | globalParameters (op) (h : db.committeeMemberUpdateGlobalParameters op = some db')
  | gamezoneParameters (op) (h : db.committeeMemberUpdateGamezoneParameters op = some db')
  | stakingParameters (op) (h : db.committeeMemberUpdateStakingParameters op = some db')
  | accountCreate (op) (h : db.accountCreate op = some db')
  | maintain (h : db.maintainParameters = some db')
  | other (h : db'.parameters = db.parameters)
      (hpending : db'.pendingParameters = db.pendingParameters)

/-- The parameters in force are valid, and so are those that are pending. -/
def Validated (db : Database) : Prop :=
  db.parameters.validate = true ∧ ∀ p, db.pendingParameters = some p → p.validate = true

/-- No step puts parameters in force, or in waiting, that do not validate. -/
theorem Validated.step (h : db.Validated) (hstep : db.ParameterStep db') :
    db'.Validated ∧ (db.parameters.accountsPerFeeScale = 0 → db'.parameters = db.parameters) := by
  cases hstep with
  | globalParameters op hop =>
    obtain ⟨hvalid, coreFee, db1, m, -, -, happly, -, rfl⟩ := operation_eq_some hop
    cases happly
    refine ⟨⟨h.1, ?_⟩, fun _ => rfl⟩
    rintro p ⟨⟩
    exact (Bool.and_eq_true_iff.1 hvalid).2
  | gamezoneParameters op hop | stakingParameters op hop =>
    obtain ⟨-, coreFee, db1, m, -, -, happly, -, rfl⟩ := operation_eq_some hop
    cases happly
    exact ⟨h, fun _ => rfl⟩
  | accountCreate op hop =>
    have hpos := (accountCreate_scales hop).1
    obtain ⟨-, coreFee, db1, m, -, -, happly, -, rfl⟩ := operation_eq_some hop
    obtain ⟨referrer, -, happly⟩ := bind_eq_some_iff.1 happly
    obtain ⟨fee, rfl⟩ := scaleAccountFee_eq_some happly
    exact ⟨h, fun hzero => absurd hzero hpos.ne'⟩
  | maintain hop =>
    obtain ⟨hne, hop⟩ := ite_none_left_eq_some.1 hop
    cases hop
    refine ⟨⟨?_, nofun⟩, fun hzero => absurd hzero hne⟩
    cases hp : db.pendingParameters with
    | none => exact h.1
    | some p => exact h.2 p hp
  | other hop hpending => exact ⟨by rwa [Validated, hop, hpending], fun _ => hop⟩

/-- **The parameters in force are valid in every state.** But `accounts_per_fee_scale` is not looked
at. When it is zero, it is divided by in every maintenance, and as only a maintenance could change
it, none ever goes through again. -/
theorem parameters_stay_valid (h : db.Validated)
    (hreach : Relation.ReflTransGen ParameterStep db db') :
    db'.parameters.validate = true ∧ (db.parameters.accountsPerFeeScale = 0 →
      db'.parameters = db.parameters ∧ db'.maintainParameters = none) := by
  have hinv : db'.Validated ∧
      (db.parameters.accountsPerFeeScale = 0 → db'.parameters = db.parameters) := by
    induction hreach with
    | refl => exact ⟨h, fun _ => rfl⟩
    | tail _ hstep ih =>
      obtain ⟨hvalid, hsame⟩ := ih.1.step hstep
      exact ⟨hvalid, fun hzero => (hsame (by rw [ih.2 hzero, hzero])).trans (ih.2 hzero)⟩
  refine ⟨hinv.1.1, fun hzero => ⟨hinv.2 hzero, if_pos ?_⟩⟩
  rw [hinv.2 hzero, hzero]

/-- The committee gets there by an update that is accepted. -/
theorem parameters_stay_valid_no_scale :
    ∃ db, Relation.ReflTransGen ParameterStep committeeOnly db ∧
    ∀ db', Relation.ReflTransGen ParameterStep db db' → db'.maintainParameters = none := by
  refine ⟨_, .tail (.single (.globalParameters ⟨.core 0, { accountsPerFeeScale := 0 }⟩
    (some_get (by decide)).symm)) (.maintain (some_get (by decide)).symm), fun db' hreach => ?_⟩
  exact ((parameters_stay_valid ⟨by decide, by rintro p ⟨⟩⟩ hreach).2 rfl).2

end Database

end CrowdwizChain
