import Mathlib.Tactic.Linarith
import Mathlib.Tactic.Ring

/-!
# Amounts, times and percentages

The protocol types of `libraries/chain` that everything below shares. An amount is a `share_type`,
a `safe<int64_t>` whose arithmetic throws on overflow; here it is an integer without a bound, so
that what the chain accepts is also accepted by the model. Times are seconds, account and asset ids
are instance numbers, and percentages are in units of `GRAPHENE_1_PERCENT = 100`.

The routines that take a percentage of an amount (`cut_fee` and its copies in other files) go
through 128-bit arithmetic and round down.
-/

namespace CrowdwizChain

/-- `account_id_type`, by instance number. -/
abbrev AccountId := Nat

/-- `asset_id_type`, by instance number; the core asset is number zero. -/
abbrev AssetId := Nat

/-- An `asset`: an amount of some asset. -/
structure Asset where
  amount : Int
  assetId : AssetId
deriving DecidableEq

namespace Asset

/-- An amount of the core asset. -/
def core (amount : Int) : Asset := ⟨amount, 0⟩

instance : Neg Asset := ⟨fun a => ⟨-a.amount, a.assetId⟩⟩

/-- An amount counted in one asset. -/
def amountIn (a : Asset) (s : AssetId) : Int := if a.assetId = s then a.amount else 0

theorem amountIn_neg (a : Asset) (s : AssetId) : (-a).amountIn s = -a.amountIn s := by
  show (if a.assetId = s then -a.amount else 0) = -if a.assetId = s then a.amount else 0
  split
  · rfl
  · rfl

theorem amountIn_of_zero {a : Asset} (h : a.amount = 0) (s : AssetId) : a.amountIn s = 0 := by
  rw [amountIn, h]
  exact ite_self 0

@[simp] theorem amountIn_zero (x s : AssetId) : amountIn ⟨0, x⟩ s = 0 := amountIn_of_zero rfl s
@[simp] theorem amountIn_core_zero (s : AssetId) : (core 0).amountIn s = 0 := amountIn_of_zero rfl s

@[simp] theorem amount_neg (a : Asset) : (-a).amount = -a.amount := rfl
@[simp] theorem assetId_neg (a : Asset) : (-a).assetId = a.assetId := rfl
@[simp] theorem amount_core (n : Int) : (core n).amount = n := rfl
@[simp] theorem assetId_core (n : Int) : (core n).assetId = 0 := rfl

end Asset

/-! ### Constants -/

/-- `GRAPHENE_100_PERCENT` -/
def graphene100Percent : Nat := 10000

/-- `GRAPHENE_1_PERCENT` -/
def graphene1Percent : Nat := 100

/-- `GRAPHENE_BLOCKCHAIN_PRECISION` -/
def grapheneBlockchainPrecision : Int := 100000

/-- `GRAPHENE_MAX_SHARE_SUPPLY` -/
def grapheneMaxShareSupply : Nat := 1000000000000000

/-- `GRAPHENE_COMMITTEE_ACCOUNT` -/
def grapheneCommitteeAccount : AccountId := 0
/-- `GRAPHENE_WITNESS_ACCOUNT` -/
def grapheneWitnessAccount : AccountId := 1
/-- `GRAPHENE_RELAXED_COMMITTEE_ACCOUNT` -/
def grapheneRelaxedCommitteeAccount : AccountId := 2
/-- `GRAPHENE_NULL_ACCOUNT` -/
def grapheneNullAccount : AccountId := 3
/-- `GRAPHENE_TEMP_ACCOUNT` -/
def grapheneTempAccount : AccountId := 4

/-- `GRAPHENE_DEFAULT_BURN_PERCENT_OF_FEE` -/
def grapheneDefaultBurnPercentOfFee : Nat := 20 * graphene1Percent
/-- `GRAPHENE_DEFAULT_CUT_LINEAR_BONUS` -/
def grapheneDefaultCutLinearBonus : Nat := 40 * graphene1Percent

/-! The hardforks, by time or by block number. -/

def hardforkCwd2Time : Nat := 1571857200
def hardforkCwd3Time : Nat := 1582041681
def hardforkCwd4Time : Nat := 1588255200
def hardforkCwd5Time : Nat := 1594717200
def hardforkCwd6Time : Nat := 1605780000
def hardforkCwd7Time : Nat := 1623088800
def hardforkCore144Time : Nat := 1680480000
def hardforkCore145Time : Nat := 1680674400
def hardforkCore1480BlockNum : Nat := 24940000
def hardforkCore1481BlockNum : Nat := 26571000
def hardforkCore1482BlockNum : Nat := 36655000

/-! ### Machine integers

Amounts are unbounded here; these are for the few places where the source multiplies or converts
them as machine integers without a check. -/

/-- The conversion to `uint64_t`. -/
def toUInt64 (n : Int) : Nat := (n % 2 ^ 64).toNat

/-- The conversion to `int64_t`. -/
def toInt64 (n : Int) : Int := (n + 2 ^ 63) % 2 ^ 64 - 2 ^ 63

/-- The conversion to `fc::uint128`. -/
def toUInt128 (n : Int) : Nat := (n % 2 ^ 128).toNat

/-! ### Times -/

/-- The sum of a time and a number of seconds, as it is stored in a `time_point_sec`, which has 32
bits. -/
def timePointSec (t seconds : Nat) : Nat := (t + seconds) % 2 ^ 32

/-- The seconds of a day. -/
def secondsPerDay : Nat := 86400

/-! ### Taking a percentage -/

/-- `cut_fee`: `p` hundredths of a percent of a nonnegative amount, rounded down. The product is
taken in 128 bits; `to_uint64` and the conversion to `share_type` leave the range of an `int64_t`
only above about 1.4e18 units (for percentages up to 65535). -/
def cutFee (a : Int) (p : Nat) : Int :=
  if a = 0 ∨ p = 0 then 0
  else if p = graphene100Percent then a
  else a * p / graphene100Percent

/-- The early returns of `cut_fee` do not change its value. -/
theorem cutFee_eq (a : Int) (p : Nat) : cutFee a p = a * p / 10000 := by
  unfold cutFee graphene100Percent
  split
  · next h =>
    rcases h with rfl | rfl <;> simp
  · split
    · next h =>
      subst h
      simp
    · rfl

theorem cutFee_nonneg {a : Int} (ha : 0 ≤ a) (p : Nat) : 0 ≤ cutFee a p := by
  rw [cutFee_eq]
  exact Int.ediv_nonneg (mul_nonneg ha (Int.natCast_nonneg p)) (by norm_num)

theorem cutFee_le {a : Int} (ha : 0 ≤ a) {p : Nat} (hp : p ≤ 10000) : cutFee a p ≤ a := by
  rw [cutFee_eq]
  have hmul : a * (p : Int) ≤ a * 10000 := mul_le_mul_of_nonneg_left (by exact_mod_cast hp) ha
  omega

end CrowdwizChain
