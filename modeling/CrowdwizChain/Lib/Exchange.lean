import Mathlib.Tactic.Linarith
import Mathlib.Tactic.Ring

/-!
# Exchanging whole amounts at a ratio

An amount of one good is worth a multiple of it in another one, by the ratio of two positive
numbers: `base` of the first good are worth `quote` of the second. Only whole amounts change hands,
so that a value is rounded down (`down`) or up (`up`). The two roundings are adjoint (`up_le_iff`):
the amount `up quote base k` is the least one that is worth at least `k`, and `down base quote x` is
the most that `x` is worth.
-/

namespace Exchange

open Int

/-- What an amount is worth, rounded down. -/
def down (base quote x : Int) : Int := x * quote / base

/-- What an amount is worth, rounded up. -/
def up (base quote x : Int) : Int := (x * quote + base - 1) / base

variable {b q x y k : Int}

variable (hb : 0 < b)

include hb

theorem le_down_iff : k ≤ down b q x ↔ k * b ≤ x * q :=
  Int.le_ediv_iff_mul_le hb

theorem up_le_iff_mul : up b q k ≤ y ↔ k * q ≤ y * b := by
  have hlt : up b q k < y + 1 ↔ k * q + b - 1 < (y + 1) * b := Int.ediv_lt_iff_lt_mul hb
  have hexpand : (y + 1) * b = y * b + b := by ring
  omega

/-- **The roundings are adjoint.** -/
theorem up_le_iff (hq : 0 < q) : up q b k ≤ x ↔ k ≤ down b q x := by
  rw [up_le_iff_mul hq, le_down_iff hb]

/-- The value of an amount can be had for it. -/
theorem up_down_le (hq : 0 < q) : up q b (down b q x) ≤ x :=
  (up_le_iff hb hq).2 le_rfl

/-- What is paid for an amount is worth it. -/
theorem le_down_up (hq : 0 < q) : k ≤ down b q (up q b k) :=
  (up_le_iff hb hq).1 le_rfl

theorem down_nonneg (hq : 0 ≤ q) (hx : 0 ≤ x) : 0 ≤ down b q x := by
  rw [le_down_iff hb, zero_mul]
  exact mul_nonneg hx hq

theorem up_pos (hq : 0 < q) (hk : 0 < k) : 0 < up b q k := by
  by_contra hle
  have hmul := (up_le_iff_mul (y := 0) (q := q) (k := k) hb).1 (by omega)
  have hpos := mul_pos hk hq
  omega

theorem up_nonneg (hq : 0 ≤ q) (hk : 0 ≤ k) : 0 ≤ up b q k := by
  by_contra hlt
  have hmul := (up_le_iff_mul (y := -1) (q := q) (k := k) hb).1 (by omega)
  have hpos := mul_nonneg hk hq
  omega

@[simp] theorem up_zero : up b q 0 = 0 := by
  exact ediv_eq_zero_of_lt (by omega) (by omega)

/-- **The remainder is dust.** What is left of an amount after its value was paid for is worth
nothing. -/
theorem down_sub_up_down (hq : 0 < q) : down b q (x - up q b (down b q x)) = 0 := by
  have hle := up_down_le (x := x) hb hq
  -- the value paid for is worth at least the whole part of the value of `x`
  have hpaid := (le_down_iff (x := up q b (down b q x)) (q := q) hb).1 (le_down_up hb hq)
  have hwhole : x * q < (down b q x + 1) * b := by
    have hlt : down b q x < down b q x + 1 := by omega
    exact (Int.ediv_lt_iff_lt_mul hb).1 hlt
  refine Int.ediv_eq_zero_of_lt (Int.mul_nonneg (by omega) hq.le) ?_
  have hexpand : (x - up q b (down b q x)) * q = x * q - up q b (down b q x) * q := by ring
  have hexpand' : (down b q x + 1) * b = down b q x * b + b := by ring
  omega

/-- An amount that is worth nothing at a ratio is worth nothing at a worse one. -/
theorem down_eq_zero_of_worse {b' q' : Int} (hb' : 0 < b') (hq' : 0 ≤ q')
    (hworse : q' * b ≤ q * b') (hx : 0 ≤ x) (h : down b q x = 0) : down b' q' x = 0 := by
  have hlt : x * q < 1 * b := (Int.ediv_lt_iff_lt_mul hb).1 (by rw [← down, h]; decide)
  refine le_antisymm ?_ (down_nonneg hb' hq' hx)
  rw [← Int.lt_add_one_iff]
  refine (Int.ediv_lt_iff_lt_mul hb').2 ?_
  by_contra hge
  have h1 : b' * b ≤ x * q' * b := Int.mul_le_mul_of_nonneg_right (by omega) hb.le
  have h2 : x * (q' * b) ≤ x * (q * b') := Int.mul_le_mul_of_nonneg_left hworse hx
  have h3 : x * q * b' < b * b' := Int.mul_lt_mul_of_pos_right (by omega) hb'
  have h4 : x * q' * b = x * (q' * b) := by ring
  have h5 : x * (q * b') = x * q * b' := by ring
  have h6 : b' * b = b * b' := by ring
  omega

/-- An order of the amount in its own ratio asks for the other amount exactly. -/
theorem down_self : down b q b = q := by
  rw [down, mul_comm]
  exact mul_ediv_cancel _ hb.ne'

end Exchange
