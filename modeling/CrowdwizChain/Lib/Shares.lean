import Mathlib.Tactic.Linarith

/-!
# Dividing an amount in proportion

An amount is divided among some people in proportion to what each has put in, and every share is
rounded down. Nobody gets more than the exact share, so what is handed out does not exceed the
amount (`sum_share_le`), nor what one person would get for all (`sum_share_le_share`); and where the
amount is at least what all have put in, nobody gets less than they have put in (`le_share`).
-/

namespace Shares

/-- The share of somebody who has put in `x` of a total. -/
def share (amount total x : Int) : Int := amount * x / total

variable {amount total x : Int}

/-- Nobody gets less than they have put in. -/
theorem le_share (htotal : 0 < total) (hamount : total ≤ amount) (hx : 0 ≤ x) :
    x ≤ share amount total x := by
  rw [share, Int.le_ediv_iff_mul_le htotal]
  calc x * total = total * x := mul_comm x total
    _ ≤ amount * x := mul_le_mul_of_nonneg_right hamount hx

/-- The shares of some people, rounded down, times the total. -/
theorem sum_share_mul_le (amount : Int) (htotal : 0 < total) (l : List Int) :
    (l.map (share amount total)).sum * total ≤ amount * l.sum := by
  induction l with
  | nil => simp
  | cons x l ih =>
    have hx : share amount total x * total ≤ amount * x := Int.ediv_mul_le _ htotal.ne'
    rw [List.map_cons, List.sum_cons, List.sum_cons, add_mul, mul_add]
    exact add_le_add hx ih

/-- The shares of some people are together at most the share of somebody who has put in
what they have. -/
theorem sum_share_le_share (amount : Int) (htotal : 0 < total) (l : List Int) :
    (l.map (share amount total)).sum ≤ share amount total l.sum :=
  (Int.le_ediv_iff_mul_le htotal).2 (sum_share_mul_le amount htotal l)

theorem share_mono {y : Int} (hamount : 0 ≤ amount) (htotal : 0 < total) (hxy : x ≤ y) :
    share amount total x ≤ share amount total y :=
  Int.ediv_le_ediv htotal (mul_le_mul_of_nonneg_left hxy hamount)

/-- **No more than the amount is handed out.** -/
theorem sum_share_le (hamount : 0 ≤ amount) (htotal : 0 < total) {l : List Int}
    (hl : l.sum ≤ total) : (l.map (share amount total)).sum ≤ amount := by
  have hmul := sum_share_mul_le amount htotal l
  have hle : amount * l.sum ≤ amount * total := mul_le_mul_of_nonneg_left hl hamount
  exact le_of_mul_le_mul_right (hmul.trans hle) htotal

end Shares
