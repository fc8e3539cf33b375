import Mathlib.Order.Lattice

/-!
# Ranges of a sorted list between two bounds

In an ordered index the position of `lower_bound k` is the number of entries with a key under `k`.
A loop from one such position to another visits the entries with a key from the first bound up to
the second, if it does not start behind its end. That it does not is a question of the entries
between the two bounds, and not of the bounds alone: `lowerBound_le_iff`.
-/

namespace SortedRange

open List

variable {α : Type*} {β : Type*} [LinearOrder β] (f : α → β)

/-- The position of the first entry with a key of at least `k`. -/
def lowerBound (l : List α) (k : β) : Nat := (l.takeWhile fun x => f x < k).length

variable {f} {l : List α}

/-- All keys of the rest of a sorted list are at least that of its head. -/
theorem takeWhile_eq_nil {x : α} {k : β} (hx : ∀ y ∈ l, f x ≤ f y) (hk : k ≤ f x) :
    l.takeWhile (fun y => f y < k) = [] := by
  cases l with
  | nil => rfl
  | cons y l =>
    have hle := hk.trans (hx y mem_cons_self)
    rw [takeWhile_cons, if_neg (by simpa using hle)]

variable (h : l.Pairwise fun x y => f x ≤ f y)

include h

/-- **When a loop over a range ends**: the entries under the first bound are under the second. -/
theorem lowerBound_le_iff (a b : β) : lowerBound f l a ≤ lowerBound f l b ↔ ∀ x ∈ l, f x < a →
    f x < b := by
  induction l with
  | nil => simp [lowerBound]
  | cons x l ih =>
    obtain ⟨hx, hl⟩ := pairwise_cons.1 h
    have hih := ih hl
    simp only [lowerBound, takeWhile_cons, forall_mem_cons] at hih ⊢
    by_cases ha : f x < a
    · by_cases hb : f x < b
      · simp [ha, hb, hih]
      · simp [ha, hb]
    · -- the loop starts at the head, which is not behind any end
      have hnone : ∀ y ∈ l, ¬f y < a := fun y hy hlt => ha ((hx y hy).trans_lt hlt)
      simp only [ha, decide_false, Bool.false_eq_true, if_false, length_nil, Nat.zero_le,
        false_imp_iff, true_and, true_iff]
      exact fun y hy hlt => absurd hlt (hnone y hy)

/-- **What a loop over a range visits**: the entries from the first bound up to the second. -/
theorem range_eq_filter (a b : β) :
    (l.drop (lowerBound f l a)).take (lowerBound f l b - lowerBound f l a) =
      l.filter fun x => a ≤ f x ∧ f x < b := by
  induction l with
  | nil => simp
  | cons x l ih =>
    obtain ⟨hx, hl⟩ := pairwise_cons.1 h
    have hih := ih hl
    simp only [lowerBound, takeWhile_cons] at hih ⊢
    by_cases ha : f x < a
    · rw [filter_cons_of_neg (by simp [not_le.2 ha])]
      by_cases hb : f x < b
      · simpa only [ha, hb, decide_true, if_true, length_cons, drop_succ_cons,
          Nat.add_sub_add_right] using hih
      · -- the end is at the head and the start behind it
        have hnone : l.filter (fun y => decide (a ≤ f y ∧ f y < b)) = [] := by
          rw [filter_eq_nil_iff]
          intro y _
          simp only [decide_eq_true_eq, not_and, not_lt]
          exact fun hay => (not_lt.1 hb).trans (ha.le.trans hay)
        rw [hnone]
        simp [hb]
    · have hstart := takeWhile_eq_nil hx (not_lt.1 ha)
      by_cases hb : f x < b
      · rw [filter_cons_of_pos (by simp [not_lt.1 ha, hb])]
        rw [hstart] at hih
        simpa only [ha, hb, decide_true, decide_false, Bool.false_eq_true, if_true, if_false,
          length_cons, length_nil, drop_zero, Nat.sub_zero, take_succ_cons,
          cons.injEq, true_and] using hih
      · rw [filter_cons_of_neg (by simp [hb])]
        have hnone : l.filter (fun y => decide (a ≤ f y ∧ f y < b)) = [] := by
          rw [filter_eq_nil_iff]
          intro y hy
          simp only [decide_eq_true_eq, not_and, not_lt]
          exact fun _ => (not_lt.1 hb).trans (hx y hy)
        rw [hnone]
        simp [hb]

/-- A loop from a bound to the end of the list visits the entries from the bound on. -/
theorem drop_eq_filter (a : β) : l.drop (lowerBound f l a) = l.filter fun x => a ≤ f x := by
  induction l with
  | nil => rfl
  | cons x l ih =>
    obtain ⟨hx, hl⟩ := pairwise_cons.1 h
    have hih := ih hl
    simp only [lowerBound, takeWhile_cons, filter_cons] at hih ⊢
    by_cases ha : f x < a
    · simpa [ha, not_le.2 ha] using hih
    · have hall : l.filter (fun y => decide (a ≤ f y)) = l := by
        rw [filter_eq_self]
        intro y hy
        simpa using (not_lt.1 ha).trans (hx y hy)
      simp [ha, not_lt.1 ha, hall]

end SortedRange
