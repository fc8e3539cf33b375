import Mathlib.Data.Set.Insert

/-!
# Membership that is written down twice

People belong to groups, and this is kept in two places: every person knows their group (`home`),
and every group has a list of its people (`crew`). `Roster.Agree` says that the two places tell the
same story. The lemmas are the ways in which both are updated together: a group is founded by one
person, a person joins or leaves, a group is disbanded.
-/

namespace Roster

open Function

universe u v

variable {α : Type u} {ι : Type v} {home : α → Option ι} {crew : ι → Option (Set α)}

/-- A person has a group as their own exactly if the group exists and has the person. -/
def Agree (home : α → Option ι) (crew : ι → Option (Set α)) : Prop :=
  ∀ a i, home a = some i ↔ ∃ s, crew i = some s ∧ a ∈ s

variable {i : ι} {s : Set α} {a : α}

theorem Agree.unique (h : Agree home crew) {j : ι} {t : Set α} (hi : crew i = some s) (ha : a ∈ s)
    (hj : crew j = some t) (ha' : a ∈ t) : i = j := by
  have hhome := (h a i).2 ⟨s, hi, ha⟩
  exact Option.some.inj (hhome.symm.trans ((h a j).2 ⟨t, hj, ha'⟩))

theorem Agree.not_mem (h : Agree home crew) (ha : home a = none) (hi : crew i = some s) :
    a ∉ s := by
  intro hmem
  rw [(h a i).2 ⟨s, hi, hmem⟩] at ha
  cases ha

variable [DecidableEq ι]

/-- A group is disbanded: its people have no group any more. -/
theorem Agree.disband (h : Agree home crew) {home' : α → Option ι} (hi : crew i = some s)
    (hin : ∀ a ∈ s, home' a = none) (hout : ∀ a ∉ s, home' a = home a) :
    Agree home' (update crew i none) := by
  intro b j
  rw [update_apply]
  by_cases hb : b ∈ s
  · rw [hin b hb]
    constructor
    · rintro ⟨⟩
    · rintro ⟨t, ht, hmem⟩
      rcases eq_or_ne j i with rfl | hj
      · rw [if_pos rfl] at ht
        cases ht
      · rw [if_neg hj] at ht
        exact absurd (h.unique ht hmem hi hb) hj
  · rw [hout b hb]
    rcases eq_or_ne j i with rfl | hj
    · rw [if_pos rfl, h b j, hi]
      simp [hb]
    · rw [if_neg hj]
      exact h b j

variable [DecidableEq α]

/-- Somebody without a group joins the crew `s` under the number `i`, which may be a new group. -/
theorem Agree.enter (h : Agree home crew) (ha : home a = none)
    (hi : crew i = some s ∨ crew i = none ∧ s = ∅) :
    Agree (update home a (some i)) (update crew i (some (insert a s))) := by
  have hcrew : ∀ b, b ≠ a → (home b = some i ↔ b ∈ s) := by
    intro b _
    rw [h b i]
    rcases hi with hi | ⟨hi, rfl⟩ <;> simp [hi]
  intro b j
  rw [update_apply, update_apply]
  rcases eq_or_ne b a with rfl | hb
  · rw [if_pos rfl, Option.some.injEq]
    rcases eq_or_ne j i with rfl | hj
    · simp
    · rw [if_neg hj]
      constructor
      · intro hij
        exact absurd hij.symm hj
      · rintro ⟨t, ht, hmem⟩
        exact absurd hmem (h.not_mem ha ht)
  · rw [if_neg hb]
    rcases eq_or_ne j i with rfl | hj
    · rw [if_pos rfl, hcrew b hb]
      simp [hb]
    · rw [if_neg hj]
      exact h b j

theorem Agree.leave (h : Agree home crew) (hi : crew i = some s) (ha : a ∈ s) :
    Agree (update home a none) (update crew i (some (s \ {a}))) := by
  intro b j
  rw [update_apply, update_apply]
  rcases eq_or_ne b a with rfl | hb
  · rw [if_pos rfl]
    constructor
    · rintro ⟨⟩
    · rintro ⟨t, ht, hmem⟩
      rcases eq_or_ne j i with rfl | hj
      · rw [if_pos rfl] at ht
        obtain rfl := Option.some.inj ht
        exact absurd rfl hmem.2
      · rw [if_neg hj] at ht
        exact absurd (h.unique ht hmem hi ha) hj
  · rw [if_neg hb]
    rcases eq_or_ne j i with rfl | hj
    · rw [if_pos rfl, h b j, hi]
      simp [hb]
    · rw [if_neg hj]
      exact h b j

end Roster
