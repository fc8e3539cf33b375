import Mathlib.Data.Fintype.Card

/-!
# Climbing along a partial map

Every point of a type may have a parent, and some points are stops. This file is about the climb
from a point to its parent, to the parent of that, and so on, until a stop is met:

* `Ascent.Rooted`: the climb ends, that is, it meets a stop after finitely many steps;
* `Ascent.Climbs`: the climb gets from one point to another, and meets no stop on its way;
* `Ascent.Climbs.lt_card`: within a finite set the climb is shorter than the set is large;
* `Ascent.rooted_update_iff`: one point gets another parent, and all climbs still end, exactly if
  the climb from the new parent does not come back to the point.
-/

namespace Ascent

open Option Function

universe u

variable {α : Type u}

/-- The climb from a point ends on a stop. -/
inductive Rooted (parent : α → Option α) (stop : α → Prop) : α → Prop
  | stop {a : α} (ha : stop a) : Rooted parent stop a
  | step {a b : α} (hab : parent a = some b) (hb : Rooted parent stop b) : Rooted parent stop a

/-- The climb gets from a point to another in some number of steps, and meets no stop before. -/
inductive Climbs (parent : α → Option α) (stop : α → Prop) : Nat → α → α → Prop
  | refl (a : α) : Climbs parent stop 0 a a
  | step {n : Nat} {a b c : α} (ha : ¬stop a) (hab : parent a = some b)
      (hbc : Climbs parent stop n b c) : Climbs parent stop (n + 1) a c

variable {parent parent' : α → Option α} {stop stop' : α → Prop}

variable {a c : α} {n : Nat}

theorem climbs_zero_iff {b : α} : Climbs parent stop 0 a b ↔ a = b := by
  constructor
  · rintro ⟨⟩
    rfl
  · rintro rfl
    exact .refl a

theorem climbs_succ_iff :
    Climbs parent stop (n + 1) a c ↔ ¬stop a ∧ ∃ b, parent a = some b ∧
    Climbs parent stop n b c := by
  constructor
  · rintro (_ | ⟨ha, hab, hbc⟩)
    exact ⟨ha, _, hab, hbc⟩
  · rintro ⟨ha, b, hab, hbc⟩
    exact .step ha hab hbc

/-- More parents and more stops end no fewer climbs. -/
theorem Rooted.mono (hparent : ∀ a b, parent a = some b → parent' a = some b)
    (hstop : ∀ a, stop a → stop' a) (h : Rooted parent stop a) : Rooted parent' stop' a := by
  induction h with
  | stop ha => exact .stop (hstop _ ha)
  | step hab _ ih => exact .step (hparent _ _ hab) ih

/-- A climb never leaves a set without stops in which every point has a parent. -/
theorem Rooted.not_mem_of_closed {s : α → Prop}
    (hs : ∀ a, s a → ¬stop a ∧ ∃ b, parent a = some b ∧ s b) (h : Rooted parent stop a) : ¬s a := by
  induction h with
  | stop hstop => exact fun ha => (hs _ ha).1 hstop
  | step hab _ ih =>
    intro ha
    obtain ⟨-, b, hb, hsb⟩ := hs _ ha
    cases hab.symm.trans hb
    exact ih hsb

/-! ### How long a climb is -/

theorem Rooted.exists_climbs (h : Rooted parent stop a) :
    ∃ n c, stop c ∧ Climbs parent stop n a c := by
  induction h with
  | @stop a ha => exact ⟨0, a, ha, .refl a⟩
  | @step a b hab _ ih =>
    by_cases hstop : stop a
    · exact ⟨0, a, hstop, .refl a⟩
    · obtain ⟨n, c, hc, hbc⟩ := ih
      exact ⟨n + 1, c, hc, .step hstop hab hbc⟩

theorem Climbs.length_eq {m : Nat} {d : α} (hc : stop c) (hd : stop d)
    (h : Climbs parent stop n a c) (h' : Climbs parent stop m a d) : n = m := by
  induction h generalizing m with
  | refl a =>
    rcases h' with _ | ⟨ha, -, -⟩
    · rfl
    · exact absurd hc ha
  | step ha hab _ ih =>
    rcases h' with _ | ⟨-, hab', hbd⟩
    · exact absurd hd ha
    · cases hab.symm.trans hab'
      exact congrArg Nat.succ (ih hc hbd)

/-- On a climb to a stop there is a point at every height. -/
theorem Climbs.exists_at {s : α → Prop} (hs : ∀ a b, s a → ¬stop a → parent a = some b → s b)
    {k : Nat}
    (ha : s a) (h : Climbs parent stop n a c) (hk : k ≤ n) :
    ∃ b, s b ∧ Climbs parent stop k b c := by
  induction h with
  | refl a =>
    obtain rfl := Nat.le_zero.1 hk
    exact ⟨a, ha, .refl a⟩
  | @step n a b c hna hab hbc ih =>
    rcases Nat.le_succ_iff.1 hk with hle | rfl
    · exact ih (hs a b ha hna hab) hle
    · exact ⟨a, ha, .step hna hab hbc⟩

/-- **A climb within a finite set** takes fewer steps than the set has points, as these
have different heights. -/
theorem Climbs.lt_card {s : Finset α} (hs : ∀ a b, a ∈ s → ¬stop a → parent a = some b → b ∈ s)
    (ha : a ∈ s) (hc : stop c) (h : Climbs parent stop n a c) : n < s.card := by
  have hat : ∀ k : Fin (n + 1), ∃ b, b ∈ s ∧ Climbs parent stop k b c :=
    fun k => h.exists_at hs ha (Nat.lt_succ_iff.1 k.2)
  choose f hmem hclimbs using hat
  have hinj : Injective f := by
    intro j k hjk
    exact Fin.ext (Climbs.length_eq hc hc (hclimbs j) (hjk ▸ hclimbs k))
  have hle :=
    Finset.card_le_card_of_injOn f (s := Finset.univ) (t := s) (fun k _ => hmem k) hinj.injOn
  rw [Finset.card_univ, Fintype.card_fin] at hle
  exact hle

section Update

variable [DecidableEq α] {x y : α}

variable {a : α}

/-- A climb that does not meet a point ends as before, whatever parent the point gets. -/
theorem Rooted.update_of_not_climbs (h : Rooted parent stop a)
    (ha : ∀ n, Climbs parent stop n a x → stop x) :
    Rooted (update parent x (some y)) stop a := by
  induction h with
  | stop hstop => exact .stop hstop
  | @step a b hab _ ih =>
    by_cases hstop : stop a
    · exact .stop hstop
    · have hne : a ≠ x := by
        rintro rfl
        exact hstop (ha 0 (.refl a))
      refine .step ?_ (ih fun n hn => ha (n + 1) (.step hstop hab hn))
      rw [update_of_ne hne, hab]

/-- A climb that comes back to the point whose parent it started from does not end. -/
theorem not_climbs_of_rooted_update {n : Nat} (hx : ¬stop x) (hyx : Climbs parent stop n y x)
    (h : Rooted (update parent x (some y)) stop a) (k : Nat) : ¬Climbs parent stop k a x := by
  induction h generalizing k with
  | @stop a ha =>
    intro hk
    rcases hk with _ | ⟨hna, -, -⟩
    · exact hx ha
    · exact hna ha
  | @step a b hab _ ih =>
    intro hk
    rcases eq_or_ne a x with rfl | hne
    · rw [update_self] at hab
      cases hab
      exact ih n hyx
    · rw [update_of_ne hne] at hab
      rcases hk with _ | ⟨-, hab', hbc⟩
      · exact hne rfl
      · cases hab.symm.trans hab'
        exact ih _ hbc

/-- If the climb from the new parent ends, so do those that pass through the point. -/
theorem Rooted.update (hy : Rooted (update parent x (some y)) stop y)
    (h : Rooted parent stop a) : Rooted (update parent x (some y)) stop a := by
  induction h with
  | stop hstop => exact .stop hstop
  | @step a b hab _ ih =>
    rcases eq_or_ne a x with rfl | hne
    · exact .step (update_self ..) hy
    · exact .step (by rw [update_of_ne hne, hab]) ih

/-- **Another parent for one point.** Where all climbs end, they still do if and only if the climb
from the new parent does not come back to the point (unless it is a stop). -/
theorem rooted_update_iff {s : α → Prop} (hs : ∀ a, s a → Rooted parent stop a) (hy : s y) :
    (∀ a, s a → Rooted (update parent x (some y)) stop a) ↔ ∀ n, Climbs parent stop n y x →
    stop x := by
  constructor
  · intro h n hn
    by_contra hx
    exact not_climbs_of_rooted_update hx hn (h y hy) n hn
  · intro h a ha
    exact Rooted.update ((hs y hy).update_of_not_climbs h) (hs a ha)

end Update

end Ascent
