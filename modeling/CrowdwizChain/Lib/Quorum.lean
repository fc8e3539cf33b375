import Mathlib.Algebra.Ring.Nat
import Mathlib.Algebra.Order.BigOperators.Group.List

/-!
# Counting weights up to a threshold

A loop walks along entries with weights, puts each of them to a test, and adds up the weights of
those that pass, until a threshold is reached. The tests change a state as they go, and weights
are added in machine words, so that a sum may come out smaller than it is. `count_spec` says that
what the loop has counted is really there: among the entries there are some that are good and
whose weights are at least what was counted. `requireAll_spec` is the same for a list of tests
all of which have to pass.
-/

namespace Quorum

universe u v

variable {σ : Type u} {γ : Type v}

/-- The weights of some entries, added up. -/
def weight (l : List (γ × Nat)) : Nat := (l.map Prod.snd).sum

@[simp] theorem weight_nil : weight ([] : List (γ × Nat)) = 0 := rfl

@[simp] theorem weight_cons (e : γ × Nat) (l : List (γ × Nat)) :
    weight (e :: l) = e.2 + weight l := by
  rw [weight, weight, List.map_cons, List.sum_cons]

/-- The loop, with sums modulo `m`. It ends with `none` as soon as the threshold is reached, and
otherwise with the sum at the end. -/
def count (m : Nat) (test : γ → σ → Bool × σ) (threshold : Nat) : List (γ × Nat) → Nat → σ →
    Option Nat × σ
  | [], total, s => (some total, s)
  | e :: l, total, s =>
    match test e.1 s with
    | (true, s) =>
      let total := (total + e.2) % m
      if threshold ≤ total then (none, s) else count m test threshold l total s
    | (false, s) => count m test threshold l total s

/-- What the loop has counted is there: good entries with at least that weight. -/
theorem count_spec (m : Nat) {test : γ → σ → Bool × σ} (threshold : Nat) {Inv : σ → Prop}
    {Good : γ → Prop} {l : List (γ × Nat)}
    (htest : ∀ e ∈ l, ∀ s, Inv s → Inv (test e.1 s).2 ∧ ((test e.1 s).1 = true → Good e.1))
    (total : Nat) {s : σ} (hs : Inv s) : Inv (count m test threshold l total s).2 ∧
      ∃ counted : List (γ × Nat), counted.Sublist l ∧ (∀ e ∈ counted, Good e.1) ∧
        ((count m test threshold l total s).1.getD threshold) ≤ total + weight counted := by
  induction l generalizing total s with
  | nil => exact ⟨hs, [], .slnil, by simp, by simp [count]⟩
  | cons e l ih =>
    have ih' := fun total s (hs : Inv s) =>
      ih (fun e' he' => htest e' (List.mem_cons_of_mem e he')) total hs
    obtain ⟨hinv, hgood⟩ := htest e List.mem_cons_self s hs
    rw [count]
    rcases hres : test e.1 s with ⟨b, s'⟩
    rw [hres] at hinv hgood
    cases b with
    | true =>
      have hle : (total + e.2) % m ≤ total + e.2 := Nat.mod_le _ _
      dsimp only
      split
      · next hreached =>
        refine ⟨hinv, [e], by simp, by simpa using hgood rfl, ?_⟩
        rw [Option.getD_none, weight_cons, weight_nil]
        omega
      · obtain ⟨hinv', counted, hsub, hall, hweight⟩ := ih' ((total + e.2) % m) s' hinv
        refine ⟨hinv', e :: counted, hsub.cons_cons e, ?_, ?_⟩
        · rintro e' (_ | ⟨_, he'⟩)
          · exact hgood rfl
          · exact hall e' he'
        · rw [weight_cons]
          omega
    | false =>
      obtain ⟨hinv', counted, hsub, hall, hweight⟩ := ih' total s' hinv
      exact ⟨hinv', counted, hsub.cons e, hall, hweight⟩

/-- Tests that all have to pass, one after another. -/
def requireAll (test : γ → σ → Bool × σ) : List γ → σ → Option σ
  | [], s => some s
  | g :: l, s =>
    match test g s with
    | (true, s) => requireAll test l s
    | (false, _) => none

theorem requireAll_spec {test : γ → σ → Bool × σ} {Inv : σ → Prop} {Good : γ → Prop} {l : List γ}
    (htest : ∀ g ∈ l, ∀ s, Inv s → Inv (test g s).2 ∧ ((test g s).1 = true → Good g)) {s s' : σ}
    (hs : Inv s) (h : requireAll test l s = some s') : Inv s' ∧ ∀ g ∈ l, Good g := by
  induction l generalizing s with
  | nil =>
    obtain rfl := Option.some.inj h
    exact ⟨hs, by simp⟩
  | cons g l ih =>
    obtain ⟨hinv, hgood⟩ := htest g List.mem_cons_self s hs
    rw [requireAll] at h
    split at h
    · next s1 hres =>
      rw [hres] at hinv hgood
      obtain ⟨hinv', hall⟩ := ih (fun g' hg' => htest g' (List.mem_cons_of_mem g hg')) hinv h
      refine ⟨hinv', ?_⟩
      rintro g' (_ | ⟨_, hg'⟩)
      · exact hgood rfl
      · exact hall g' hg'
    · cases h

end Quorum
