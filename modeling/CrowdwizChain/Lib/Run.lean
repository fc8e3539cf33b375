import Mathlib.Init

/-!
# Runs of a partial step function

A system whose steps may be refused is a function `step : σ → α → Option σ`: from a state `s`,
the action `a` is either refused (`none`) or leads to one state. This file develops what every
safety argument about such a system uses:

* `Transition.run`: the state after a whole list of actions, `none` as soon as one is refused;
* `Transition.Along`: a condition that every step of the run meets in the state it is taken in;
* `Transition.invariant_of_along`: what one step preserves under the condition, a run whose steps
  all meet the condition preserves.
-/

namespace Transition

open Option List

universe u v

variable {σ : Type u} {α : Type v} {step : σ → α → Option σ}

/-- The state reached by taking the actions one after another; a refused action ends the run. -/
def run (step : σ → α → Option σ) : σ → List α → Option σ
  | s, [] => some s
  | s, a :: l => (step s a).bind fun s' => run step s' l

@[simp] theorem run_nil (s : σ) : run step s [] = some s := rfl

@[simp] theorem run_cons (s : σ) (a : α) (l : List α) :
    run step s (a :: l) = (step s a).bind fun s' => run step s' l := rfl

/-- Every step of the run meets `P` in the state in which it is taken. -/
def Along (step : σ → α → Option σ) (P : σ → α → Prop) : σ → List α → Prop
  | _, [] => True
  | s, a :: l => P s a ∧ ∀ s', step s a = some s' → Along step P s' l

theorem Along.imp {P Q : σ → α → Prop} (hPQ : ∀ {s a}, P s a → Q s a) {s : σ} {l : List α}
    (h : Along step P s l) : Along step Q s l := by
  induction l generalizing s with
  | nil => exact trivial
  | cons a l ih => exact ⟨hPQ h.1, fun s' hs => ih (h.2 s' hs)⟩

/-- Whether all steps meet a decidable condition can be checked by running them. -/
instance decidableAlong (P : σ → α → Prop) [∀ s a, Decidable (P s a)] :
    (s : σ) → (l : List α) → Decidable (Along step P s l)
  | _, [] => .isTrue trivial
  | s, a :: l =>
    match h : step s a with
    | none => decidable_of_iff (P s a)
        ⟨fun hP => ⟨hP, fun s' hs => absurd (h.symm.trans hs) (some_ne_none s').symm⟩, And.left⟩
    | some s' =>
      haveI := decidableAlong P s' l
      decidable_of_iff (P s a ∧ Along step P s' l)
        ⟨fun hP => ⟨hP.1, fun _ ht => some.inj (h.symm.trans ht) ▸ hP.2⟩,
          fun hP => ⟨hP.1, hP.2 s' h⟩⟩

theorem run_append (s : σ) (l l' : List α) :
    run step s (l ++ l') = (run step s l).bind fun s' => run step s' l' := by
  induction l generalizing s with
  | nil => simp
  | cons b l ih => simp only [cons_append, run_cons, ih, bind_assoc]

theorem run_concat (s : σ) (l : List α) (a : α) :
    run step s (l ++ [a]) = (run step s l).bind fun s' => step s' a := by
  simp only [run_append, run_cons, run_nil, bind_fun_some]

/-- A list of actions is either taken to its end, or up to the first one that is refused. -/
theorem run_or_stuck (step : σ → α → Option σ) (s : σ) (l : List α) :
    (∃ s', run step s l = some s') ∨
      ∃ done a rest t, l = done ++ a :: rest ∧ run step s done = some t ∧ step t a = none := by
  induction l generalizing s with
  | nil => exact .inl ⟨s, rfl⟩
  | cons a l ih =>
    cases ha : step s a with
    | none => exact .inr ⟨[], a, l, s, rfl, rfl, ha⟩
    | some t =>
      rw [run_cons, ha, bind_some]
      rcases ih t with h | ⟨done, b, rest, t', rfl, hdone, hb⟩
      · exact .inl h
      · refine .inr ⟨a :: done, b, rest, t', rfl, ?_, hb⟩
        rw [run_cons, ha]
        exact hdone

/-- **The invariant rule.** What every step meeting `P` preserves, a run whose steps all meet `P`
preserves. -/
theorem invariant_of_along {P : σ → α → Prop} {Inv : σ → Prop}
    (hstep : ∀ {s a s'}, Inv s → P s a → step s a = some s' → Inv s')
    {s s' : σ} {l : List α} (h0 : Inv s) (hP : Along step P s l) (hrun : run step s l = some s') :
    Inv s' := by
  induction l generalizing s with
  | nil =>
    cases hrun
    exact h0
  | cons a l ih =>
    obtain ⟨t, ht, hrun⟩ := bind_eq_some_iff.1 hrun
    exact ih (hstep h0 hP.1 ht) (hP.2 t ht) hrun

/-- The invariant rule when the steps preserve the invariant unconditionally. -/
theorem invariant {Inv : σ → Prop} (hstep : ∀ {s a s'}, Inv s → step s a = some s' → Inv s')
    {s s' : σ} {l : List α} (h0 : Inv s) (hrun : run step s l = some s') : Inv s' := by
  have hP : Along step (fun _ _ => True) s l := by
    clear hrun
    induction l generalizing s with
    | nil => exact trivial
    | cons a l ih => exact ⟨trivial, fun t ht => ih (hstep h0 ht)⟩
  exact invariant_of_along (fun h _ hs => hstep h hs) h0 hP hrun

/-- A loop whose steps keep to a relation keeps to it. -/
theorem foldlM_rel {R : σ → σ → Prop} (hrefl : ∀ s, R s s)
    (htrans : ∀ {s t u}, R s t → R t u → R s u) {f : σ → α → Option σ}
    (hf : ∀ {s a s'}, f s a = some s' → R s s') {l : List α} {s s' : σ}
    (h : l.foldlM f s = some s') : R s s' := by
  induction l generalizing s with
  | nil =>
    cases h
    exact hrefl _
  | cons a l ih =>
    obtain ⟨t, ht, h⟩ := bind_eq_some_iff.1 h
    exact htrans (hf ht) (ih h)

/-- An optional part of a step is taken, or leaves the state as it is. -/
@[elab_as_elim]
theorem optional_step {motive : σ → Prop} {p : Prop} [Decidable p] {o : Option σ} {s s' : σ}
    (h : (if p then o else some s) = some s') (htaken : p → o = some s' → motive s')
    (hleft : motive s) :
    motive s' := by
  split at h
  · next hp => exact htaken hp h
  · cases h
    exact hleft

/-! ### Keys that can be used once -/

/-- From one state to another, keys are used that were not barred, no key twice, and they are barred
then; what was barred stays so. -/
structure Spends {κ : Type*} (Barred : σ → κ → Prop) (s : σ) (keys : List κ) (s' : σ) : Prop where
  mono : ∀ k, Barred s k → Barred s' k
  nodup : keys.Nodup
  fresh : ∀ k ∈ keys, ¬ Barred s k
  barred : ∀ k ∈ keys, Barred s' k

/-- **Each key at most once.** If steps bar the keys that they use, no key is used
twice in a run. -/
theorem run_spends {κ : Type*} {Barred : σ → κ → Prop} {keys : α → List κ} {l : List α} {s s' : σ}
    (hstep : ∀ {s s'}, ∀ a ∈ l, step s a = some s' → Spends Barred s (keys a) s')
    (hrun : run step s l = some s') : Spends Barred s (l.flatMap keys) s' := by
  induction l generalizing s with
  | nil =>
    cases hrun
    exact ⟨fun _ h => h, nodup_nil, by simp, by simp⟩
  | cons a l ih =>
    obtain ⟨t, ht, hrun⟩ := bind_eq_some_iff.1 hrun
    have ha := hstep a mem_cons_self ht
    have hl := ih (fun b hb => hstep b (mem_cons_of_mem _ hb)) hrun
    refine ⟨fun k hk => hl.mono k (ha.mono k hk), ?_, ?_, ?_⟩
    · refine nodup_append.2 ⟨ha.nodup, hl.nodup, ?_⟩
      rintro k hk _ hk' rfl
      exact hl.fresh k hk' (ha.barred k hk)
    · intro k hk hbarred
      rcases mem_append.1 hk with hk | hk
      · exact ha.fresh k hk hbarred
      · exact hl.fresh k hk (ha.mono k hbarred)
    · intro k hk
      rcases mem_append.1 hk with hk | hk
      · exact hl.mono k (ha.barred k hk)
      · exact hl.barred k hk

end Transition
