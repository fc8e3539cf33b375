import Mathlib.Data.List.MinMax
import Mathlib.Data.List.Perm.Subperm
import Mathlib.Data.Prod.Lex
import CrowdwizChain.Lib.Run

/-!
# Walking along an index while its keys change

The entries of a state have a flag and a name, and an index has them in the order of both, those
without the flag first. A loop starts at the first entry with the flag. In every round it moves its
iterator to the entry behind the current one, and only then runs its body, which may change the
flags and so the order of the entries.

The argument is one of monotonicity. If the body takes the flag from no entry but the current one,
the entry under the iterator still has its flag when its turn comes, so that the names go up from
round to round and no entry comes twice; and an entry that had the flag in the beginning has it
until its turn comes, so that the iterator cannot pass over it (`FlagIndex.Visits.run`). As the
entries are finitely many, a loop whose body always returns comes to an end
(`FlagIndex.Visits.exists_end`).
-/

open Transition List

universe u v w

/-- The entries of a state, with their flags and names. -/
structure FlagIndex (σ : Type u) (α : Type v) (ν : Type w) where
  entries : σ → List α
  flag : σ → α → Bool
  name : σ → α → ν

namespace FlagIndex

variable {σ : Type u} {α : Type v} {ν : Type w} [LinearOrder ν] (I : FlagIndex σ α ν)

/-- The order of the index. -/
def key (s : σ) (a : α) : Bool ×ₗ ν := toLex (I.flag s a, I.name s a)

/-- The first entry with the flag. -/
def lowerBound (s : σ) : Option α := ((I.entries s).filter (I.flag s)).argmin (I.name s)

/-- The entry behind another one. -/
def next (s : σ) (a : α) : Option α :=
  ((I.entries s).filter fun b => I.key s a < I.key s b).argmin (I.key s)

/-- A round of the loop, on the entry under the iterator. -/
def round [DecidableEq α] (body : σ → α → Option σ) (st : σ × Option α) (a : α) :
    Option (σ × Option α) :=
  if st.2 = some a then (body st.1 a).map (·, I.next st.1 a) else none

/-- What the body may do. -/
structure Keeps (body : σ → α → Option σ) : Prop where
  mem : ∀ {s a s'}, body s a = some s' → ∀ b, b ∈ I.entries s' ↔ b ∈ I.entries s
  name : ∀ {s a s'}, body s a = some s' → ∀ b, I.name s' b = I.name s b
  flag : ∀ {s a s'}, body s a = some s' → ∀ b, b ≠ a → I.flag s b = true → I.flag s' b = true

/-- The loop has visited some entries since it started in a state. -/
structure Visits (s : σ) (l : List α) (st : σ × Option α) : Prop where
  mem : ∀ b, b ∈ I.entries st.1 ↔ b ∈ I.entries s
  name : ∀ b, I.name st.1 b = I.name s b
  sorted : l.Pairwise fun a b => I.name s a < I.name s b
  subset : ∀ a ∈ l, a ∈ I.entries s
  /-- the entry under the iterator -/
  current : ∀ b, st.2 = some b → b ∈ I.entries s ∧ I.flag st.1 b = true ∧
    ∀ a ∈ l, I.name s a < I.name s b
  /-- the entries that are still to come -/
  rest : ∀ c ∈ I.entries s, I.flag s c = true →
    c ∈ l ∨ ∃ b, st.2 = some b ∧ I.name s b ≤ I.name s c ∧ I.flag st.1 c = true

variable {I} {s s' : σ} {a b : α}

theorem key_lt_key (ha : I.flag s a = true) :
    I.key s a < I.key s b ↔ I.flag s b = true ∧ I.name s a < I.name s b := by
  rw [key, key, Prod.Lex.toLex_lt_toLex, ha]
  rcases I.flag s b <;> simp

theorem visits_lowerBound (s : σ) : I.Visits s [] (s, I.lowerBound s) where
  mem _ := Iff.rfl
  name _ := rfl
  sorted := .nil
  subset := by simp
  current b hb := by
    obtain ⟨hmem, hflag⟩ := mem_filter.1 (argmin_mem hb)
    exact ⟨hmem, hflag, by simp⟩
  rest c hc hflag := by
    have hin : c ∈ (I.entries s).filter (I.flag s) := mem_filter.2 ⟨hc, hflag⟩
    rcases hb : I.lowerBound s with _ | b
    · rw [argmin_eq_none.1 hb] at hin
      cases hin
    · exact .inr ⟨b, rfl, le_of_mem_argmin hin hb, hflag⟩

variable {st st' : σ × Option α} {l l' : List α}

theorem Visits.nodup (h : I.Visits s l st) : l.Nodup :=
  h.sorted.imp fun hlt heq => hlt.ne (congrArg (I.name s) heq)

theorem Visits.length_le (h : I.Visits s l st) : l.length ≤ (I.entries s).length :=
  (h.nodup.subperm h.subset).length_le

variable [DecidableEq α] {body : σ → α → Option σ}

variable (h : I.Visits s l st) (hbody : I.Keeps body)
    (hnames : Set.InjOn (I.name s) {a | a ∈ I.entries s})

include h hbody hnames

theorem Visits.round (hround : I.round body st a = some st') : I.Visits s (l ++ [a]) st' := by
  obtain ⟨hat, hround⟩ := Option.ite_none_right_eq_some.1 hround
  obtain ⟨t, ht, rfl⟩ := Option.map_eq_some_iff.1 hround
  obtain ⟨hmem, hflag, hlast⟩ := h.current a hat
  have hin : ∀ {c}, c ∈ (I.entries st.1).filter (fun b => I.key st.1 a < I.key st.1 b) ↔
      c ∈ I.entries s ∧ I.flag st.1 c = true ∧ I.name s a < I.name s c := by
    intro c
    rw [mem_filter, decide_eq_true_eq, key_lt_key hflag, h.mem, h.name, h.name]
  refine ⟨fun b => (hbody.mem ht b).trans (h.mem b), fun b => (hbody.name ht b).trans (h.name b),
    ?_, ?_,
    fun b hb => ?_, fun c hc hstart => ?_⟩
  · refine pairwise_append.2 ⟨h.sorted, pairwise_singleton _ a, fun c hc d hd => ?_⟩
    rw [mem_singleton.1 hd]
    exact hlast c hc
  · simpa [or_imp, forall_and, hmem] using h.subset
  · obtain ⟨hb, hbflag, hlt⟩ := hin.1 (argmin_mem hb)
    refine ⟨hb, hbody.flag ht b (fun heq => ?_) hbflag, fun c hc => ?_⟩
    · exact hlt.ne (congrArg (I.name s) heq).symm
    · rcases mem_append.1 hc with hc | hc
      · exact (hlast c hc).trans hlt
      · rw [mem_singleton.1 hc]
        exact hlt
  · rcases h.rest c hc hstart with hold | ⟨b, hb, hle, hcflag⟩
    · exact .inl (mem_append_left _ hold)
    cases hat.symm.trans hb
    rcases hle.eq_or_lt with heq | hlt
    · rw [hnames hmem hc heq]
      exact .inl (mem_append_right _ mem_cons_self)
    · right
      have hcin := hin.2 ⟨hc, hcflag, hlt⟩
      rcases hnext : I.next st.1 a with _ | b
      · rw [argmin_eq_none.1 hnext] at hcin
        cases hcin
      · obtain ⟨-, hbflag, -⟩ := hin.1 (argmin_mem hnext)
        refine ⟨b, rfl, ?_,
          hbody.flag ht c (fun heq => hlt.ne (congrArg (I.name s) heq).symm) hcflag⟩
        have hkey := not_lt.2 (le_of_mem_argmin hcin hnext)
        rw [key_lt_key hcflag, not_and, h.name, h.name] at hkey
        exact not_lt.1 (hkey hbflag)

/-- **A walk as a whole**, by induction over its rounds. -/
theorem Visits.run (hrun : Transition.run (I.round body) st l' = some st') :
    I.Visits s (l ++ l') st' := by
  induction l' generalizing l st with
  | nil =>
    cases hrun
    rw [append_nil]
    exact h
  | cons a l' ih =>
    obtain ⟨t, ht, hrun⟩ := Option.bind_eq_some_iff.1 hrun
    have hrest := ih (h.round hbody hnames ht) hrun
    rw [append_assoc] at hrest
    exact hrest

/-- **The loop ends** where its body returns, as long as something holds that the body keeps. -/
theorem Visits.exists_end {P : σ → Prop}
    (hP : ∀ {t a}, P t → a ∈ I.entries t → ∃ t', body t a = some t' ∧ P t') (hst : P st.1) :
    ∃ l' t, Transition.run (I.round body) st l' = some (t, none) := by
  -- the entries that have not been visited are fewer after every round
  induction hk :
    (I.entries s).length - l.length using Nat.strong_induction_on generalizing l st with
  | _ k ih =>
    obtain ⟨t, _ | a⟩ := st
    · exact ⟨[], t, rfl⟩
    · obtain ⟨t', ht, ht'⟩ := hP hst ((h.mem a).2 (h.current a rfl).1)
      have hround : I.round body (t, some a) a = some (t', I.next t a) := by
        rw [FlagIndex.round, if_pos rfl, ht]
        rfl
      have hvisits := h.round hbody hnames hround
      have hle := hvisits.length_le
      rw [length_append, length_singleton] at hle
      obtain ⟨l', u, hrun⟩ := ih _ (by rw [length_append, length_singleton]; omega) hvisits ht' rfl
      exact ⟨a :: l', u, by rw [Transition.run, hround]; exact hrun⟩

end FlagIndex
