import CrowdwizChain.Chain.Irreversible

/-!
# Block summaries

The ids of the latest blocks, under the last 16 bits of their numbers. A transaction refers to
one of them by a part of its id (`ref_block_prefix`), or asserts all of it
(`block_id_predicate`). Both bind it to a branch: after any pushes, switches of forks among them,
the summaries are those of the head's chain.
-/

namespace CrowdwizChain

open Option Transition

variable {τ δ ι σ β : Type*}

namespace Ledger

variable {L : Ledger σ β ι}

/-- The block is on the chain of the head, and one of the last 2^16. -/
def Recent (L : Ledger σ β ι) (head i : ι) : Prop :=
  L.Below head i ∧ L.numFromId head < L.numFromId i + 0x10000

/-- **One block** takes the place of the one that is no longer recent. -/
theorem recent_update (hid : Function.Injective L.id) {m : Nat → ι} {b : β}
    (hm : ∀ i, m (L.numFromId i % 0x10000) = i ↔ L.Recent (L.previous b) i) (i : ι) :
    Function.update m ((L.numFromId (L.previous b) + 1) % 0x10000) (L.id b)
      (L.numFromId i % 0x10000) = i ↔ L.Recent (L.id b) i := by
  rw [Function.update_apply, Recent, below_id_iff hid, L.numFromId_id]
  split
  · constructor
    · rintro rfl
      exact ⟨.inl rfl, by rw [L.numFromId_id]; omega⟩
    · rintro ⟨rfl | ⟨l, hl⟩, hlt⟩
      · rfl
      · have hlength := hl.length_eq
        omega
  · next hne =>
    rw [hm]
    constructor
    · rintro ⟨hbelow, hlt⟩
      exact ⟨.inr hbelow, by omega⟩
    · rintro ⟨rfl | hbelow, hlt⟩
      · exact absurd (by rw [L.numFromId_id]) hne
      · exact ⟨hbelow, by omega⟩

end Ledger

namespace BlockRules

variable [DecidableEq ι] (R : BlockRules (τ × (Nat → ι)) δ ι)

/-- `database::create_block_summary` -/
def createBlockSummary (m : Nat → ι) (b : ScheduledBlock ι δ) : Nat → ι :=
  Function.update m (R.blockNum b &&& 0xffff) (R.id b)

/-- `predicate_evaluator`, of a `block_id_predicate` -/
def blockIdPredicate (m : Nat → ι) (i : ι) : Bool := m (R.numFromId i &&& 0xffff) = i

/-- The TaPoS check of `_apply_transaction`, with `_hash[1]` of an id -/
def taposCheck (hash : ι → Nat) (m : Nat → ι) (headBlockNum refBlockNum refBlockPrefix : Nat) :
    Bool :=
  0 < headBlockNum → refBlockPrefix = hash (m refBlockNum)

/-- The rules for a state with summaries: all of a block can read them, and one place
writes them. -/
def withSummaries : BlockRules (τ × (Nat → ι)) δ ι :=
  { R with
    applyTransactions := fun s b => (R.applyTransactions s b).map fun s' => (s'.1, s.2)
    performChainMaintenance := fun s witnesses b =>
      (R.performChainMaintenance s witnesses b).map fun r => ((r.1.1, s.2), r.2)
    finishBlock := fun s b =>
      (R.finishBlock (s.1, R.createBlockSummary s.2 b) b).map fun s' =>
        (s'.1, R.createBlockSummary s.2 b) }

variable {R} {g s s' : HeadState (τ × (Nat → ι)) ι} {b : ScheduledBlock ι δ}

theorem summaries_applyBlock (h : R.withSummaries.applyBlock s b = some s') :
    s'.rest.2 = R.createBlockSummary s.rest.2 b := by
  obtain ⟨-, h⟩ := ite_none_right_eq_some.1 h
  obtain ⟨rest, hrest, h⟩ := bind_eq_some_iff.1 h
  obtain ⟨t, -, h⟩ := bind_eq_some_iff.1 h
  obtain ⟨r, hr, h⟩ := bind_eq_some_iff.1 h
  obtain ⟨_, hfinish, rfl⟩ := map_eq_some_iff.1 h
  obtain ⟨_, -, rfl⟩ := map_eq_some_iff.1 hrest
  have hkept : r.1.2 = s.rest.2 := by
    split at hr
    · obtain ⟨_, -, rfl⟩ := map_eq_some_iff.1 hr
      rfl
    · cases hr
      rfl
  obtain ⟨_, -, rfl⟩ := map_eq_some_iff.1 hfinish
  rw [updateWitnessSchedule, ← hkept]
  split <;> rfl

/-- The state that `init_genesis` leaves: every summary is the default one. -/
def emptySummaries (R : BlockRules (τ × (Nat → ι)) δ ι) (g : HeadState τ ι) :
    HeadState (τ × (Nat → ι)) ι :=
  { g with headBlockId := R.noBlock, rest := (g.rest, fun _ => R.noBlock) }

/-- The summaries are the ids of the recent blocks. -/
def Summarized (R : BlockRules (τ × (Nat → ι)) δ ι) (s : HeadState (τ × (Nat → ι)) ι) : Prop :=
  ∀ i, s.rest.2 (R.numFromId i % 0x10000) = i ↔ R.withSummaries.ledger.Recent s.headBlockId i

theorem Summarized.applyBlock (hs : R.Summarized s) (h : R.withSummaries.applyBlock s b = some s') :
    R.Summarized s' := by
  obtain ⟨hprev, hhead, -⟩ := applyBlock_eq_some h
  intro i
  rw [summaries_applyBlock h, createBlockSummary, Nat.and_two_pow_sub_one_eq_mod _ 16, hhead]
  rw [Summarized, ← hprev] at hs
  exact Ledger.recent_update (L := R.withSummaries.ledger) R.id_injective hs i

theorem summarized_emptySummaries (g : HeadState τ ι) : R.Summarized (R.emptySummaries g) := by
  intro i
  change R.noBlock = i ↔ R.withSummaries.ledger.Recent R.noBlock i
  constructor
  · rintro rfl
    exact ⟨.refl _, by omega⟩
  · rintro ⟨⟨l, hl⟩, -⟩
    have hlength := hl.length_eq
    have hzero : R.withSummaries.ledger.numFromId R.noBlock = 0 := R.numFromId_noBlock
    obtain rfl : l = [] := List.length_eq_zero_iff.1 (by omega)
    exact hl

/-- **A transaction is bound to a branch.** After any pushes, an id passes a
`block_id_predicate` exactly if it is that of one of the last 2^16 blocks on the chain of the
head; and under the number of such a block, a reference passes the TaPoS check exactly if it has
the prefix of this block's id. -/
theorem transactions_bound_to_branch (g : HeadState τ ι) (blocks : List (ScheduledBlock ι δ))
    (i : ι) :
    let s := (blocks.foldl (History.push R.withSummaries.ledger R.withSummaries.undoMaxSize)
      (.start (R.emptySummaries g))).node.state
    (R.blockIdPredicate s.rest.2 i ↔ R.withSummaries.ledger.Recent s.headBlockId i) ∧
      (R.withSummaries.ledger.Recent s.headBlockId i → ∀ hash n p,
        taposCheck hash s.rest.2 n (R.numFromId i &&& 0xffff) p ↔ 0 < n → p = hash i) := by
  have hchained : (blocks.foldl (History.push R.withSummaries.ledger R.withSummaries.undoMaxSize)
      (.start (R.emptySummaries g))).node.Chained R.withSummaries.ledger (R.emptySummaries g) :=
    List.foldlRecOn blocks _ ⟨[], [], ⟨rfl, rfl⟩, List.prefix_refl _⟩
      fun h hn b _ => UndoNode.Chained.pushBlock hn b
  obtain ⟨bs, u, hover, -⟩ := hchained
  have hall : R.Summarized _ :=
    invariant Summarized.applyBlock (summarized_emptySummaries g) hover.run
  intro s
  rw [blockIdPredicate, decide_eq_true_eq, Nat.and_two_pow_sub_one_eq_mod _ 16, hall i]
  refine ⟨Iff.rfl, fun hrecent hash n p => ?_⟩
  rw [taposCheck, (hall i).2 hrecent, decide_eq_true_eq]

end BlockRules

end CrowdwizChain
