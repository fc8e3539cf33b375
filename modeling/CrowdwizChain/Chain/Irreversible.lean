import CrowdwizChain.Chain.PushBlock
import CrowdwizChain.Chain.BlockSchedule

/-!
# Irreversible blocks

A node whose undo stack is cut to a size whenever a session starts, and whose fork database drops
old blocks: both sizes are set by each block that is applied, from the last irreversible number that
the block before has left. This reaches down to that block, so that a longer branch can still take
its place, and the place of all blocks that have become irreversible with the head.

What keeps an irreversible block on the chain is that no longer branch leaves it out. `Keeps` is the
property of a node and its history, and it holds as long as every block that is pushed above the
head descends from the blocks that have been reported.
-/

namespace CrowdwizChain

open Option List Transition Nat

universe u v w

/-- A node, and the size that its undo stack is cut to. -/
structure UndoNode (σ : Type u) (β : Type v) extends Node σ β where
  undoMaxSize : Nat := minUndoHistory

variable {σ : Type u} {β : Type v} {ι : Type w} [DecidableEq ι] (L : Ledger σ β ι)
  (undoMaxSize : σ → β → Nat → Nat → Nat)

namespace UndoNode

/-- `apply_block` in an undo session, and whether it returned: the session starts with the oldest
states dropped that are too many. -/
def applyBlock (n : UndoNode σ β) (b : β) : UndoNode σ β × Bool :=
  let kept := n.undo.take n.undoMaxSize
  let r := Node.applyBlock L { n.toNode with undo := kept } b
  (⟨r.1, undoMaxSize n.state b (kept.length + 1) n.undoMaxSize⟩, r.2)

/-- The blocks of a branch are applied, until one fails; this one and those after it
are returned. -/
def applyBranch : List (ForkItem β) → UndoNode σ β → UndoNode σ β × List (ForkItem β)
  | [], n => (n, [])
  | x :: l, n =>
    match n.applyBlock L undoMaxSize x.block with
    | (n, false) => (n, x :: l)
    | (n, true) => applyBranch l n

/-- Blocks are popped until a block is the head. -/
def popUntil (n : UndoNode σ β) (target : ι) : UndoNode σ β × Bool :=
  let r := Node.popUntil L target (n.undo.length + 1) n.toNode
  (⟨r.1, n.undoMaxSize⟩, r.2)

/-- What `_push_block` does when a block of the new branch has failed. -/
def switchBack (n : UndoNode σ β) (rest second : List (ForkItem β)) (target : ι) : UndoNode σ β :=
  let fork := rest.foldl (fun fork x => fork.remove L (L.id x.block)) n.fork
  match popUntil L { n with fork := fork.setHead second.head? } target with
  | (n, false) => n
  | (n, true) => (applyBranch L undoMaxSize second.reverse n).1

/-- What `_push_block` does when the new head is higher and does not build off the current head. -/
def switchFork (n : UndoNode σ β) (newHead : ForkItem β) : UndoNode σ β × PushResult :=
  match n.fork.fetchBranchFrom L (L.id newHead.block) (L.headBlockId n.state) with
  | none => (n, .threw)
  | some (first, second) =>
    match second.getLast? with
    | none => (n, .threw)
    | some last =>
      match popUntil L n (L.previous last.block) with
      | (n, false) => (n, .threw)
      | (n, true) =>
        match applyBranch L undoMaxSize first.reverse n with
        | (n, []) => (n, .returned true)
        | (n, x :: rest) =>
          (n.switchBack L undoMaxSize (x :: rest) second (L.previous last.block), .threw)

/-- `database::_push_block` -/
def pushBlock (n : UndoNode σ β) (b : β) : UndoNode σ β × PushResult :=
  match n.fork.pushBlock L b with
  | none => (n, .threw)
  | some fork =>
    match fork.head with
    | none => ({ n with fork := fork }, .threw)
    | some newHead =>
      if L.previous newHead.block ≠ L.headBlockId n.state then
        if L.numFromId (L.headBlockId n.state) < L.num newHead.block then
          switchFork L undoMaxSize { n with fork := fork } newHead
        else ({ n with fork := fork }, .returned false)
      else
        match applyBlock L undoMaxSize { n with fork := fork } b with
        | (n, true) => (n, .returned false)
        | (n, false) => ({ n with fork := n.fork.remove L (L.id b) }, .threw)

end UndoNode

/-! ### Ancestors -/

namespace Ledger

variable {L}

omit [DecidableEq ι]

/-- The block with the second id is the one with the first id, or an ancestor of it. -/
def Below (L : Ledger σ β ι) (i j : ι) : Prop := ∃ l, L.Descends l i j

theorem Below.refl (i : ι) : L.Below i i := ⟨[], rfl⟩

variable {i j k : ι}

theorem Below.trans (h : L.Below i j) (h' : L.Below j k) : L.Below i k := by
  obtain ⟨l, hl⟩ := h
  obtain ⟨l', hl'⟩ := h'
  exact ⟨l ++ l', hl.append hl'⟩

theorem Below.of_previous {b : β} {i : ι} (h : L.Below (L.previous b) i) : L.Below (L.id b) i := by
  obtain ⟨l, hl⟩ := h
  exact ⟨b :: l, rfl, hl⟩

variable (hid : Function.Injective L.id)

include hid

theorem below_id_iff {b : β} : L.Below (L.id b) i ↔ i = L.id b ∨ L.Below (L.previous b) i := by
  constructor
  · rintro ⟨_ | ⟨c, l⟩, hl⟩
    · exact .inl (Eq.symm hl)
    · obtain rfl := hid hl.1
      exact .inr ⟨l, hl.2⟩
  · rintro (rfl | h)
    · exact .refl _
    · exact .of_previous h

theorem Descends.split {l l' : List β} (h : L.Descends l i j) (h' : L.Descends l' i k)
    (hlength : l'.length ≤ l.length) : ∃ l'', l = l' ++ l'' ∧ L.Descends l'' k j := by
  induction l' generalizing l i with
  | nil =>
    obtain rfl : i = k := h'
    exact ⟨l, rfl, h⟩
  | cons x l' ih =>
    cases l with
    | nil => simp at hlength
    | cons y l =>
      obtain rfl : x = y := hid (h'.1.trans h.1.symm)
      obtain ⟨l'', rfl, hl''⟩ := ih h.2 h'.2 (le_of_succ_le_succ hlength)
      exact ⟨l'', rfl, hl''⟩

/-- There is only one way down. -/
theorem Descends.unique {l l' : List β} (h : L.Descends l i j) (h' : L.Descends l' i j) :
    l = l' := by
  have hlength := h.length_eq
  have hlength' := h'.length_eq
  obtain ⟨l'', rfl, -⟩ := h.split hid h' (by omega)
  rw [length_append] at hlength
  obtain rfl : l'' = [] := length_eq_zero_iff.1 (by omega)
  exact append_nil l'

/-- Of two ancestors, the one with the lower number is an ancestor of the other. -/
theorem Below.of_le (hj : L.Below i j) (hk : L.Below i k) (hle : L.numFromId j ≤ L.numFromId k) :
    L.Below k j := by
  obtain ⟨l, hl⟩ := hj
  obtain ⟨l', hl'⟩ := hk
  have hlength := hl.length_eq
  have hlength' := hl'.length_eq
  obtain ⟨l'', -, hl''⟩ := hl.split hid hl' (by omega)
  exact ⟨l'', hl''⟩

theorem Descends.mem_of_below {l : List β} (h : L.Descends l i j) (hk : L.Below i k)
    (hlt : L.numFromId j < L.numFromId k) : ∃ b ∈ l, L.id b = k := by
  obtain ⟨l', hl'⟩ := hk
  have hlength := h.length_eq
  have hlength' := hl'.length_eq
  obtain ⟨_ | ⟨b, l''⟩, rfl, hl''⟩ := h.split hid hl' (by omega)
  · obtain rfl : k = j := hl''
    exact absurd hlt (lt_irrefl _)
  · exact ⟨b, mem_append_right _ mem_cons_self, hl''.1⟩

theorem Below.unique (hj : L.Below i j) (hk : L.Below i k) (heq : L.numFromId j = L.numFromId k) :
    j = k := by
  obtain ⟨l, hl⟩ := hj.of_le hid hk (le_of_eq heq)
  have hlength := hl.length_eq
  obtain rfl : l = [] := length_eq_zero_iff.1 (by omega)
  exact (Eq.symm hl : j = k)

omit hid

theorem Below.exists_num {i j : ι} (h : L.Below i j) {num : Nat} (hj : L.numFromId j ≤ num)
    (hi : num ≤ L.numFromId i) : ∃ k, L.Below i k ∧ L.numFromId k = num := by
  obtain ⟨l, hl⟩ := h
  induction l generalizing i with
  | nil =>
    obtain rfl : i = j := hl
    exact ⟨i, .refl i, by omega⟩
  | cons b l ih =>
    obtain ⟨rfl, hl⟩ := hl
    rcases lt_or_ge (L.numFromId (L.previous b)) num with hlt | hge
    · refine ⟨L.id b, .refl _, ?_⟩
      rw [L.numFromId_id] at hi ⊢
      omega
    · obtain ⟨k, hk, hnum⟩ := ih hge hl
      exact ⟨k, .of_previous hk, hnum⟩

/-- The states on the way of a run are those that can be undone. -/
theorem over_of_run {bs : List β} {g s : σ} (h : run L.applyBlock g bs = some s)
    (u0 : List σ) : ∃ u, L.Over bs.reverse s u g u0 := by
  induction bs generalizing g u0 with
  | nil =>
    obtain rfl : g = s := some.inj h
    exact ⟨u0, rfl, rfl⟩
  | cons b bs ih =>
    obtain ⟨t, ht, h⟩ := bind_eq_some_iff.1 h
    obtain ⟨u, hu⟩ := ih h (g :: u0)
    rw [reverse_cons]
    exact ⟨u, over_append.2 ⟨t, g :: u0, hu, g, u0, rfl, ht, rfl, rfl⟩⟩

end Ledger

/-! ### The blocks in a fork database -/

namespace ForkDatabase

variable {L} {f f' : ForkDatabase β} {b c : β}

/-- The block is in the index, or it is the head. -/
def Holds (f : ForkDatabase β) (b : β) : Prop :=
  (∃ x ∈ f.index, x.block = b) ∨ f.head.map ForkItem.block = some b

theorem holds_of_fetchBlock {i : ι} {x : ForkItem β} (h : f.fetchBlock L i = some x) :
    f.Holds x.block :=
  .inl ⟨x, (fetchBlock_eq_some h).2.2, rfl⟩

theorem holds_keep {p : ForkItem β → Bool} (h : (f.keep L p).Holds b) : f.Holds b := by
  rcases h with ⟨y, hy, rfl⟩ | h
  · obtain ⟨x, hx, rfl⟩ := mem_map.1 hy
    exact .inl ⟨x, mem_of_mem_filter hx, rfl⟩
  · rw [head_keep] at h
    exact .inr h

theorem holds_setMaxSize {size : Nat} (h : (f.setMaxSize L size).Holds b) : f.Holds b := by
  rw [setMaxSize] at h
  split at h
  · exact h
  · have hkept := holds_keep h
    exact hkept

theorem setMaxSize_elim (size : Option Nat) :
    (size.elim f (f.setMaxSize L)).head.map ForkItem.block = f.head.map ForkItem.block ∧
      ∀ c, (size.elim f (f.setMaxSize L)).Holds c → f.Holds c := by
  cases size with
  | none => exact ⟨rfl, fun _ hc => hc⟩
  | some size => exact ⟨head_setMaxSize size, fun _ hc => holds_setMaxSize hc⟩

theorem head_pushBlock (h : f.pushBlock L b = some f') :
    ∃ x, f'.head = some x ∧ (x.block = b ∨ f.head.map ForkItem.block = some x.block) := by
  have hinsert : ∀ item : ForkItem β, (if (f.fetchBlock L (L.id b)).isSome then f
      else { f with index := item :: f.index } : ForkDatabase β).head = f.head := by
    intro item
    split <;> rfl
  rw [pushBlock] at h
  split at h
  · cases h
    exact ⟨_, rfl, .inl rfl⟩
  · next head hhead =>
    obtain ⟨-, h⟩ := ite_none_right_eq_some.1 h
    obtain ⟨item, hitem, h⟩ := map_eq_some_iff.1 h
    split at h
    · obtain rfl := h
      refine ⟨_, rfl, .inl ?_⟩
      split at hitem
      · rw [← some.inj hitem]
      · obtain ⟨-, -, rfl⟩ := map_eq_some_iff.1 hitem
        rfl
    · obtain rfl := h
      rw [hinsert, hhead]
      exact ⟨head, rfl, .inr rfl⟩

theorem holds_pushBlock (h : f.pushBlock L b = some f') (hc : f'.Holds c) : c = b ∨ f.Holds c := by
  rcases hc with ⟨x, hx, rfl⟩ | hc
  · rcases mem_index_pushBlock h hx with hb | ⟨y, hy, hyx⟩
    · exact .inl hb
    · exact .inr (.inl ⟨y, hy, hyx⟩)
  · obtain ⟨x, hx, hb⟩ := head_pushBlock h
    rw [hx] at hc
    cases hc
    exact hb.imp id .inr

theorem head_remove {i : ι} {x : ForkItem β} (h : (f.remove L i).head = some x) :
    (L.id x.block ≠ i ∧ f.head.map ForkItem.block = some x.block) ∨
      ∃ y, f.head.map ForkItem.block = some y ∧ L.id y = i ∧ L.id x.block = L.previous y := by
  have hblock := head_keep (L := L) (f := f) fun x => L.id x.block ≠ i
  rcases (remove_spec rfl).2 h with ⟨hi, hkept⟩ | ⟨head, hkept, hi, hlock⟩
  · rw [hkept] at hblock
    exact .inl ⟨hi, hblock.symm⟩
  · rw [hkept] at hblock
    exact .inr ⟨head.block, hblock.symm, hi, (lock_eq_some hlock).1⟩

theorem holds_remove {i : ι} (h : (f.remove L i).Holds b) : f.Holds b := by
  refine holds_keep (L := L) (p := fun x => L.id x.block ≠ i) ?_
  rcases h with ⟨x, hx, rfl⟩ | h
  · rw [(remove_spec rfl).1] at hx
    exact .inl ⟨x, hx, rfl⟩
  · obtain ⟨x, hx, rfl⟩ := map_eq_some_iff.1 h
    rcases (remove_spec rfl).2 hx with ⟨-, hkept⟩ | ⟨head, -, -, hlock⟩
    · exact .inr (by rw [hkept]; rfl)
    · exact holds_of_fetchBlock (lock_eq_some hlock).2

end ForkDatabase

/-! ### Histories -/

/-- A node, and the states that it has been in after a block was pushed, the latest one first. -/
structure History (σ : Type u) (β : Type v) where
  node : UndoNode σ β
  seen : List σ

namespace History

/-- From the state at the start, with nothing to undo and an empty fork database -/
def start (g : σ) : History σ β := ⟨{ state := g, undo := [], fork := {} }, [g]⟩

/-- A block is pushed. -/
def push (h : History σ β) (b : β) : History σ β :=
  let n := (h.node.pushBlock L undoMaxSize b).1
  ⟨n, n.state :: h.seen⟩

/-- One push after the other; `_push_block` always ends, if only with an exception. -/
def step (h : History σ β) (b : β) : Option (History σ β) := some (h.push L undoMaxSize b)

variable (lastIrreversible : σ → Nat)

/-- The block with this id is one that a state has reported as the last irreversible one: it is on
the chain of that state, at the number that the state has. -/
def Reported (h : History σ β) (i : ι) : Prop :=
  ∃ s ∈ h.seen, L.Below (L.headBlockId s) i ∧ L.numFromId i = lastIrreversible s

/-- **Irreversible blocks are kept**: the chain of the head has every block that has
been reported. -/
def Keeps (h : History σ β) : Prop :=
  ∀ i, h.Reported L lastIrreversible i → L.Below (L.headBlockId h.node.state) i

/-- The block, if it is above the head, descends from every block that has been reported. -/
def Descendant (h : History σ β) (b : β) : Prop :=
  L.numFromId (L.headBlockId h.node.state) < L.num b →
    ∀ i, h.Reported L lastIrreversible i → L.Below (L.id b) i

end History

/-- What is used of a chain: it starts with block number zero, ids are hashes, and the last
irreversible number does not go down and is not above the head. -/
structure Ledger.Finality (L : Ledger σ β ι) (g : σ) (lastIrreversible : σ → Nat) : Prop where
  start : L.numFromId (L.headBlockId g) = 0
  injective : Function.Injective L.id
  mono : ∀ {s b s'}, L.applyBlock s b = some s' → lastIrreversible s ≤ lastIrreversible s'
  le_head : ∀ {bs s}, run L.applyBlock g bs = some s →
    lastIrreversible s ≤ L.numFromId (L.headBlockId s)

/-- The block can be applied at the end of some chain. -/
def Ledger.ValidOnBranch (L : Ledger σ β ι) (g : σ) (b : β) : Prop :=
  ∃ bs s, run L.applyBlock g (bs ++ [b]) = some s

/-- The undo states of a node are the latest ones of its chain. -/
def Node.Chained (L : Ledger σ β ι) (g : σ) (n : Node σ β) : Prop :=
  ∃ bs u, L.Over bs n.state u g [] ∧ n.undo <+: u

variable {L} {undoMaxSize} {g : σ} {lastIrreversible : σ → Nat}

section

variable (hf : L.Finality g lastIrreversible)

include hf

omit [DecidableEq ι] in
theorem Ledger.Over.lastIrreversible_le {l : List β} {s s0 : σ} {u u0 : List σ}
    (h : L.Over l s u s0 u0) : lastIrreversible s0 ≤ lastIrreversible s := by
  induction l generalizing s u with
  | nil =>
    obtain ⟨rfl, -⟩ := h
    exact le_refl _
  | cons b l ih =>
    obtain ⟨s', u', -, hb, h⟩ := h
    exact le_trans (ih h) (hf.mono hb)

/-! ### Popping and applying, with a stack that is cut -/

/-- **Popping goes down the chain, and not below the target**: the fork database stays as it is, as
its head is above the node's. -/
theorem Node.popUntil_spec (steps : Nat) {n : Node σ β} {head : ForkItem β}
    (hhead : n.fork.head = some head)
    (hlow : L.numFromId (L.headBlockId n.state) < L.num head.block) {target : ι} {l : List β}
    (hl : L.Descends l (L.headBlockId n.state) target) (hn : n.Chained L g) :
    ∃ l' u u', L.Over l' n.state u (popUntil L target steps n).1.state u' ∧ l'.length ≤ l.length ∧
      (popUntil L target steps n).1.Chained L g ∧ (popUntil L target steps n).1.fork = n.fork ∧
      ((popUntil L target steps n).2 = true ↔
        L.headBlockId (popUntil L target steps n).1.state = target) := by
  induction steps generalizing n l with
  | zero => exact ⟨[], [], [], ⟨rfl, rfl⟩, zero_le _, hn, rfl, decide_eq_true_iff⟩
  | succ steps ih =>
    rw [popUntil]
    by_cases hend : L.headBlockId n.state = target
    · rw [if_pos hend]
      exact ⟨[], [], [], ⟨rfl, rfl⟩, zero_le _, hn, rfl, fun _ => hend, fun _ => rfl⟩
    · rw [if_neg hend]
      have hstay : ∀ {r : Node σ β × Bool}, r = (n, false) →
          ∃ l' u u', L.Over l' n.state u r.1.state u' ∧ l'.length ≤ l.length ∧ r.1.Chained L g ∧
            r.1.fork = n.fork ∧ (r.2 = true ↔ L.headBlockId r.1.state = target) := by
        rintro r rfl
        exact ⟨[], [], [], ⟨rfl, rfl⟩, zero_le _, hn, rfl, by simp, fun h => absurd h hend⟩
      have hne : L.id head.block ≠ L.headBlockId n.state := by
        intro heq
        rw [← heq, ← Ledger.num_eq] at hlow
        exact lt_irrefl _ hlow
      rcases hpop : n.popBlock L with ⟨n', ok⟩
      rw [popBlock, hhead] at hpop
      dsimp only at hpop
      rw [if_neg hne] at hpop
      cases hfetch : n.fork.fetchBlock L (L.headBlockId n.state) with
      | none =>
        rw [hfetch] at hpop
        cases hpop
        exact hstay rfl
      | some x =>
        rw [hfetch] at hpop
        cases hundo : n.undo with
        | nil =>
          rw [hundo] at hpop
          cases hpop
          exact hstay (by rw [← hundo])
        | cons s undo =>
          rw [hundo] at hpop
          cases hpop
          obtain ⟨bs, u, hover, hprefix⟩ := hn
          rw [hundo] at hprefix
          obtain ⟨t, rfl⟩ := hprefix
          cases bs with
          | nil => cases hover.2
          | cons b bs =>
            obtain ⟨s', u', hu, hb, hover⟩ := hover
            obtain ⟨rfl, rfl⟩ := cons.inj hu
            cases l with
            | nil => exact absurd hl hend
            | cons c l =>
              obtain rfl : c = b := hf.injective (hl.1.trans (L.head_of_apply hb))
              have hprev := L.previous_of_apply hb
              obtain ⟨l', v, v', hl', hlength, hchained, hfork, htarget⟩ :=
                ih (n := ⟨s, undo, n.fork⟩) hhead (by
                  rw [L.head_of_apply hb, L.numFromId_id, hprev] at hlow
                  dsimp only
                  omega) (hprev ▸ hl.2) ⟨bs, _, hover, prefix_append _ _⟩
              exact ⟨c :: l', _, v', ⟨s, v, rfl, hb, hl'⟩, succ_le_succ hlength, hchained,
                hfork, htarget⟩

end

namespace UndoNode

variable (undoMaxSize) in
/-- The state is the one after the block, if it can be applied; the fork database has
no block more. -/
theorem applyBlock_spec {n : UndoNode σ β} (b : β) (hn : n.Chained L g) :
    ∃ n', n.applyBlock L undoMaxSize b = (n', (L.applyBlock n.state b).isSome) ∧
      n'.state = (L.applyBlock n.state b).getD n.state ∧ n'.Chained L g ∧
      n'.fork.head.map ForkItem.block = n.fork.head.map ForkItem.block ∧
      ∀ c, n'.fork.Holds c → n.fork.Holds c := by
  obtain ⟨bs, u, hover, hprefix⟩ := hn
  have hkept := IsPrefix.trans (List.take_prefix n.undoMaxSize _) hprefix
  rw [applyBlock, Node.applyBlock]
  cases h : L.applyBlock n.state b with
  | none => exact ⟨_, rfl, rfl, ⟨bs, u, hover, hkept⟩, ForkDatabase.setMaxSize_elim _⟩
  | some s =>
    exact ⟨_, rfl, rfl,
      ⟨b :: bs, n.state :: u, ⟨n.state, u, rfl, h, hover⟩, (prefix_cons_inj _).2 hkept⟩,
      ForkDatabase.setMaxSize_elim _⟩

variable (undoMaxSize) in
theorem applyBranch_of_run {l : List (ForkItem β)} {n : UndoNode σ β} {s : σ} (hn : n.Chained L g)
    (h : run L.applyBlock n.state (l.map ForkItem.block) = some s) :
    ∃ n', applyBranch L undoMaxSize l n = (n', []) ∧ n'.state = s ∧ n'.Chained L g ∧
      n'.fork.head.map ForkItem.block = n.fork.head.map ForkItem.block ∧
      ∀ c, n'.fork.Holds c → n.fork.Holds c := by
  induction l generalizing n with
  | nil =>
    obtain rfl : n.state = s := some.inj h
    exact ⟨n, rfl, rfl, hn, rfl, fun _ hc => hc⟩
  | cons x l ih =>
    obtain ⟨t, ht, h⟩ := bind_eq_some_iff.1 h
    obtain ⟨n1, happly, hs1, hn1, hhead1, hholds1⟩ := applyBlock_spec undoMaxSize x.block hn
    rw [ht] at happly hs1
    obtain rfl : n1.state = t := hs1
    obtain ⟨n', hrun, hs, hn', hhead, hholds⟩ := ih hn1 h
    refine ⟨n', ?_, hs, hn', hhead.trans hhead1, fun c hc => hholds1 c (hholds c hc)⟩
    rw [applyBranch, happly]
    exact hrun

end UndoNode

/-! ### Any block, valid or not -/

theorem Node.Chained.popUntil {n : Node σ β} {target : ι} {steps : Nat} (hn : n.Chained L g) :
    (popUntil L target steps n).1.Chained L g := by
  induction steps generalizing n with
  | zero => exact hn
  | succ steps ih =>
    rw [Node.popUntil, popBlock]
    split
    · exact hn
    · rcases n.fork.head with _ | head
      · exact hn
      · dsimp only
        rcases if L.id head.block = _ then _ else _ with _ | fork
        · exact hn
        · obtain ⟨bs, u, hover, hprefix⟩ := hn
          cases hundo : n.undo with
          | nil => exact ⟨bs, u, hover, nil_prefix⟩
          | cons s undo =>
            rw [hundo] at hprefix
            cases bs with
            | nil => cases prefix_nil.1 (hover.2 ▸ hprefix)
            | cons b bs =>
              -- the state that is restored is the one before the last block
              obtain ⟨s', u', rfl, hb, hover⟩ := hover
              obtain ⟨rfl, htail⟩ := cons_prefix_cons.1 hprefix
              exact ih ⟨bs, u', hover, htail⟩

namespace UndoNode

variable {n : UndoNode σ β} (hn : n.Chained L g)

include hn

theorem Chained.applyBranch {n' : UndoNode σ β} {l rest : List (ForkItem β)}
    (h : applyBranch L undoMaxSize l n = (n', rest)) : n'.Chained L g := by
  induction l generalizing n with
  | nil =>
    cases h
    exact hn
  | cons x l ih =>
    obtain ⟨n1, happly, -, hn1, -⟩ := applyBlock_spec undoMaxSize x.block hn
    rw [UndoNode.applyBranch, happly] at h
    cases hx : (L.applyBlock n.state x.block).isSome with
    | false =>
      rw [hx] at h
      cases h
      exact hn1
    | true =>
      rw [hx] at h
      exact ih hn1 h

theorem Chained.switchFork (newHead : ForkItem β) :
    (n.switchFork L undoMaxSize newHead).1.Chained L g := by
  have hpop : ∀ {n n' : UndoNode σ β} {target ok}, popUntil L n target = (n', ok) → n.Chained L g →
      n'.Chained L g := by
    rintro n _ target _ ⟨⟩ hn
    exact hn.popUntil
  rw [UndoNode.switchFork]
  split
  · exact hn
  · split
    · exact hn
    · split
      · next heq => exact hpop heq hn
      · next heq =>
        have hn1 := hpop heq hn
        split
        · next heq => exact Chained.applyBranch hn1 heq
        · next heq =>
          have hn2 := Chained.applyBranch hn1 heq
          rw [switchBack]
          split
          · next heq => exact hpop heq hn2
          · next heq => exact Chained.applyBranch (hpop heq hn2) rfl

/-- **Whatever block is pushed**, the state is one of a chain, with those before it as
undo states. -/
theorem Chained.pushBlock (b : β) : (n.pushBlock L undoMaxSize b).1.Chained L g := by
  rw [UndoNode.pushBlock]
  split
  · exact hn
  · next fork _ =>
    have hfork : Node.Chained L g ⟨n.state, n.undo, fork⟩ := hn
    split
    · exact hn
    · split
      · split
        · exact Chained.switchFork (n := ⟨_, n.undoMaxSize⟩) hfork _
        · exact hn
      · obtain ⟨n', happly, -, hn', -⟩ :=
          applyBlock_spec undoMaxSize (n := ⟨_, n.undoMaxSize⟩) b hfork
        rw [happly]
        cases (L.applyBlock n.state b).isSome with
        | false => exact hn'
        | true => exact hn'

end UndoNode

/-! ### What a push preserves -/

namespace History

/-- What holds of a history all along. A head of the fork database that is above the node's is one
that a switch of forks goes to. -/
structure Good (L : Ledger σ β ι) (g : σ) (lastIrreversible : σ → Nat) (h : History σ β) :
    Prop where
  chained : h.node.Chained L g
  mem_seen : h.node.state ∈ h.seen
  keeps : h.Keeps L lastIrreversible
  head : ∀ x, h.node.fork.head = some x → h.Descendant L lastIrreversible x.block
  valid : ∀ b, h.node.fork.Holds b → L.ValidOnBranch g b

variable {h : History σ β} {n : UndoNode σ β} {b : β}

section

variable (hf : L.Finality g lastIrreversible)

include hf

section

omit [DecidableEq ι]

/-- The branch that leads up to a valid block can be applied to the state where it starts. -/
theorem run_branch {top : β} {l : List β} {s : σ}
    (htop : L.ValidOnBranch g top) (hl : L.Descends l (L.id top) (L.headBlockId s)) {bs : List β}
    {u : List σ} (hover : L.Over bs s u g []) :
    ∃ s', run L.applyBlock s l.reverse = some s' ∧ L.headBlockId s' = L.id top := by
  obtain ⟨c, s', hrun⟩ := htop
  obtain ⟨u', hchain⟩ := Ledger.over_of_run hrun []
  have hdown := hchain.descends
  rw [reverse_append, reverse_singleton, singleton_append] at hdown
  have hhead : L.headBlockId s' = L.id top := hdown.1.symm
  -- both chains lead down from the block to the start
  have hlong := hl.append hover.descends
  rw [hhead] at hdown
  have heq := hlong.unique hf.injective hdown
  have hall : run L.applyBlock g (bs.reverse ++ l.reverse) = some s' := by
    rw [← reverse_append, heq, reverse_cons, reverse_reverse]
    exact hrun
  rw [run_append, hover.run] at hall
  exact ⟨s', hall, hhead⟩

/-- A block of two branches with nothing in common is not above the block where they meet. -/
theorem le_meeting {first second : List (ForkItem β)}
    {top head bottom i : ι} (hfirst : L.Descends (first.map ForkItem.block) top bottom)
    (hsecond : L.Descends (second.map ForkItem.block) head bottom)
    (hdisj : ∀ z1 ∈ first, ∀ z2 ∈ second, L.id z1.block ≠ L.id z2.block) (htop : L.Below top i)
    (hhead : L.Below head i) : L.numFromId i ≤ L.numFromId bottom := by
  by_contra hlow
  rw [not_le] at hlow
  obtain ⟨b1, hb1, hid1⟩ := hfirst.mem_of_below hf.injective htop hlow
  obtain ⟨b2, hb2, hid2⟩ := hsecond.mem_of_below hf.injective hhead hlow
  obtain ⟨z1, hz1, rfl⟩ := mem_map.1 hb1
  obtain ⟨z2, hz2, rfl⟩ := mem_map.1 hb2
  exact hdisj z1 hz1 z2 hz2 (hid1.trans hid2.symm)

end

variable (hgood : h.Good L g lastIrreversible)

include hgood

section

omit [DecidableEq ι]

/-- The state of a node is itself one of those that report. -/
theorem Good.reported : ∃ i, h.Reported L lastIrreversible i ∧
      L.Below (L.headBlockId h.node.state) i ∧ L.numFromId i = lastIrreversible h.node.state := by
  obtain ⟨bs, u, hover, -⟩ := hgood.chained
  obtain ⟨i, hi, hnum⟩ := Ledger.Below.exists_num ⟨bs, hover.descends⟩
    (by rw [hf.start]; exact zero_le _) (hf.le_head hover.run)
  exact ⟨i, ⟨_, hgood.mem_seen, hi, hnum⟩, hi, hnum⟩

/-- **The next node.** Blocks that were reported are on its chain, and the head of its fork database
is not above it, unless the node has gone back on its chain: then it reports nothing new. -/
theorem Good.next (hchained : n.Chained L g)
    (hkeeps : ∀ i, h.Reported L lastIrreversible i → L.Below (L.headBlockId n.state) i)
    (hhead : ∀ x, n.fork.head = some x → L.num x.block ≤ L.numFromId (L.headBlockId n.state) ∨
      (L.Below (L.headBlockId h.node.state) (L.headBlockId n.state) ∧
        lastIrreversible n.state ≤ lastIrreversible h.node.state ∧
        ∀ i, h.Reported L lastIrreversible i → L.Below (L.id x.block) i))
    (hvalid : ∀ b, n.fork.Holds b → L.ValidOnBranch g b) :
    Good L g lastIrreversible ⟨n, n.state :: h.seen⟩ := by
  refine ⟨hchained, mem_cons_self, ?_, ?_, hvalid⟩
  · rintro i ⟨s, hs, hbelow, hnum⟩
    rcases mem_cons.1 hs with rfl | hs
    · exact hbelow
    · exact hkeeps i ⟨s, hs, hbelow, hnum⟩
  · rintro x hx hlow i ⟨s, hs, hbelow, hnum⟩
    rcases hhead x hx with hle | ⟨hback, hlib, hdesc⟩
    · exact absurd hlow (not_lt.2 hle)
    · rcases mem_cons.1 hs with rfl | hs
      · -- reported before, with a number at least as high, by the node that this one has gone back
        -- from
        obtain ⟨j, hj, hbelow', hnum'⟩ := hgood.reported hf
        exact (hdesc j hj).trans ((hback.trans hbelow).of_le hf.injective hbelow' (by omega))
      · exact hdesc i ⟨s, hs, hbelow, hnum⟩

/-- A step that reports nothing new keeps the history good. -/
theorem Good.next_same (hchained : n.Chained L g) (hstate : n.state = h.node.state)
    (hhead : ∀ x, n.fork.head = some x → L.num x.block ≤ L.numFromId (L.headBlockId n.state) ∨
      ∀ i, h.Reported L lastIrreversible i → L.Below (L.id x.block) i)
    (hvalid : ∀ b, n.fork.Holds b → L.ValidOnBranch g b) :
    Good L g lastIrreversible ⟨n, n.state :: h.seen⟩ := by
  refine hgood.next hf hchained (hstate ▸ hgood.keeps) (fun x hx => ?_) hvalid
  refine (hhead x hx).imp_right fun hdesc => ⟨?_, ?_, hdesc⟩
  · rw [hstate]
    exact .refl _
  · rw [hstate]

end

/-- **Switching forks** to a branch that has the blocks that were reported keeps them, whether the
switch comes to its end or not. -/
theorem Good.switchFork {fork : ForkDatabase β} {newHead : ForkItem β}
    (hfork : fork.head = some newHead)
    (hhigher : L.numFromId (L.headBlockId h.node.state) < L.num newHead.block)
    (hdesc : ∀ i, h.Reported L lastIrreversible i → L.Below (L.id newHead.block) i)
    (hvalid : ∀ c, fork.Holds c → L.ValidOnBranch g c)
    (hn : n = (UndoNode.switchFork L undoMaxSize { h.node with fork := fork } newHead).1) :
    Good L g lastIrreversible ⟨n, n.state :: h.seen⟩ := by
  rw [UndoNode.switchFork] at hn
  have hnewHead : ∀ x, fork.head = some x → x = newHead := fun x hx =>
    some.inj (hx.symm.trans hfork)
  cases hbranches : fork.fetchBranchFrom L (L.id newHead.block) (L.headBlockId h.node.state) with
  | none =>
    rw [hbranches] at hn
    subst hn
    refine hgood.next_same hf hgood.chained rfl (fun x hx => .inr ?_) hvalid
    rw [hnewHead x hx]
    exact hdesc
  | some branches =>
    obtain ⟨first, second⟩ := branches
    rw [hbranches] at hn
    dsimp only at hn
    have hnum := hhigher
    rw [Ledger.num_eq] at hnum
    obtain ⟨bottom, hfirst, hsecond, hne, -, hcommon⟩ :=
      ForkDatabase.fetchBranchFrom_spec (le_of_lt hnum) hbranches
    have hprev : L.previous (second.getLast hne).block = bottom := by
      have hlast := hsecond
      rw [← dropLast_append_getLast hne, map_append] at hlast
      exact hlast.previous_last
    rw [getLast?_eq_some_getLast hne] at hn
    dsimp only at hn
    rw [hprev, UndoNode.popUntil] at hn
    obtain ⟨l, u, u', hover, hlength, hchained, hforkEq, htarget⟩ := Node.popUntil_spec hf
      (h.node.undo.length + 1) (n := { h.node.toNode with fork := fork }) hfork hhigher hsecond
      hgood.chained
    generalize Node.popUntil L bottom (h.node.undo.length + 1) { h.node.toNode with fork := fork } =
      r at *
    obtain ⟨n1, popped⟩ := r
    dsimp only at *
    have hback : L.Below (L.headBlockId h.node.state) (L.headBlockId n1.state) :=
      ⟨l, hover.descends⟩
    have hlen1 := hover.descends.length_eq
    have hlen2 := hsecond.length_eq
    cases popped with
    | false =>
      subst hn
      have hlt : l.length < second.length := by
        rw [length_map] at hlength hlen2
        rcases lt_or_ge l.length second.length with hlt | hge
        · exact hlt
        · refine absurd (hback.unique hf.injective ⟨_, hsecond⟩ ?_) (fun heq => ?_)
          · omega
          · have hpopped := htarget.2 heq
            cases hpopped
      refine hgood.next hf hchained ?_ (fun x hx => .inr ⟨hback, hover.lastIrreversible_le hf, ?_⟩)
        ?_
      · intro i hi
        rcases hcommon with hdisj | ⟨l', y, -, rfl⟩
        · have hle := le_meeting hf hfirst hsecond hdisj (hdesc i hi) (hgood.keeps i hi)
          refine (hgood.keeps i hi).of_le hf.injective hback ?_
          dsimp only
          omega
        · -- nothing has been popped
          obtain rfl : l = [] := length_eq_zero_iff.1 (by
            rw [length_singleton] at hlt
            omega)
          rw [← hover.1]
          exact hgood.keeps i hi
      · rw [hforkEq] at hx
        rw [hnewHead x hx]
        exact hdesc
      · rw [hforkEq]
        exact hvalid
    | true =>
      dsimp only at hn
      have hmeet : L.headBlockId n1.state = bottom := htarget.1 rfl
      obtain ⟨bs, v, hchain, hprefix⟩ := hchained
      obtain ⟨s', hrun, hs'⟩ := run_branch hf (hvalid newHead.block (.inr (by rw [hfork]; rfl)))
        (hmeet ▸ hfirst) hchain
      rw [← map_reverse] at hrun
      obtain ⟨n2, happly, rfl, hchained2, hhead2, hholds2⟩ :=
        UndoNode.applyBranch_of_run undoMaxSize (n := ⟨n1, h.node.undoMaxSize⟩) ⟨bs, v, hchain,
          hprefix⟩ hrun
      rw [happly] at hn
      subst hn
      rw [hforkEq] at hhead2 hholds2
      refine hgood.next hf hchained2 ?_ (fun x hx => .inl ?_) fun c hc => hvalid c (hholds2 c hc)
      · rw [hs']
        exact hdesc
      · rw [hx, hfork] at hhead2
        rw [hs', ← some.inj hhead2, Ledger.num_eq]

variable (undoMaxSize) in
/-- **One push**: a valid block that descends from what has been reported, if it is
above the head. -/
theorem Good.push (hb : L.ValidOnBranch g b) (hdesc : h.Descendant L lastIrreversible b) :
    Good L g lastIrreversible (h.push L undoMaxSize b) := by
  suffices hnext : ∀ n, n = (h.node.pushBlock L undoMaxSize b).1 →
      Good L g lastIrreversible ⟨n, n.state :: h.seen⟩ from hnext _ rfl
  intro n hn
  rw [UndoNode.pushBlock] at hn
  cases hpush : h.node.fork.pushBlock L b with
  | none =>
    rw [hpush] at hn
    subst hn
    refine hgood.next_same hf hgood.chained rfl (fun x hx => ?_) hgood.valid
    exact (lt_or_ge _ _).symm.imp_right (hgood.head x hx)
  | some fork =>
    obtain ⟨newHead, hnew, hblock⟩ := ForkDatabase.head_pushBlock hpush
    have hvalid : ∀ c, fork.Holds c → L.ValidOnBranch g c := by
      intro c hc
      rcases ForkDatabase.holds_pushBlock hpush hc with rfl | hc
      · exact hb
      · exact hgood.valid c hc
    -- the head of the fork database is the block, or was the head before
    have hsafe : h.Descendant L lastIrreversible newHead.block := by
      rcases hblock with rfl | hold
      · exact hdesc
      · obtain ⟨x, hx, hxb⟩ := map_eq_some_iff.1 hold
        rw [← hxb]
        exact hgood.head x hx
    rw [hpush] at hn
    dsimp only at hn
    rw [hnew] at hn
    dsimp only at hn
    by_cases hapart : L.previous newHead.block = L.headBlockId h.node.state
    · rw [if_neg (not_not.2 hapart)] at hn
      have hnum : L.num newHead.block = L.numFromId (L.headBlockId h.node.state) + 1 := by
        rw [Ledger.num, hapart]
      obtain ⟨n1, heq, hstate, hchained, hhead, hholds⟩ := UndoNode.applyBlock_spec
        undoMaxSize (n := { h.node with fork := fork }) b hgood.chained
      rw [heq] at hn
      cases happly : L.applyBlock h.node.state b with
      | none =>
        rw [happly] at hn hstate
        subst hn
        refine hgood.next_same hf hchained hstate (fun x hx => ?_) fun c hc =>
          hvalid c (hholds c (ForkDatabase.holds_remove hc))
        rw [hnew] at hhead
        rcases ForkDatabase.head_remove hx with ⟨-, hkept⟩ | ⟨y, hy, -, hprev⟩
        · rw [hhead] at hkept
          rw [← some.inj hkept]
          exact .inr (hsafe (by omega))
        · rw [hhead] at hy
          cases hy
          refine .inl (le_of_eq ?_)
          rw [Ledger.num_eq, hprev, hapart]
          exact congrArg (fun s => L.numFromId (L.headBlockId s)) hstate.symm
      | some s =>
        rw [happly] at hn hstate
        obtain rfl : n1.state = s := hstate
        subst hn
        refine hgood.next hf hchained (fun i hi => ?_) (fun x hx => .inl ?_) fun c hc =>
          hvalid c (hholds c hc)
        · rw [L.head_of_apply happly]
          refine .of_previous ?_
          rw [L.previous_of_apply happly]
          exact hgood.keeps i hi
        · rw [hnew, hx] at hhead
          rw [some.inj hhead, hnum, L.head_of_apply happly, L.numFromId_id,
            L.previous_of_apply happly]
    · rw [if_pos hapart] at hn
      split at hn
      · next hhigher => exact hgood.switchFork hf hnew hhigher (hsafe hhigher) hvalid hn
      · next hlow =>
        subst hn
        refine hgood.next_same hf hgood.chained rfl (fun x hx => .inl ?_) hvalid
        cases hnew.symm.trans hx
        exact not_lt.1 hlow

omit hgood

/-- **A whole run** of pushes of valid blocks, each of which descends from what has
been reported. -/
theorem good_run {blocks : List β} (hvalid : ∀ b ∈ blocks, L.ValidOnBranch g b) {h h' : History σ β}
    (hgood : h.Good L g lastIrreversible)
    (halong : Along (step L undoMaxSize) (Descendant L lastIrreversible) h blocks)
    (hrun : run (step L undoMaxSize) h blocks = some h') : h'.Good L g lastIrreversible := by
  induction blocks generalizing h with
  | nil =>
    obtain rfl : h = h' := some.inj hrun
    exact hgood
  | cons b blocks ih =>
    have hb := hgood.push undoMaxSize hf (hvalid b mem_cons_self) halong.1
    exact ih (fun c hc => hvalid c (mem_cons_of_mem _ hc)) hb (halong.2 _ rfl) hrun

end

omit [DecidableEq ι] in
theorem good_start : Good L g lastIrreversible (start g : History σ β) where
  chained := ⟨[], [], ⟨rfl, rfl⟩, prefix_refl _⟩
  mem_seen := mem_cons_self
  keeps := by
    rintro i ⟨s, hs, hbelow, -⟩
    obtain rfl := mem_singleton.1 hs
    exact hbelow
  head x hx := by cases hx
  valid := by
    rintro b (⟨x, hx, -⟩ | hb)
    · cases hx
    · cases hb

end History

/-! ### The chain -/

/-- The state at the start: no block, and nothing confirmed. -/
structure HeadState.Genesis {τ : Type u} {δ : Type v} (R : BlockRules τ δ ι) (g : HeadState τ ι) :
    Prop where
  headBlockId : g.headBlockId = R.noBlock
  lastIrreversibleBlockNum : g.lastIrreversibleBlockNum = 0
  lastConfirmedBlockNum : ∀ w, g.lastConfirmedBlockNum w = 0

namespace BlockRules

variable {τ : Type u} {δ : Type v} {R : BlockRules τ δ ι} {g : HeadState τ ι}

theorem finality_ledger (hg : g.Genesis R) :
    R.ledger.Finality g HeadState.lastIrreversibleBlockNum where
  start := by
    change R.numFromId g.headBlockId = 0
    rw [hg.headBlockId, R.numFromId_noBlock]
  injective := R.id_injective
  mono := lastIrreversibleBlockNum_mono
  le_head := by
    intro bs s hrun
    have hstart : g.Behind R :=
      ⟨fun w => by rw [hg.lastConfirmedBlockNum]; exact zero_le _,
        by rw [hg.lastIrreversibleBlockNum]; exact zero_le _⟩
    have hs : s.Behind R := invariant behind_applyBlock hstart hrun
    exact hs.irreversible

/-- The histories of a node of the chain -/
def pushStep (R : BlockRules τ δ ι) : History (HeadState τ ι) (ScheduledBlock ι δ) →
    ScheduledBlock ι δ →
      Option (History (HeadState τ ι) (ScheduledBlock ι δ)) :=
  History.step R.ledger R.undoMaxSize

/-- **Irreversible blocks stay on the chain as long as no longer branch leaves them out.** From the
start, along every run of `_push_block` on blocks that are valid on their branches, where each block
above the head descends from the blocks that were reported as the last irreversible ones, these
blocks are on the chain of every later head. -/
theorem irreversible_blocks_stay (hg : g.Genesis R) {blocks : List (ScheduledBlock ι δ)}
    (hvalid : ∀ b ∈ blocks, R.ledger.ValidOnBranch g b) (hdesc : Along R.pushStep
      (History.Descendant R.ledger HeadState.lastIrreversibleBlockNum) (History.start g) blocks)
    {h : History (HeadState τ ι) (ScheduledBlock ι δ)}
    (hrun : run R.pushStep (History.start g) blocks = some h) :
    h.Keeps R.ledger HeadState.lastIrreversibleBlockNum :=
  (History.good_run (finality_ledger hg) hvalid History.good_start hdesc hrun).keeps

/-- Blocks that are applied one after the other are valid on a branch, and so are those
of a fork. -/
theorem validOnBranch_fork {l l' : List (ScheduledBlock ι δ)} (k : Nat)
    (h : (run R.applyBlock g l).isSome ∧ (run R.applyBlock g (l.take k ++ l')).isSome) :
    ∀ b ∈ l ++ l', R.ledger.ValidOnBranch g b := by
  have hrun : ∀ l : List (ScheduledBlock ι δ), (run R.applyBlock g l).isSome →
      ∀ b ∈ l, R.ledger.ValidOnBranch g b := by
    intro l h b hb
    obtain ⟨l1, l2, rfl⟩ := append_of_mem hb
    obtain ⟨s, hs⟩ := isSome_iff_exists.1 h
    rw [append_cons, run_append] at hs
    obtain ⟨t, ht, -⟩ := bind_eq_some_iff.1 hs
    exact ⟨l1, t, ht⟩
  rintro b hb
  rcases mem_append.1 hb with hb | hb
  · exact hrun l h.1 b hb
  · exact hrun _ h.2 b (mem_append_right _ hb)

/-! ### A chain without transactions -/

/-- Blocks every five seconds, of which the id is the time and the witness of the block
and of those below it. -/
def plainRules : BlockRules Unit Unit (List (Nat × Nat)) where
  id b := (b.timestamp, b.witness) :: b.previous
  numFromId := List.length
  noBlock := []
  blockInterval _ := 5
  maintenanceSkipSlots _ := 3
  nextMaintenanceTime _ := 86400
  signed _ _ := true
  applyTransactions s _ := some s
  performChainMaintenance s witnesses _ := some (s, witnesses)
  finishBlock s _ := some s
  proposedDepth _ _ := 0
  expiredDepth _ _ := 0
  numFromId_id _ := rfl
  numFromId_noBlock := rfl
  id_injective := by
    rintro ⟨p, t, w, ⟨⟩⟩ ⟨p', t', w', ⟨⟩⟩ h
    obtain ⟨hpair, rfl⟩ := List.cons.inj h
    obtain ⟨rfl, rfl⟩ := Prod.mk.inj hpair
    rfl

/-- Three witnesses -/
def plainGenesis : HeadState Unit (List (Nat × Nat)) where
  headBlockId := []
  time := 0
  activeWitnesses := [0, 1, 2]
  currentShuffledWitnesses := [0, 1, 2]
  rest := ()

theorem genesis_plainGenesis : plainGenesis.Genesis plainRules := ⟨rfl, rfl, fun _ => rfl⟩

/-- Histories of this chain -/
abbrev PlainHistory := History (HeadState Unit (List (Nat × Nat)))
    (ScheduledBlock (List (Nat × Nat)) Unit)

theorem below_plainRules {i j : List (Nat × Nat)} : plainRules.ledger.Below i j ↔ j <:+ i := by
  constructor
  · rintro ⟨l, hl⟩
    induction l generalizing i with
    | nil =>
      obtain rfl : i = j := hl
      exact suffix_refl i
    | cons b l ih =>
      obtain ⟨rfl, hl⟩ := hl
      exact (ih hl).trans (suffix_cons _ _)
  · rintro ⟨l, rfl⟩
    induction l with
    | nil => exact .refl j
    | cons x l ih =>
      have hup := Ledger.Below.of_previous (L := plainRules.ledger) (b := ⟨l ++ j, x.1, x.2, ()⟩) ih
      exact hup

/-- Four blocks -/
def plainChain : List (ScheduledBlock (List (Nat × Nat)) Unit) :=
  [⟨[], 5, 1, ()⟩, ⟨[(5, 1)], 10, 2, ()⟩, ⟨[(10, 2), (5, 1)], 15, 0, ()⟩,
    ⟨[(15, 0), (10, 2), (5, 1)], 20, 1, ()⟩]

/-- Four later blocks over the first one -/
def lateBranch : List (ScheduledBlock (List (Nat × Nat)) Unit) :=
  [⟨[(5, 1)], 30, 0, ()⟩, ⟨[(30, 0), (5, 1)], 35, 1, ()⟩, ⟨[(35, 1), (30, 0), (5, 1)], 40, 2, ()⟩,
    ⟨[(40, 2), (35, 1), (30, 0), (5, 1)], 45, 1, ()⟩]

/-- Two later blocks over the third one -/
def shortFork : List (ScheduledBlock (List (Nat × Nat)) Unit) :=
  [⟨[(15, 0), (10, 2), (5, 1)], 25, 2, ()⟩, ⟨[(25, 2), (15, 0), (10, 2), (5, 1)], 30, 0, ()⟩]

/-- The block, if it is above the head, descends from what the states have as their
last irreversible block. -/
def PlainDescendant (h : PlainHistory) (b : ScheduledBlock (List (Nat × Nat)) Unit) : Prop :=
  h.node.state.headBlockId.length < b.previous.length + 1 →
    ∀ s ∈ h.seen, s.headBlockId.drop (s.headBlockId.length - s.lastIrreversibleBlockNum) <:+
      plainRules.id b

instance (h : PlainHistory) (b : ScheduledBlock (List (Nat × Nat)) Unit) :
    Decidable (PlainDescendant h b) := inferInstanceAs (Decidable (_ → _))

theorem PlainDescendant.descendant {h : PlainHistory} {b : ScheduledBlock (List (Nat × Nat)) Unit}
    (hb : PlainDescendant h b) :
    h.Descendant plainRules.ledger HeadState.lastIrreversibleBlockNum b := by
  rintro hlow i ⟨s, hs, hbelow, hnum⟩
  have hlength : i.length = s.lastIrreversibleBlockNum := hnum
  have hdrop := suffix_iff_eq_drop.1 (below_plainRules.1 hbelow)
  rw [hlength] at hdrop
  rw [below_plainRules, hdrop]
  exact hb hlow s hs

/-- A switch to a branch over the third block, when the second one is irreversible: the number goes
back to one, and the block stays. -/
theorem irreversible_blocks_stay_with_short_fork : ∃ h : PlainHistory,
      run plainRules.pushStep (History.start plainGenesis) (plainChain ++ shortFork) = some h ∧
      h.node.state.headBlockId = [(30, 0), (25, 2), (15, 0), (10, 2), (5, 1)] ∧
      h.node.state.lastIrreversibleBlockNum = 1 ∧
      h.Keeps plainRules.ledger HeadState.lastIrreversibleBlockNum := by
  have hview : (run plainRules.pushStep (History.start plainGenesis) (plainChain ++ shortFork)).map
        (fun h => (h.node.state.headBlockId, h.node.state.lastIrreversibleBlockNum)) =
          some ([(30, 0), (25, 2), (15, 0), (10, 2), (5, 1)], 1) := by decide +kernel
  obtain ⟨h, hrun, hh⟩ := map_eq_some_iff.1 hview
  obtain ⟨hhead, hlib⟩ := Prod.mk.inj hh
  refine ⟨h, hrun, hhead, hlib, ?_⟩
  refine irreversible_blocks_stay genesis_plainGenesis (validOnBranch_fork 3 (by decide +kernel)) ?_
    hrun
  have halong : Along plainRules.pushStep PlainDescendant (History.start plainGenesis)
      (plainChain ++ shortFork) := by decide +kernel
  exact halong.imp fun hb => hb.descendant

/-- **A longer branch takes the place of an irreversible block.** With the fourth block the second
one is irreversible. The sizes that it has set for the undo and the fork database are from before
that, so that a branch over the first block is taken; with its last block the node switches to it,
and the block with number two is another one. -/
theorem longer_branch_replaces_irreversible_block : plainGenesis.Genesis plainRules ∧
      (∀ b ∈ plainChain ++ lateBranch, plainRules.ledger.ValidOnBranch plainGenesis b) ∧
        ∃ h : PlainHistory,
        run plainRules.pushStep (History.start plainGenesis) (plainChain ++ lateBranch) = some h ∧
        (∃ s ∈ h.seen, s.headBlockId = [(20, 1), (15, 0), (10, 2), (5, 1)] ∧
        s.lastIrreversibleBlockNum = 2) ∧
        h.node.state.headBlockId = [(45, 1), (40, 2), (35, 1), (30, 0), (5, 1)] ∧
        ¬ h.Keeps plainRules.ledger HeadState.lastIrreversibleBlockNum := by
  refine ⟨genesis_plainGenesis, validOnBranch_fork 1 (by decide +kernel), ?_⟩
  have hview : (run plainRules.pushStep (History.start plainGenesis)
      (plainChain ++ lateBranch)).map (fun h => (h.node.state.headBlockId,
        (h.seen.map fun s => (s.headBlockId, s.lastIrreversibleBlockNum))[4]?)) =
          some ([(45, 1), (40, 2), (35, 1), (30, 0), (5, 1)],
            some ([(20, 1), (15, 0), (10, 2), (5, 1)], 2)) := by decide +kernel
  obtain ⟨h, hrun, hh⟩ := map_eq_some_iff.1 hview
  obtain ⟨hhead, hreport⟩ := Prod.mk.inj hh
  obtain ⟨s, hs, hview⟩ := mem_map.1 (mem_of_getElem? hreport)
  obtain ⟨hshead, hslib⟩ := Prod.mk.inj hview
  refine ⟨h, hrun, ⟨s, hs, hshead, hslib⟩, hhead, fun hkeeps => ?_⟩
  have hend : [(10, 2), (5, 1)] <:+ s.headBlockId := by
    rw [hshead]
    decide
  have hbelow :=
    below_plainRules.1 (hkeeps [(10, 2), (5, 1)] ⟨s, hs, below_plainRules.2 hend, hslib.symm⟩)
  change _ <:+ h.node.state.headBlockId at hbelow
  rw [hhead] at hbelow
  revert hbelow
  decide

/-- The state of a node is one of a chain, whatever has been pushed to it. -/
theorem chained_run {blocks : List (ScheduledBlock ι δ)}
    {h : History (HeadState τ ι) (ScheduledBlock ι δ)}
    (hrun : run R.pushStep (History.start g) blocks = some h) : h.node.Chained R.ledger g := by
  have hstep : ∀ {h b h'}, h.node.Chained R.ledger g → R.pushStep h b = some h' →
      h'.node.Chained R.ledger g := by
    rintro h b _ hn ⟨⟩
    exact UndoNode.Chained.pushBlock hn b
  exact invariant hstep ⟨[], [], ⟨rfl, rfl⟩, prefix_refl _⟩ hrun

/-- **The head decides the state.** Two nodes that start alike are in the same state whenever they
have the same head, whatever blocks have been pushed to them, valid or not and in whatever order: it
is the state that the chain of the head gives when it is replayed from the start. Nothing is left of
blocks that were popped, of switches that were given up and of blocks that failed. -/
theorem same_head_same_state {blocks blocks' : List (ScheduledBlock ι δ)}
    {h h' : History (HeadState τ ι) (ScheduledBlock ι δ)}
    (hrun : run R.pushStep (History.start g) blocks = some h)
    (hrun' : run R.pushStep (History.start g) blocks' = some h')
    (hhead : h.node.state.headBlockId = h'.node.state.headBlockId) :
    ∃ chain, run R.applyBlock g chain = some h.node.state ∧ h'.node.state = h.node.state := by
  obtain ⟨bs, u, hover, -⟩ := chained_run hrun
  obtain ⟨bs', u', hover', -⟩ := chained_run hrun'
  have hdown : R.ledger.Descends bs h.node.state.headBlockId _ := hover.descends
  rw [hhead] at hdown
  obtain rfl := hdown.unique R.id_injective hover'.descends
  exact ⟨bs.reverse, hover.run, some.inj (hover'.run.symm.trans hover.run)⟩

/-- A node that has switched to the branch over the third block, and one that has seen no other. -/
theorem same_head_same_state_after_switch : ∃ h h' : PlainHistory,
      run plainRules.pushStep (History.start plainGenesis) (plainChain ++ shortFork) = some h ∧
      run plainRules.pushStep (History.start plainGenesis) (plainChain.take 3 ++ shortFork) =
      some h' ∧ ∃ chain, run plainRules.applyBlock plainGenesis chain = some h.node.state ∧
        h'.node.state = h.node.state := by
  have hview : ∀ l ∈ [plainChain, plainChain.take 3], (run plainRules.pushStep
      (History.start plainGenesis) (l ++ shortFork)).map (fun h => h.node.state.headBlockId) =
        some [(30, 0), (25, 2), (15, 0), (10, 2), (5, 1)] := by decide +kernel
  obtain ⟨h, hrun, hhead⟩ := map_eq_some_iff.1 (hview plainChain (by simp))
  obtain ⟨h', hrun', hhead'⟩ := map_eq_some_iff.1 (hview (plainChain.take 3) (by simp))
  exact ⟨h, h', hrun, hrun', same_head_same_state hrun hrun' (hhead.trans hhead'.symm)⟩

end BlockRules

end CrowdwizChain
