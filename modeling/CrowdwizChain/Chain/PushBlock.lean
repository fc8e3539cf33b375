import CrowdwizChain.Chain.ForkDatabase

/-!
# Pushing a block, and switching forks

`database::_push_block` and `database::pop_block`. A node has a state, the states before each block
that can still be undone, and a fork database. If the block that was pushed makes another fork the
longest one, the blocks of the old branch are popped and those of the new branch are applied; if one
of these fails, the applied ones are popped and the old branch is applied again.

`apply_block` also tells the fork database how many blocks to keep below the head, which is already
the end of the new branch. The blocks that are being applied may be dropped by that, and `pop_block`
throws on a block that is not in the fork database. So the switch is all or nothing exactly if,
whenever the new branch fails, the blocks applied until then are still there to be popped: `Room`.

The undo stack is not trimmed here: what is proved is for a stack that reaches down to
where the branches meet.
-/

namespace CrowdwizChain

open Option List Transition Nat ForkItem

universe u v w

/-- A node's state, the states before its latest blocks, the latest one first, and its
fork database. -/
structure Node (σ : Type u) (β : Type v) where
  state : σ
  undo : List σ
  fork : ForkDatabase β

/-- How `_push_block` ends: with whether it switched to another fork, or with an exception. -/
inductive PushResult
  | returned (switched : Bool)
  | threw
deriving DecidableEq

variable {σ : Type u} {β : Type v} {ι : Type w} [DecidableEq ι] (L : Ledger σ β ι)

namespace Node

/-- `database::pop_block`, and whether it returned -/
def popBlock (n : Node σ β) : Node σ β × Bool :=
  match n.fork.head with
  | none => (n, false)
  | some head =>
    match if L.id head.block = L.headBlockId n.state then n.fork.popBlock L
      else (n.fork.fetchBlock L (L.headBlockId n.state)).map fun _ => n.fork with
    | none => (n, false)
    | some fork =>
      match n.undo with
      | [] => ({ n with fork := fork }, false)
      | s :: undo => (⟨s, undo, fork⟩, true)

/-- Blocks are popped until a block is the head. Each one takes an undo state, so that their
number is enough steps. -/
def popUntil (target : ι) : Nat → Node σ β → Node σ β × Bool
  | 0, n => (n, L.headBlockId n.state = target)
  | steps + 1, n =>
    if L.headBlockId n.state = target then (n, true)
    else
      match n.popBlock L with
      | (n, false) => (n, false)
      | (n, true) => popUntil target steps n

/-- `apply_block` in an undo session, and whether it returned -/
def applyBlock (n : Node σ β) (b : β) : Node σ β × Bool :=
  let fork := (L.maxSize n.state b).elim n.fork (n.fork.setMaxSize L)
  match L.applyBlock n.state b with
  | none => ({ n with fork := fork }, false)
  | some s => (⟨s, n.state :: n.undo, fork⟩, true)

/-- The blocks of a branch are applied, until one fails; this one and those after it
are returned. -/
def applyBranch : List (ForkItem β) → Node σ β → Node σ β × List (ForkItem β)
  | [], n => (n, [])
  | x :: l, n =>
    match n.applyBlock L x.block with
    | (n, false) => (n, x :: l)
    | (n, true) => applyBranch l n

/-- What `_push_block` does when a block of the new branch has failed. -/
def switchBack (n : Node σ β) (rest second : List (ForkItem β)) (target : ι) : Node σ β :=
  let fork := rest.foldl (fun fork x => fork.remove L (L.id x.block)) n.fork
  match popUntil L target (n.undo.length + 1) { n with fork := fork.setHead second.head? } with
  | (n, false) => n
  | (n, true) => (applyBranch L second.reverse n).1

/-- What `_push_block` does when the new head is higher and does not build off the current head. -/
def switchFork (n : Node σ β) (newHead : ForkItem β) : Node σ β × PushResult :=
  match n.fork.fetchBranchFrom L (L.id newHead.block) (L.headBlockId n.state) with
  | none => (n, .threw)
  | some (first, second) =>
    match second.getLast? with
    | none => (n, .threw)
    | some last =>
      match popUntil L (L.previous last.block) (n.undo.length + 1) n with
      | (n, false) => (n, .threw)
      | (n, true) =>
        match applyBranch L first.reverse n with
        | (n, []) => (n, .returned true)
        | (n, x :: rest) => (n.switchBack L (x :: rest) second (L.previous last.block), .threw)

/-- `database::_push_block` -/
def pushBlock (n : Node σ β) (b : β) : Node σ β × PushResult :=
  match n.fork.pushBlock L b with
  | none => (n, .threw)
  | some fork =>
    match fork.head with
    | none => ({ n with fork := fork }, .threw)
    | some newHead =>
      if L.previous newHead.block ≠ L.headBlockId n.state then
        if L.numFromId (L.headBlockId n.state) < L.num newHead.block then
          switchFork L { n with fork := fork } newHead
        else ({ n with fork := fork }, .returned false)
      else
        match applyBlock L { n with fork := fork } b with
        | (n, true) => (n, .returned false)
        | (n, false) => ({ n with fork := n.fork.remove L (L.id b) }, .threw)

end Node

namespace Ledger

/-- The state and the undo states are those after applying blocks, the newest first, over others. -/
def Over : List β → σ → List σ → σ → List σ → Prop
  | [], s, u, s₀, u₀ => s = s₀ ∧ u = u₀
  | b :: l, s, u, s₀, u₀ => ∃ s' u', u = s' :: u' ∧ L.applyBlock s' b = some s ∧ Over l s' u' s₀ u₀

/-- The sizes that are set for the fork database while blocks are applied, until one fails. -/
def sizes : σ → List β → List Nat
  | _, [] => []
  | s, b :: l => (L.maxSize s b).toList ++ (L.applyBlock s b).elim [] fun s' => sizes s' l

variable {L}

omit [DecidableEq ι]

variable {s s₀ : σ} {u u₀ : List σ} {l : List β}

theorem sizes_append {s' : σ} (h : run L.applyBlock s l = some s') (l' : List β) :
    L.sizes s (l ++ l') = L.sizes s l ++ L.sizes s' l' := by
  induction l generalizing s with
  | nil =>
    obtain rfl : s = s' := some.inj h
    rfl
  | cons b l ih =>
    obtain ⟨t, ht, h⟩ := bind_eq_some_iff.1 h
    rw [cons_append, sizes, sizes, ht, append_assoc]
    exact congrArg _ (ih h)

theorem Over.length_eq (h : L.Over l s u s₀ u₀) : u.length = l.length + u₀.length := by
  induction l generalizing s u with
  | nil => simp [h.2]
  | cons b l ih =>
    obtain ⟨s', u', rfl, -, h⟩ := h
    rw [length_cons, ih h, length_cons]
    omega

theorem Over.descends (h : L.Over l s u s₀ u₀) :
    L.Descends l (L.headBlockId s) (L.headBlockId s₀) := by
  induction l generalizing s u with
  | nil => exact congrArg _ h.1
  | cons b l ih =>
    obtain ⟨s', u', rfl, hb, h⟩ := h
    exact ⟨(L.head_of_apply hb).symm, (L.previous_of_apply hb) ▸ ih h⟩

/-- The head is above a block that is not higher than the one below. -/
theorem Over.head_ne {b : β} (h : L.Over (b :: l) s u s₀ u₀) {target : ι}
    (htarget : L.numFromId target ≤ L.numFromId (L.headBlockId s₀)) : L.headBlockId s ≠ target := by
  rintro rfl
  have hlength := h.descends.length_eq
  rw [length_cons] at hlength
  omega

/-- The state over a branch is that of a run of its blocks. -/
theorem Over.run (h : L.Over l s u s₀ u₀) : run L.applyBlock s₀ l.reverse = some s := by
  induction l generalizing s u with
  | nil => exact congrArg some h.1.symm
  | cons b l ih =>
    obtain ⟨s', u', rfl, hb, h⟩ := h
    rw [reverse_cons, run_concat, ih h]
    exact hb

theorem over_append {l' : List β} :
    L.Over (l ++ l') s u s₀ u₀ ↔ ∃ s1 u1, L.Over l s u s1 u1 ∧ L.Over l' s1 u1 s₀ u₀ := by
  induction l generalizing s u with
  | nil =>
    constructor
    · exact fun h => ⟨s, u, ⟨rfl, rfl⟩, h⟩
    · rintro ⟨_, _, ⟨rfl, rfl⟩, h⟩
      exact h
  | cons b l ih =>
    constructor
    · rintro ⟨s', u', hu, hb, h⟩
      obtain ⟨s1, u1, h1, h2⟩ := ih.1 h
      exact ⟨s1, u1, ⟨s', u', hu, hb, h1⟩, h2⟩
    · rintro ⟨s1, u1, ⟨s', u', hu, hb, h1⟩, h2⟩
      exact ⟨s', u', hu, hb, ih.2 ⟨s1, u1, h1, h2⟩⟩

theorem Over.getElem? (h : L.Over l s u s₀ u₀) : (s :: u)[l.length]? = some s₀ := by
  induction l generalizing s u with
  | nil => exact congrArg some h.1
  | cons b l ih =>
    obtain ⟨s', u', rfl, -, h⟩ := h
    exact ih h

theorem Over.head_mem (h : L.Over l s u s₀ u₀) {t : σ} (ht : t ∈ (s :: u).take l.length) :
    ∃ b ∈ l, L.headBlockId t = L.id b := by
  induction l generalizing s u with
  | nil => cases ht
  | cons b l ih =>
    obtain ⟨s', u', rfl, hb, h⟩ := h
    rcases mem_cons.1 ht with rfl | ht
    · exact ⟨b, mem_cons_self, L.head_of_apply hb⟩
    · obtain ⟨c, hc, hid⟩ := ih h ht
      exact ⟨c, mem_cons_of_mem _ hc, hid⟩

/-- **The blocks that lead down from the head are the ones that were applied**, if blocks with the
id of an applied block are this block, and if there are as many. -/
theorem Over.split {bs : List β} {bottom : ι} (h : L.Over bs s u s₀ u₀)
    (hsame : ∀ b ∈ bs, ∀ x ∈ l, L.id x = L.id b → x = b)
    (hl : L.Descends l (L.headBlockId s) bottom)
    (hlength : l.length ≤ bs.length) : ∃ s1 u1, L.Over l s u s1 u1 := by
  induction l generalizing s u bs with
  | nil => exact ⟨s, u, rfl, rfl⟩
  | cons x l ih =>
    cases bs with
    | nil => simp at hlength
    | cons b bs =>
      obtain ⟨s', u', rfl, hb, h⟩ := h
      obtain ⟨hid, hl⟩ := hl
      obtain rfl : x = b :=
        hsame b mem_cons_self x mem_cons_self (hid.trans (L.head_of_apply hb))
      rw [L.previous_of_apply hb] at hl
      obtain ⟨s1, u1, hover⟩ := ih h
        (fun c hc y hy => hsame c (mem_cons_of_mem _ hc) y (mem_cons_of_mem _ hy)) hl
        (le_of_succ_le_succ hlength)
      exact ⟨s1, u1, s', u', rfl, hb, hover⟩

end Ledger

namespace Node

variable {L}

/-! ### Popping blocks -/

variable {n : Node σ β} {s : σ} {head : ForkItem β}

/-- Blocks that are in the fork database, and are not its head, are popped one after the other. -/
theorem popUntil_over (hhead : n.fork.head = some head) {l : List β} {s₀ : σ} {u₀ : List σ}
    (h : L.Over l n.state n.undo s₀ u₀)
    (hl : ∀ b ∈ l, L.id b ≠ L.id head.block ∧ (n.fork.fetchBlock L (L.id b)).isSome) {target : ι}
    (htarget : L.numFromId target ≤ L.numFromId (L.headBlockId s₀)) (steps : Nat) :
    popUntil L target (l.length + steps) n = popUntil L target steps ⟨s₀, u₀, n.fork⟩ := by
  induction l generalizing n with
  | nil =>
    obtain ⟨hs, hu⟩ := h
    obtain ⟨s, u, fork⟩ := n
    obtain rfl : s = s₀ := hs
    obtain rfl : u = u₀ := hu
    rw [length_nil, Nat.zero_add]
  | cons b l ih =>
    have hstay := h.head_ne htarget
    obtain ⟨s', u', hu, hb, h⟩ := h
    obtain ⟨hne, hfetch⟩ := hl b mem_cons_self
    have hid := L.head_of_apply hb
    have hpop : n.popBlock L = (⟨s', u', n.fork⟩, true) := by
      obtain ⟨x, hx⟩ := isSome_iff_exists.1 hfetch
      rw [popBlock, hhead]
      dsimp only
      rw [hid, if_neg (Ne.symm hne), hx, hu]
      rfl
    rw [length_cons, Nat.add_right_comm, popUntil, if_neg hstay, hpop]
    exact ih hhead h fun c hc => hl c (mem_cons_of_mem _ hc)

/-- If one of them is not in the fork database, popping ends on such a block. -/
theorem popUntil_missing (hhead : n.fork.head = some head) {l : List β} {s₀ : σ} {u₀ : List σ}
    (h : L.Over l n.state n.undo s₀ u₀) (hl : ∀ b ∈ l, L.id b ≠ L.id head.block)
    (hmiss : ∃ b ∈ l, (n.fork.fetchBlock L (L.id b)).isSome = false) {target : ι}
    (htarget : L.numFromId target ≤ L.numFromId (L.headBlockId s₀)) {steps : Nat}
    (hsteps : l.length ≤ steps) : (popUntil L target steps n).2 = false ∧
      ∃ b ∈ l, L.headBlockId (popUntil L target steps n).1.state = L.id b := by
  induction l generalizing n steps with
  | nil =>
    obtain ⟨b, hb, -⟩ := hmiss
    cases hb
  | cons b l ih =>
    have hstay := h.head_ne htarget
    obtain ⟨s', u', hu, hb, h⟩ := h
    have hid := L.head_of_apply hb
    obtain ⟨steps, rfl⟩ : ∃ k, steps = k + 1 := Nat.exists_eq_add_one.2 (by
      rw [length_cons] at hsteps
      omega)
    by_cases hfetch : (n.fork.fetchBlock L (L.id b)).isSome
    · -- this one is there, so that a lower one is not
      have hpop : popUntil L target (1 + steps) n = popUntil L target steps ⟨s', u', n.fork⟩ :=
        popUntil_over (l := [b]) hhead ⟨s', u', hu, hb, rfl, rfl⟩
          (by simp [hfetch, hl b mem_cons_self])
          (by have hlength := h.descends.length_eq
              omega) steps
      rw [Nat.add_comm steps 1, hpop]
      have hmiss' : ∃ c ∈ l, (n.fork.fetchBlock L (L.id c)).isSome = false := by
        obtain ⟨c, hc, hmiss⟩ := hmiss
        rcases mem_cons.1 hc with rfl | hc
        · rw [hmiss] at hfetch
          cases hfetch
        · exact ⟨c, hc, hmiss⟩
      obtain ⟨hfalse, c, hc, hend⟩ := ih (n := ⟨s', u', n.fork⟩) hhead h
        (fun c hc => hl c (mem_cons_of_mem _ hc)) hmiss' (Nat.le_of_succ_le_succ hsteps)
      exact ⟨hfalse, c, mem_cons_of_mem _ hc, hend⟩
    · have hpop : n.popBlock L = (n, false) := by
        rw [popBlock, hhead]
        dsimp only
        rw [hid, if_neg (Ne.symm (hl b mem_cons_self)), not_isSome_iff_eq_none.1 hfetch]
        rfl
      rw [popUntil, if_neg hstay, hpop]
      exact ⟨rfl, b, mem_cons_self, hid⟩

theorem popUntil_self (n : Node σ β) (steps : Nat) : popUntil L (L.headBlockId n.state) steps n =
    (n, true) := by
  cases steps with
  | zero => rw [popUntil, decide_eq_true rfl]
  | succ steps => rw [popUntil, if_pos rfl]

/-- The head of the fork database is popped there too, if it has one before it. -/
theorem popUntil_head (hhead : n.fork.head = some head)
    (hid : L.id head.block = L.headBlockId n.state)
    {u : List σ} (hundo : n.undo = s :: u) (hne : L.headBlockId n.state ≠ L.headBlockId s)
    (steps : Nat) :
    popUntil L (L.headBlockId s) (steps + 1) n = (n, false) ∨
      ∃ fork, popUntil L (L.headBlockId s) (steps + 1) n = (⟨s, u, fork⟩, true) := by
  rw [popUntil, if_neg hne, popBlock, hhead]
  dsimp only
  rw [if_pos hid, hundo]
  cases n.fork.popBlock L with
  | none => exact .inl rfl
  | some fork => exact .inr ⟨fork, popUntil_self ⟨s, u, fork⟩ steps⟩

/-! ### Applying a branch -/

theorem applyBranch_append {done : List (ForkItem β)}
    (h : run L.applyBlock n.state (done.map block) = some s) (l : List (ForkItem β)) :
    ∃ u, L.Over (done.map block).reverse s u n.state n.undo ∧
      applyBranch L (done ++ l) n = applyBranch L l ⟨s, u, (L.sizes n.state (done.map block)).foldl
          (fun fork k => fork.setMaxSize L k) n.fork⟩ := by
  induction done generalizing n with
  | nil =>
    obtain rfl : n.state = s := some.inj h
    exact ⟨n.undo, ⟨rfl, rfl⟩, rfl⟩
  | cons x done ih =>
    obtain ⟨s', happly, h⟩ := bind_eq_some_iff.1 h
    obtain ⟨u, hover, hrun⟩ := ih (n := ⟨s', n.state :: n.undo,
      (L.maxSize n.state x.block).elim n.fork (n.fork.setMaxSize L)⟩) h
    refine ⟨u, ?_, ?_⟩
    · rw [map_cons, reverse_cons, Ledger.over_append]
      exact ⟨s', n.state :: n.undo, hover, n.state, n.undo, rfl, happly, rfl, rfl⟩
    · rw [cons_append, applyBranch, applyBlock, happly]
      dsimp only
      rw [hrun, map_cons, Ledger.sizes, happly, foldl_append]
      cases L.maxSize n.state x.block <;> rfl

theorem applyBranch_of_run {l : List (ForkItem β)}
    (h : run L.applyBlock n.state (l.map block) = some s) :
    ∃ u fork, applyBranch L l n = (⟨s, u, fork⟩, []) := by
  obtain ⟨u, -, hrun⟩ := applyBranch_append h []
  rw [append_nil] at hrun
  exact ⟨u, _, hrun⟩

theorem applyBranch_stuck {done : List (ForkItem β)} {x : ForkItem β}
    (h : run L.applyBlock n.state (done.map block) = some s)
    (hx : L.applyBlock s x.block = none) (rest : List (ForkItem β)) :
    ∃ u, L.Over (done.map block).reverse s u n.state n.undo ∧ applyBranch L (done ++ x :: rest) n =
        (⟨s, u, (L.sizes n.state ((done ++ [x]).map block)).foldl
          (fun fork k => fork.setMaxSize L k) n.fork⟩, x :: rest) := by
  obtain ⟨u, hover, hrun⟩ := applyBranch_append h (x :: rest)
  refine ⟨u, hover, ?_⟩
  have hlast : L.sizes s ([x].map block) = (L.maxSize s x.block).toList := by
    simp [Ledger.sizes, hx]
  rw [hrun, applyBranch, applyBlock, hx, map_append, Ledger.sizes_append h, foldl_append, hlast]
  cases L.maxSize s x.block <;> rfl

end Node

namespace ForkDatabase

variable {L} {f : ForkDatabase β}

/-- After several sizes were set, the blocks are there that are not too low for any of them. -/
theorem fetchBlock_setMaxSizes {head : β} (hhead : f.head.map block = some head)
    {sizes : List Nat} {i : ι} :
      ((sizes.foldl (fun fork k => fork.setMaxSize L k) f).fetchBlock L i).isSome ↔
      (f.fetchBlock L i).isSome ∧ ∀ k ∈ sizes, L.num head ≤ L.numFromId i + k := by
  induction sizes generalizing f with
  | nil => simp
  | cons k sizes ih =>
    rw [foldl_cons, ih ((head_setMaxSize k).trans hhead), fetchBlock_setMaxSize hhead,
      forall_mem_cons, and_assoc]

theorem fetchBlock_removeAll {l : List (ForkItem β)} {i : ι} :
    ((l.foldl (fun fork x => fork.remove L (L.id x.block)) f).fetchBlock L i).isSome ↔
      (f.fetchBlock L i).isSome ∧ ∀ x ∈ l, i ≠ L.id x.block := by
  induction l generalizing f with
  | nil => simp
  | cons x l ih => rw [foldl_cons, ih, fetchBlock_remove, forall_mem_cons, and_assoc]

end ForkDatabase

namespace Node

/-! ### Switching forks -/

/-- `_push_block` switches forks: the fork database with the block, its head, and the
two branches. -/
structure Switch (n : Node σ β) (b : β) (fork : ForkDatabase β) (newHead : ForkItem β)
    (first second : List (ForkItem β)) : Prop where
  push : n.fork.pushBlock L b = some fork
  head : fork.head = some newHead
  apart : L.previous newHead.block ≠ L.headBlockId n.state
  higher : L.numFromId (L.headBlockId n.state) < L.num newHead.block
  branches :
    fork.fetchBranchFrom L (L.id newHead.block) (L.headBlockId n.state) = some (first, second)

/-- What is known of the node before a block is pushed: its undo states are those before the blocks
applied, there is no other block with the id of one of these, and the undo states reach down to
where the branches meet. -/
structure Sound (n : Node σ β) (b : β) : Prop where
  applied : ∃ bs s, L.Over bs n.state n.undo s [] ∧
    ∀ c ∈ bs, ∀ x, (x = b ∨ ∃ y ∈ n.fork.index, y.block = x) → L.id x = L.id c → x = c
  reach : ∀ {fork newHead first second}, Switch L n b fork newHead first second →
    second.length ≤ n.undo.length

/-- **All or nothing.** If pushing the block throws, the state is as before. If it returns
after switching forks, the state comes from the state of the most recent common ancestor,
which is below the blocks of the old branch only, by applying the blocks that lead up to the
new head in their order. -/
def AllOrNothing (n : Node σ β) (b : β) : Prop :=
  ((n.pushBlock L b).2 = .threw → (n.pushBlock L b).1.state = n.state) ∧
    ((n.pushBlock L b).2 = .returned true → ∃ fork newHead k s bs,
      n.fork.pushBlock L b = some fork ∧ fork.head = some newHead ∧
      (n.state :: n.undo)[k]? = some s ∧
      L.Descends bs.reverse (L.id newHead.block) (L.headBlockId s) ∧
      (∀ c ∈ bs, ∀ t ∈ (n.state :: n.undo).take k, L.headBlockId t ≠ L.id c) ∧
      Transition.run L.applyBlock s bs = some (n.pushBlock L b).1.state)

/-- **Room to go back.** When a block of the new branch fails, none of the blocks applied before it
is so low that a size set on the way dropped it from the fork database. The old head apart, which is
on the new branch if that one builds off it: it is popped as the head of the fork database. -/
def Room (n : Node σ β) (b : β) : Prop :=
  ∀ {fork newHead first second}, Switch L n b fork newHead first second →
    ∀ {s₀}, (n.state :: n.undo)[second.length]? = some s₀ →
      ∀ {done x rest s}, first.reverse = done ++ x :: rest →
        Transition.run L.applyBlock s₀ (done.map block) = some s →
        L.applyBlock s x.block = none →
        ∀ d ∈ done, L.id d.block ≠ L.headBlockId n.state →
          ∀ k ∈ L.sizes s₀ ((done ++ [x]).map block), L.num newHead.block ≤ L.num d.block + k

variable {L} {n : Node σ β} {b : β} {fork : ForkDatabase β} {newHead : ForkItem β}
  {first second : List (ForkItem β)}

variable {s s₀ : σ}

section

variable (h : Switch L n b fork newHead first second)

include h

theorem Switch.pushBlock_eq : n.pushBlock L b = switchFork L { n with fork := fork } newHead := by
  rw [pushBlock, h.push]
  dsimp only
  rw [h.head]
  dsimp only
  rw [if_pos h.apart, if_pos h.higher]

/-- The old branch is not longer than the chain, so that undo states from the first
block on are enough. -/
theorem Switch.length_le : second.length ≤ L.numFromId (L.headBlockId n.state) := by
  have hhigher := h.higher
  rw [Ledger.num_eq] at hhigher
  obtain ⟨bottom, -, hsecond, -⟩ :=
    ForkDatabase.fetchBranchFrom_spec (Nat.le_of_lt hhigher) h.branches
  have hlength := hsecond.length_eq
  rw [length_map] at hlength
  omega

variable (hsound : Sound L n b) (hs₀ : (n.state :: n.undo)[second.length]? = some s₀)

include hsound hs₀

/-- What the branches are, and what the first loop does: the state where they meet. -/
theorem Switch.meeting : ∃ u₀, L.Over (second.map block) n.state n.undo s₀ u₀ ∧ second ≠ [] ∧
      L.Descends (first.map block) (L.id newHead.block) (L.headBlockId s₀) ∧
      (∀ z ∈ first, (fork.fetchBlock L (L.id z.block)).isSome) ∧
      ((∀ z1 ∈ first, ∀ z2 ∈ second, L.id z1.block ≠ L.id z2.block) ∨
        ∃ l y, first = l ++ [y] ∧ second = [y]) ∧
      n.pushBlock L b = match applyBranch L first.reverse ⟨s₀, u₀, fork⟩ with
        | (n, []) => (n, .returned true)
        | (n, x :: rest) => (n.switchBack L (x :: rest) second (L.headBlockId s₀), .threw) := by
  have hhigher := h.higher
  rw [Ledger.num_eq] at hhigher
  obtain ⟨bottom, hfirst, hsecond, hne, hcanon, hcommon⟩ :=
    ForkDatabase.fetchBranchFrom_spec (Nat.le_of_lt hhigher) h.branches
  obtain ⟨bs, s, hover, hsame⟩ := hsound.applied
  have hlength := hover.length_eq
  have hreach := hsound.reach h
  obtain ⟨s1, u₀, hmeet⟩ := hover.split (l := second.map block) (by
      intro c hc x hx hid
      obtain ⟨y, hy, rfl⟩ := mem_map.1 hx
      obtain ⟨-, -, hindex⟩ := ForkDatabase.fetchBlock_eq_some (hcanon y (mem_append_right _ hy))
      exact hsame c hc y.block (ForkDatabase.mem_index_pushBlock h.push hindex) hid) hsecond (by
      rw [length_map]
      rw [length_nil] at hlength
      omega)
  have hget := hmeet.getElem?
  rw [length_map] at hget
  obtain rfl : s1 = s₀ := some.inj (hget.symm.trans hs₀)
  obtain rfl : bottom = L.headBlockId s1 := hsecond.bottom_unique hmeet.descends
  refine ⟨u₀, hmeet, hne, hfirst, ?_, hcommon, ?_⟩
  · intro z hz
    rw [hcanon z (mem_append_left _ hz)]
    rfl
  · have hlast := hsecond
    rw [← dropLast_append_getLast hne, map_append] at hlast
    have hpop := popUntil_over (n := { n with fork := fork }) h.head hmeet (by
      intro c hc
      obtain ⟨z, hz, rfl⟩ := mem_map.1 hc
      refine ⟨?_, by rw [hcanon z (mem_append_right _ hz)]; rfl⟩
      intro hid
      have hle := (hsecond.num_le (mem_map_of_mem hz)).2
      rw [Ledger.num_eq, hid] at hle
      omega) (Nat.le_refl _) (n.undo.length + 1 - second.length)
    rw [length_map, Nat.add_sub_cancel' (by omega)] at hpop
    rw [h.pushBlock_eq, switchFork, h.branches]
    dsimp only
    rw [getLast?_eq_some_getLast hne]
    dsimp only
    rw [hlast.previous_last, hpop.trans (popUntil_self ⟨s1, u₀, fork⟩ _)]

omit h hsound hs₀

/-- **Switching back.** Blocks are popped down to the state where the branches meet, or to the old
head if this one is on the new branch. The old state is there in the end exactly if none of the
blocks has been dropped. -/
theorem switchBack_state_iff {n : Node σ β} {rest second : List (ForkItem β)} {y : ForkItem β}
    {s1 : σ} {u u₀ u1 : List σ} {l : List β} (hy : second.head? = some y)
    (hsecond : L.Over (second.map block) s u s₀ u₀) (hl : L.Over l n.state n.undo s1 u1)
    (hend : s1 = s₀ ∧ u1 = u₀ ∨ s1 = s ∧ u1 = s₀ :: u₀ ∧ second = [y])
    (hne : ∀ d ∈ l, L.id d ≠ L.id y.block) :
      (switchBack L n rest second (L.headBlockId s₀)).state = s ↔
      ∀ d ∈ l, ((rest.foldl (fun fork x => fork.remove L (L.id x.block)) n.fork).fetchBlock L
      (L.id d)).isSome := by
  have htop := hsecond.descends
  have hhead : L.id y.block = L.headBlockId s := by
    obtain ⟨l', rfl⟩ := head?_eq_some_iff.1 hy
    exact htop.1
  have htarget : L.numFromId (L.headBlockId s₀) ≤ L.numFromId (L.headBlockId s1) := by
    rcases hend with ⟨rfl, -⟩ | ⟨rfl, -⟩
    · exact Nat.le_refl _
    · have hlength := htop.length_eq
      omega
  -- the old branch can be applied again
  have hagain : ∀ n0 : Node σ β, n0.state = s₀ → (applyBranch L second.reverse n0).1.state = s := by
    rintro n0 rfl
    have hrun := hsecond.run
    rw [← map_reverse] at hrun
    obtain ⟨u', fork', happly⟩ := applyBranch_of_run hrun
    rw [happly]
  have hlength := hl.length_eq
  rw [switchBack, hy]
  generalize rest.foldl (fun fork x => fork.remove L (L.id x.block)) n.fork = fork
  have hfetch : ∀ i, (fork.setHead (some y)).fetchBlock L i = fork.fetchBlock L i := fun i => rfl
  constructor
  · intro hstate
    by_contra hmiss
    have hsteps : l.length ≤ n.undo.length + 1 := by omega
    obtain ⟨hfalse, d, hd, hid⟩ := popUntil_missing (n := ⟨n.state, n.undo, fork.setHead (some y)⟩)
      rfl hl hne (by simpa [hfetch] using hmiss) htarget hsteps
    generalize popUntil L (L.headBlockId s₀) (n.undo.length + 1) _ = r at hstate hfalse hid
    obtain ⟨n', ok⟩ := r
    obtain rfl : ok = false := hfalse
    obtain rfl : n'.state = s := hstate
    exact hne d hd (hid.symm.trans hhead.symm)
  · intro hthere
    have hpop := popUntil_over (n := ⟨n.state, n.undo, fork.setHead (some y)⟩) rfl hl
      (fun d hd => ⟨hne d hd, hthere d hd⟩) htarget (u₀.length + 1 + (u1.length - u₀.length))
    have hsteps : l.length + (u₀.length + 1 + (u1.length - u₀.length)) = n.undo.length + 1 := by
      rcases hend with ⟨-, rfl⟩ | ⟨-, rfl, -⟩
      · omega
      · rw [length_cons] at hlength ⊢
        omega
    rw [hsteps] at hpop
    rw [hpop]
    rcases hend with ⟨rfl, rfl⟩ | ⟨rfl, rfl, hone⟩
    · rw [popUntil_self ⟨s1, u1, fork.setHead (some y)⟩]
      exact hagain _ rfl
    · have hapart : L.headBlockId s1 ≠ L.headBlockId s₀ := by
        intro heq
        have hlength := htop.length_eq
        rw [hone, heq, map_singleton, length_singleton] at hlength
        omega
      rw [Nat.add_right_comm]
      rcases popUntil_head (n := ⟨s1, s₀ :: u₀, fork.setHead (some y)⟩) rfl hhead rfl hapart
          (u₀.length + ((s₀ :: u₀).length - u₀.length)) with hstop | ⟨fork', hdown⟩
      · rw [hstop]
      · rw [hdown]
        exact hagain _ rfl

include h hsound hs₀

/-- When a block of the new branch fails, the state in the end is the old one exactly if the blocks
applied before are still in the fork database, the old head apart. -/
theorem Switch.stuck {done rest : List (ForkItem β)}
    {x : ForkItem β} (hsplit : first.reverse = done ++ x :: rest)
    (hrun : run L.applyBlock s₀ (done.map block) = some s) (hx : L.applyBlock s x.block = none) :
    (n.pushBlock L b).2 = .threw ∧ ((n.pushBlock L b).1.state = n.state ↔
        ∀ d ∈ done, L.id d.block ≠ L.headBlockId n.state →
          ∀ k ∈ L.sizes s₀ ((done ++ [x]).map block), L.num newHead.block ≤ L.num d.block + k) := by
  obtain ⟨u₀, hmeet, hne, hfirst, hfetch, hcommon, hpush⟩ := h.meeting hsound hs₀
  obtain ⟨u, hover, happly⟩ := applyBranch_stuck (n := ⟨s₀, u₀, fork⟩) hrun hx rest
  generalize hfork : (L.sizes s₀ ((done ++ [x]).map block)).foldl
    (fun fork k => fork.setMaxSize L k) fork = fork' at happly
  rw [hsplit, happly] at hpush
  have hmem : ∀ d ∈ done, d ∈ first := by
    intro d hd
    rw [← mem_reverse, hsplit]
    exact mem_append_left _ hd
  have hdown : L.Descends (((x :: rest).map block).reverse ++
      (done.map block).reverse) (L.id newHead.block) (L.headBlockId s₀) := by
    rw [← reverse_append, ← map_append, ← hsplit, map_reverse, reverse_reverse]
    exact hfirst
  have hthere : ∀ d ∈ done, (((x :: rest).foldl (fun fork z => fork.remove L (L.id z.block))
      fork').fetchBlock L (L.id d.block)).isSome ↔ ∀ k ∈ L.sizes s₀ ((done ++ [x]).map block),
          L.num newHead.block ≤ L.num d.block + k := by
    intro d hd
    rw [ForkDatabase.fetchBlock_removeAll, ← hfork,
      ForkDatabase.fetchBlock_setMaxSizes (by rw [h.head]; rfl), Ledger.num_eq d.block]
    constructor
    · exact fun hk => hk.1.2
    · refine fun hk => ⟨⟨hfetch d (hmem d hd), hk⟩, fun z hz hid => ?_⟩
      have hlt :=
        hdown.num_lt (mem_reverse.2 (mem_map_of_mem hz)) (mem_reverse.2 (mem_map_of_mem hd))
      rw [Ledger.num_eq d.block, hid, ← Ledger.num_eq] at hlt
      exact Nat.lt_irrefl _ hlt
  rw [hpush]
  refine ⟨rfl, ?_⟩
  obtain ⟨y, hy, hyhead⟩ : ∃ y, second.head? = some y ∧ L.id y.block = L.headBlockId n.state := by
    cases second with
    | nil => exact absurd rfl hne
    | cons y l => exact ⟨y, rfl, hmeet.descends.1⟩
  rcases hcommon with hdisj | ⟨l, y', hl, hone⟩
  · -- nothing in common: all the applied blocks are popped
    have hne : ∀ d ∈ done, L.id d.block ≠ L.id y.block := fun d hd =>
      hdisj d (hmem d hd) y (mem_of_head? hy)
    rw [switchBack_state_iff hy hmeet hover (.inl ⟨rfl, rfl⟩) (by simpa using hne)]
    simp only [mem_reverse, List.forall_mem_map]
    refine forall₂_congr fun d hd => ?_
    rw [hthere d hd]
    exact ⟨fun hk _ => hk, fun hk => hk (hyhead ▸ hne d hd)⟩
  · -- the old head is the first block of the new branch: it is the last one to be popped
    obtain rfl : y' = y := by
      rw [hone] at hy
      exact some.inj hy
    rw [hone] at hmeet
    obtain ⟨s', u', hu, hy', rfl, rfl⟩ := hmeet
    obtain ⟨done, rfl⟩ : ∃ done', done = y' :: done' := by
      rw [hl, reverse_append, reverse_singleton, singleton_append] at hsplit
      cases done with
      | nil =>
        obtain ⟨rfl, -⟩ := cons.inj hsplit
        obtain rfl : s' = s := some.inj hrun
        rw [hx] at hy'
        cases hy'
      | cons d done =>
        obtain ⟨rfl, -⟩ := cons.inj hsplit
        exact ⟨done, rfl⟩
    rw [map_cons, reverse_cons, Ledger.over_append] at hover
    obtain ⟨s1, u1, hover, s2, u2, rfl, hs1, rfl, rfl⟩ := hover
    obtain rfl : s1 = n.state := some.inj (hs1.symm.trans hy')
    have hne : ∀ d ∈ done, L.id d.block ≠ L.id y'.block := by
      intro d hd hid
      rw [map_cons (l := done), reverse_cons (a := y'.block), ← append_assoc] at hdown
      have hlt :=
        hdown.num_lt (mem_append_right _ (mem_reverse.2 (mem_map_of_mem hd))) (mem_singleton.2 rfl)
      rw [Ledger.num_eq d.block, hid, ← Ledger.num_eq] at hlt
      exact Nat.lt_irrefl _ hlt
    rw [switchBack_state_iff hy (u := n.undo) (by rw [hone]; exact ⟨_, _, hu, hy', rfl, rfl⟩) hover
      (.inr ⟨rfl, rfl, hone⟩) (by simpa using hne)]
    simp only [mem_reverse, List.forall_mem_map, forall_mem_cons, ← hyhead, ne_eq,
      not_true_eq_false, false_implies, true_and]
    refine forall₂_congr fun d hd => ?_
    rw [hthere d (mem_cons_of_mem _ hd)]
    exact ⟨fun hk _ => hk, fun hk => hk (hne d hd)⟩

variable (hrun : run L.applyBlock s₀ (first.reverse.map block) = some s)

include hrun

theorem Switch.success : (n.pushBlock L b).2 = .returned true ∧ (n.pushBlock L b).1.state = s := by
  obtain ⟨u₀, -, -, -, -, -, hpush⟩ := h.meeting hsound hs₀
  obtain ⟨u, fork', happly⟩ := applyBranch_of_run (n := ⟨s₀, u₀, fork⟩) hrun
  rw [happly] at hpush
  rw [hpush]
  exact ⟨rfl, rfl⟩

/-- The blocks of the new branch above the most recent common ancestor: all of them, or if the old
head is the first one, those above it. -/
theorem Switch.ancestor : ∃ k t bs, (n.state :: n.undo)[k]? = some t ∧
      L.Descends bs.reverse (L.id newHead.block) (L.headBlockId t) ∧
      (∀ c ∈ bs, ∀ t ∈ (n.state :: n.undo).take k, L.headBlockId t ≠ L.id c) ∧
      run L.applyBlock t bs = some s := by
  obtain ⟨u₀, hmeet, -, hfirst, -, hcommon, -⟩ := h.meeting hsound hs₀
  rcases hcommon with hdisj | ⟨l, y, rfl, rfl⟩
  · refine ⟨second.length, s₀, first.reverse.map block, hs₀, ?_, ?_, hrun⟩
    · rw [map_reverse, reverse_reverse]
      exact hfirst
    · intro c hc t ht hid
      rw [← length_map (f := block)] at ht
      obtain ⟨d, hd, hid'⟩ := hmeet.head_mem ht
      obtain ⟨z1, hz1, rfl⟩ := mem_map.1 hc
      obtain ⟨z2, hz2, rfl⟩ := mem_map.1 hd
      exact hdisj z1 (mem_reverse.1 hz1) z2 hz2 (hid.symm.trans hid')
  · obtain ⟨s', u', -, hy, rfl, rfl⟩ := hmeet
    refine ⟨0, n.state, l.reverse.map block, rfl, ?_, ?_, ?_⟩
    · rw [map_reverse, reverse_reverse, L.head_of_apply hy]
      rw [map_append] at hfirst
      exact hfirst.init
    · intro c _ t ht
      cases ht
    · rw [reverse_append, reverse_singleton, singleton_append, map_cons, run_cons] at hrun
      rw [hy] at hrun
      exact hrun

end

/-- Without a switch, a block that is not applied leaves the state alone. -/
theorem allOrNothing_of_not_switch
    (h : ∀ fork newHead first second, ¬ Switch L n b fork newHead first second) :
    AllOrNothing L n b := by
  have hcases : (n.pushBlock L b).2 = .returned false ∨
      (n.pushBlock L b).2 = .threw ∧ (n.pushBlock L b).1.state = n.state := by
    rw [pushBlock]
    cases hpush : n.fork.pushBlock L b with
    | none => exact .inr ⟨rfl, rfl⟩
    | some fork =>
      dsimp only
      cases hhead : fork.head with
      | none => exact .inr ⟨rfl, rfl⟩
      | some newHead =>
        dsimp only
        by_cases happart : L.previous newHead.block ≠ L.headBlockId n.state
        · rw [if_pos happart]
          by_cases hhigher : L.numFromId (L.headBlockId n.state) < L.num newHead.block
          · rw [if_pos hhigher, switchFork]
            cases hbranches :
              fork.fetchBranchFrom L (L.id newHead.block) (L.headBlockId n.state) with
            | none => exact .inr ⟨rfl, rfl⟩
            | some branches =>
              exact absurd ⟨hpush, hhead, happart, hhigher, hbranches⟩
                (h fork newHead branches.1 branches.2)
          · rw [if_neg hhigher]
            exact .inl rfl
        · rw [if_neg happart, applyBlock]
          cases L.applyBlock n.state b with
          | none => exact .inr ⟨rfl, rfl⟩
          | some s => exact .inl rfl
  rcases hcases with hret | ⟨hthrew, hstate⟩
  · rw [AllOrNothing, hret]
    exact ⟨by simp, fun hswitched => by cases hswitched⟩
  · rw [AllOrNothing, hthrew]
    exact ⟨fun _ => hstate, by simp⟩

/-- **Switching forks is all or nothing exactly if there is room to go back**: for every state,
every content of the fork database and every block. -/
theorem push_block_all_or_nothing_iff (hsound : Sound L n b) : AllOrNothing L n b ↔ Room L n b := by
  constructor
  · intro hall fork newHead first second h s₀ hs₀ done x rest s hsplit hrun hx
    obtain ⟨hthrew, hstate⟩ := h.stuck hsound hs₀ hsplit hrun hx
    exact hstate.1 (hall.1 hthrew)
  · intro hroom
    by_cases hswitch : ∃ fork newHead first second, Switch L n b fork newHead first second
    · obtain ⟨fork, newHead, first, second, h⟩ := hswitch
      have hs₀ := getElem?_eq_getElem (l := n.state :: n.undo) (Nat.lt_succ_of_le (hsound.reach h))
      rcases run_or_stuck L.applyBlock _ (first.reverse.map block) with
        ⟨s, hrun⟩ | ⟨done, c, rest, s, hsplit, hrun, hc⟩
      · obtain ⟨hret, hstate⟩ := h.success hsound hs₀ hrun
        rw [AllOrNothing, hret, hstate]
        refine ⟨by simp, fun _ => ?_⟩
        obtain ⟨k, t, bs, hancestor⟩ := h.ancestor hsound hs₀ hrun
        exact ⟨fork, newHead, k, t, bs, h.push, h.head, hancestor⟩
      · obtain ⟨done, l, hitems, rfl, hl⟩ := map_eq_append_iff.1 hsplit
        obtain ⟨x, rest, rfl, rfl, rfl⟩ := map_eq_cons_iff.1 hl
        obtain ⟨hthrew, hstate⟩ := h.stuck hsound hs₀ hitems hrun hc
        rw [AllOrNothing, hthrew]
        exact ⟨fun _ => hstate.2 (hroom h hs₀ hitems hrun hc), by simp⟩
    · push Not at hswitch
      exact allOrNothing_of_not_switch hswitch

/-! ### Runs of a small ledger -/

/-- A block by the id of the block before it, a tag, and whether its transactions can be applied. -/
structure SmallBlock where
  previous : Nat × Nat
  tag : Nat
  valid : Bool
deriving DecidableEq

/-- An id is a number and a tag, a state is the ids of the blocks applied, and the first block
becomes irreversible with the next one. -/
def smallLedger : Ledger (List (Nat × Nat)) SmallBlock (Nat × Nat) where
  id b := (b.previous.1 + 1, b.tag)
  previous b := b.previous
  numFromId i := i.1
  noBlock := (0, 0)
  headBlockId s := s.headD (0, 0)
  applyBlock s b :=
    if b.previous = s.headD (0, 0) ∧ b.valid then some ((b.previous.1 + 1, b.tag) :: s) else none
  maxSize _ b := if b.valid then some (b.previous.1 + 1 - min b.previous.1 1 + 1) else none
  numFromId_id _ := rfl
  previous_of_apply := by
    intro s b s' h
    split at h
    · next hb => exact hb.1
    · cases h
  head_of_apply := by
    intro s b s' h
    split at h
    · rw [← some.inj h]
      rfl
    · cases h

/-- The node after blocks are pushed, from an empty one. -/
def smallNode (l : List SmallBlock) : Node (List (Nat × Nat)) SmallBlock :=
  l.foldl (fun n b => (n.pushBlock smallLedger b).1) ⟨[], [], {}⟩

/-- The first block, three blocks of a branch, and three of another one of which the
second is bad or not. -/
def smallFork (valid : Bool) : List SmallBlock :=
  [⟨(0, 0), 0, true⟩, ⟨(1, 0), 0, true⟩, ⟨(2, 0), 0, true⟩, ⟨(3, 0), 0, true⟩, ⟨(1, 0), 1, true⟩,
    ⟨(2, 1), 1, valid⟩, ⟨(3, 1), 1, true⟩]

theorem sound_smallFork (valid : Bool) :
    Sound smallLedger (smallNode (smallFork valid)) ⟨(4, 1), 1, true⟩ := by
  constructor
  · refine ⟨((smallFork valid).take 4).reverse, [], ?_, ?_⟩
    · cases valid <;>
        exact ⟨_, _, rfl, rfl, _, _, rfl, rfl, _, _, rfl, rfl, _, _, rfl, rfl, rfl, rfl⟩
    · have hall : ∀ c ∈ ((smallFork valid).take 4).reverse, ∀ x ∈ (⟨(4, 1), 1, true⟩ ::
          (smallNode (smallFork valid)).fork.index.map block : List SmallBlock),
          smallLedger.id x = smallLedger.id c → x = c := by
        cases valid <;> decide
      rintro c hc x (rfl | ⟨y, hy, rfl⟩)
      · exact hall c hc _ mem_cons_self
      · exact hall c hc _ (mem_cons_of_mem _ (mem_map_of_mem hy))
  · intro fork newHead first second h
    refine Nat.le_trans h.length_le ?_
    cases valid <;> decide

/-- The switch to a branch without a bad block: there is room, as the state in the end
is the right one. -/
theorem push_block_switches_to_good_branch :
    Sound smallLedger (smallNode (smallFork true)) ⟨(4, 1), 1, true⟩ ∧
      ((smallNode (smallFork true)).pushBlock smallLedger ⟨(4, 1), 1, true⟩).2 = .returned true ∧
      Room smallLedger (smallNode (smallFork true)) ⟨(4, 1), 1, true⟩ := by
  refine ⟨sound_smallFork true, by decide, ?_⟩
  refine (push_block_all_or_nothing_iff (sound_smallFork true)).1 ⟨by decide, fun _ => ?_⟩
  exact ⟨_, _, 3, [(1, 0)], [⟨(1, 0), 1, true⟩, ⟨(2, 1), 1, true⟩, ⟨(3, 1), 1, true⟩,
    ⟨(4, 1), 1, true⟩], rfl, rfl, rfl, ⟨rfl, rfl, rfl, rfl, rfl⟩, by decide, by decide⟩

/-- The second block of the new branch is bad. Applying the first one has dropped it from the fork
database, so that it cannot be popped: the call throws with this block as the head. -/
theorem switch_back_finds_block_dropped :
    Sound smallLedger (smallNode (smallFork false)) ⟨(4, 1), 1, true⟩ ∧
      smallLedger.headBlockId (smallNode (smallFork false)).state = (4, 0) ∧
      ((smallNode (smallFork false)).pushBlock smallLedger ⟨(4, 1), 1, true⟩).2 = .threw ∧
      smallLedger.headBlockId ((smallNode (smallFork false)).pushBlock smallLedger
        ⟨(4, 1), 1, true⟩).1.state = (2, 1) ∧
      ¬ AllOrNothing smallLedger (smallNode (smallFork false)) ⟨(4, 1), 1, true⟩ := by
  refine ⟨sound_smallFork false, by decide, by decide, by decide, ?_⟩
  intro hall
  exact absurd (hall.1 (by decide)) (by decide)

end Node

end CrowdwizChain
