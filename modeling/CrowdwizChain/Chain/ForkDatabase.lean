import CrowdwizChain.Lib.Run
import Mathlib.Data.List.Basic

/-!
# The fork database

`fork_database.cpp`: the recent blocks of all forks, each with a pointer to the block before it, and
the block with the highest number as the head. A block is known by its id, which has the number of
the block in it. The pointers are weak: one is lost when the block that it points to is dropped from
the index, and does not come back when that block is pushed again.

The fork database is told apart from the chain only by what a block and an id are,
which is a `Ledger`: it also has the states of the chain, and `apply_block` as a
function of a state and a block.
-/

namespace CrowdwizChain

open Option List

universe u v w

/-- Blocks, their ids, and the states that they lead to. -/
structure Ledger (σ : Type u) (β : Type v) (ι : Type w) where
  id : β → ι
  previous : β → ι
  /-- `block_header::num_from_id` -/
  numFromId : ι → Nat
  /-- `block_id_type()`, in the place of the block before the first one -/
  noBlock : ι
  headBlockId : σ → ι
  /-- `apply_block`, `none` if it throws -/
  applyBlock : σ → β → Option σ
  /-- the size that `apply_block` sets for the fork database, if it gets that far
  before it throws -/
  maxSize : σ → β → Option Nat
  numFromId_id : ∀ b, numFromId (id b) = numFromId (previous b) + 1
  previous_of_apply : ∀ {s b s'}, applyBlock s b = some s' → previous b = headBlockId s
  head_of_apply : ∀ {s b s'}, applyBlock s b = some s' → headBlockId s' = id b

/-- `fork_item`: a block, and whether the weak pointer to the block before it is good. -/
structure ForkItem (β : Type v) where
  block : β
  linked : Bool

/-- `fork_database` -/
structure ForkDatabase (β : Type v) where
  index : List (ForkItem β) := []
  head : Option (ForkItem β) := none
  maxSize : Nat := 1024

variable {σ : Type u} {β : Type v} {ι : Type w} [DecidableEq ι] (L : Ledger σ β ι)

/-- `block_header::block_num` -/
def Ledger.num (b : β) : Nat := L.numFromId (L.previous b) + 1

namespace ForkDatabase

variable (f : ForkDatabase β)

/-- `fork_database::fetch_block` -/
def fetchBlock (i : ι) : Option (ForkItem β) := f.index.find? fun x => L.id x.block = i

/-- `item->prev.lock()` -/
def lock (x : ForkItem β) : Option (ForkItem β) :=
  if x.linked then f.fetchBlock L (L.previous x.block) else none

/-- Items are dropped from the index, and pointers to them are lost. -/
def keep (p : ForkItem β → Bool) : ForkDatabase β :=
  let relink : ForkItem β → ForkItem β := fun x =>
    { x with
      linked := x.linked && (f.index.filter p).any fun y => L.id y.block = L.previous x.block }
  { f with index := (f.index.filter p).map relink, head := f.head.map relink }

/-- `fork_database::_push_block`, `none` if it throws. An item is not inserted if there is
one with the same id. -/
def pushBlock (b : β) : Option (ForkDatabase β) :=
  let insert : ForkItem β → ForkDatabase β := fun item =>
    if (f.fetchBlock L (L.id b)).isSome then f else { f with index := item :: f.index }
  match f.head with
  | none => some { insert ⟨b, false⟩ with head := some ⟨b, false⟩ }
  | some head =>
    if L.num head.block - f.maxSize < L.num b then
      (if L.previous b = L.noBlock then some ⟨b, false⟩
        else (f.fetchBlock L (L.previous b)).map fun _ => (⟨b, true⟩ : ForkItem β)).map fun item =>
          if L.num head.block < L.num b then
            { insert item with head := some item }.keep L fun x =>
              L.num b - min f.maxSize (L.num b) ≤ L.num x.block
          else insert item
    else none

/-- The first two loops of `fetch_branch_from`: down to a number, with the items on the way. Numbers
go down by one, so that the number of the item is enough steps. -/
def level (num : Nat) : Nat → ForkItem β → Option (List (ForkItem β) × ForkItem β)
  | 0, x => if num < L.num x.block then none else some ([], x)
  | steps + 1, x =>
    if num < L.num x.block then
      (f.lock L x).bind fun y => (level num steps y).map fun r => (x :: r.1, r.2)
    else some ([], x)

/-- The third loop of `fetch_branch_from`, and its end: down on both sides until the
blocks before are the same. -/
def meet : Nat → ForkItem β → ForkItem β → Option (List (ForkItem β) × List (ForkItem β))
  | 0, x, y => if L.previous x.block ≠ L.previous y.block then none else some ([x], [y])
  | steps + 1, x, y =>
    if L.previous x.block ≠ L.previous y.block then
      (f.lock L x).bind fun x' => (f.lock L y).bind fun y' =>
        (meet steps x' y').map fun r => (x :: r.1, y :: r.2)
    else some ([x], [y])

/-- `fork_database::fetch_branch_from`, `none` if it throws -/
def fetchBranchFrom (first second : ι) : Option (List (ForkItem β) × List (ForkItem β)) :=
  (f.fetchBlock L first).bind fun x => (f.fetchBlock L second).bind fun y =>
    (f.level L (L.num y.block) (L.num x.block) x).bind fun r₁ =>
      (f.level L (L.num r₁.2.block) (L.num y.block) y).bind fun r₂ =>
        (f.meet L (L.num r₁.2.block) r₁.2 r₂.2).map fun m => (r₁.1 ++ m.1, r₂.1 ++ m.2)

/-- `fork_database::pop_block`, `none` if it throws -/
def popBlock : Option (ForkDatabase β) :=
  f.head.bind fun head => (f.lock L head).map fun prev => { f with head := some prev }

/-- `fork_database::remove` -/
def remove (i : ι) : ForkDatabase β :=
  let kept := f.keep L fun x => L.id x.block ≠ i
  match kept.head with
  | none => kept
  | some head =>
    if L.id head.block = i then (kept.popBlock L).getD { kept with head := none } else kept

/-- `fork_database::set_head` -/
def setHead (head : Option (ForkItem β)) : ForkDatabase β := { f with head := head }

/-- `fork_database::set_max_size` -/
def setMaxSize (size : Nat) : ForkDatabase β :=
  match f.head with
  | none => { f with maxSize := size }
  | some head =>
    { f with maxSize := size }.keep L fun x => L.num head.block - size ≤ L.num x.block

end ForkDatabase

/-! ### Branches -/

namespace Ledger

/-- Blocks from one id down to another, the newest first: each is the one before the
block above it. -/
def Descends : List β → ι → ι → Prop
  | [], top, bottom => top = bottom
  | b :: l, top, bottom => L.id b = top ∧ Descends l (L.previous b) bottom

variable {L}

omit [DecidableEq ι] in
theorem num_eq (b : β) : L.num b = L.numFromId (L.id b) := (L.numFromId_id b).symm

omit [DecidableEq ι] in
theorem Descends.append {l l' : List β} {a b c : ι} (h : L.Descends l a b)
    (h' : L.Descends l' b c) :
    L.Descends (l ++ l') a c := by
  induction l generalizing a with
  | nil =>
    obtain rfl : a = b := h
    exact h'
  | cons x l ih => exact ⟨h.1, ih h.2⟩

variable {l : List β}

omit [DecidableEq ι] in
theorem Descends.bottom_unique {a b c : ι} (h : L.Descends l a b) (h' : L.Descends l a c) :
    b = c := by
  induction l generalizing a with
  | nil => exact (Eq.symm h).trans h'
  | cons x l ih => exact ih h.2 h'.2

omit [DecidableEq ι] in
theorem Descends.init {a b : ι} {x : β} (h : L.Descends (l ++ [x]) a b) :
    L.Descends l a (L.id x) := by
  induction l generalizing a with
  | nil => exact h.1.symm
  | cons y l ih => exact ⟨h.1, ih h.2⟩

omit [DecidableEq ι] in
theorem Descends.previous_last {a b : ι} {x : β} (h : L.Descends (l ++ [x]) a b) :
    L.previous x = b := by
  induction l generalizing a with
  | nil => exact h.2
  | cons y l ih => exact ih h.2

omit [DecidableEq ι] in
theorem Descends.length_eq {a b : ι} (h : L.Descends l a b) :
    L.numFromId a = L.numFromId b + l.length := by
  induction l generalizing a with
  | nil =>
    obtain rfl : a = b := h
    rfl
  | cons x l ih =>
    rw [← h.1, L.numFromId_id, ih h.2, length_cons]
    omega

omit [DecidableEq ι] in
theorem Descends.num_le {a b : ι} (h : L.Descends l a b) {x : β} (hx : x ∈ l) :
    L.numFromId b < L.num x ∧ L.num x ≤ L.numFromId a := by
  induction l generalizing a with
  | nil => cases hx
  | cons y l ih =>
    have hlength := h.2.length_eq
    have hnum := L.numFromId_id y
    rw [h.1] at hnum
    rcases mem_cons.1 hx with rfl | hx
    · have hx := num_eq (L := L) x
      rw [h.1] at hx
      omega
    · have hle := ih h.2 hx
      omega

omit [DecidableEq ι] in
theorem Descends.num_lt {l l' : List β} {a b : ι} (h : L.Descends (l ++ l') a b) {x y : β}
    (hx : x ∈ l) (hy : y ∈ l') : L.num y < L.num x := by
  induction l generalizing a with
  | nil => cases hx
  | cons z l ih =>
    rcases mem_cons.1 hx with rfl | hx
    · have hle := h.2.num_le (mem_append_right _ hy)
      exact Nat.lt_succ_of_le hle.2
    · exact ih h.2 hx

end Ledger

namespace ForkDatabase

variable {L} {f : ForkDatabase β}

/-! ### What is in the index -/

theorem fetchBlock_isSome {i : ι} :
    (f.fetchBlock L i).isSome ↔ ∃ x ∈ f.index, L.id x.block = i := by
  rw [fetchBlock, List.find?_isSome]
  simp

theorem fetchBlock_eq_some {i : ι} {x : ForkItem β} (h : f.fetchBlock L i = some x) :
    L.id x.block = i ∧ f.fetchBlock L (L.id x.block) = some x ∧ x ∈ f.index := by
  have hid : decide (L.id x.block = i) = true :=
    List.find?_some (p := fun x : ForkItem β => decide (L.id x.block = i)) h
  replace hid := of_decide_eq_true hid
  exact ⟨hid, hid ▸ h, List.mem_of_find?_eq_some h⟩

variable {x y : ForkItem β}

theorem lock_eq_some (h : f.lock L x = some y) :
    L.id y.block = L.previous x.block ∧ f.fetchBlock L (L.id y.block) = some y := by
  rw [lock] at h
  split at h
  · obtain ⟨hid, hfetch, -⟩ := fetchBlock_eq_some h
    exact ⟨hid, hfetch⟩
  · cases h

theorem fetchBlock_keep {p : ForkItem β → Bool} {i : ι} :
    ((f.keep L p).fetchBlock L i).isSome ↔ ∃ x ∈ f.index, p x = true ∧ L.id x.block = i := by
  rw [fetchBlock_isSome]
  constructor
  · rintro ⟨y, hy, hid⟩
    obtain ⟨x, hx, rfl⟩ := List.mem_map.1 hy
    obtain ⟨hx, hp⟩ := mem_filter.1 hx
    exact ⟨x, hx, hp, hid⟩
  · rintro ⟨x, hx, hp, hid⟩
    exact ⟨_, List.mem_map.2 ⟨x, mem_filter.2 ⟨hx, hp⟩, rfl⟩, hid⟩

@[simp] theorem head_keep (p : ForkItem β → Bool) :
    (f.keep L p).head.map ForkItem.block = f.head.map ForkItem.block := by
  rw [keep, Option.map_map]
  rfl

theorem fetchBlock_setMaxSize {head : β} (hhead : f.head.map ForkItem.block = some head)
    {size : Nat} {i : ι} : ((f.setMaxSize L size).fetchBlock L i).isSome ↔
      (f.fetchBlock L i).isSome ∧ L.num head ≤ L.numFromId i + size := by
  obtain ⟨item, hitem, rfl⟩ := map_eq_some_iff.1 hhead
  rw [setMaxSize, hitem]
  rw [fetchBlock_keep, fetchBlock_isSome]
  constructor
  · rintro ⟨x, hx, hp, rfl⟩
    have hle := of_decide_eq_true hp
    rw [Ledger.num_eq x.block] at hle
    exact ⟨⟨x, hx, rfl⟩, by omega⟩
  · rintro ⟨⟨x, hx, rfl⟩, hle⟩
    refine ⟨x, hx, decide_eq_true ?_, rfl⟩
    rw [Ledger.num_eq x.block]
    omega

@[simp] theorem head_setMaxSize (size : Nat) :
    (f.setMaxSize L size).head.map ForkItem.block = f.head.map ForkItem.block := by
  cases h : f.head with
  | none => rw [setMaxSize, h]
  | some head =>
    rw [setMaxSize, h]
    exact head_keep _

/-- Removing a block removes it from the index, and the head is as it was, or goes to
the block before. -/
theorem remove_spec {i : ι} {k : ForkDatabase β} (hk : f.keep L (fun x => L.id x.block ≠ i) = k) :
    (f.remove L i).index = k.index ∧ ∀ {x}, (f.remove L i).head = some x →
      L.id x.block ≠ i ∧ k.head = some x ∨
        ∃ head, k.head = some head ∧ L.id head.block = i ∧ k.lock L head = some x := by
  rw [remove, hk]
  cases hhead : k.head with
  | none => exact ⟨rfl, fun hx => by cases hhead.symm.trans hx⟩
  | some head =>
    dsimp only
    split
    · next hi =>
      rw [popBlock, hhead, bind_some]
      cases hlock : k.lock L head with
      | none => exact ⟨rfl, by simp⟩
      | some prev => exact ⟨rfl, fun hx => .inr ⟨head, rfl, hi, hlock.trans hx⟩⟩
    · next hi =>
      refine ⟨rfl, fun hx => .inl ?_⟩
      cases hhead.symm.trans hx
      exact ⟨hi, rfl⟩

theorem fetchBlock_remove {i j : ι} :
    ((f.remove L i).fetchBlock L j).isSome ↔ (f.fetchBlock L j).isSome ∧ j ≠ i := by
  have hfetch :
      (f.remove L i).fetchBlock L j = (f.keep L fun x => L.id x.block ≠ i).fetchBlock L j := by
    rw [fetchBlock, (remove_spec rfl).1, fetchBlock]
  rw [hfetch, fetchBlock_keep, fetchBlock_isSome]
  constructor
  · rintro ⟨x, hx, hp, rfl⟩
    exact ⟨⟨x, hx, rfl⟩, of_decide_eq_true hp⟩
  · rintro ⟨⟨x, hx, rfl⟩, hne⟩
    exact ⟨x, hx, decide_eq_true hne, rfl⟩

theorem mem_index_pushBlock {b : β} {f' : ForkDatabase β} (h : f.pushBlock L b = some f')
    {x : ForkItem β} (hx : x ∈ f'.index) : x.block = b ∨ ∃ y ∈ f.index, y.block = x.block := by
  have hinsert : ∀ {item : ForkItem β} {y}, item.block = b →
      y ∈ (if (f.fetchBlock L (L.id b)).isSome then f
        else { f with index := item :: f.index } : ForkDatabase β).index →
      y.block = b ∨ ∃ z ∈ f.index, z.block = y.block := by
    intro item y hitem hy
    split at hy
    · exact .inr ⟨y, hy, rfl⟩
    · rcases mem_cons.1 hy with rfl | hy
      · exact .inl hitem
      · exact .inr ⟨y, hy, rfl⟩
  rw [pushBlock] at h
  split at h
  · cases h
    exact hinsert rfl hx
  · obtain ⟨-, h⟩ := ite_none_right_eq_some.1 h
    obtain ⟨item, hitem, h⟩ := map_eq_some_iff.1 h
    have hblock : item.block = b := by
      split at hitem
      · rw [← some.inj hitem]
      · obtain ⟨-, -, rfl⟩ := map_eq_some_iff.1 hitem
        rfl
    split at h
    · obtain rfl := h
      obtain ⟨y, hy, rfl⟩ := List.mem_map.1 hx
      have hmem := hinsert hblock (mem_of_mem_filter hy)
      exact hmem
    · obtain rfl := h
      exact hinsert hblock hx

/-! ### Where two branches meet -/

/-- The item is the one that is found under its id. -/
def Canon (L : Ledger σ β ι) (f : ForkDatabase β) (x : ForkItem β) : Prop :=
  f.fetchBlock L (L.id x.block) = some x

theorem Canon.eq_of_id (hx : Canon L f x) (hy : Canon L f y) (h : L.id x.block = L.id y.block) :
    x = y := by
  rw [Canon, h] at hx
  exact some.inj (hx.symm.trans hy)

theorem level_spec {num steps : Nat} {x z : ForkItem β} {l : List (ForkItem β)} (hx : Canon L f x)
    (hnum : num ≤ L.num x.block) (h : f.level L num steps x = some (l, z)) :
    L.Descends (l.map ForkItem.block) (L.id x.block) (L.id z.block) ∧ Canon L f z ∧
      (∀ y ∈ l, Canon L f y) ∧ L.num z.block = num := by
  induction steps generalizing x l with
  | zero =>
    rw [level] at h
    split at h
    · cases h
    · cases h
      exact ⟨rfl, hx, by simp, by omega⟩
  | succ steps ih =>
    rw [level] at h
    split at h
    · next hlt =>
      obtain ⟨y, hy, h⟩ := bind_eq_some_iff.1 h
      obtain ⟨⟨l', z'⟩, hr, h⟩ := map_eq_some_iff.1 h
      cases h
      obtain ⟨hid, hcanon⟩ := lock_eq_some hy
      have hy : num ≤ L.num y.block := by
        rw [Ledger.num_eq, hid]
        exact Nat.le_of_lt_succ hlt
      obtain ⟨hdesc, hz, hl, heq⟩ := ih hcanon hy hr
      refine ⟨⟨rfl, hid ▸ hdesc⟩, hz, ?_, heq⟩
      rintro w (_ | ⟨_, hw⟩)
      · exact hx
      · exact hl w hw
    · cases h
      exact ⟨rfl, hx, by simp, by omega⟩

/-- The branches from two blocks down to a block below them, where nothing is in common unless
the two blocks are one. -/
structure Meets (L : Ledger σ β ι) (f : ForkDatabase β) (x y : ForkItem β)
    (m₁ m₂ : List (ForkItem β)) (bottom : ι) : Prop where
  left : L.Descends (m₁.map ForkItem.block) (L.id x.block) bottom
  right : L.Descends (m₂.map ForkItem.block) (L.id y.block) bottom
  ne_nil : m₂ ≠ []
  canon : ∀ z ∈ m₁ ++ m₂, Canon L f z
  disjoint : L.id x.block ≠ L.id y.block → ∀ z₁ ∈ m₁, ∀ z₂ ∈ m₂, L.id z₁.block ≠ L.id z₂.block
  same : L.id x.block = L.id y.block → m₁ = [x] ∧ m₂ = [x]

theorem Meets.stop (hx : Canon L f x) (hy : Canon L f y)
    (hprev : L.previous x.block = L.previous y.block) :
    Meets L f x y [x] [y] (L.previous x.block) where
  left := ⟨rfl, rfl⟩
  right := ⟨rfl, hprev.symm⟩
  ne_nil := by simp
  canon := by simp [hx, hy]
  disjoint := by simp
  same := by
    intro hid
    rw [hx.eq_of_id hy hid]
    exact ⟨rfl, rfl⟩

/-- Both branches go down by one block, and meet where they met before. -/
theorem Meets.step {x y x' y' : ForkItem β} {r1 r2 : List (ForkItem β)} {bottom : ι}
    (hx : Canon L f x) (hy : Canon L f y) (hnum : L.num x.block = L.num y.block)
    (hprev : L.previous x.block ≠ L.previous y.block) (hx' : L.id x'.block = L.previous x.block)
    (hy' : L.id y'.block = L.previous y.block) (h : Meets L f x' y' r1 r2 bottom) :
    Meets L f x y (x :: r1) (y :: r2) bottom where
  left := ⟨rfl, hx' ▸ h.left⟩
  right := ⟨rfl, hy' ▸ h.right⟩
  ne_nil := by simp
  canon := by
    intro z hz
    rcases mem_append.1 hz with hz | hz
    · rcases mem_cons.1 hz with rfl | hz
      · exact hx
      · exact h.canon z (mem_append_left _ hz)
    · rcases mem_cons.1 hz with rfl | hz
      · exact hy
      · exact h.canon z (mem_append_right _ hz)
  disjoint := by
    -- blocks on different levels have different numbers
    have hlow : ∀ {r : List (ForkItem β)} {top}, L.Descends (r.map ForkItem.block) top bottom →
        L.numFromId top + 1 = L.num x.block → ∀ z ∈ r, L.num z.block < L.num x.block := by
      intro r top hd htop z hz
      have hle := (hd.num_le (List.mem_map_of_mem hz)).2
      omega
    have hlow1 := hlow h.left (by rw [hx']; rfl)
    have hlow2 := hlow h.right (by rw [hy', hnum]; rfl)
    intro hid z1 hz1 z2 hz2 heq
    have hz : L.num z1.block = L.num z2.block := by rw [Ledger.num_eq, Ledger.num_eq, heq]
    rcases mem_cons.1 hz1 with rfl | hz1 <;> rcases mem_cons.1 hz2 with rfl | hz2
    · exact hid heq
    · exact absurd (hlow2 z2 hz2) (by omega)
    · exact absurd (hlow1 z1 hz1) (by omega)
    · exact h.disjoint (by rwa [hx', hy']) z1 hz1 z2 hz2 heq
  same := by
    intro hid
    exact absurd (congrArg (fun z : ForkItem β => L.previous z.block) (hx.eq_of_id hy hid)) hprev

/-- From two blocks with the same number the branches go down separately. -/
theorem meet_spec {steps : Nat} {m1 m2 : List (ForkItem β)} (hx : Canon L f x)
    (hy : Canon L f y) (hnum : L.num x.block = L.num y.block)
    (h : f.meet L steps x y = some (m1, m2)) : ∃ bottom, Meets L f x y m1 m2 bottom := by
  induction steps generalizing x y m1 m2 with
  | zero =>
    obtain ⟨hprev, h⟩ := ite_none_left_eq_some.1 h
    cases h
    exact ⟨_, .stop hx hy (not_not.1 hprev)⟩
  | succ steps ih =>
    rw [meet] at h
    split at h
    · next hprev =>
      obtain ⟨x', hx', h⟩ := bind_eq_some_iff.1 h
      obtain ⟨y', hy', h⟩ := bind_eq_some_iff.1 h
      obtain ⟨⟨r1, r2⟩, hr, h⟩ := map_eq_some_iff.1 h
      cases h
      obtain ⟨hidx, hcx⟩ := lock_eq_some hx'
      obtain ⟨hidy, hcy⟩ := lock_eq_some hy'
      have hnum' : L.num x'.block = L.num y'.block := by
        rw [Ledger.num_eq, Ledger.num_eq, hidx, hidy]
        exact Nat.succ.inj hnum
      obtain ⟨bottom, hmeets⟩ := ih hcx hcy hnum' hr
      exact ⟨bottom, hmeets.step hx hy hnum hprev hidx hidy⟩
    · next hprev =>
      cases h
      exact ⟨_, .stop hx hy (not_not.1 hprev)⟩

/-- **What `fetch_branch_from` returns** for a block and a lower one: the two branches down to a
block below them. Either they have no block in common, or the lower block is itself on the upper
branch, and then it is the last block of both. -/
theorem fetchBranchFrom_spec {first second : ι} {b1 b2 : List (ForkItem β)}
    (hnum : L.numFromId second ≤ L.numFromId first)
    (h : f.fetchBranchFrom L first second = some (b1, b2)) :
    ∃ bottom, L.Descends (b1.map ForkItem.block) first bottom ∧
      L.Descends (b2.map ForkItem.block) second bottom ∧ b2 ≠ [] ∧ (∀ z ∈ b1 ++ b2, Canon L f z) ∧
      ((∀ z1 ∈ b1, ∀ z2 ∈ b2, L.id z1.block ≠ L.id z2.block) ∨ ∃ l y, b1 = l ++ [y] ∧
        b2 = [y]) := by
  obtain ⟨x, hx, h⟩ := bind_eq_some_iff.1 h
  obtain ⟨y, hy, h⟩ := bind_eq_some_iff.1 h
  obtain ⟨⟨l1, x'⟩, h1, h⟩ := bind_eq_some_iff.1 h
  obtain ⟨⟨l2, y'⟩, h2, h⟩ := bind_eq_some_iff.1 h
  obtain ⟨⟨m1, m2⟩, hm, h⟩ := map_eq_some_iff.1 h
  cases h
  obtain ⟨rfl, hcx, -⟩ := fetchBlock_eq_some hx
  obtain ⟨rfl, hcy, -⟩ := fetchBlock_eq_some hy
  rw [← Ledger.num_eq, ← Ledger.num_eq] at hnum
  obtain ⟨hd1, hcx', hl1, hx'⟩ := level_spec hcx hnum h1
  -- the second loop has nothing to do
  obtain ⟨rfl, rfl⟩ : l2 = [] ∧ y' = y := by
    have hstop : f.level L (L.num x'.block) (L.num y.block) y = some ([], y) := by
      cases hk : L.num y.block with
      | zero => rw [level, if_neg (by omega)]
      | succ k => rw [level, if_neg (by omega)]
    rw [hstop] at h2
    cases h2
    exact ⟨rfl, rfl⟩
  obtain ⟨bottom, hm1, hm2, hne, hcanon, hdisj, hsame⟩ := meet_spec hcx' hcy hx' hm
  refine ⟨bottom, by rw [map_append]; exact hd1.append hm1, hm2, hne, ?_, ?_⟩
  · intro z hz
    rw [nil_append, append_assoc] at hz
    rcases mem_append.1 hz with hz | hz
    · exact hl1 z hz
    · exact hcanon z hz
  · by_cases hid : L.id x'.block = L.id y'.block
    · obtain ⟨rfl, rfl⟩ := hsame hid
      exact .inr ⟨l1, x', rfl, rfl⟩
    · refine .inl fun z1 hz1 z2 hz2 heq => ?_
      rcases mem_append.1 hz1 with hz1 | hz1
      · have hhigh := (hd1.num_le (List.mem_map_of_mem hz1)).1
        have hlow := (hm2.num_le (List.mem_map_of_mem hz2)).2
        rw [← Ledger.num_eq] at hhigh hlow
        rw [Ledger.num_eq z1.block, heq, ← Ledger.num_eq] at hhigh
        omega
      · exact hdisj hid z1 hz1 z2 hz2 heq

end ForkDatabase

end CrowdwizChain
