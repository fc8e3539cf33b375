import CrowdwizChain.Chain.Committee
import CrowdwizChain.Chain.Irreversible
import Mathlib.Data.List.Rotate

/-!
# Slots, the schedule of the witnesses, and the number they have confirmed

The functions of `db_witness_schedule.cpp` in the arithmetic of the machine, over the headers of
`CrowdwizChain.Chain.BlockSchedule`: `get_slot_time` and `get_slot_at_time` in 32 bits,
`get_scheduled_witness` in 64 bits, and `update_witness_missed_blocks`.

* `BlockRules.slots_inverse`: the slot at a time and the time of a slot;
* `BlockRules.witness_schedule_fair`: who has which of the slots in a row;
* `BlockRules.last_irreversible_block_num_spec`: what `update_last_irreversible_block`
  finds and sets.
-/

namespace CrowdwizChain

open Option List Nat Transition

universe u v w

variable {τ : Type u} {δ : Type v} {ι : Type w} {R : BlockRules τ δ ι} {s s' : HeadState τ ι}

/-! ### The number that enough witnesses have confirmed -/

/-- An entry of a sorted list is the largest number that no fewer entries reach than
there are from there on. -/
theorem isGreatest_of_sorted {l1 l2 : List Nat} {x : Nat} (hl : (l1 ++ x :: l2).Pairwise (· ≤ ·)) :
    IsGreatest {b | l2.length + 1 ≤ (l1 ++ x :: l2).countP (b ≤ ·)} x := by
  obtain ⟨-, hright, hcross⟩ := pairwise_append.1 hl
  have hright := (pairwise_cons.1 hright).1
  constructor
  · have hall : l2.countP (x ≤ ·) = l2.length :=
      countP_eq_length.2 fun y hy => decide_eq_true (hright y hy)
    simp only [Set.mem_ofPred_eq, countP_append, countP_cons, le_refl, decide_true, if_true, hall]
    omega
  · intro b hb
    by_contra hlt
    have hnone : l1.countP (b ≤ ·) = 0 := by
      refine countP_eq_zero.2 fun y hy => ?_
      have hle := hcross y hy x mem_cons_self
      rw [decide_eq_true_eq]
      omega
    have hle := countP_le_length (p := (b ≤ ·)) (l := l2)
    simp only [Set.mem_ofPred_eq, countP_append, countP_cons, hnone, hlt, decide_false] at hb
    simp only [Bool.false_eq_true, if_false] at hb
    omega

/-- `update_last_irreversible_block` leaves out three tenths of the active witnesses,
rounded down. -/
theorem HeadState.isGreatest_confirmedBlockNum (hactive : s.activeWitnesses ≠ []) :
    ∃ num, s.confirmedBlockNum = some num ∧
      IsGreatest {b | s.activeWitnesses.length - 3 * s.activeWitnesses.length / 10 ≤
        s.activeWitnesses.countP fun w => b ≤ s.lastConfirmedBlockNum w} num := by
  set l := (s.activeWitnesses.map s.lastConfirmedBlockNum).insertionSort (· ≤ ·) with hl
  have hsorted : l.Pairwise (· ≤ ·) := pairwise_insertionSort (· ≤ ·) _
  have hlength : l.length = s.activeWitnesses.length := by
    rw [hl, length_insertionSort, length_map]
  have hcount : ∀ b, l.countP (b ≤ ·) = s.activeWitnesses.countP fun w =>
      b ≤ s.lastConfirmedBlockNum w := by
    intro b
    rw [hl, (perm_insertionSort _ _).countP_eq, countP_map]
    rfl
  have hpos := length_pos_iff.2 hactive
  obtain ⟨k, hk⟩ : ∃ k, k = 3 * s.activeWitnesses.length / 10 := ⟨_, rfl⟩
  have hlt : k < l.length := by omega
  refine ⟨l[k], ?_, ?_⟩
  · rw [confirmedBlockNum, ← hl,
      show (10000 - irreversibleThreshold) * s.activeWitnesses.length / 10000 = k by
      rw [irreversibleThreshold]; omega]
    exact getElem?_eq_getElem hlt
  · have hcut : l = l.take k ++ l[k] :: l.drop (k + 1) := by
      rw [← drop_eq_getElem_cons hlt, take_append_drop]
    rw [hcut] at hsorted
    have hgreatest := isGreatest_of_sorted hsorted
    rw [← hcut] at hgreatest
    have htail : (l.drop (k + 1)).length + 1 = s.activeWitnesses.length - k := by
      rw [length_drop]
      omega
    simp only [htail, hcount] at hgreatest
    rw [← hk]
    exact hgreatest

/-- `database::get_scheduled_witness`, in 64 bits -/
def HeadState.wordScheduledWitness (s : HeadState τ ι) (slotNum : Nat) : Option Nat :=
  s.currentShuffledWitnesses[(s.currentAslot + slotNum) % 2 ^ 64 %
    s.currentShuffledWitnesses.length]?

namespace BlockRules

/-- **The last irreversible block.** The number that is found is the largest one that at least
`n - ⌊3n / 10⌋` of the `n` active witnesses have confirmed. Along a chain, however the active
witnesses change, the last irreversible number does not go down, and it is not above the head. -/
theorem last_irreversible_block_num_spec [DecidableEq ι] (hactive : s.activeWitnesses ≠ [])
    {g : HeadState τ ι} (hg : g.Genesis R) : (∃ num, s.confirmedBlockNum = some num ∧
      IsGreatest {b | s.activeWitnesses.length - 3 * s.activeWitnesses.length / 10 ≤
        s.activeWitnesses.countP fun w => b ≤ s.lastConfirmedBlockNum w} num ∧
      s.updateLastIrreversibleBlock.lastIrreversibleBlockNum = max s.lastIrreversibleBlockNum num) ∧
    ∀ {l l' : List (ScheduledBlock ι δ)} {t t' : HeadState τ ι},
      run R.applyBlock g l = some t → run R.applyBlock t l' = some t' →
      t.lastIrreversibleBlockNum ≤ t'.lastIrreversibleBlockNum ∧
        t'.lastIrreversibleBlockNum ≤ R.headBlockNum t' := by
  constructor
  · obtain ⟨num, hnum, hgreatest⟩ := HeadState.isGreatest_confirmedBlockNum hactive
    refine ⟨num, hnum, hgreatest, ?_⟩
    rw [HeadState.updateLastIrreversibleBlock, hnum]
    rfl
  · intro l l' t t' hrun hrun'
    constructor
    · have hkeep : ∀ {x b x'}, t.lastIrreversibleBlockNum ≤ x.lastIrreversibleBlockNum →
          R.applyBlock x b = some x' → t.lastIrreversibleBlockNum ≤ x'.lastIrreversibleBlockNum :=
        fun hle hstep => hle.trans (lastIrreversibleBlockNum_mono hstep)
      exact invariant hkeep le_rfl hrun'
    · have hwhole : run R.applyBlock g (l ++ l') = some t' := by
        rw [run_append, hrun]
        exact hrun'
      exact (finality_ledger hg).le_head hwhole

/-- Three witnesses that have confirmed nothing yet, and the four blocks that follow. -/
theorem last_irreversible_block_num_spec_plain : ∃ t,
    run plainRules.applyBlock plainGenesis plainChain = some t ∧
      t.lastIrreversibleBlockNum ≤ 4 ∧ plainGenesis.confirmedBlockNum = some 0 := by
  obtain ⟨t, ht⟩ := isSome_iff_exists.1
    (show (run plainRules.applyBlock plainGenesis plainChain).isSome by decide +kernel)
  have hspec := last_irreversible_block_num_spec (s := plainGenesis) (R := plainRules) (by decide)
    genesis_plainGenesis
  refine ⟨t, ht, ?_, by decide⟩
  have hnum :
      (run plainRules.applyBlock plainGenesis plainChain).map plainRules.headBlockNum = some 4 := by
    decide +kernel
  rw [ht, map_some, some.injEq] at hnum
  exact hnum ▸ (hspec.2 (l := []) rfl ht).2

/-! ### Slots -/

variable (R)

/-- `database::get_slot_time`, in 32 bits -/
def wordSlotTime (s : HeadState τ ι) (slotNum : Nat) : Nat :=
  let interval := R.blockInterval s.rest
  if slotNum = 0 then 0
  else if R.headBlockNum s = 0 then (s.time + slotNum * interval % 2 ^ 32) % 2 ^ 32
  else
    let slotNum := if s.maintenanceFlag then (slotNum + R.maintenanceSkipSlots s.rest) % 2 ^ 32
      else slotNum
    (s.time / interval * interval + slotNum * interval % 2 ^ 32) % 2 ^ 32

/-- `database::get_slot_at_time`, in 32 bits -/
def wordSlotAtTime (s : HeadState τ ι) (time : Nat) : Nat :=
  if time < R.wordSlotTime s 1 then 0
  else ((time - R.wordSlotTime s 1) / R.blockInterval s.rest + 1) % 2 ^ 32

/-- `database::update_witness_missed_blocks`: the slots that were missed, and `total_missed` of the
witnesses -/
def updateWitnessMissedBlocks (s : HeadState τ ι) (totalMissed : Nat → Nat)
    (b : ScheduledBlock ι δ) :
    Option (Nat × (Nat → Nat)) :=
  let slot := R.wordSlotAtTime s b.timestamp
  if slot = 0 then none
  else
    let missedBlocks := slot - 1
    some (missedBlocks,
      if missedBlocks < s.currentShuffledWitnesses.length then
        (List.range missedBlocks).foldl (fun total i =>
          (s.wordScheduledWitness (i + 1)).elim total fun w =>
          Function.update total w (total w + 1)) totalMissed
      else totalMissed)

variable {R}

theorem getSlotTime_succ (hnum : R.headBlockNum s ≠ 0) (n : Nat) :
    R.getSlotTime s (n + 1) = R.getSlotTime s 1 + n * R.blockInterval s.rest := by
  simp only [getSlotTime, if_neg hnum, if_neg (succ_ne_zero _)]
  split <;> ring

theorem lt_getSlotTime_one (hnum : R.headBlockNum s ≠ 0) (hinterval : 0 < R.blockInterval s.rest) :
    s.time < R.getSlotTime s 1 := by
  have hround := lt_div_mul_add (a := s.time) hinterval
  have hfirst : s.time / R.blockInterval s.rest * R.blockInterval s.rest + R.blockInterval s.rest ≤
      R.getSlotTime s 1 := by
    simp only [getSlotTime, if_neg hnum, if_neg one_ne_zero]
    split
    · rw [add_mul, one_mul]
      omega
    · rw [one_mul]
  exact hround.trans_le hfirst

theorem wordSlotTime_eq (hinterval : 0 < R.blockInterval s.rest) {n : Nat}
    (hfits : R.getSlotTime s n < 2 ^ 32) : R.wordSlotTime s n = R.getSlotTime s n := by
  have hword : ∀ {a m : Nat}, a + m * R.blockInterval s.rest < 2 ^ 32 →
      (a + m * R.blockInterval s.rest % 2 ^ 32) % 2 ^ 32 = a + m * R.blockInterval s.rest ∧
      m % 2 ^ 32 = m := by
    intro a m h
    have hle := Nat.le_mul_of_pos_right m hinterval
    rw [mod_eq_of_lt (a := m * _) (by omega), mod_eq_of_lt h, mod_eq_of_lt (by omega)]
    exact ⟨rfl, rfl⟩
  unfold wordSlotTime
  unfold getSlotTime at hfits ⊢
  split_ifs at hfits ⊢
  · rfl
  · exact (hword hfits).1
  · rw [(hword hfits).2]
    exact (hword hfits).1
  · exact (hword hfits).1

/-- **The time of a slot and the slot at a time are inverse**, for every head block with a
number, every block interval that is accepted, and as far as the sums fit. A block in a slot
is later than the head. -/
theorem slots_inverse {p : ChainParameters} (hp : p.validate = true)
    (hinterval : R.blockInterval s.rest = p.blockInterval) (hnum : 0 < R.headBlockNum s) :
    (∀ n, 1 ≤ n → R.getSlotTime s n < 2 ^ 32 → R.wordSlotAtTime s (R.wordSlotTime s n) = n) ∧
    (∀ t < 2 ^ 32, R.getSlotTime s (R.wordSlotAtTime s t + 1) < 2 ^ 32 →
      (R.wordSlotAtTime s t = 0 ↔ t < R.wordSlotTime s 1) ∧
      (0 < R.wordSlotAtTime s t → R.wordSlotTime s (R.wordSlotAtTime s t) ≤ t ∧
        t < R.wordSlotTime s (R.wordSlotAtTime s t + 1))) ∧
    ∀ (totalMissed : Nat → Nat) (b : ScheduledBlock ι δ), R.getSlotTime s 1 < 2 ^ 32 →
      (R.updateWitnessMissedBlocks s totalMissed b).isSome → s.time < b.timestamp := by
  have hpos : 0 < R.blockInterval s.rest := by
    simp only [ChainParameters.validate, Bool.and_eq_true, decide_eq_true_eq] at hp
    omega
  have hne : R.headBlockNum s ≠ 0 := pos_iff_ne_zero.1 hnum
  have hsucc := getSlotTime_succ hne
  have hlate := lt_getSlotTime_one hne hpos
  generalize hi : R.blockInterval s.rest = i at *
  have hfirst : ∀ {n}, R.getSlotTime s (n + 1) < 2 ^ 32 →
      R.wordSlotTime s 1 = R.getSlotTime s 1 := by
    intro n hfits
    rw [hsucc n] at hfits
    exact wordSlotTime_eq (hi ▸ hpos) (by omega)
  refine ⟨fun n hn hfits => ?_, fun t ht hfits => ?_, fun totalMissed b hfits hsome => ?_⟩
  · obtain ⟨n, rfl⟩ := Nat.exists_eq_add_of_le' hn
    rw [wordSlotTime_eq (hi ▸ hpos) hfits, wordSlotAtTime, hfirst hfits, hsucc n, if_neg (by omega),
      hi, Nat.add_sub_cancel_left, Nat.mul_div_cancel _ hpos]
    have hle := Nat.le_mul_of_pos_right n hpos
    rw [hsucc n] at hfits
    exact mod_eq_of_lt (by omega)
  · have hslot := hfirst hfits
    by_cases hbefore : t < R.wordSlotTime s 1
    · have hzero : R.wordSlotAtTime s t = 0 := if_pos hbefore
      rw [hzero]
      exact ⟨⟨fun _ => hbefore, fun _ => rfl⟩, fun h => absurd h (lt_irrefl 0)⟩
    · -- `q` whole intervals have passed since the first slot
      obtain ⟨q, hq⟩ : ∃ q, q = (t - R.getSlotTime s 1) / i := ⟨_, rfl⟩
      have hfloor := div_mul_le_self (t - R.getSlotTime s 1) i
      have hceil := lt_div_mul_add (a := t - R.getSlotTime s 1) hpos
      have hle := Nat.le_mul_of_pos_right q hpos
      rw [← hq] at hfloor hceil
      rw [hslot] at hbefore
      have hat : R.wordSlotAtTime s t = q + 1 := by
        rw [wordSlotAtTime, hslot, if_neg hbefore, hi, ← hq]
        exact mod_eq_of_lt (by omega)
      rw [hat] at hfits ⊢
      have hq' : R.getSlotTime s (q + 1) < 2 ^ 32 := by
        rw [hsucc]
        omega
      rw [wordSlotTime_eq (hi ▸ hpos) hfits, wordSlotTime_eq (hi ▸ hpos) hq', hslot, hsucc q,
        hsucc (q + 1), add_mul, one_mul]
      exact ⟨⟨fun h => absurd h (succ_ne_zero q), fun h => absurd h hbefore⟩, fun _ => by omega⟩
  · by_contra hearly
    have hzero : R.wordSlotAtTime s b.timestamp = 0 := by
      refine if_pos ?_
      rw [wordSlotTime_eq (hi ▸ hpos) hfits]
      omega
    rw [updateWitnessMissedBlocks, hzero] at hsome
    cases hsome

/-- One interval later than the last of four blocks, and no slot has been missed. -/
theorem slots_inverse_plain : ∃ s, run plainRules.applyBlock plainGenesis plainChain = some s ∧
    plainRules.wordSlotAtTime s (plainRules.wordSlotTime s 1) = 1 := by
  obtain ⟨s, hs⟩ := isSome_iff_exists.1
    (show (run plainRules.applyBlock plainGenesis plainChain).isSome by decide +kernel)
  have hview : (run plainRules.applyBlock plainGenesis plainChain).map
      (fun s => (plainRules.headBlockNum s, plainRules.getSlotTime s 1)) = some (4, 25) := by
    decide +kernel
  rw [hs, map_some, some.injEq, Prod.mk.injEq] at hview
  refine ⟨s, hs,
    (slots_inverse (s := s) (R := plainRules) (p := {}) (by decide) rfl (by omega)).1 1 le_rfl ?_⟩
  omega

/-! ### The shuffle -/

theorem swapEntries_perm (l : List Nat) (i j : Nat) : (swapEntries l i j).Perm l := by
  unfold swapEntries
  split
  · next a b hi hj =>
    obtain ⟨hlt, rfl⟩ := List.getElem?_eq_some_iff.1 hi
    obtain ⟨hlt', rfl⟩ := List.getElem?_eq_some_iff.1 hj
    exact List.set_set_perm hlt hlt'
  · rfl

theorem shuffleWitnesses_perm (time : Nat) (l : List Nat) : (shuffleWitnesses time l).Perm l := by
  have hfold : ∀ (is : List Nat) (f : Nat → Nat) (m : List Nat),
      (is.foldl (fun m i => swapEntries m i (f i)) m).Perm m := by
    intro is f
    induction is with
    | nil => exact fun m => .refl m
    | cons i is ih => exact fun m => (ih _).trans (swapEntries_perm m i (f i))
  exact hfold _ _ l

/-- What a block does to the schedule, once the witnesses are elected. -/
theorem applyBlock_schedule [DecidableEq ι] {b : ScheduledBlock ι δ}
    (h : R.applyBlock s b = some s') :
    R.headBlockNum s' = R.headBlockNum s + 1 ∧ s'.currentShuffledWitnesses =
      if R.headBlockNum s' % s'.activeWitnesses.length = 0 then
        shuffleWitnesses s'.time s'.activeWitnesses
      else s.currentShuffledWitnesses := by
  obtain ⟨hprev, hhead, -⟩ := applyBlock_eq_some h
  constructor
  · rw [headBlockNum, hhead, R.numFromId_id, hprev]
    rfl
  · obtain ⟨-, h⟩ := ite_none_right_eq_some.1 h
    obtain ⟨rest, -, h⟩ := bind_eq_some_iff.1 h
    obtain ⟨t, ht, h⟩ := bind_eq_some_iff.1 h
    obtain ⟨r, -, h⟩ := bind_eq_some_iff.1 h
    obtain ⟨rest', -, rfl⟩ := map_eq_some_iff.1 h
    obtain rfl := updateGlobalDynamicData_eq_some ht
    rw [updateWitnessSchedule]
    split
    · next hzero => exact (if_pos hzero).symm
    · rfl

/-! ### As many slots as witnesses -/

section Window

variable {l : List Nat} {a : Nat}

/-- Entries in a row, from any position on and around the end. -/
theorem window_perm {position : Nat → Nat}
    (hposition : ∀ i < l.length, position i % l.length = (a + i) % l.length) :
    ((range l.length).map fun i => l[position i % l.length]?).Perm (l.map some) := by
  have hrotate :
      ((range l.length).map fun i => l[position i % l.length]?) = (l.rotate a).map some := by
    refine ext_getElem (by simp) fun i hi _ => ?_
    simp only [length_map, length_range] at hi
    simp only [getElem_map, getElem_range, getElem_rotate, hposition i hi, add_comm a i]
    exact getElem?_eq_getElem _
  rw [hrotate]
  exact (l.rotate_perm a).map some

/-- Positions that go back to zero within a window meet an entry twice, unless the
entries come out even. -/
theorem dvd_of_window_perm (hnodup : l.Nodup) {m : Nat} (ha : a < m) (hwrap : m < a + l.length)
    (hperm : ((range l.length).map fun i => l[(a + i) % m % l.length]?).Perm (l.map some)) :
    l.length ∣ m := by
  set n := l.length with hn
  have hinj := inj_on_of_nodup_map ((hnodup.map (some_injective _)).perm hperm.symm)
  have hpos : 0 < n := by omega
  by_contra hdvd
  obtain ⟨r, hr⟩ : ∃ r, r = (m - 1) % n := ⟨_, rfl⟩
  have hlt : r < n := hr ▸ mod_lt _ hpos
  have hdiv := div_add_mod (m - 1) n
  have hlast : r ≠ n - 1 := by
    intro heq
    refine hdvd ⟨(m - 1) / n + 1, ?_⟩
    rw [mul_add, mul_one]
    omega
  -- the position `p` is the first one after the turn; `v` is met before it and after it
  obtain ⟨p, hp⟩ : ∃ p, a + p = m := ⟨m - a, by omega⟩
  obtain ⟨v, hv⟩ : ∃ v, v = min r (n - p - 1) := ⟨_, rfl⟩
  have hbefore : (a + (p - 1 - (r - v))) % m % n = v := by
    have hnum : a + (p - 1 - (r - v)) = v + n * ((m - 1) / n) := by omega
    rw [mod_eq_of_lt (show _ < m by omega), hnum, add_mul_mod_self_left, mod_eq_of_lt (by omega)]
  have hafter : (a + (p + v)) % m % n = v := by
    rw [← add_assoc, hp, add_mod_left, mod_eq_of_lt (show v < m by omega), mod_eq_of_lt (by omega)]
  have heq := hinj (mem_range.2 (show p - 1 - (r - v) < n by omega))
    (mem_range.2 (show p + v < n by omega)) (by rw [hbefore, hafter])
  omega

end Window

/-- **The schedule is fair.** A shuffle gives the active witnesses in some order. As many slots
in a row as there are witnesses in the schedule have one of each, exactly if the number of a
slot does not go back to zero among them or the witnesses come out even there. And when a block
has left a set of `n` active witnesses, these are the schedule after `n` more blocks, as long as
the set stays the same. -/
theorem witness_schedule_fair [DecidableEq ι] (s : HeadState τ ι) :
    (R.headBlockNum s % s.activeWitnesses.length = 0 →
      (R.updateWitnessSchedule s).currentShuffledWitnesses.Perm s.activeWitnesses) ∧
    (s.currentShuffledWitnesses ≠ [] → s.currentShuffledWitnesses.Nodup → ∀ slot,
      (((List.range s.currentShuffledWitnesses.length).map fun i =>
          s.wordScheduledWitness (slot + i)).Perm (s.currentShuffledWitnesses.map some) ↔
        (s.currentAslot + slot) % 2 ^ 64 + s.currentShuffledWitnesses.length ≤ 2 ^ 64 ∨
          s.currentShuffledWitnesses.length ∣ 2 ^ 64)) ∧
    ∀ {blocks : List (ScheduledBlock ι δ)} {s' : HeadState τ ι}, s.activeWitnesses ≠ [] →
      Along R.applyBlock (fun t b => ∀ t', R.applyBlock t b = some t' →
        t'.activeWitnesses = s.activeWitnesses) s blocks →
      run R.applyBlock s blocks = some s' → s.activeWitnesses.length ≤ blocks.length →
      s'.currentShuffledWitnesses.Perm s.activeWitnesses := by
  refine ⟨fun hzero => ?_, fun hne hnodup slot => ?_, fun {blocks s'} hne halong hrun hlong => ?_⟩
  · rw [updateWitnessSchedule, if_pos hzero]
    exact shuffleWitnesses_perm _ _
  · simp only [HeadState.wordScheduledWitness, ← add_assoc]
    constructor
    · intro hperm
      by_contra hcond
      rw [not_or, not_le] at hcond
      simp only [← mod_add_mod (s.currentAslot + slot)] at hperm
      exact hcond.2 (dvd_of_window_perm hnodup (mod_lt _ (by decide)) hcond.1 hperm)
    · rintro (hfits | hdvd)
      · refine window_perm (a := (s.currentAslot + slot) % 2 ^ 64) fun i hi => ?_
        rw [← mod_add_mod, mod_eq_of_lt (b := 2 ^ 64) (by omega)]
      · refine window_perm (a := s.currentAslot + slot) fun i _ => ?_
        rw [mod_mod_of_dvd _ hdvd]
  · -- either the set is scheduled, or no block since then had a number that `n` divides
    let Inv (t : HeadState τ ι) : Prop := t.currentShuffledWitnesses.Perm s.activeWitnesses ∨
      ∀ j, R.headBlockNum s < j → j ≤ R.headBlockNum t → j % s.activeWitnesses.length ≠ 0
    have hkeep : ∀ {t b t'}, Inv t → (∀ t', R.applyBlock t b = some t' →
        t'.activeWitnesses = s.activeWitnesses) → R.applyBlock t b = some t' → Inv t' := by
      intro t b t' ht hsame hstep
      obtain ⟨hnum, hschedule⟩ := applyBlock_schedule hstep
      rw [hsame t' hstep] at hschedule
      split at hschedule
      · rw [← hsame t' hstep] at hschedule
        left
        rw [hschedule, hsame t' hstep]
        exact shuffleWitnesses_perm _ _
      · next hzero =>
        rcases ht with ht | ht
        · left
          rw [hschedule]
          exact ht
        · right
          intro j hlow hhigh
          rcases lt_or_eq_of_le hhigh with hlt | rfl
          · exact ht j hlow (by omega)
          · exact hzero
    have hcount : ∀ {l : List (ScheduledBlock ι δ)} {t t' : HeadState τ ι},
        run R.applyBlock t l = some t' → R.headBlockNum t' = R.headBlockNum t + l.length := by
      intro l
      induction l with
      | nil =>
        intro t t' h
        cases h
        rfl
      | cons b l ih =>
        intro t t' h
        obtain ⟨t1, h1, h⟩ := bind_eq_some_iff.1 h
        rw [ih h, (applyBlock_schedule h1).1, length_cons]
        omega
    have hstart : Inv s := .inr fun j hlow hhigh => absurd hhigh (not_le.2 hlow)
    rcases invariant_of_along hkeep hstart halong hrun with hperm | hnone
    · exact hperm
    · -- among `n` numbers in a row one is divided by `n`
      have hpos := length_pos_iff.2 hne
      generalize s.activeWitnesses.length = n at *
      have hmod := mod_lt (R.headBlockNum s) hpos
      have hdiv := div_add_mod (R.headBlockNum s) n
      refine absurd ?_ (hnone (n * (R.headBlockNum s / n + 1)) ?_ ?_)
      · exact mul_mod_right n _
      · rw [mul_add]
        omega
      · rw [hcount hrun, mul_add]
        omega

/-- Three witnesses at the start -/
theorem witness_schedule_fair_plain :
    (plainRules.updateWitnessSchedule plainGenesis).currentShuffledWitnesses.Perm [0, 1, 2] ∧
      ((List.range 3).map fun i => plainGenesis.wordScheduledWitness (1 + i)).Perm
      [some 0, some 1, some 2] := by
  have hfair := witness_schedule_fair (R := plainRules) plainGenesis
  exact ⟨hfair.1 rfl, (hfair.2.1 (by decide) (by decide) 1).2 (.inl (by decide))⟩

/-- The last number of a slot and the first two after it: the first witness has two of the three. -/
theorem slot_numbers_wrap : ∃ s : HeadState Unit (List (Nat × Nat)), s.currentShuffledWitnesses =
    [0, 1, 2] ∧
    ((List.range 3).map fun i => s.wordScheduledWitness (1 + i)) = [some 0, some 0, some 1] :=
  ⟨{ plainGenesis with currentAslot := 2 ^ 64 - 2 }, rfl, by decide⟩

end BlockRules

end CrowdwizChain
