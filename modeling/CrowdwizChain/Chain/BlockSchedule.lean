import CrowdwizChain.Chain.ForkDatabase
import Mathlib.Data.List.Sort

/-!
# Block headers, slots, and the last irreversible block

What `apply_block` does with the header of a block: `validate_block_header` with the slots and the
scheduled witnesses of `db_witness_schedule.cpp`, and `update_global_dynamic_data`,
`update_signing_witness` and `update_last_irreversible_block` of `db_update.cpp`. The transactions,
the maintenance and the work at the end of a block are a parameter, `BlockRules`: they read and
write the rest of the state, and a maintenance elects the active witnesses.

A number is irreversible once the witnesses that have confirmed it, each by a later block of its
own, are enough for the threshold. The sizes of the undo and the fork database are set *before* that
number is brought up to date, from the number that the block before has left.
-/

namespace CrowdwizChain

open Option Function

universe u v w

/-- `signed_block` -/
structure ScheduledBlock (ι : Type w) (δ : Type v) where
  previous : ι
  timestamp : Nat
  witness : Nat
  transactions : δ

/-- What a block does apart from its header, and how ids are made. -/
structure BlockRules (τ : Type u) (δ : Type v) (ι : Type w) where
  id : ScheduledBlock ι δ → ι
  /-- `block_header::num_from_id` -/
  numFromId : ι → Nat
  /-- `block_id_type()` -/
  noBlock : ι
  blockInterval : τ → Nat
  maintenanceSkipSlots : τ → Nat
  nextMaintenanceTime : τ → Nat
  /-- the Merkle root of the block, and the signature of its witness -/
  signed : τ → ScheduledBlock ι δ → Bool
  applyTransactions : τ → ScheduledBlock ι δ → Option τ
  /-- `perform_chain_maintenance`, with the active witnesses -/
  performChainMaintenance : τ → List Nat → ScheduledBlock ι δ → Option (τ × List Nat)
  /-- from `create_block_summary` to `update_withdraw_permissions` -/
  finishBlock : τ → ScheduledBlock ι δ → Option τ
  /-- how deep proposals nest that the transactions execute -/
  proposedDepth : τ → ScheduledBlock ι δ → Nat
  /-- how deep proposals nest that `clear_expired_proposals` executes -/
  expiredDepth : τ → ScheduledBlock ι δ → Nat
  numFromId_id : ∀ b, numFromId (id b) = numFromId b.previous + 1
  numFromId_noBlock : numFromId noBlock = 0
  /-- an id is a hash of the block -/
  id_injective : Injective id

/-- The properties of the head that a block reads and writes, and the rest of the state. -/
structure HeadState (τ : Type u) (ι : Type w) where
  headBlockId : ι
  time : Nat
  currentAslot : Nat := 0
  lastIrreversibleBlockNum : Nat := 0
  maintenanceFlag : Bool := false
  activeWitnesses : List Nat
  currentShuffledWitnesses : List Nat
  /-- `last_confirmed_block_num` of each witness -/
  lastConfirmedBlockNum : Nat → Nat := fun _ => 0
  rest : τ

/-- `GRAPHENE_MIN_UNDO_HISTORY` -/
def minUndoHistory : Nat := 10

/-- `GRAPHENE_MAX_UNDO_HISTORY` -/
def maxUndoHistory : Nat := 10000

/-- `GRAPHENE_IRREVERSIBLE_THRESHOLD` -/
def irreversibleThreshold : Nat := 7000

/-! ### The schedule of the witnesses -/

/-- The random number for a position, by which `update_witness_schedule` shuffles. -/
def scheduleRandom (time i : Nat) : UInt64 :=
  let k := (time.toUInt64 <<< 32) + i.toUInt64 * 2685821657736338717
  let k := k ^^^ (k >>> 12)
  let k := k ^^^ (k <<< 25)
  let k := k ^^^ (k >>> 27)
  k * 2685821657736338717

/-- `std::swap` of two entries -/
def swapEntries (l : List Nat) (i j : Nat) : List Nat :=
  match l[i]?, l[j]? with
  | some a, some b => (l.set i b).set j a
  | _, _ => l

/-- The loop of `update_witness_schedule` -/
def shuffleWitnesses (time : Nat) (witnesses : List Nat) : List Nat :=
  (List.range witnesses.length).foldl
    (fun l i => swapEntries l i (i + (scheduleRandom time i).toNat % (witnesses.length - i)))
      witnesses

variable {τ : Type u} {δ : Type v} {ι : Type w} [DecidableEq ι] (R : BlockRules τ δ ι)

namespace BlockRules

/-- `block_header::block_num` -/
def blockNum (b : ScheduledBlock ι δ) : Nat := R.numFromId b.previous + 1

/-- `head_block_num` -/
def headBlockNum (s : HeadState τ ι) : Nat := R.numFromId s.headBlockId

/-- `database::get_slot_time` -/
def getSlotTime (s : HeadState τ ι) (slotNum : Nat) : Nat :=
  let interval := R.blockInterval s.rest
  if slotNum = 0 then 0
  else if R.headBlockNum s = 0 then s.time + slotNum * interval
  else
    s.time / interval * interval +
      (if s.maintenanceFlag then slotNum + R.maintenanceSkipSlots s.rest else slotNum) * interval

/-- `database::get_slot_at_time` -/
def getSlotAtTime (s : HeadState τ ι) (time : Nat) : Nat :=
  if time < R.getSlotTime s 1 then 0
  else (time - R.getSlotTime s 1) / R.blockInterval s.rest + 1

end BlockRules

/-- `database::get_scheduled_witness` -/
def HeadState.getScheduledWitness (s : HeadState τ ι) (slotNum : Nat) : Option Nat :=
  s.currentShuffledWitnesses[(s.currentAslot + slotNum) % s.currentShuffledWitnesses.length]?

namespace BlockRules

/-- `database::update_witness_schedule` -/
def updateWitnessSchedule (s : HeadState τ ι) : HeadState τ ι :=
  if R.headBlockNum s % s.activeWitnesses.length = 0 then
    { s with currentShuffledWitnesses := shuffleWitnesses s.time s.activeWitnesses }
  else s

/-! ### Applying a block -/

/-- `database::validate_block_header`, with the check of the Merkle root before it -/
def validateBlockHeader (s : HeadState τ ι) (b : ScheduledBlock ι δ) : Bool :=
  s.headBlockId = b.previous && s.time < b.timestamp && R.signed s.rest b &&
    0 < R.getSlotAtTime s b.timestamp &&
    s.getScheduledWitness (R.getSlotAtTime s b.timestamp) = some b.witness

/-- The fields that `update_global_dynamic_data` sets, and what it checks after that -/
def updateGlobalDynamicData (s : HeadState τ ι) (b : ScheduledBlock ι δ) : Option (HeadState τ ι) :=
  -- the slots that were missed, and the one of the block
  let s' := { s with
    headBlockId := R.id b, time := b.timestamp,
    currentAslot := s.currentAslot + R.getSlotAtTime s b.timestamp }
  if R.blockNum b - s.lastIrreversibleBlockNum < maxUndoHistory then some s' else none

/-- `database::update_signing_witness` -/
def updateSigningWitness (s : HeadState τ ι) (b : ScheduledBlock ι δ) : HeadState τ ι :=
  { s with lastConfirmedBlockNum := update s.lastConfirmedBlockNum b.witness (R.blockNum b) }

end BlockRules

/-- The number that `update_last_irreversible_block` finds among those of the active witnesses -/
def HeadState.confirmedBlockNum (s : HeadState τ ι) : Option Nat :=
  ((s.activeWitnesses.map s.lastConfirmedBlockNum).insertionSort (· ≤ ·))[
    (10000 - irreversibleThreshold) * s.activeWitnesses.length / 10000]?

/-- `database::update_last_irreversible_block` -/
def HeadState.updateLastIrreversibleBlock (s : HeadState τ ι) : HeadState τ ι :=
  { s with
    lastIrreversibleBlockNum := max s.lastIrreversibleBlockNum (s.confirmedBlockNum.getD 0) }

namespace BlockRules

/-- `database::apply_block`, `none` if it throws -/
def applyBlock (s : HeadState τ ι) (b : ScheduledBlock ι δ) : Option (HeadState τ ι) :=
  let maintNeeded := R.nextMaintenanceTime s.rest ≤ b.timestamp
  if R.validateBlockHeader s b then
    (R.applyTransactions s.rest b).bind fun rest =>
      (R.updateGlobalDynamicData s b).bind fun s =>
        let s := (R.updateSigningWitness s b).updateLastIrreversibleBlock
        (if maintNeeded then R.performChainMaintenance rest s.activeWitnesses b
          else some (rest, s.activeWitnesses)).bind fun r =>
            (R.finishBlock r.1 b).map fun rest =>
              R.updateWitnessSchedule
                { s with activeWitnesses := r.2, rest := rest, maintenanceFlag := maintNeeded }
  else none

/-- The size that `update_global_dynamic_data` sets for the undo and the fork database, if
`apply_block` gets that far -/
def maxSize (s : HeadState τ ι) (b : ScheduledBlock ι δ) : Option Nat :=
  if R.validateBlockHeader s b && (R.applyTransactions s.rest b).isSome &&
      (R.updateGlobalDynamicData s b).isSome then
    some (R.blockNum b - s.lastIrreversibleBlockNum + 1)
  else none

/-- The size of the undo database after proposals have been executed within each other:
`push_proposal` makes room for its session. -/
def pushProposals (depth size maxSize : Nat) : Nat :=
  if depth = 0 then maxSize else max maxSize (size + depth)

/-- The size of the undo database after `apply_block`, with as many sessions on its stack -/
def undoMaxSize (s : HeadState τ ι) (b : ScheduledBlock ι δ) (size old : Nat) : Nat :=
  match R.maxSize s b with
  | none => pushProposals (R.proposedDepth s.rest b) size old
  | some new => pushProposals (R.expiredDepth s.rest b) size new

variable {R} {s s' : HeadState τ ι} {b : ScheduledBlock ι δ}

omit [DecidableEq ι] in
theorem updateGlobalDynamicData_eq_some {t : HeadState τ ι}
    (h : R.updateGlobalDynamicData s b = some t) :
    t = { s with
      headBlockId := R.id b, time := b.timestamp,
      currentAslot := s.currentAslot + R.getSlotAtTime s b.timestamp } := by
  obtain ⟨-, h⟩ := ite_none_right_eq_some.1 h
  exact (some.inj h).symm

/-- What a block that is applied does to the head, to the confirmations and to the last irreversible
number. -/
theorem applyBlock_eq_some (h : R.applyBlock s b = some s') :
    b.previous = s.headBlockId ∧ s'.headBlockId = R.id b ∧
      s'.lastConfirmedBlockNum = update s.lastConfirmedBlockNum b.witness (R.blockNum b) ∧
      s'.lastIrreversibleBlockNum = max s.lastIrreversibleBlockNum
        ((R.updateSigningWitness s b).confirmedBlockNum.getD 0) := by
  obtain ⟨hvalid, h⟩ := ite_none_right_eq_some.1 h
  obtain ⟨rest, -, h⟩ := bind_eq_some_iff.1 h
  obtain ⟨t, ht, h⟩ := bind_eq_some_iff.1 h
  obtain ⟨r, -, h⟩ := bind_eq_some_iff.1 h
  obtain ⟨rest', -, rfl⟩ := map_eq_some_iff.1 h
  obtain rfl := updateGlobalDynamicData_eq_some ht
  simp only [validateBlockHeader, Bool.and_eq_true, decide_eq_true_eq] at hvalid
  refine ⟨hvalid.1.1.1.1.symm, ?_, ?_, ?_⟩
  all_goals
    rw [updateWitnessSchedule]
    split <;> rfl

variable (R)

/-- The chain as a ledger: its states, its blocks and `apply_block`. -/
def ledger : Ledger (HeadState τ ι) (ScheduledBlock ι δ) ι where
  id := R.id
  previous := ScheduledBlock.previous
  numFromId := R.numFromId
  noBlock := R.noBlock
  headBlockId := HeadState.headBlockId
  applyBlock := R.applyBlock
  maxSize := R.maxSize
  numFromId_id := R.numFromId_id
  previous_of_apply h := (applyBlock_eq_some h).1
  head_of_apply h := (applyBlock_eq_some h).2.1

variable {R}

/-! ### The last irreversible number -/

/-- **The last irreversible number does not go down** along a chain. -/
theorem lastIrreversibleBlockNum_mono (h : R.applyBlock s b = some s') :
    s.lastIrreversibleBlockNum ≤ s'.lastIrreversibleBlockNum := by
  obtain ⟨-, -, -, hlib⟩ := applyBlock_eq_some h
  rw [hlib]
  exact Nat.le_max_left _ _

end BlockRules

/-- No witness has confirmed a block above the head, and none is irreversible. -/
structure HeadState.Behind (R : BlockRules τ δ ι) (s : HeadState τ ι) : Prop where
  confirmed : ∀ w, s.lastConfirmedBlockNum w ≤ R.headBlockNum s
  irreversible : s.lastIrreversibleBlockNum ≤ R.headBlockNum s

omit [DecidableEq ι] in
theorem HeadState.confirmedBlockNum_le {s : HeadState τ ι} {k : Nat}
    (h : ∀ w, s.lastConfirmedBlockNum w ≤ k) : s.confirmedBlockNum.getD 0 ≤ k := by
  rw [confirmedBlockNum]
  cases hget : ((s.activeWitnesses.map s.lastConfirmedBlockNum).insertionSort (· ≤ ·))[
    (10000 - irreversibleThreshold) * s.activeWitnesses.length / 10000]? with
  | none => exact Nat.zero_le k
  | some num =>
    have hmem := List.mem_of_getElem? hget
    rw [List.mem_insertionSort] at hmem
    obtain ⟨w, -, rfl⟩ := List.mem_map.1 hmem
    exact h w

namespace BlockRules

variable {R} {s s' : HeadState τ ι} {b : ScheduledBlock ι δ}

theorem behind_applyBlock (hs : s.Behind R) (h : R.applyBlock s b = some s') : s'.Behind R := by
  obtain ⟨hprev, hhead, hconf, hlib⟩ := applyBlock_eq_some h
  have hnum : R.headBlockNum s' = R.blockNum b := by
    rw [headBlockNum, hhead, R.numFromId_id]
    rfl
  have hlow : R.headBlockNum s ≤ R.blockNum b := by
    rw [blockNum, hprev]
    exact Nat.le_succ _
  have hall : ∀ w, update s.lastConfirmedBlockNum b.witness (R.blockNum b) w ≤ R.blockNum b := by
    intro w
    rcases eq_or_ne w b.witness with rfl | hne
    · rw [update_self]
    · rw [update_of_ne hne]
      exact Nat.le_trans (hs.confirmed w) hlow
  constructor
  · rw [hnum, hconf]
    exact hall
  · rw [hnum, hlib]
    exact Nat.max_le.2 ⟨Nat.le_trans hs.irreversible hlow, HeadState.confirmedBlockNum_le hall⟩

end BlockRules

end CrowdwizChain
