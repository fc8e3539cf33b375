import CrowdwizChain.Lib.Run
import CrowdwizChain.Chain.Types
import Mathlib.Data.List.Sort
import Mathlib.Data.List.TakeWhile

/-!
# No transaction twice

`database::_apply_transaction`, `database::_apply_block` and `database::clear_expired_transactions`,
with the index of recent transactions (`transaction_index`) in the order of expirations. All else
that they read and change is the state of type `ω`, and is given by a `TransactionSystem`.

A transaction is looked up in the index before it is applied, and is not in it any more once the
time of the head block is past its expiration. From then on it fails the expiration check, which
compares with the time of the head block as well: the two checks leave no gap. Block 1 skips the
expiration check, but not the look-up, and no transaction was removed before it.
-/

namespace CrowdwizChain

open Option List Transition

universe u v w x

/-- The part of the chain's state that replays depend on, and the rest. -/
structure ChainState (ω : Type u) (τ : Type v) where
  world : ω
  /-- `transaction_index`, `by_expiration` -/
  dedupe : List τ
  headBlockNum : Nat
  headBlockTime : Nat

/-- The skip flags that `_apply_transaction` reads. -/
structure SkipFlags where
  skipTransactionSignatures : Bool := false
  skipTransactionDupeCheck : Bool := false
  skipTaposCheck : Bool := false
deriving DecidableEq

/-- A block as `_apply_block` gets it, with the skip flags for it. -/
structure SignedBlock (τ : Type v) (β : Type w) where
  header : β
  timestamp : Nat
  transactions : List τ
  skip : SkipFlags := {}
deriving DecidableEq

/-- What transactions and blocks do besides. The id is a digest of the transaction, of which the
expiration is a part. -/
structure TransactionSystem (ω : Type u) (τ : Type v) (β : Type w) (ι : Type x) where
  id : τ → ι
  expiration : τ → Nat
  validate : τ → Bool
  verifyAuthority : ChainState ω τ → τ → Bool
  /-- the prefix of the reference block is the one in its block summary -/
  tapos : ChainState ω τ → τ → Bool
  maximumTimeUntilExpiration : ω → Nat
  applyOperations : ChainState ω τ → τ → Option ω
  /-- the checks of the block apart from that of its time -/
  validateBlock : ChainState ω τ → SignedBlock τ β → Bool
  /-- what is done after the transactions -/
  finishBlock : ChainState ω τ → SignedBlock τ β → Option ω
  expiration_of_id : ∀ {t t' : τ}, id t = id t' → expiration t = expiration t'

namespace TransactionSystem

variable {ω : Type u} {τ : Type v} {β : Type w} {ι : Type x} [DecidableEq ι]
  (S : TransactionSystem ω τ β ι)

/-- The expiration check of `_apply_transaction` -/
def expirationCheck (s : ChainState ω τ) (t : τ) : Bool :=
  S.expiration t ≤ timePointSec s.headBlockTime (S.maximumTimeUntilExpiration s.world) &&
    s.headBlockTime ≤ S.expiration t

/-- `database::_apply_transaction` -/
def applyTransaction (skip : SkipFlags) (s : ChainState ω τ) (t : τ) : Option (ChainState ω τ) :=
  if S.validate t ∧ (skip.skipTransactionDupeCheck = false → ∀ y ∈ s.dedupe, S.id y ≠ S.id t) ∧
      (skip.skipTransactionSignatures = false → S.verifyAuthority s t) ∧
      (0 < s.headBlockNum → (skip.skipTaposCheck = false → S.tapos s t) ∧
        S.expirationCheck s t) then
    let dedupe :=
      if skip.skipTransactionDupeCheck then s.dedupe
      else s.dedupe.orderedInsert (fun a b => S.expiration a < S.expiration b) t
    (S.applyOperations { s with dedupe := dedupe } t).map fun world =>
      { s with world := world, dedupe := dedupe }
  else none

/-- `database::clear_expired_transactions` -/
def clearExpiredTransactions (s : ChainState ω τ) : ChainState ω τ :=
  { s with dedupe := s.dedupe.dropWhile fun t => S.expiration t < s.headBlockTime }

/-- `database::_apply_block`. What is done between the transactions and the end of the block does
not look at the index of transactions. -/
def applyBlock (s : ChainState ω τ) (b : SignedBlock τ β) : Option (ChainState ω τ) :=
  if S.validateBlock s b ∧ s.headBlockTime < b.timestamp then
    (Transition.run (S.applyTransaction b.skip) s b.transactions).bind fun s =>
      (S.finishBlock s b).map fun world =>
        S.clearExpiredTransactions
          { s with
            world := world, headBlockNum := s.headBlockNum + 1, headBlockTime := b.timestamp }
  else none

variable {S}

/-! ### Transactions that cannot be applied -/

variable (S) in
/-- Transactions with this id are either found in the index or expired. -/
def Barred (s : ChainState ω τ) (i : ι) : Prop :=
  (∃ y ∈ s.dedupe, S.id y = i) ∨ 0 < s.headBlockNum ∧ ∀ t, S.id t = i →
    S.expiration t < s.headBlockTime

variable {s : ChainState ω τ}

omit [DecidableEq ι] in
theorem expirationCheck_eq_false {t : τ} (h : S.expiration t < s.headBlockTime) :
    S.expirationCheck s t = false := by
  rw [expirationCheck, Bool.and_eq_false_iff]
  exact .inr (decide_eq_false (Nat.not_le.2 h))

variable {s s' : ChainState ω τ} {skip : SkipFlags}

/-- What a transaction that is applied has passed, and what it does to the index. -/
theorem applyTransaction_eq_some {t : τ}
    (h : S.applyTransaction skip s t = some s') (hskip : skip.skipTransactionDupeCheck = false) :
    (∀ y ∈ s.dedupe, S.id y ≠ S.id t) ∧ (0 < s.headBlockNum → S.expirationCheck s t) ∧
      (∀ y, y ∈ s'.dedupe ↔ y = t ∨ y ∈ s.dedupe) ∧ s'.headBlockNum = s.headBlockNum ∧
      s'.headBlockTime = s.headBlockTime := by
  rw [applyTransaction, hskip] at h
  split at h
  · next hcheck =>
    obtain ⟨world, -, rfl⟩ := map_eq_some_iff.1 h
    refine ⟨hcheck.2.1 rfl, fun hnum => (hcheck.2.2.2 hnum).2, fun y => ?_, rfl, rfl⟩
    exact List.mem_orderedInsert _
  · cases h

theorem applyTransaction_of_barred {t : τ}
    (hskip : skip.skipTransactionDupeCheck = false) (h : S.Barred s (S.id t)) :
    S.applyTransaction skip s t = none := by
  cases happly : S.applyTransaction skip s t with
  | none => rfl
  | some s' =>
    obtain ⟨hdupe, hexpire, -⟩ := applyTransaction_eq_some happly hskip
    rcases h with ⟨y, hy, hid⟩ | ⟨hnum, hexpired⟩
    · exact absurd hid (hdupe y hy)
    · rw [expirationCheck_eq_false (hexpired t rfl)] at hexpire
      cases hexpire hnum

theorem applyTransaction_spends {t : τ}
    (hskip : skip.skipTransactionDupeCheck = false) (h : S.applyTransaction skip s t = some s') :
    Spends S.Barred s [S.id t] s' := by
  obtain ⟨-, -, hmem, hnum, htime⟩ := applyTransaction_eq_some h hskip
  constructor
  · rintro i (⟨y, hy, hid⟩ | ⟨hpos, hexpired⟩)
    · exact .inl ⟨y, (hmem y).2 (.inr hy), hid⟩
    · refine .inr ⟨hnum ▸ hpos, ?_⟩
      rwa [htime]
  · exact nodup_singleton _
  · rintro i hi hbarred
    obtain rfl := mem_singleton.1 hi
    rw [applyTransaction_of_barred hskip hbarred] at h
    cases h
  · rintro i hi
    obtain rfl := mem_singleton.1 hi
    exact .inl ⟨t, (hmem t).2 (.inl rfl), rfl⟩

omit [DecidableEq ι] in
theorem expired_of_cleared {t : τ} (h : t ∈ s.dedupe)
    (hout : t ∉ (S.clearExpiredTransactions s).dedupe) : S.expiration t < s.headBlockTime := by
  have hsplit :=
    takeWhile_append_dropWhile (p := fun t => decide (S.expiration t < s.headBlockTime))
    (l := s.dedupe)
  rw [← hsplit] at h
  rcases mem_append.1 h with h | h
  · have hexpired := mem_takeWhile_imp (p := fun t => decide (S.expiration t < s.headBlockTime)) h
    exact of_decide_eq_true hexpired
  · exact absurd h hout

omit [DecidableEq ι] in
/-- What was barred stays so when a block is over. -/
theorem Barred.finish {i : ι} (h : S.Barred s i) (world : ω) {time : Nat}
    (htime : s.headBlockTime < time) :
    S.Barred (S.clearExpiredTransactions
      { s with world := world, headBlockNum := s.headBlockNum + 1, headBlockTime := time }) i := by
  rcases h with ⟨y, hy, rfl⟩ | ⟨-, hexpired⟩
  · by_cases hkept : y ∈ (S.clearExpiredTransactions
        { s with world := world, headBlockNum := s.headBlockNum + 1, headBlockTime := time }).dedupe
    · exact .inl ⟨y, hkept, rfl⟩
    · -- taken out of the index, as it is expired at the new time
      refine .inr ⟨Nat.succ_pos _, fun t hid => ?_⟩
      rw [S.expiration_of_id hid]
      exact expired_of_cleared
        (s := { s with world := world, headBlockNum := _, headBlockTime := time }) hy hkept
  · exact .inr ⟨Nat.succ_pos _, fun t hid => (hexpired t hid).trans htime⟩

theorem transactions_headBlockTime {l : List τ} (hskip : skip.skipTransactionDupeCheck = false)
    (h : run (S.applyTransaction skip) s l = some s') : s'.headBlockTime = s.headBlockTime := by
  have hstep : ∀ {t t' : ChainState ω τ} {a}, t.headBlockTime = s.headBlockTime →
      S.applyTransaction skip t a = some t' → t'.headBlockTime = s.headBlockTime := by
    intro t t' a ht happly
    obtain ⟨-, -, -, -, htime⟩ := applyTransaction_eq_some happly hskip
    exact htime.trans ht
  exact invariant hstep rfl h

theorem applyBlock_spends {b : SignedBlock τ β}
    (hskip : b.skip.skipTransactionDupeCheck = false) (h : S.applyBlock s b = some s') :
    Spends S.Barred s (b.transactions.map S.id) s' := by
  obtain ⟨hcheck, h⟩ := ite_none_right_eq_some.1 h
  obtain ⟨t, hrun, h⟩ := bind_eq_some_iff.1 h
  obtain ⟨world, -, rfl⟩ := map_eq_some_iff.1 h
  have hspends : Spends S.Barred s (b.transactions.flatMap fun t => [S.id t]) t :=
    run_spends (fun t _ ht => applyTransaction_spends hskip ht) hrun
  rw [← map_eq_flatMap] at hspends
  have htime : t.headBlockTime < b.timestamp := by
    rw [transactions_headBlockTime hskip hrun]
    exact hcheck.2
  exact ⟨fun i hi => (hspends.mono i hi).finish world htime, hspends.nodup, hspends.fresh,
    fun i hi => (hspends.barred i hi).finish world htime⟩

/-- **No replay.** From any state and for any times of blocks, blocks that are applied with the
look-up in the index have each transaction id at most once. A transaction with one of these ids
cannot be applied after them; and one that was in the index and is not any more does not pass
the expiration check. -/
theorem no_replay {s s' : ChainState ω τ} {bs : List (SignedBlock τ β)}
    (hskip : ∀ b ∈ bs, b.skip.skipTransactionDupeCheck = false)
    (hrun : Transition.run S.applyBlock s bs = some s') :
    (bs.flatMap fun b => b.transactions.map S.id).Nodup ∧
      (∀ b ∈ bs, ∀ t ∈ b.transactions, ∀ t', S.id t' = S.id t → ∀ skip : SkipFlags,
        skip.skipTransactionDupeCheck = false → S.applyTransaction skip s' t' = none) ∧
      ∀ t ∈ s.dedupe, (∀ y ∈ s'.dedupe, S.id y ≠ S.id t) → ∀ t', S.id t' = S.id t →
        0 < s'.headBlockNum ∧ S.expirationCheck s' t' = false := by
  have hspends := run_spends (fun b hb h => applyBlock_spends (hskip b hb) h) hrun
  refine ⟨hspends.nodup, ?_, ?_⟩
  · intro b hb t ht t' hid skip hdupe
    refine applyTransaction_of_barred hdupe (hspends.barred _ ?_)
    rw [hid]
    exact List.mem_flatMap.2 ⟨b, hb, List.mem_map_of_mem ht⟩
  · intro t ht hout t' hid
    rcases hspends.mono (S.id t) (.inl ⟨t, ht, rfl⟩) with ⟨y, hy, hyid⟩ | ⟨hnum, hexpired⟩
    · exact absurd hyid (hout y hy)
    · exact ⟨hnum, expirationCheck_eq_false (hexpired t' hid)⟩

/-- Transactions by a number and an expiration, that do nothing. -/
def idleTransactions : TransactionSystem Unit (Nat × Nat) Unit (Nat × Nat) where
  id t := t
  expiration t := t.2
  validate _ := true
  verifyAuthority _ _ := true
  tapos _ _ := true
  maximumTimeUntilExpiration _ := 100
  applyOperations _ _ := some ()
  validateBlock _ _ := true
  finishBlock _ _ := some ()
  expiration_of_id h := congrArg Prod.snd h

/-- A transaction is applied in the last block that it can be, and leaves the index
with the next one. -/
theorem no_replay_at_expiration : ∃ s', Transition.run idleTransactions.applyBlock ⟨(), [], 0, 10⟩
      [⟨(), 20, [(0, 0)], {}⟩, ⟨(), 25, [(1, 20), (2, 30)], {}⟩, ⟨(), 30, [], {}⟩] = some s' ∧
    s'.dedupe = [(2, 30)] ∧ idleTransactions.applyTransaction {} s' (1, 20) = none := by
  refine ⟨_, (some_get (by decide)).symm, by decide, ?_⟩
  exact (no_replay (S := idleTransactions) (by decide) (some_get (by decide)).symm).2.1
    ⟨(), 25, [(1, 20), (2, 30)], {}⟩ (by decide) (1, 20) (by decide) _ rfl {} rfl

end TransactionSystem

end CrowdwizChain
