import Mathlib.Tactic.IntervalCases
import CrowdwizChain.Chain.FlipcoinSolvency

/-!
# What decides a flip

A called bet is decided by one hexadecimal digit of the id of the head block. The first eight
digits of an id are the number of the block, which everybody knows beforehand; the others are those
of a hash. The nonce of the bet says which digit is taken: the source adds eight to it, which is
meant to skip the number.

The sum is kept in eight bits. The nonces from 248 to 255 lead back to the number of the block, so
that who made the bet can know its outcome. All other nonces decide by the hash: two ids that differ
in the number of the block alone give the same winner.
-/

namespace CrowdwizChain

open Option List

/-- The digits of a number, most significant first, in a field of the given width. -/
def hexDigits : Nat → Nat → List Nat
  | 0, _ => []
  | width + 1, n => hexDigits width (n / 16) ++ [n % 16]

/-- `signed_block_header::id`: the digits of a hash, the first four bytes replaced by
the number of the block. -/
def blockId (num : Nat) (hash : List Nat) : List Nat := hexDigits 8 num ++ (hash.take 40).drop 8

/-- Two ids that differ in the first four bytes alone. -/
structure SameHash (id id' : List Nat) : Prop where
  length : id.length = 40
  length' : id'.length = 40
  drop : id.drop 8 = id'.drop 8

theorem length_hexDigits (width n : Nat) : (hexDigits width n).length = width := by
  induction width generalizing n with
  | zero => rfl
  | succ width ih => rw [hexDigits, length_append, ih, length_singleton]

/-- Blocks of the same hash have ids that differ in the number of the block alone. -/
theorem sameHash_blockId (num num' : Nat) {hash : List Nat} (h : 40 ≤ hash.length) :
    SameHash (blockId num hash) (blockId num' hash) := by
  have hlength : ∀ n, (blockId n hash).length = 40 := by
    intro n
    rw [blockId, length_append, length_hexDigits, length_drop, length_take]
    omega
  have hdrop : ∀ n, (blockId n hash).drop 8 = (hash.take 40).drop 8 := by
    intro n
    rw [blockId, List.drop_append_of_le_length (by rw [length_hexDigits]), List.drop_of_length_le
      (by rw [length_hexDigits]), nil_append]
  exact ⟨hlength num, hlength num', (hdrop num).trans (hdrop num').symm⟩

/-- The winner of a bet, if the entry says who won it. -/
def JournalEntry.winnerFor (id : Nat) : JournalEntry → Option AccountId
  | .flipcoinWin id' winner _ _ => if id' = id then some winner else none
  | _ => none

namespace Database

/-- Who has won a bet, by the last entry on it. -/
def winnerOf (db : Database) (id : Nat) : Option AccountId :=
  db.journal.findSome? (JournalEntry.winnerFor id)

variable {i : Nat}

theorem winnerOf_eq_filter (db : Database) (id : Nat) : db.winnerOf id =
      (db.journal.filter JournalEntry.isFlipcoin).findSome? (JournalEntry.winnerFor id) := by
  rw [winnerOf]
  induction db.journal with
  | nil => rfl
  | cons e l ih =>
    rw [List.findSome?_cons, filter_cons, ih]
    cases e <;> rfl

variable {db db' : Database} {id : Nat} {f : Flipcoin}

/-! ### One settlement -/

/-- The entries on bets of a settlement, by the side of the coin. -/
def settlementEntries (id : Nat) (f : Flipcoin) (heads : Bool) : List JournalEntry :=
  if f.status = 0 then [.flipcoinCancel id f.bettor f.bet]
  else f.caller.elim [] fun caller =>
    let (winner, looser) := if heads then (f.bettor, caller) else (caller, f.bettor)
    [.flipcoinLoose id looser f.bet, .flipcoinWin id winner (flipPrize f) (flipReferralPrize f)]

/-- **The digit alone decides a settlement**: the entries on bets that it writes follow from
the side of the coin. -/
theorem settleFlipcoin_entries (h : db.settleFlipcoin id f = some db') :
    ∃ heads, db.flipHeads f = some heads ∧ db'.headBlockId = db.headBlockId ∧
      db'.journal.filter JournalEntry.isFlipcoin =
        settlementEntries id f heads ++ db.journal.filter JournalEntry.isFlipcoin := by
  obtain ⟨heads, hheads, ⟨hstatus, h⟩ | ⟨hstatus, caller, hcaller, h⟩⟩ := settleFlipcoin_cases h
  · obtain ⟨db₁, h1, rfl⟩ := map_eq_some_iff.1 h
    obtain ⟨m, -, rfl⟩ := adjustBalance_eq_some h1
    refine ⟨heads, hheads, rfl, ?_⟩
    rw [settlementEntries, if_pos hstatus]
    rfl
  · obtain ⟨-, -, hid, hjournal⟩ := flipFlipcoin_frame h
    refine ⟨heads, hheads, hid, ?_⟩
    rw [settlementEntries, if_neg hstatus, hcaller]
    cases heads <;> exact hjournal

theorem settlementEntries_winnerFor_ne (hne : i ≠ id) (heads : Bool) :
    (settlementEntries id f heads).findSome? (JournalEntry.winnerFor i) = none := by
  rw [settlementEntries]
  split
  · rfl
  · cases f.caller with
    | none => rfl
    | some caller => simp [JournalEntry.winnerFor, Ne.symm hne]

/-- A nonce below 248 takes a digit of the hash. -/
theorem flipHeads_eq_of_sameHash (hnonce : f.nonce < 248)
    (h : SameHash db.headBlockId db'.headBlockId) :
    db.flipHeads f = db'.flipHeads f := by
  have hindex : 8 ≤ min ((8 + f.nonce) % 256) 39 := by omega
  have hdigit : ∀ l : List Nat, l[min ((8 + f.nonce) % 256) 39]? =
      (l.drop 8)[min ((8 + f.nonce) % 256) 39 - 8]? := by
    intro l
    rw [List.getElem?_drop, Nat.add_sub_of_le hindex]
  rw [flipHeads, flipHeads, hdigit, hdigit, h.drop]

/-! ### Two runs side by side -/

/-- Two chains with the same bets and blocks of the same hash, and the same winner of
one bet so far. -/
structure SameFlips (id : Nat) (db db' : Database) : Prop where
  flipcoins : db.flipcoins = db'.flipcoins
  headBlockTime : db.headBlockTime = db'.headBlockTime
  headBlockId : SameHash db.headBlockId db'.headBlockId
  winner : db.winnerOf id = db'.winnerOf id

variable {db₁ db₁' db₂ db₂' : Database}

theorem SameFlips.settle (h : SameFlips i db₁ db₂) (hnonce : id = i → f.nonce < 248)
    (h1 : db₁.settleFlipcoin id f = some db₁') (h2 : db₂.settleFlipcoin id f = some db₂') :
    SameFlips i db₁' db₂' := by
  obtain ⟨hflipcoins1, htime1, -⟩ := settleFlipcoin_eq_some h1
  obtain ⟨hflipcoins2, htime2, -⟩ := settleFlipcoin_eq_some h2
  obtain ⟨heads1, hheads1, hid1, hjournal1⟩ := settleFlipcoin_entries h1
  obtain ⟨heads2, hheads2, hid2, hjournal2⟩ := settleFlipcoin_entries h2
  refine ⟨?_, ?_, ?_, ?_⟩
  · rw [hflipcoins1, hflipcoins2, h.flipcoins]
  · rw [htime1, htime2, h.headBlockTime]
  · rw [hid1, hid2]
    exact h.headBlockId
  · have hwinner := h.winner
    rw [winnerOf_eq_filter, winnerOf_eq_filter db₂] at hwinner
    rw [winnerOf_eq_filter, winnerOf_eq_filter db₂', hjournal1, hjournal2, List.findSome?_append,
      List.findSome?_append, hwinner]
    by_cases hi : id = i
    · -- the bet in question: the digit is the same one on both sides
      have hsame := flipHeads_eq_of_sameHash (hnonce hi) h.headBlockId
      rw [hheads1, hheads2] at hsame
      rw [some.inj hsame]
    · rw [settlementEntries_winnerFor_ne (Ne.symm hi), settlementEntries_winnerFor_ne (Ne.symm hi)]

/-- **The loop on both sides**: both take the same bets in the same order. -/
theorem SameFlips.proceedBetsLoop {n : Nat} (h : SameFlips i db₁ db₂)
    (hnonce : ∀ f, db₁.flipcoins.find i = some f → f.nonce < 248)
    (h1 : proceedBetsLoop n db₁ = some db₁') (h2 : proceedBetsLoop n db₂ = some db₂') :
    SameFlips i db₁' db₂' := by
  induction n generalizing db₁ db₂ with
  | zero =>
    cases h1
    cases h2
    exact h
  | succ n ih =>
    have hfirst : db₂.firstFlipcoin = db₁.firstFlipcoin := by
      rw [firstFlipcoin, firstFlipcoin, h.flipcoins]
    rw [Database.proceedBetsLoop] at h1 h2
    rw [hfirst, ← h.headBlockTime] at h2
    cases he : db₁.firstFlipcoin with
    | none =>
      rw [he] at h1 h2
      cases h1
      cases h2
      exact h
    | some e =>
      rw [he] at h1 h2
      dsimp only at h1 h2
      split at h1
      · next hdue =>
        rw [if_pos hdue] at h2
        obtain ⟨db3, hsettle1, h1⟩ := bind_eq_some_iff.1 h1
        obtain ⟨db4, hsettle2, h2⟩ := bind_eq_some_iff.1 h2
        have hrow := FlipcoinSystem.find_firstFlipcoin he
        refine ih (h.settle ?_ hsettle1 hsettle2) ?_ h1 h2
        · intro hi
          exact hnonce e.2 (hi ▸ hrow)
        · intro f hf
          rw [(settleFlipcoin_eq_some hsettle1).1] at hf
          exact hnonce f (Table.find_of_remove hf)
      · next hdue =>
        rw [if_neg hdue] at h2
        cases h1
        cases h2
        exact h

/-! ### The nonces that decide by the hash -/

/-- A chain with a called bet of the given nonce, and a head block of the given number
with a hash of zeros. -/
def calledBet (nonce num : Nat) : Database :=
  let db := Database.start hardforkCwd5Time [{ referrer := 0 }, { referrer := 0 },
    { referrer := 0 }] 1000
  { db with
    parameters := { rootAccount := 0 }
    headBlockId := blockId num (List.replicate 56 0)
    flipcoins := db.flipcoins.create
      { bettor := 1, caller := some 2, bet := ⟨100, 0⟩, nonce, expiration := 0, status := 1 } }

/-- The bet of `calledBet` is settled, and its winner follows from a digit of the number of the
block if the nonce is one of the last eight. -/
theorem proceedBets_calledBet {nonce : Nat} (hnonce : nonce < 256) (hlast : 248 ≤ nonce) :
    (∃ db₁, (calledBet nonce 0).proceedBets = some db₁ ∧ db₁.winnerOf 0 = some 1) ∧
      ∃ db₂, (calledBet nonce 0x11111111).proceedBets = some db₂ ∧ db₂.winnerOf 0 = some 2 := by
  interval_cases nonce
  all_goals
    exact ⟨⟨_, (some_get (by decide +kernel)).symm, by decide +kernel⟩,
      ⟨_, (some_get (by decide +kernel)).symm, by decide +kernel⟩⟩

/-- **The number of the block does not decide a flip exactly if the nonce is below 248.** For such a
nonce, settling the bets with two head blocks whose ids differ in the first four bytes alone gives
the bet the same winner, whatever other bets there are. -/
theorem flip_ignores_block_number_iff (nonce : Nat) (hnonce : nonce < 256) :
    (∀ (db : Database) (blockId : List Nat) (id : Nat) (f : Flipcoin) (db₁ db₂ : Database),
      SameHash db.headBlockId blockId → db.flipcoins.find id = some f → f.nonce = nonce →
      db.proceedBets = some db₁ → { db with headBlockId := blockId }.proceedBets = some db₂ →
      db₁.winnerOf id = db₂.winnerOf id) ↔ nonce < 248 := by
  constructor
  · intro hsame
    by_contra hlast
    obtain ⟨⟨db₁, h1, hwinner1⟩, db₂, h2, hwinner2⟩ := proceedBets_calledBet hnonce (not_lt.1 hlast)
    have heq := hsame (calledBet nonce 0) _ 0 _ db₁ db₂
      (sameHash_blockId 0 0x11111111 (by decide)) (Table.find_create_self _) rfl h1 h2
    rw [hwinner1, hwinner2] at heq
    exact absurd heq (by decide)
  · intro hlow db blockId id f db₁ db₂ hhash hf hnonce h1 h2
    have hstart : SameFlips id db { db with headBlockId := blockId } := ⟨rfl, rfl, hhash, rfl⟩
    refine (hstart.proceedBetsLoop ?_ h1 h2).winner
    intro f' hf'
    cases hf.symm.trans hf'
    exact hnonce.symm ▸ hlow

/-- With the nonce zero, the first digit of the hash decides. -/
theorem flip_ignores_block_number_zero : ∃ db₁ db₂, (calledBet 0 0).proceedBets = some db₁ ∧
      (calledBet 0 0x11111111).proceedBets = some db₂ ∧ db₁.winnerOf 0 = some 1 ∧
      db₁.winnerOf 0 = db₂.winnerOf 0 := by
  refine ⟨_, _, (some_get (by decide +kernel)).symm, (some_get (by decide +kernel)).symm,
    by decide +kernel, ?_⟩
  exact (flip_ignores_block_number_iff 0 (by decide)).2 (by decide) (calledBet 0 0) _ 0 _ _ _
    (sameHash_blockId 0 0x11111111 (by decide)) (Table.find_create_self _) rfl
    (some_get _).symm (some_get _).symm

/-- With the nonce 255, the last digit of the number of the block decides: the bettor wins with an
even one and loses with the next. -/
theorem flip_by_block_number : ∃ db₁ db₂, (calledBet 255 1000).proceedBets = some db₁ ∧
      (calledBet 255 1001).proceedBets = some db₂ ∧ db₁.winnerOf 0 = some 1 ∧
      db₂.winnerOf 0 = some 2 :=
  ⟨_, _, (some_get (by decide +kernel)).symm, (some_get (by decide +kernel)).symm,
    by decide +kernel, by decide +kernel⟩

end Database

end CrowdwizChain
