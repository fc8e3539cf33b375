import CrowdwizChain.Chain.Evaluator
import Mathlib.Data.List.Sort

/-!
# Votes on the percentages of staking

The `poc_vote` evaluator of `poc_evaluator.cpp`, `database::count_poc_votes`, and the part of
`perform_chain_maintenance` that opens and closes the voting periods.

A maintenance opens a period when its time has come, and sets the end of the period; the first
maintenance at or after the end counts the votes and clears them. Whether a vote is accepted is
decided by the end of the period alone, and not by whether the period is still active, and the time
compared with it is the time of the previous block. So the block after a count can still bring votes
if the maintenance took place exactly at the end of the period. A period that is opened while
another is active takes over its votes.
-/

namespace CrowdwizChain

open Transition Option Database AList Function

/-! ### The operation -/

/-- `poc_vote_operation` -/
structure PocVoteOperation where
  fee : Asset
  account : AccountId
  poc3Vote : Asset
  poc6Vote : Asset
  poc12Vote : Asset

/-- `poc_vote_operation::validate` -/
def PocVoteOperation.validate (op : PocVoteOperation) : Bool :=
  0 ≤ op.fee.amount ∧ (0 ≤ op.poc3Vote.amount ∧ op.poc3Vote.assetId = 0) ∧
    (0 ≤ op.poc6Vote.amount ∧ op.poc6Vote.assetId = 0) ∧
    (0 ≤ op.poc12Vote.amount ∧ op.poc12Vote.assetId = 0)

/-- The three votes of an account. -/
structure PocVotes where
  poc3 : Int := 0
  poc6 : Int := 0
  poc12 : Int := 0
deriving DecidableEq

namespace PocVotes

/-- `account_statistics_object::has_poc_vote` -/
def hasVote (v : PocVotes) : Bool := 0 < v.poc3 ∨ 0 < v.poc6 ∨ 0 < v.poc12

/-- What `validate` asks for. -/
structure Nonneg (v : PocVotes) : Prop where
  poc3 : 0 ≤ v.poc3
  poc6 : 0 ≤ v.poc6
  poc12 : 0 ≤ v.poc12

/-- For votes that are not negative, a sum of zero says that there is none. -/
theorem Nonneg.sum_eq_zero_iff {v : PocVotes} (h : v.Nonneg) :
    v.poc3 + v.poc6 + v.poc12 = 0 ↔ v.hasVote = false := by
  obtain ⟨h1, h2, h3⟩ := h
  simp only [hasVote, decide_eq_false_iff_not]
  omega

end PocVotes

/-- The votes in the statistics of an account. -/
def AccountStatistics.pocVotes (s : AccountStatistics) : PocVotes :=
  ⟨s.poc3Vote, s.poc6Vote, s.poc12Vote⟩

/-- What the loop of the count does to the statistics of an account. -/
def AccountStatistics.clearPocVotes (s : AccountStatistics) : AccountStatistics :=
  if s.pocVotes.hasVote then { s with poc3Vote := 0, poc6Vote := 0, poc12Vote := 0 } else s

theorem AccountStatistics.pocVotes_clearPocVotes (s : AccountStatistics) :
    s.clearPocVotes.pocVotes = if s.pocVotes.hasVote then {} else s.pocVotes := by
  rw [clearPocVotes]
  split <;> rfl

/-- The votes of an operation. -/
def PocVoteOperation.votes (op : PocVoteOperation) : PocVotes :=
  ⟨op.poc3Vote.amount, op.poc6Vote.amount, op.poc12Vote.amount⟩

namespace Database

/-- The votes that are stored for an account. -/
def pocVotesOf (db : Database) (a : AccountId) : PocVotes :=
  (db.statistics.lookup a).elim {} AccountStatistics.pocVotes

/-- `poc_vote_evaluator::do_evaluate` -/
def pocVoteEvaluate (op : PocVoteOperation) (db : Database) : Bool :=
  (db.accounts.find op.account).isSome ∧ (db.statistics.lookup op.account).any (fun s =>
      s.hadStaking ∧ s.poc3Vote + s.poc6Vote + s.poc12Vote = 0) ∧
    db.headBlockTime ≤ db.endPocVoteTime

/-- `poc_vote_evaluator::do_apply`: the votes are paid into the accumulated fees. -/
def pocVoteApply (op : PocVoteOperation) (db : Database) : Option Database :=
  (db.adjustBalance op.account
    (.core (-op.poc3Vote.amount - op.poc6Vote.amount - op.poc12Vote.amount))).bind fun db =>
    (db.modifyCore fun c =>
      { c with
        accumulatedFees := c.accumulatedFees +
          (op.poc3Vote.amount + op.poc6Vote.amount + op.poc12Vote.amount) }).bind fun db =>
      db.modifyStatistics op.account fun s =>
        { s with
          poc3Vote := op.poc3Vote.amount
          poc6Vote := op.poc6Vote.amount
          poc12Vote := op.poc12Vote.amount }

/-- The vote, which the account pays for and authorises. -/
def pocVote (db : Database) (op : PocVoteOperation) : Option Database :=
  if op.validate then
    db.applyOperation op.account op.fee (pocVoteEvaluate op) (pocVoteApply op)
  else none

/-! ### The count -/

/-- The votes that the loop of the count meets, in the index by `has_poc_vote`. -/
def pocBallots (db : Database) : List (AccountId × PocVotes) :=
  (db.statistics.entries.map fun e => (e.1, e.2.pocVotes)).filter fun b => b.2.hasVote

/-- The new percentage out of the votes for one of the terms: the votes are sorted, a part of them
is dropped at both ends, and the mean of the others is rounded down to whole percents. Too few
votes leave it as it is; dropping all of them makes the maintenance fail. -/
def pocPercent (p : StakingParameters) (votes : List Int) (old : Nat) : Option Nat :=
  if p.pocMinVotes ≤ votes.length then
    let filter := votes.length * p.pocFilterPercent / graphene100Percent
    let filtered := ((votes.insertionSort (· ≤ ·)).drop filter).take (votes.length - 2 * filter)
    if filtered.length = 0 then none
    else some
      (filtered.sum.toNat / filtered.length / grapheneBlockchainPrecision.toNat * graphene1Percent)
  else some old

/-- `database::count_poc_votes` -/
def countPocVotes (db : Database) : Option Database :=
  let votes (f : PocVotes → Int) := (db.pocBallots.map fun b => f b.2).filter (0 < ·)
  (pocPercent db.stakingParameters (votes PocVotes.poc3) db.poc3Percent).bind fun poc3 =>
    (pocPercent db.stakingParameters (votes PocVotes.poc6) db.poc6Percent).bind fun poc6 =>
      (pocPercent db.stakingParameters (votes PocVotes.poc12) db.poc12Percent).map fun poc12 =>
        { db with
          statistics := db.statistics.mapValues AccountStatistics.clearPocVotes
          poc3Percent := poc3
          poc6Percent := poc6
          poc12Percent := poc12 }

/-! ### The periods -/

/-- The maintenance opens a period. -/
def opensPocVote (db : Database) : Bool := db.nextPocVoteTime ≤ db.headBlockTime

/-- What the maintenance makes of the times, when the head is already the maintenance block. -/
def openPocVote (db : Database) : Database :=
  if db.opensPocVote then
    { db with
      nextPocVoteTime :=
        timePointSec db.nextPocVoteTime (db.stakingParameters.pocVoteIntervalDays * secondsPerDay)
      endPocVoteTime := timePointSec db.headBlockTime db.stakingParameters.pocVoteDuration
      pocVoteIsActive := true }
  else db

/-- The maintenance closes the period. -/
def closesPocVote (db : Database) : Bool :=
  db.endPocVoteTime ≤ db.headBlockTime ∧ db.pocVoteIsActive = true

/-- The part of `database::perform_chain_maintenance` under the heading PoC Vote. -/
def maintainPocVote (db : Database) : Option Database :=
  if db.openPocVote.closesPocVote then
    db.openPocVote.countPocVotes.map fun db => { db with pocVoteIsActive := false }
  else some db.openPocVote

/-! ### What the operation and the count do -/

variable {db : Database}

theorem pocVotesOf_convertAndPayFee (db : Database) (payer : AccountId) (fee : Asset)
    (coreFee : Int) (a : AccountId) :
    (db.convertAndPayFee payer fee coreFee).pocVotesOf a = db.pocVotesOf a := by
  simp only [pocVotesOf, convertAndPayFee, lookup_modify]
  split
  · next heq =>
    subst heq
    cases hs : db.statistics.lookup a with
    | none => rfl
    | some s => rfl
  · rfl

/-- An accepted vote comes from an account without votes and not after the end of the period. It
stores the votes, and leaves those of the others and the times alone. -/
theorem pocVote_eq_some {db' : Database} {op : PocVoteOperation} (h : db.pocVote op = some db') :
    op.votes.Nonneg ∧ (db.pocVotesOf op.account).poc3 + (db.pocVotesOf op.account).poc6 +
        (db.pocVotesOf op.account).poc12 = 0 ∧ db.headBlockTime ≤ db.endPocVoteTime ∧
      (∀ a, db'.pocVotesOf a = if a = op.account then op.votes else db.pocVotesOf a) ∧
      db'.headBlockTime = db.headBlockTime ∧ db'.endPocVoteTime = db.endPocVoteTime ∧
      db'.pocVoteIsActive = db.pocVoteIsActive := by
  obtain ⟨hv, coreFee, db1, m, -, hev, hap, -, rfl⟩ := operation_eq_some h
  obtain ⟨db2, hadj, hap⟩ := bind_eq_some_iff.1 hap
  obtain ⟨m1, -, rfl⟩ := adjustBalance_eq_some hadj
  obtain ⟨db3, hcore, hap⟩ := bind_eq_some_iff.1 hap
  obtain ⟨c, -, rfl⟩ := modifyCore_eq_some hcore
  obtain ⟨st, hst, rfl⟩ := modifyStatistics_eq_some hap
  simp only [PocVoteOperation.validate, decide_eq_true_eq] at hv
  simp only [pocVoteEvaluate, decide_eq_true_eq, any_eq_true] at hev
  obtain ⟨-, ⟨s, hs, -, hzero⟩, hend⟩ := hev
  refine ⟨⟨hv.2.1.1, hv.2.2.1.1, hv.2.2.2.1⟩, ?_, hend, fun a => ?_, rfl, rfl, rfl⟩
  · simpa [pocVotesOf, hs, AccountStatistics.pocVotes] using hzero
  · simp only [pocVotesOf, lookup_modify]
    split
    · rw [hst]
      rfl
    · exact db.pocVotesOf_convertAndPayFee op.account op.fee coreFee a

theorem mem_pocBallots {a : AccountId} {v : PocVotes} :
    (a, v) ∈ db.pocBallots ↔ db.pocVotesOf a = v ∧ v.hasVote = true := by
  simp only [pocBallots, List.mem_filter, List.mem_map, Prod.mk.injEq]
  constructor
  · rintro ⟨⟨⟨a', s⟩, hmem, rfl, rfl⟩, hvote⟩
    refine ⟨?_, hvote⟩
    rw [pocVotesOf, mem_lookup_iff.2 hmem]
    rfl
  · rintro ⟨hof, hvote⟩
    refine ⟨?_, hvote⟩
    rcases hs : db.statistics.lookup a with _ | s
    · -- an account without statistics has no votes
      simp only [pocVotesOf, hs, elim_none] at hof
      subst hof
      cases hvote
    · refine ⟨⟨a, s⟩, mem_lookup_iff.1 hs, rfl, ?_⟩
      simpa [pocVotesOf, hs] using hof

/-- The count clears the votes and leaves the times alone. -/
theorem countPocVotes_eq_some {db' : Database} (h : db.countPocVotes = some db') :
    (∀ a, db'.pocVotesOf a = if (db.pocVotesOf a).hasVote then {} else db.pocVotesOf a) ∧
      db'.headBlockTime = db.headBlockTime ∧ db'.endPocVoteTime = db.endPocVoteTime := by
  obtain ⟨poc3, -, h⟩ := bind_eq_some_iff.1 h
  obtain ⟨poc6, -, h⟩ := bind_eq_some_iff.1 h
  obtain ⟨poc12, -, rfl⟩ := map_eq_some_iff.1 h
  refine ⟨fun a => ?_, rfl, rfl⟩
  rw [pocVotesOf, lookup_mapValues]
  change _ = if ((db.statistics.lookup a).elim {} AccountStatistics.pocVotes).hasVote then _ else
    (db.statistics.lookup a).elim {} AccountStatistics.pocVotes
  cases db.statistics.lookup a with
  | none => rfl
  | some s => exact s.pocVotes_clearPocVotes

end Database

/-! ### Runs -/

/-- What can happen on the chain, as far as these votes go. -/
inductive PocAction
  | vote (op : PocVoteOperation)
  /-- a block of the given time, with or without maintenance -/
  | block (time : Nat) (maintenance : Bool)
  /-- anything else: every part of the database may change but the votes and the times -/
  | other (e : Database)

/-- A vote that was accepted, and the number of periods that had been opened by then. -/
structure PocBallot where
  account : AccountId
  votes : PocVotes
  period : Nat
deriving DecidableEq

/-- The database, with the notes of an observer. -/
structure PocSystem where
  db : Database
  /-- how many periods have been opened; the last one is the one that votes are cast in -/
  opened : Nat := 0
  /-- the votes that were accepted -/
  accepted : List PocBallot := []
  /-- the votes that the count at the end of each period has met -/
  counts : Nat → Option (List (AccountId × PocVotes)) := fun _ => none

namespace PocSystem

/-- The database with a new head. -/
def moveHead (db : Database) (time : Nat) : Database :=
  { db with headBlockNum := db.headBlockNum + 1, headBlockTime := time }

/-- The votes of all accounts that either database knows are the same in both. -/
def SameVotes (db e : Database) : Prop :=
  ∀ a ∈ db.statistics.keys ++ e.statistics.keys, e.pocVotesOf a = db.pocVotesOf a

instance (db e : Database) : Decidable (SameVotes db e) :=
  inferInstanceAs (Decidable (∀ a ∈ _, _))

/-- One action, with its notes. -/
def step (s : PocSystem) : PocAction → Option PocSystem
  | .vote op => (s.db.pocVote op).map fun db =>
    { s with db, accepted := ⟨op.account, op.votes, s.opened⟩ :: s.accepted }
  | .block time maintenance =>
    if s.db.headBlockTime < time then
      let db := moveHead s.db time
      if maintenance then
        let opened := if db.opensPocVote then s.opened + 1 else s.opened
        db.maintainPocVote.map fun db' =>
          { s with
            db := db'
            opened
            counts := if db.openPocVote.closesPocVote then
                update s.counts opened (some db.pocBallots)
              else s.counts }
      else some { s with db }
    else none
  | .other e =>
    if SameVotes s.db e then
      some { s with
        db := { e with
          headBlockTime := s.db.headBlockTime
          nextPocVoteTime := s.db.nextPocVoteTime
          endPocVoteTime := s.db.endPocVoteTime
          pocVoteIsActive := s.db.pocVoteIsActive } }
    else none

/-- A chain on which no period has been opened and no vote cast. -/
structure Initial (s : PocSystem) : Prop where
  active : s.db.pocVoteIsActive = false
  ended : s.db.endPocVoteTime < s.db.headBlockTime
  votes : ∀ a, s.db.pocVotesOf a = {}
  accepted : s.accepted = []
  counts : ∀ p, s.counts p = none

/-- A maintenance block opens a period only when none is active, and one that lasts for some time;
and no maintenance block falls on the very end of the active period. -/
def InPeriod (s : PocSystem) : PocAction → Prop
  | .block time true =>
    if s.db.nextPocVoteTime ≤ time then
      s.db.pocVoteIsActive = false ∧ s.db.stakingParameters.pocVoteDuration % 2 ^ 32 ≠ 0
    else s.db.pocVoteIsActive = true → s.db.endPocVoteTime ≠ time
  | _ => True

instance (s : PocSystem) : (a : PocAction) → Decidable (s.InPeriod a)
  | .block _ true => by
    unfold InPeriod
    infer_instance
  | .block _ false | .vote _ | .other _ => .isTrue trivial

/-- **Votes are counted in their own period.** A vote that was accepted is among those that the
count of its period has met, or that period is still the active one; a count meets only votes of
its period; and outside of an active period no vote is accepted. -/
structure CountedInPeriod (s : PocSystem) : Prop where
  counted : ∀ b ∈ s.accepted, b.votes.hasVote → ∀ c, s.counts b.period = some c →
    (b.account, b.votes) ∈ c
  waiting : ∀ b ∈ s.accepted, s.counts b.period = none → b.period = s.opened ∧
    s.db.pocVoteIsActive = true
  own : ∀ p c, s.counts p = some c → ∀ v ∈ c, ∃ b ∈ s.accepted, b.period = p ∧
    (b.account, b.votes) = v
  closed : s.db.pocVoteIsActive = false → ∀ op, s.step (.vote op) = none

/-! ### The invariant -/

/-- Where a ballot stands: counted, or waiting in the statistics for the count of its period. -/
def Stands (s : PocSystem) (b : PocBallot) : Prop :=
  (∃ c, s.counts b.period = some c ∧ (b.votes.hasVote → (b.account, b.votes) ∈ c)) ∨
    (b.period = s.opened ∧ s.counts b.period = none ∧ s.db.pocVoteIsActive = true ∧
      (b.votes.hasVote → s.db.pocVotesOf b.account = b.votes))

/-- What holds in every state that is reached. -/
structure Inv (s : PocSystem) : Prop where
  nonneg : ∀ a, (s.db.pocVotesOf a).Nonneg
  stored : ∀ a, (s.db.pocVotesOf a).hasVote → s.db.pocVoteIsActive = true ∧
    ∃ b ∈ s.accepted, b.account = a ∧ b.votes = s.db.pocVotesOf a ∧ b.period = s.opened
  stands : ∀ b ∈ s.accepted, s.Stands b
  own : ∀ p c, s.counts p = some c → ∀ v ∈ c, ∃ b ∈ s.accepted, b.period = p ∧
    (b.account, b.votes) = v
  uncounted : ∀ p, s.opened < p → s.counts p = none
  active : s.db.pocVoteIsActive = true → s.counts s.opened = none
  ended : s.db.pocVoteIsActive = false → s.db.endPocVoteTime < s.db.headBlockTime

variable {s s' : PocSystem} {db : Database}

theorem Initial.inv (h : s.Initial) : s.Inv where
  nonneg a := by
    rw [h.votes]
    exact ⟨le_rfl, le_rfl, le_rfl⟩
  stored a ha := by
    rw [h.votes] at ha
    cases ha
  stands b hb := by
    rw [h.accepted] at hb
    cases hb
  own p c hc := by
    rw [h.counts] at hc
    cases hc
  uncounted p _ := h.counts p
  active _ := h.counts _
  ended _ := h.ended

/-- A vote stands for the period that is open. -/
theorem Inv.vote {op : PocVoteOperation} (h : s.Inv) (hs : s.step (.vote op) = some s') :
    s'.Inv := by
  obtain ⟨db, hdb, rfl⟩ := map_eq_some_iff.1 hs
  obtain ⟨hop, hzero, hend, hvotes, htime, hendtime, hactive⟩ := pocVote_eq_some hdb
  have hnovote := ((h.nonneg op.account).sum_eq_zero_iff).1 hzero
  -- the end of the period has not passed, so the period is active
  have hact : s.db.pocVoteIsActive = true := by
    by_contra hne
    have := h.ended (by simpa using hne)
    omega
  refine ⟨fun a => ?_, fun a ha => ?_, fun b hb => ?_, fun p c hc v hv => ?_, h.uncounted, ?_, ?_⟩
  · simp only [hvotes]
    split
    · exact hop
    · exact h.nonneg a
  · refine ⟨hactive.trans hact, ?_⟩
    simp only [hvotes] at ha ⊢
    split at ha
    · next heq =>
      refine ⟨_, List.mem_cons_self, heq.symm, ?_, rfl⟩
      rw [if_pos heq]
    · next hne =>
      obtain ⟨-, b, hb, hacc, hv, hper⟩ := h.stored a ha
      refine ⟨b, List.mem_cons_of_mem _ hb, hacc, ?_, hper⟩
      rw [if_neg hne]
      exact hv
  · rcases List.mem_cons.1 hb with rfl | hb
    · refine .inr ⟨rfl, h.active hact, hactive.trans hact, fun _ => ?_⟩
      simp [hvotes]
    · rcases h.stands b hb with hc | ⟨hper, hnone, -, hsame⟩
      · exact .inl hc
      · refine .inr ⟨hper, hnone, hactive.trans hact, fun hv => ?_⟩
        have hne : b.account ≠ op.account := by
          intro heq
          rw [← heq, hsame hv, hv] at hnovote
          cases hnovote
        simp only [hvotes, if_neg hne]
        exact hsame hv
  · obtain ⟨b, hb, hrest⟩ := h.own p c hc v hv
    exact ⟨b, List.mem_cons_of_mem _ hb, hrest⟩
  · exact fun _ => h.active hact
  · intro hfalse
    rw [hactive, hact] at hfalse
    cases hfalse

/-- A step that changes neither the votes nor the notes, and does not take the time back. -/
theorem Inv.keep (h : s.Inv) (hvotes : ∀ a, db.pocVotesOf a = s.db.pocVotesOf a)
    (htime : s.db.headBlockTime ≤ db.headBlockTime) (hend : db.endPocVoteTime = s.db.endPocVoteTime)
    (hactive : db.pocVoteIsActive = s.db.pocVoteIsActive) : Inv { s with db } where
  nonneg a := by
    simp only [hvotes]
    exact h.nonneg a
  stored a ha := by
    simp only [hvotes, hactive] at ha ⊢
    exact h.stored a ha
  stands b hb := by
    simp only [Stands, hvotes, hactive]
    exact h.stands b hb
  own := h.own
  uncounted := h.uncounted
  active ha := h.active (hactive.symm.trans ha)
  ended ha := by
    have := h.ended (hactive.symm.trans ha)
    simp only [hend]
    omega

/-- A period is opened, while none is active: there are no votes, and none of the ballots is
waiting. -/
theorem Inv.openPeriod (h : s.Inv) (hact : s.db.pocVoteIsActive = false)
    (hvotes : ∀ a, db.pocVotesOf a = s.db.pocVotesOf a) (hactive : db.pocVoteIsActive = true) :
    Inv { s with db, opened := s.opened + 1 } where
  nonneg a := by
    simp only [hvotes]
    exact h.nonneg a
  stored a ha := by
    simp only [hvotes] at ha
    have := (h.stored a ha).1
    rw [hact] at this
    cases this
  stands b hb := by
    rcases h.stands b hb with hc | ⟨-, -, hact', -⟩
    · exact .inl hc
    · rw [hact] at hact'
      cases hact'
  own := h.own
  uncounted p hp := h.uncounted p (Nat.lt_of_succ_lt hp)
  active _ := h.uncounted _ (Nat.lt_succ_self _)
  ended hfalse := by
    simp only [hactive] at hfalse
    cases hfalse

/-- The active period is closed, after its end: the count meets all the ballots that wait. -/
theorem Inv.closePeriod (h : s.Inv) (hact : s.db.pocVoteIsActive = true)
    (hend : s.db.endPocVoteTime < s.db.headBlockTime) (hcount : s.db.countPocVotes = some db) : Inv
    { s with
      db := { db with pocVoteIsActive := false }
      counts := update s.counts s.opened (some s.db.pocBallots) } := by
  obtain ⟨hvotes, htime, hendtime⟩ := countPocVotes_eq_some hcount
  have hcleared : ∀ a, (db.pocVotesOf a).hasVote = false := by
    intro a
    rw [hvotes]
    split
    · rfl
    · next hno => simpa using hno
  refine ⟨fun a => ?_, fun a ha => ?_, fun b hb => ?_, fun p c hc v hv => ?_, fun p hp => ?_, ?_,
    ?_⟩
  · change (db.pocVotesOf a).Nonneg
    rw [hvotes]
    split
    · exact ⟨le_rfl, le_rfl, le_rfl⟩
    · exact h.nonneg a
  · change (db.pocVotesOf a).hasVote = true at ha
    rw [hcleared] at ha
    cases ha
  · rcases h.stands b hb with ⟨c, hc, hmem⟩ | ⟨hper, hnone, -, hsame⟩
    · refine .inl ⟨c, ?_, hmem⟩
      have hne : b.period ≠ s.opened := by
        intro heq
        rw [heq, h.active hact] at hc
        cases hc
      simpa [update_of_ne hne] using hc
    · refine .inl ⟨s.db.pocBallots, ?_, fun hv => mem_pocBallots.2 ⟨hsame hv, hv⟩⟩
      simp [hper]
  · rcases eq_or_ne p s.opened with rfl | hne
    · simp only [update_self, some.injEq] at hc
      subst hc
      obtain ⟨a, w⟩ := v
      obtain ⟨rfl, hw⟩ := mem_pocBallots.1 hv
      obtain ⟨-, b, hb, rfl, hbv, hper⟩ := h.stored a hw
      exact ⟨b, hb, hper, by rw [hbv]⟩
    · simp only [update_of_ne hne] at hc
      exact h.own p c hc v hv
  · simp only at hp ⊢
    rw [update_of_ne hp.ne']
    exact h.uncounted p hp
  · intro hfalse
    cases hfalse
  · intro _
    change db.endPocVoteTime < db.headBlockTime
    omega

/-- A block opens or closes the vote, and a closing counts it. -/
theorem Inv.block {time : Nat} {maintenance : Bool} (h : s.Inv)
    (hin : s.InPeriod (.block time maintenance)) (hs : s.step (.block time maintenance) = some s') :
    s'.Inv := by
  obtain ⟨hlt, hs⟩ := ite_none_right_eq_some.1 hs
  have hmoved : Inv { s with db := moveHead s.db time } :=
    h.keep (fun _ => rfl) hlt.le rfl rfl
  cases maintenance with
  | false =>
    cases hs
    exact hmoved
  | true =>
    obtain ⟨db', hdb', rfl⟩ := map_eq_some_iff.1 hs
    simp only [InPeriod] at hin
    rw [maintainPocVote] at hdb'
    by_cases hopen : s.db.nextPocVoteTime ≤ time
    · -- a period is opened, and closed at once if its end wrapped around
      rw [if_pos hopen] at hin
      have hopens : (moveHead s.db time).opensPocVote = true := decide_eq_true hopen
      simp only [openPocVote, hopens, if_true] at hdb' ⊢
      split at hdb'
      · next hclose =>
        obtain ⟨db, hdb, rfl⟩ := map_eq_some_iff.1 hdb'
        rw [if_pos hclose]
        have hclosed := fun hv ha hlt => (hmoved.openPeriod hin.1 hv ha).closePeriod ha hlt hdb
        refine hclosed (fun _ => rfl) rfl ?_
        have hle : (time + s.db.stakingParameters.pocVoteDuration) % 2 ^ 32 ≤ time :=
          (of_decide_eq_true hclose).1
        change (time + s.db.stakingParameters.pocVoteDuration) % 2 ^ 32 < time
        omega
      · next hclose =>
        cases hdb'
        rw [if_neg hclose]
        refine hmoved.openPeriod hin.1 ?_ ?_
        · exact fun _ => rfl
        · rfl
    · rw [if_neg hopen] at hin
      have hopens : (moveHead s.db time).opensPocVote = false := decide_eq_false hopen
      have hsame : (moveHead s.db time).openPocVote = moveHead s.db time := by
        rw [openPocVote, hopens]
        rfl
      simp only [hsame] at hdb' ⊢
      simp only [hopens, Bool.false_eq_true, if_false]
      split at hdb'
      · next hclose =>
        obtain ⟨db, hdb, rfl⟩ := map_eq_some_iff.1 hdb'
        rw [if_pos hclose]
        simp only [closesPocVote, decide_eq_true_eq] at hclose
        refine hmoved.closePeriod hclose.2 ?_ hdb
        exact lt_of_le_of_ne hclose.1 (hin hclose.2)
      · next hclose =>
        cases hdb'
        rw [if_neg hclose]
        exact hmoved

/-- Databases with the same votes of all accounts that they know have the same votes. -/
theorem SameVotes.pocVotesOf_eq {e : Database} (h : SameVotes db e) (a : AccountId) :
    e.pocVotesOf a = db.pocVotesOf a := by
  by_cases ha : a ∈ db.statistics.keys ++ e.statistics.keys
  · exact h a ha
  · rw [List.mem_append, not_or, ← mem_keys, ← mem_keys] at ha
    rw [pocVotesOf, pocVotesOf, lookup_eq_none.2 ha.1, lookup_eq_none.2 ha.2]

/-- **Every step keeps the invariant**, if maintenance blocks keep clear of the ends of periods. -/
theorem Inv.step {a : PocAction} (h : s.Inv) (hin : s.InPeriod a) (hs : s.step a = some s') :
    s'.Inv := by
  cases a with
  | vote op => exact h.vote hs
  | block time maintenance => exact h.block hin hs
  | other e =>
    obtain ⟨hsame, hs⟩ := ite_none_right_eq_some.1 hs
    cases hs
    exact h.keep (fun a => hsame.pocVotesOf_eq a) le_rfl rfl rfl

theorem Inv.countedInPeriod (h : s.Inv) : s.CountedInPeriod := by
  refine ⟨fun b hb hv c hc => ?_, fun b hb hnone => ?_, h.own, fun hact op => ?_⟩
  · rcases h.stands b hb with ⟨c', hc', hmem⟩ | ⟨-, hnone, -, -⟩
    · cases hc.symm.trans hc'
      exact hmem hv
    · rw [hnone] at hc
      cases hc
  · rcases h.stands b hb with ⟨c, hc, -⟩ | ⟨hper, -, hact, -⟩
    · rw [hnone] at hc
      cases hc
    · exact ⟨hper, hact⟩
  · rcases hs : s.step (.vote op) with _ | s'
    · rfl
    · obtain ⟨db, hdb, -⟩ := map_eq_some_iff.1 hs
      obtain ⟨-, -, hend, -⟩ := pocVote_eq_some hdb
      have := h.ended hact
      omega

/-- **Votes are counted in their own period, as long as maintenance blocks keep clear of the ends
of periods.** In every run in which no period is opened while another is active, none is empty, and
no maintenance block falls on the very end of the active period, every vote that is accepted is met
by the count that closes its period, and no vote is accepted outside of a period. -/
theorem poc_votes_counted_in_period {s₀ s : PocSystem} {acts : List PocAction} (h0 : s₀.Initial)
    (hin : Along step InPeriod s₀ acts) (hrun : run step s₀ acts = some s) : s.CountedInPeriod :=
  (invariant_of_along (fun h hP hs => Inv.step h hP hs) h0.inv hin hrun).countedInPeriod

/-! ### A period of one day -/

/-- A chain with one account, which has staked before and holds a thousand. -/
def staker : PocSystem where
  db := { Database.start 1601078390 [{ referrer := 0 }] 1000 with
    statistics := AList.insert 0 { hadStaking := true } ∅ }

/-- The vote of that account. -/
def ballot (n : Int) : PocVoteOperation := ⟨.core 1, 0, .core n, .core 0, .core 0⟩

/-- The vote is cast within the period, and the maintenance comes three seconds after its end. -/
theorem poc_votes_counted_in_period_staker :
    ∃ s, run step staker [.block 1601078400 true, .vote (ballot 10),
        .block (1601078400 + 86403) true] = some s ∧
      s.CountedInPeriod ∧ s.counts 1 = some [(0, ⟨10, 0, 0⟩)] :=
  ⟨_, (some_get (by decide +kernel)).symm, poc_votes_counted_in_period ⟨rfl, by decide, fun a => by
        rw [Database.pocVotesOf]
        rcases eq_or_ne a 0 with rfl | hne
        · rfl
        · rw [AList.lookup_eq_none.2]
          · rfl
          · rw [AList.mem_keys]
            exact fun h => hne (List.mem_singleton.1 h), rfl, fun _ => rfl⟩
      (by decide +kernel) (some_get (by decide +kernel)).symm,
    by decide +kernel⟩

/-- The maintenance falls on the very end of the period. The vote of the next block is accepted, and
is met by no count but that of the following period. -/
theorem vote_after_the_count :
    ∃ s s', run step staker [.block 1601078400 true, .block (1601078400 + 86400) true,
        .vote (ballot 10)] = some s ∧ s.counts 1 = some [] ∧ ⟨0, ⟨10, 0, 0⟩, 1⟩ ∈ s.accepted ∧
      run step s [.block (1601078400 + 90 * 86400) true, .block (1601078400 + 91 * 86400) true] =
      some s' ∧ s'.counts 2 = some [(0, ⟨10, 0, 0⟩)] ∧ ¬s.CountedInPeriod := by
  refine ⟨_, _, (some_get (by decide +kernel)).symm, by decide +kernel, by decide +kernel,
    (some_get (by decide +kernel)).symm, by decide +kernel, fun h => ?_⟩
  have hmem := h.counted ⟨0, ⟨10, 0, 0⟩, 1⟩ (by decide +kernel) (by decide) [] (by decide +kernel)
  cases hmem

end PocSystem

end CrowdwizChain
