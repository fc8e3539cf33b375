import CrowdwizChain.Chain.RaceRank
import CrowdwizChain.Chain.Race
import Mathlib.Data.List.Dedup

/-!
# The vote on the ranks of the Great Race

The `gr_vote` evaluator of `greatrace_evaluator.cpp`, and what becomes of the votes: at the end of
the voting period `database::count_gr_votes` takes the mean of all votes for each threshold and each
reward, and the next ranks go by these.

The evaluator does not ask whether the player has voted before, so a player weighs as much as the
votes that it is ready to pay for (`vote_counted_twice`); the means are those over the voting
accounts in every run in which no player votes again before the count (`one_member_one_vote`).

Nor does it ask whether the thresholds of a vote go up (`rank_loops_end_iff`).
-/

namespace CrowdwizChain

open Transition Option List Database

/-! ### The operation -/

/-- The ranks that have a threshold, from the lowest to the highest. -/
def volumeRanks : List GrRank := [.iron, .bronze, .silver, .gold, .platinum, .diamond, .master]

/-- All ranks; each of them has a reward. -/
def rewardRanks : List GrRank :=
  [.iron, .bronze, .silver, .gold, .platinum, .diamond, .elite, .master]

/-- `gr_vote_operation`: `gr_iron_volume`, `gr_iron_reward` and so on. -/
structure GrVoteOperation where
  fee : Asset
  player : AccountId
  volume : GrRank → Int
  reward : GrRank → Int

/-- `gr_vote_operation::validate` -/
def GrVoteOperation.validate (op : GrVoteOperation) : Bool :=
  0 ≤ op.fee.amount ∧ (∀ r ∈ volumeRanks, 0 ≤ op.volume r) ∧ ∀ r ∈ rewardRanks, 0 ≤ op.reward r

/-- The object that a vote is stored as. -/
def GrVoteOperation.votes (op : GrVoteOperation) : GrVotes := ⟨op.player, op.volume, op.reward⟩

namespace Database

variable {db db' db'' : Database}

/-- `gr_vote_evaluator::do_evaluate` -/
def grVoteEvaluate (op : GrVoteOperation) (db : Database) : Bool :=
  hardforkCwd7Time ≤ db.headBlockTime ∧ db.grVoteIsActive = true ∧
    (db.accounts.find op.player).any fun player =>
      db.greatraceParameters.minVoteLastRank ≤ player.lastGrRank

/-- The vote, which the player pays for and authorises. -/
def grVote (db : Database) (op : GrVoteOperation) : Option Database :=
  if op.validate then
    db.applyOperation op.player op.fee (grVoteEvaluate op) fun db =>
      some { db with grVotes := db.grVotes.create op.votes }
  else none

theorem grVote_eq_some {op : GrVoteOperation} (h : db.grVote op = some db') :
    op.validate = true ∧ db'.grVotes = db.grVotes.create op.votes := by
  obtain ⟨hv, coreFee, db1, m, -, -, hap, -, rfl⟩ := operation_eq_some h
  cases hap
  exact ⟨hv, rfl⟩

/-! ### The maintenance leaves the votes alone until it counts them -/

/-- **The work at the end of an interval** leaves the votes alone. -/
theorem grVotes_intervalWork (h : db.intervalWork = some db') : db'.grVotes = db.grVotes := by
  by_cases hgr : isGrInterval db.currentGrInterval
  · rw [intervalWork_of_isGrInterval hgr] at h
    obtain ⟨db1, h1, h⟩ := bind_eq_some_iff.1 h
    obtain ⟨m, c, ss, -, -, -, rfl⟩ := proceedGrBets_eq_some h
    exact (raceFrame_proceedGrTop3 h1).grVotes
  · exact (raceFrame_intervalWork hgr h).grVotes

/-- What the maintenance of the race does before it looks at the votes. -/
def raceWork (db : Database) : Option Database :=
  if db.raceIsDue then db.intervalWork.map advanceClock else some db

/-- The votes are counted. -/
def closesGrVote (db : Database) : Bool :=
  db.endGrVoteTime ≤ db.headBlockTime ∧ db.grVoteIsActive

theorem raceMaintenance_eq (db : Database) : db.raceMaintenance = db.raceWork.map fun db =>
      if db.closesGrVote then { db.countGrVotes with grVoteIsActive := false } else db := by
  simp only [raceMaintenance, raceWork, closesGrVote, decide_eq_true_eq]

theorem grVotes_raceWork (h : db.raceWork = some db') : db'.grVotes = db.grVotes := by
  rw [raceWork] at h
  split at h
  · obtain ⟨db1, h1, rfl⟩ := map_eq_some_iff.1 h
    rw [← grVotes_intervalWork h1, advanceClock]
    split
    · rfl
    · split
      · rfl
      · split <;> rfl
  · rw [some.inj h]

end Database

/-! ### One member, one vote -/

/-- What a count wrote, and the votes of the period that it closed. -/
structure GrCount where
  votes : List GrVotes
  volume : GrRank → Int
  reward : GrRank → Int

namespace GrCount

/-- What `count_gr_votes` writes for a list of votes. -/
def ofVotes (votes : List GrVotes) : GrCount where
  votes
  volume r := ((votes.map fun v : GrVotes => v.volume r).sum).tdiv votes.length
  reward r := ((votes.map fun v : GrVotes => v.reward r).sum).tdiv votes.length

/-- The accounts that have voted. -/
def voters (c : GrCount) : List AccountId := (c.votes.map GrVotes.player).dedup

/-- **One member, one vote**: each threshold and each reward is the mean, rounded down, of one vote
of each account that has voted. -/
def OneVoteEach (c : GrCount) : Prop :=
  ∃ choice : AccountId → GrVotes, (∀ a ∈ c.voters, choice a ∈ c.votes ∧ (choice a).player = a) ∧
    (∀ r ∈ volumeRanks, c.volume r = (c.voters.map fun a => (choice a).volume r).sum /
    c.voters.length) ∧
    ∀ r ∈ rewardRanks, c.reward r = (c.voters.map fun a => (choice a).reward r).sum /
    c.voters.length

end GrCount

/-- What can happen on the chain, as far as these votes go. -/
inductive GrVoteAction
  | vote (op : GrVoteOperation)
  /-- a block of the given time, with or without maintenance -/
  | block (time : Nat) (maintenance : Bool)
  /-- anything else: every part of the database may change but the votes and their times -/
  | other (e : Database)

/-- The database, with the notes of an observer. -/
structure GrVoteSystem where
  db : Database
  /-- the votes that were accepted since the last count -/
  cast : List GrVotes := []
  /-- the counts so far, but for those of no votes, which write nothing -/
  counts : List GrCount := []

namespace GrVoteSystem

/-- The maintenance of a block counts the votes. -/
def counted (db : Database) (maintenance : Bool) : Bool :=
  maintenance ∧ db.raceWork.any closesGrVote

/-- One action, with its notes. -/
def step (s : GrVoteSystem) : GrVoteAction → Option GrVoteSystem
  | .vote op => (s.db.grVote op).map fun db => { s with db, cast := s.cast ++ [op.votes] }
  | .block time maintenance =>
    (RaceSystem.step s.db (.block time maintenance)).map fun db =>
      if counted (s.db.moveHead time) maintenance then
        { db
          cast := []
          counts := if s.cast = [] then s.counts
            else ⟨s.cast, db.grVolume, db.grReward⟩ :: s.counts }
      else { s with db }
  | .other e =>
    some { s with
      db := { e with
        grVotes := s.db.grVotes
        headBlockTime := s.db.headBlockTime
        endGrVoteTime := s.db.endGrVoteTime
        grVoteIsActive := s.db.grVoteIsActive } }

/-- A chain without votes. -/
structure Initial (s : GrVoteSystem) : Prop where
  votes : s.db.grVotes.inOrder = []
  cast : s.cast = []
  counts : s.counts = []

/-- A player that votes has no vote in the table. -/
def NotAgain (s : GrVoteSystem) : GrVoteAction → Prop
  | .vote op => op.player ∉ s.db.grVotes.inOrder.map fun e => e.2.player
  | _ => True

instance (s : GrVoteSystem) : (a : GrVoteAction) → Decidable (s.NotAgain a)
  | .vote _ => inferInstanceAs (Decidable (_ ∉ _))
  | .block _ _ | .other _ => .isTrue trivial

/-- What holds in every state that is reached. -/
structure Inv (s : GrVoteSystem) : Prop where
  cast : s.db.grVotes.inOrder.map Prod.snd = s.cast
  valid : ∀ v ∈ s.cast, (∀ r ∈ volumeRanks, 0 ≤ v.volume r) ∧ ∀ r ∈ rewardRanks, 0 ≤ v.reward r
  once : (s.cast.map GrVotes.player).Nodup
  counts : ∀ c ∈ s.counts, c.OneVoteEach

variable {s s' : GrVoteSystem}

theorem Initial.inv (h : s.Initial) : s.Inv := by
  refine ⟨?_, fun v hv => ?_, ?_, fun c hc => ?_⟩
  · rw [h.votes, h.cast]
    rfl
  · rw [h.cast] at hv
    cases hv
  · rw [h.cast]
    exact nodup_nil
  · rw [h.counts] at hc
    cases hc

/-- For a list of votes of different accounts there is one vote of each account. -/
theorem exists_choice {votes : List GrVotes} (h : (votes.map GrVotes.player).Nodup) :
    ∃ choice : AccountId → GrVotes,
      (∀ a ∈ votes.map GrVotes.player, choice a ∈ votes ∧ (choice a).player = a) ∧
      ∀ v ∈ votes, choice v.player = v := by
  induction votes with
  | nil => exact ⟨fun _ => ⟨0, fun _ => 0, fun _ => 0⟩, by simp, by simp⟩
  | cons v votes ih =>
    obtain ⟨hv, hnd⟩ := nodup_cons.1 h
    obtain ⟨choice, h1, h2⟩ := ih hnd
    refine ⟨fun a => if a = v.player then v else choice a, fun a ha => ?_, fun w hw => ?_⟩
    · rcases eq_or_ne a v.player with rfl | hne
      · simp
      · rw [map_cons, mem_cons] at ha
        obtain ⟨hmem, hplayer⟩ := h1 a (ha.resolve_left hne)
        simp only [if_neg hne]
        exact ⟨mem_cons_of_mem _ hmem, hplayer⟩
    · rcases mem_cons.1 hw with rfl | hw
      · simp
      · have hne : w.player ≠ v.player := fun heq =>
          hv (heq ▸ mem_map_of_mem hw)
        simp only [if_neg hne]
        exact h2 w hw

theorem oneVoteEach_of_nodup {votes : List GrVotes} (hnd : (votes.map GrVotes.player).Nodup)
    (hvalid : ∀ v ∈ votes, (∀ r ∈ volumeRanks, 0 ≤ v.volume r) ∧
    ∀ r ∈ rewardRanks, 0 ≤ v.reward r) :
    (GrCount.ofVotes votes).OneVoteEach := by
  obtain ⟨choice, hchoice, hself⟩ := exists_choice hnd
  have hvoters : (GrCount.ofVotes votes).voters = votes.map GrVotes.player :=
    dedup_eq_self.2 hnd
  -- the chosen votes are all the votes, and a mean of such votes is rounded down
  have hmean : ∀ f : GrVotes → Int, (∀ v ∈ votes, 0 ≤ f v) → ((votes.map f).sum).tdiv votes.length =
        ((votes.map GrVotes.player).map fun a => f (choice a)).sum /
        (votes.map GrVotes.player).length := by
    intro f hf
    have hsum : ((votes.map GrVotes.player).map fun a => f (choice a)) = votes.map f := by
      rw [List.map_map]
      exact map_congr_left fun v hv => congrArg f (hself v hv)
    have hnonneg : 0 ≤ (votes.map f).sum := by
      refine sum_nonneg fun x hx => ?_
      obtain ⟨v, hv, rfl⟩ := mem_map.1 hx
      exact hf v hv
    rw [hsum, length_map, Int.tdiv_eq_ediv_of_nonneg hnonneg]
  refine ⟨choice, ?_, fun r hr => ?_, fun r hr => ?_⟩
  · rw [hvoters]
    exact hchoice
  · rw [hvoters]
    exact hmean (·.volume r) fun v hv => (hvalid v hv).1 r hr
  · rw [hvoters]
    exact hmean (·.reward r) fun v hv => (hvalid v hv).2 r hr

/-- A vote is noted, if its player has cast none yet. -/
theorem Inv.vote {op : GrVoteOperation} (h : s.Inv) (hnew : s.NotAgain (.vote op))
    (hs : s.step (.vote op) = some s') : s'.Inv := by
  obtain ⟨db, hdb, rfl⟩ := map_eq_some_iff.1 hs
  obtain ⟨hvalid, hvotes⟩ := grVote_eq_some hdb
  simp only [GrVoteOperation.validate, decide_eq_true_eq] at hvalid
  refine ⟨?_, fun v hv => ?_, ?_, h.counts⟩
  · simp only [hvotes, Table.inOrder_create, map_append, h.cast, map_cons, map_nil]
  · rcases mem_append.1 hv with hv | hv
    · exact h.valid v hv
    · obtain rfl := mem_singleton.1 hv
      exact hvalid.2
  · have hplayers : s.cast.map GrVotes.player = s.db.grVotes.inOrder.map fun e => e.2.player := by
      rw [← h.cast, List.map_map]
      rfl
    simp only [map_append, map_cons, map_nil]
    refine nodup_append.2 ⟨h.once, nodup_singleton _, ?_⟩
    rintro a ha b hb rfl
    rw [mem_singleton] at hb
    rw [hplayers] at ha
    subst hb
    exact hnew ha

/-- A block that ends the vote counts each player once. -/
theorem Inv.block {time : Nat} {maintenance : Bool} (h : s.Inv)
    (hs : s.step (.block time maintenance) = some s') : s'.Inv := by
  obtain ⟨db, hdb, rfl⟩ := map_eq_some_iff.1 hs
  obtain ⟨-, hdb⟩ := ite_none_right_eq_some.1 hdb
  cases maintenance with
  | false =>
    cases hdb
    exact ⟨h.cast, h.valid, h.once, h.counts⟩
  | true =>
    rw [if_pos rfl, raceMaintenance_eq] at hdb
    obtain ⟨db1, h1, rfl⟩ := map_eq_some_iff.1 hdb
    have hvotes : db1.grVotes = (s.db.moveHead time).grVotes := grVotes_raceWork h1
    have hmove : (s.db.moveHead time).grVotes = s.db.grVotes := rfl
    rw [hmove] at hvotes
    have hcounted : counted (s.db.moveHead time) true = db1.closesGrVote := by
      simp [counted, h1]
    rw [hcounted]
    by_cases hclose : db1.closesGrVote
    · rw [if_pos hclose, if_pos hclose]
      have hcast : db1.grVotes.inOrder.map Prod.snd = s.cast := by rw [hvotes, h.cast]
      rw [countGrVotes, hcast]
      by_cases hnil : s.cast = []
      · rw [if_pos hnil, if_pos hnil]
        exact ⟨hcast.trans hnil, by simp, nodup_nil, h.counts⟩
      · rw [if_neg hnil, if_neg hnil]
        refine ⟨by simp, by simp, nodup_nil, fun c hc => ?_⟩
        rcases mem_cons.1 hc with rfl | hc
        · exact oneVoteEach_of_nodup h.once h.valid
        · exact h.counts c hc
    · rw [if_neg hclose, if_neg hclose]
      refine ⟨?_, h.valid, h.once, h.counts⟩
      simp only [hvotes]
      exact h.cast

/-- Every step keeps the count, if nobody votes again. -/
theorem Inv.step {a : GrVoteAction} (h : s.Inv) (hnew : s.NotAgain a) (hs : s.step a = some s') :
    s'.Inv := by
  cases a with
  | vote op => exact h.vote hnew hs
  | block time maintenance => exact h.block hs
  | other e =>
    cases hs
    exact ⟨h.cast, h.valid, h.once, h.counts⟩

/-- **One member has one vote, as long as no member votes again.** In every run in which a player
that votes has no vote waiting for the count, every count takes the mean over the voting accounts of
one vote each. -/
theorem one_member_one_vote {s₀ s : GrVoteSystem} {acts : List GrVoteAction} (h0 : s₀.Initial)
    (hnew : Along step NotAgain s₀ acts) (hrun : run step s₀ acts = some s) :
    ∀ c ∈ s.counts, c.OneVoteEach :=
  (invariant_of_along (fun h hP hs => Inv.step h hP hs) h0.inv hnew hrun).counts

/-! ### Two players -/

/-- A chain with two players of the highest rank, in a voting period that ends in a hundred
seconds. -/
def twoPlayers : Database :=
  { start hardforkCwd7Time
      [{ referrer := 0, lastGrRank := 7 }, { referrer := 0, lastGrRank := 7 }] 1000 with
    currentGrInterval := 1
    nextGrIntervalTime := hardforkCwd7Time + 1000
    grVoteIsActive := true
    endGrVoteTime := hardforkCwd7Time + 100 }

/-- A vote for the same number everywhere. -/
def voteFor (player : AccountId) (n : Int) : GrVoteOperation :=
  ⟨.core 1, player, fun _ => n, fun _ => n⟩

/-- The maintenance that ends the period. -/
def endOfVote : GrVoteAction := .block (hardforkCwd7Time + 100) true

theorem one_member_one_vote_two_players :
    ∃ s, run step ⟨twoPlayers, [], []⟩ [.vote (voteFor 0 10), .vote (voteFor 1 0), endOfVote] =
        some s ∧ (∀ c ∈ s.counts, c.OneVoteEach) ∧ s.counts.map (fun c => c.volume .iron) = [5] :=
  ⟨_, (some_get (by decide +kernel)).symm, one_member_one_vote ⟨rfl, rfl, rfl⟩ (by decide +kernel)
      (some_get (by decide +kernel)).symm, by decide +kernel⟩

/-- Account zero votes twice, and counts twice: the mean is six and not five. -/
theorem vote_counted_twice : ∃ s, run step ⟨twoPlayers, [], []⟩
        [.vote (voteFor 0 10), .vote (voteFor 1 0), .vote (voteFor 0 10), endOfVote] = some s ∧
      ∃ c ∈ s.counts, c.volume .iron = 6 ∧ ¬c.OneVoteEach := by
  -- what the notes say in the end, as far as iron goes
  have hnotes : (run step ⟨twoPlayers, [], []⟩
      [.vote (voteFor 0 10), .vote (voteFor 1 0), .vote (voteFor 0 10), endOfVote]).map
      (fun s => s.counts.map fun c =>
        (c.votes.map fun v => (v.player, v.volume .iron), c.volume .iron)) =
      some [([(0, 10), (1, 0), (0, 10)], 6)] := by decide +kernel
  obtain ⟨s, hrun, hcounts⟩ := map_eq_some_iff.1 hnotes
  obtain ⟨c, l, hc, hhead, -⟩ := map_eq_cons_iff.1 hcounts
  obtain ⟨hvotes, hiron⟩ := Prod.mk.inj hhead
  refine ⟨s, hrun, c, by simp [hc], hiron, ?_⟩
  rintro ⟨choice, hchoice, hvolume, -⟩
  have hplayers : c.votes.map GrVotes.player = [0, 1, 0] := by
    have h := congrArg (map Prod.fst) hvotes
    rw [List.map_map] at h
    exact h
  have hvoters : c.voters = [1, 0] := by
    rw [GrCount.voters, hplayers]
    decide
  -- whichever votes are chosen, they are ten and zero
  have hentry : ∀ a ∈ c.voters, (a, (choice a).volume .iron) ∈
      [((0 : AccountId), (10 : Int)), (1, 0), (0, 10)] := by
    intro a ha
    obtain ⟨hmem, hplayer⟩ := hchoice a ha
    rw [← hvotes, List.mem_map]
    exact ⟨choice a, hmem, by rw [hplayer]⟩
  have h0 := hentry 0 (by simp [hvoters])
  have h1 := hentry 1 (by simp [hvoters])
  simp at h0 h1
  have hmean := hvolume .iron (by decide)
  simp only [hvoters, hiron, map_cons, map_nil, sum_cons, sum_nil, length_cons, length_nil] at hmean
  omega

end GrVoteSystem

/-! ### Votes and the loops of the ranks -/

/-- The ranks with a threshold, each with the next one. -/
def rankSteps : List (GrRank × GrRank) :=
  [(.iron, .bronze), (.bronze, .silver), (.silver, .gold), (.gold, .platinum),
    (.platinum, .diamond), (.diamond, .master)]

/-- With these thresholds, the ranks are assigned at the end of any half, whatever the teams: the
loops come to their ends. -/
def RanksAlwaysEnd (thresholds : GrRank → Int) : Prop :=
  ∀ e : Database, e.grVolume = thresholds → e.RaceOk → e.rankVolume.isSome →
    (∀ id t, e.grTeams.find id = some t → 0 ≤ t.firstHalfVolume ∧ 0 ≤ t.secondHalfVolume) →
    e.proceedGrRank.isSome

/-- One team, and thresholds that were voted for. -/
def oneTeamWith (thresholds : GrRank → Int) (firstHalfVolume : Int) : Database :=
  { oneTeam firstHalfVolume with grVolume := thresholds }

theorem oneTeamWith_raceOk (T : GrRank → Int) (v : Int) : (oneTeamWith T v).RaceOk :=
  have h := oneTeam_raceOk v
  ⟨h.members, h.rewards, h.core⟩

/-- The loop between two thresholds ends for all teams if the second is higher, or the first is
zero. -/
theorem ranksAlwaysEnd_iff {T : GrRank → Int} (hT : ∀ r ∈ volumeRanks, 0 ≤ T r) :
    RanksAlwaysEnd T ↔ ∀ p ∈ rankSteps, T p.1 < T p.2 ∨ T p.1 = 0 := by
  constructor
  · intro h p hp
    by_contra hnot
    have hfirst : p.1 ∈ volumeRanks ∧
        ∃ n, n ≠ 7 ∧ ∀ d : Database, (n, p.1, d.grVolume p.2 - 1) ∈ d.rankRanges := by
      simp only [rankSteps, mem_cons, not_mem_nil, or_false] at hp
      rcases hp with rfl | rfl | rfl | rfl | rfl | rfl
      · exact ⟨by decide, 1, by decide, fun d => by simp [rankRanges]⟩
      · exact ⟨by decide, 2, by decide, fun d => by simp [rankRanges]⟩
      · exact ⟨by decide, 3, by decide, fun d => by simp [rankRanges]⟩
      · exact ⟨by decide, 4, by decide, fun d => by simp [rankRanges]⟩
      · exact ⟨by decide, 5, by decide, fun d => by simp [rankRanges]⟩
      · exact ⟨by decide, 6, by decide, fun d => by simp [rankRanges]⟩
    obtain ⟨hmem, n, hn, htier⟩ := hfirst
    have hpos := hT _ hmem
    -- one team, with a volume of one under the first threshold
    have hok := oneTeamWith_raceOk T (T p.1 - 1)
    have hvol : (oneTeamWith T (T p.1 - 1)).rankVolume = some GrTeam.firstHalfVolume := rfl
    have hend := h (oneTeamWith T (T p.1 - 1)) rfl hok rfl fun id t ht => by
      obtain rfl := oneTeam_find ht
      exact ⟨by dsimp only; omega, le_rfl⟩
    rw [isSome_proceedGrRank hok hvol] at hend
    have htier := hend _ (htier _)
    rcases htier with heq | hall
    · exact hn heq
    · have hvolume : (oneTeamWith T (T p.1 - 1)).grVolume = T := rfl
      have hteam := hall (0, T p.1 - 1) (mem_standings.2 ⟨_, rfl, rfl⟩)
      rw [hvolume] at hteam
      dsimp only at hteam
      omega
  · intro h e he hok hvol hnonneg
    obtain ⟨volume, hvol⟩ := isSome_iff_exists.1 hvol
    rw [isSome_proceedGrRank hok hvol]
    intro tier htier
    rw [TierEnds, or_iff_not_imp_left]
    rintro hrank ⟨id, v⟩ hs hlt
    obtain ⟨t, ht, rfl⟩ := mem_standings.1 hs
    have hv : 0 ≤ volume t := by
      rw [rankVolume] at hvol
      split at hvol
      · cases hvol
        exact (hnonneg id t ht).1
      · split at hvol
        · cases hvol
          exact (hnonneg id t ht).2
        · cases hvol
    simp only [rankSteps, mem_cons, not_mem_nil, or_false, forall_eq_or_imp, forall_eq] at h
    simp only [rankRanges, he, mem_cons, not_mem_nil, or_false] at htier
    rw [he] at hlt
    rcases htier with rfl | rfl | rfl | rfl | rfl | rfl | rfl <;> dsimp only at hrank hlt ⊢ <;>
      omega

/-- The votes for two thresholds are apart: a multiple of the number of votes is over the sum of
those for the first and not over the sum of those for the second; or the votes for the first are
less than one each, in the mean. -/
def Apart (ops : List GrVoteOperation) (p : GrRank × GrRank) : Prop :=
  (∃ k : Int, (ops.map fun op => op.volume p.1).sum < k * ops.length ∧
    k * ops.length ≤ (ops.map fun op => op.volume p.2).sum) ∨
  (ops.map fun op => op.volume p.1).sum < ops.length

/-- The votes of a period are those of the operations, in their order. -/
theorem grVotes_run {db0 db : Database} {ops : List GrVoteOperation}
    (hrun : run grVote db0 ops = some db) :
    db.grVotes.inOrder.map Prod.snd = db0.grVotes.inOrder.map Prod.snd ++
      ops.map GrVoteOperation.votes ∧ ∀ op ∈ ops, op.validate = true := by
  induction ops generalizing db0 with
  | nil =>
    cases hrun
    simp
  | cons op ops ih =>
    obtain ⟨db1, h1, hrun⟩ := bind_eq_some_iff.1 hrun
    obtain ⟨hvalid, hvotes⟩ := grVote_eq_some h1
    obtain ⟨heq, hall⟩ := ih hrun
    refine ⟨?_, ?_⟩
    · rw [heq, hvotes, Table.inOrder_create]
      simp
    · rintro op' hop'
      rcases mem_cons.1 hop' with rfl | hop'
      · exact hvalid
      · exact hall op' hop'

/-- **The loops of the ranks end for all teams just when the votes are apart.** For every list of
votes that the evaluator accepts in a period, the thresholds that the count writes let the ranks be
assigned, whatever the teams, if and only if the votes for each threshold and for the next one are
apart. -/
theorem rank_loops_end_iff {db₀ db : Database} {ops : List GrVoteOperation}
    (h0 : db₀.grVotes.inOrder = []) (hops : ops ≠ []) (hrun : run grVote db₀ ops = some db) :
    RanksAlwaysEnd db.countGrVotes.grVolume ↔ ∀ p ∈ rankSteps, Apart ops p := by
  obtain ⟨hvotes, hvalid⟩ := grVotes_run hrun
  rw [h0, map_nil, nil_append] at hvotes
  have hn : (0 : Int) < ops.length := by
    have := length_pos_of_ne_nil hops
    omega
  have hsum : ∀ r ∈ volumeRanks, 0 ≤ (ops.map fun op => op.volume r).sum := by
    intro r hr
    refine sum_nonneg fun x hx => ?_
    obtain ⟨op, hop, rfl⟩ := mem_map.1 hx
    have hv := hvalid op hop
    simp only [GrVoteOperation.validate, decide_eq_true_eq] at hv
    exact hv.2.1 r hr
  -- the thresholds are means, rounded down
  have hmean : ∀ r ∈ volumeRanks, db.countGrVotes.grVolume r =
      (ops.map fun op => op.volume r).sum / ops.length := by
    intro r hr
    have hne : ops.map GrVoteOperation.votes ≠ [] := by simpa using hops
    rw [countGrVotes, hvotes, if_neg hne]
    change (((ops.map GrVoteOperation.votes).map fun v : GrVotes => v.volume r).sum).tdiv
      (ops.map GrVoteOperation.votes).length = _
    rw [List.map_map, length_map]
    exact Int.tdiv_eq_ediv_of_nonneg (hsum r hr)
  rw [ranksAlwaysEnd_iff fun r hr => by
    rw [hmean r hr]
    exact Int.ediv_nonneg (hsum r hr) hn.le]
  refine forall₂_congr fun p hp => ?_
  have hmem : p.1 ∈ volumeRanks ∧ p.2 ∈ volumeRanks := by
    revert p
    decide
  rw [hmean _ hmem.1, hmean _ hmem.2, Apart]
  have hpos := hsum _ hmem.1
  refine or_congr ⟨fun h => ?_, ?_⟩ ⟨fun h => ?_, fun h => ?_⟩
  · exact ⟨_, (Int.ediv_lt_iff_lt_mul hn).1 h, (Int.le_ediv_iff_mul_le hn).1 le_rfl⟩
  · rintro ⟨k, hlt, hle⟩
    exact ((Int.ediv_lt_iff_lt_mul hn).2 hlt).trans_le ((Int.le_ediv_iff_mul_le hn).2 hle)
  · have := (Int.ediv_lt_iff_lt_mul hn).1 (h.trans_lt Int.zero_lt_one)
    omega
  · exact Int.ediv_eq_zero_of_lt hpos h

/-- A vote for thresholds of 10, 20, 30 and so on. -/
def orderlyVote : GrVoteOperation where
  fee := .core 1
  player := 0
  volume
    | .iron => 10 | .bronze => 20 | .silver => 30 | .gold => 40 | .platinum => 50
    | .diamond => 60 | .master => 70 | .elite => 0
  reward _ := 5

theorem rank_loops_end_iff_orderly :
    ∃ db, run grVote GrVoteSystem.twoPlayers [orderlyVote] = some db ∧
      RanksAlwaysEnd db.countGrVotes.grVolume := by
  refine ⟨_, (some_get (by decide +kernel)).symm, (rank_loops_end_iff rfl (cons_ne_nil _ _)
      (some_get (by decide +kernel)).symm).2 fun p hp => .inl ?_⟩
  simp only [rankSteps, mem_cons, not_mem_nil, or_false] at hp
  rcases hp with rfl | rfl | rfl | rfl | rfl | rfl
  · exact ⟨20, by decide, by decide⟩
  · exact ⟨30, by decide, by decide⟩
  · exact ⟨40, by decide, by decide⟩
  · exact ⟨50, by decide, by decide⟩
  · exact ⟨60, by decide, by decide⟩
  · exact ⟨70, by decide, by decide⟩

/-- A vote for the same threshold everywhere is accepted. With a team whose volume is one under it,
the first loop starts behind its end. -/
theorem rank_loop_runs_away :
    ∃ db, run grVote GrVoteSystem.twoPlayers [GrVoteSystem.voteFor 0 10] = some db ∧
      (oneTeamWith db.countGrVotes.grVolume 9).proceedGrRank = none ∧
      ¬RanksAlwaysEnd db.countGrVotes.grVolume := by
  have hall : (run grVote GrVoteSystem.twoPlayers [GrVoteSystem.voteFor 0 10]).map
      (fun db => (oneTeamWith db.countGrVotes.grVolume 9).proceedGrRank.isNone) = some true := by
    decide +kernel
  obtain ⟨db, hdb, hnone⟩ := map_eq_some_iff.1 hall
  have hrun := isNone_iff_eq_none.1 hnone
  refine ⟨db, hdb, hrun, fun h => ?_⟩
  have hsome :=
    h (oneTeamWith db.countGrVotes.grVolume 9) rfl (oneTeamWith_raceOk _ _) rfl fun id t ht => by
      obtain rfl := oneTeam_find ht
      exact ⟨by decide, le_rfl⟩
  rw [hrun] at hsome
  cases hsome

end CrowdwizChain
