import CrowdwizChain.Chain.LinearBonus
import CrowdwizChain.Chain.RaceTeam
import CrowdwizChain.Lib.Shares

/-!
# Bets on the Great Race

`gr_range_bet_evaluator` and `gr_team_bet_evaluator` of `greatrace_evaluator.cpp`, and
`database::proceed_gr_bets` of `db_maint.cpp`, which settles all bets at the end of a race interval.
A bet is that a team comes in between two places, or that one team comes in before another. All bets
on the same outcome go into one pool with two sides; the winning side gets the whole pool, in
proportion to the stakes, and what is lost to rounding goes to the accumulated fees. A pool with an
empty side is paid back.

The two kinds of bets have the same code with other names. A `BetPool` is what they have in common.
-/

namespace CrowdwizChain

open Option List

/-! ### Pools -/

/-- `bets[bettor] += amount`, or a new entry. -/
def Stakes.add (m : Stakes) (bettor : AccountId) (amount : Int) : Stakes :=
  match m.lookup bettor with
  | some stake => m.insert bettor (stake + amount)
  | none => m.insert bettor amount

/-- The stakes of a side, added up. -/
def Stakes.total (m : Stakes) : Int := m.sumBy fun _ stake => stake

/-- A pool: the prize, and the stakes on its two sides with their totals. -/
structure BetPool where
  totalPrize : Int
  total1 : Int
  total2 : Int
  bets1 : Stakes
  bets2 : Stakes

/-- What becomes of a pool: payments to bettors, and a part for the accumulated fees. -/
structure Settlement where
  payments : List (AccountId × Int)
  fee : Int

namespace BetPool

/-- The winning side is paid. The products of two amounts are taken in `fc::uint128`, where they
fit; a division by zero throws. -/
def pay (totalPrize total : Int) (bets : Stakes) : Option Settlement :=
  if total = 0 then none
  else
    let payments := bets.entries.map fun e => (e.1, Shares.share totalPrize total e.2)
    let totalPayed := (payments.map Prod.snd).sum
    some ⟨payments, if totalPayed < totalPrize then totalPrize - totalPayed else 0⟩

/-- A pool is settled, with the first side as the winner or the second. -/
def settle (p : BetPool) (firstWins : Bool) : Option Settlement :=
  if p.bets1.entries ≠ [] ∧ p.bets2.entries ≠ [] then
    if firstWins then pay p.totalPrize p.total1 p.bets1 else pay p.totalPrize p.total2 p.bets2
  else some ⟨(p.bets1.entries ++ p.bets2.entries).map fun e => (e.1, e.2), 0⟩

/-- A bet on one of the sides. -/
def bet (p : BetPool) (first : Bool) (bettor : AccountId) (amount : Int) : BetPool :=
  if first then
    { p with
      bets1 := p.bets1.add bettor amount
      total1 := p.total1 + amount
      totalPrize := p.totalPrize + amount }
  else
    { p with
      bets2 := p.bets2.add bettor amount
      total2 := p.total2 + amount
      totalPrize := p.totalPrize + amount }

/-- The first bet on an empty side has to match what is on the other side. -/
def isMatchedBy (p : BetPool) (first : Bool) (amount : Int) : Bool :=
  if first then p.total1 = 0 → p.total2 ≤ amount else p.total2 = 0 → p.total1 ≤ amount

/-- The pool without a bet. -/
def empty : BetPool := ⟨0, 0, 0, ∅, ∅⟩

end BetPool

/-- The pool of a bet on places: the first side is for the team coming in between them. -/
def GrRangeBet.pool (b : GrRangeBet) : BetPool :=
  ⟨b.totalPrize, b.totalTrueBets, b.totalFalseBets, b.trueBets, b.falseBets⟩

/-- The bet with another pool. -/
def GrRangeBet.withPool (b : GrRangeBet) (p : BetPool) : GrRangeBet :=
  { b with
    totalPrize := p.totalPrize
    totalTrueBets := p.total1
    totalFalseBets := p.total2
    trueBets := p.bets1
    falseBets := p.bets2 }

/-- The pool of a bet on two teams: the first side is for the first team. -/
def GrTeamBet.pool (b : GrTeamBet) : BetPool :=
  ⟨b.totalPrize, b.totalTeam1Bets, b.totalTeam2Bets, b.team1Bets, b.team2Bets⟩

/-- The bet with another pool. -/
def GrTeamBet.withPool (b : GrTeamBet) (p : BetPool) : GrTeamBet :=
  { b with
    totalPrize := p.totalPrize
    totalTeam1Bets := p.total1
    totalTeam2Bets := p.total2
    team1Bets := p.bets1
    team2Bets := p.bets2 }

/-! ### Operations -/

/-- `gr_range_bet_operation` -/
structure GrRangeBetOperation where
  fee : Asset
  team : Nat
  lowerRank : Nat
  upperRank : Nat
  result : Bool
  bettor : AccountId
  bet : Asset

/-- `gr_range_bet_operation::validate` -/
def GrRangeBetOperation.validate (op : GrRangeBetOperation) : Bool :=
  0 < op.upperRank ∧ op.upperRank ≤ 100 ∧ 0 < op.lowerRank ∧ op.lowerRank ≤ 100 ∧
    op.lowerRank ≤ op.upperRank ∧ 0 ≤ op.bet.amount ∧ 0 ≤ op.fee.amount

/-- `gr_team_bet_operation` -/
structure GrTeamBetOperation where
  fee : Asset
  team1 : Nat
  team2 : Nat
  winner : Nat
  bettor : AccountId
  bet : Asset

/-- `gr_team_bet_operation::validate` -/
def GrTeamBetOperation.validate (op : GrTeamBetOperation) : Bool :=
  (op.winner = op.team1 ∨ op.winner = op.team2) ∧ 0 ≤ op.bet.amount ∧ 0 ≤ op.fee.amount

/-- The bet is on these places. -/
def GrRangeBetOperation.IsOn (op : GrRangeBetOperation) (b : GrRangeBet) : Prop :=
  b.team = op.team ∧ b.lowerRank = op.lowerRank ∧ b.upperRank = op.upperRank

/-- The bet is on these two teams, in either order. -/
def GrTeamBetOperation.IsOn (op : GrTeamBetOperation) (b : GrTeamBet) : Prop :=
  (b.team1 = op.team1 ∧ b.team2 = op.team2) ∨ (b.team1 = op.team2 ∧ b.team2 = op.team1)

/-- The row that a bet on an outcome goes to; it is a new one if there is none with the outcome. -/
def BetPool.Target {β : Type} (t : Table β) (pool : β → BetPool) (outcome : β → Prop) (id : Nat)
    (b : β) : Prop :=
  outcome b ∧ (t.find id = some b ∨
    t.find id = none ∧ pool b = .empty ∧ ∀ i c, t.find i = some c → ¬outcome c)

namespace Database

/-- The checks on the bettor and the stake that both kinds of bets have. -/
def mayBet (db : Database) (bettor : AccountId) (bet : Asset) : Bool :=
  db.headBlockTime ≤ db.grBetIntervalTime ∧ db.greatraceParameters.minGrBet ≤ bet.amount ∧
    (db.accounts.find bettor).isSome ∧
    (db.assets.find bet.assetId).any (fun a => a.symbol = "CWD") ∧
    bet.amount ≤ db.getBalance bettor bet.assetId

/-! #### Bets on places -/

/-- The bet on some places of a team, which the index `by_bet` has at most once. -/
def findRangeBet (db : Database) (team lowerRank upperRank : Nat) : Option (Nat × GrRangeBet) :=
  db.grRangeBets.inOrder.find? fun e =>
    e.2.team = team ∧ e.2.lowerRank = lowerRank ∧ e.2.upperRank = upperRank

/-- `gr_range_bet_evaluator::do_evaluate` -/
def grRangeBetEvaluate (op : GrRangeBetOperation) (db : Database) : Bool :=
  db.mayBet op.bettor op.bet ∧ (db.grTeams.find op.team).isSome ∧
    op.upperRank ≤ db.grTeams.inOrder.length ∧
    (db.findRangeBet op.team op.lowerRank op.upperRank).all fun e =>
      e.2.pool.isMatchedBy op.result op.bet.amount

/-- `gr_range_bet_evaluator::do_apply` -/
def grRangeBetApply (op : GrRangeBetOperation) (db : Database) : Option Database :=
  match db.findRangeBet op.team op.lowerRank op.upperRank with
  | some e =>
    { db with
      grRangeBets := db.grRangeBets.modify e.1 fun b =>
        b.withPool (b.pool.bet op.result op.bettor op.bet.amount) }.adjustBalance op.bettor
          (-op.bet)
  | none =>
    let b : GrRangeBet := { team := op.team, lowerRank := op.lowerRank, upperRank := op.upperRank }
    { db with
      grRangeBets := db.grRangeBets.create
        (b.withPool (BetPool.empty.bet op.result op.bettor op.bet.amount)) }.adjustBalance
      op.bettor (-op.bet)

/-- A bet on places. -/
def grRangeBet (db : Database) (op : GrRangeBetOperation) : Option Database :=
  if op.validate then
    db.applyOperation op.bettor op.fee (grRangeBetEvaluate op) (grRangeBetApply op)
  else none

/-! #### Bets on two teams -/

/-- The bet on two teams in one order or, if there is none, in the other. -/
def findTeamBet (db : Database) (team1 team2 : Nat) : Option (Nat × GrTeamBet) :=
  (db.grTeamBets.inOrder.find? fun e => e.2.team1 = team1 ∧ e.2.team2 = team2).or
    (db.grTeamBets.inOrder.find? fun e => e.2.team1 = team2 ∧ e.2.team2 = team1)

/-- `gr_team_bet_evaluator::do_evaluate` -/
def grTeamBetEvaluate (op : GrTeamBetOperation) (db : Database) : Bool :=
  db.mayBet op.bettor op.bet ∧ (db.grTeams.find op.team1).isSome ∧
    (db.grTeams.find op.team2).isSome ∧ op.team1 ≠ op.team2 ∧
    (op.winner = op.team1 ∨ op.winner = op.team2) ∧
    (db.findTeamBet op.team1 op.team2).all fun e =>
      e.2.pool.isMatchedBy (op.winner = e.2.team1) op.bet.amount

/-- `gr_team_bet_evaluator::do_apply` -/
def grTeamBetApply (op : GrTeamBetOperation) (db : Database) : Option Database :=
  match db.findTeamBet op.team1 op.team2 with
  | some e =>
    { db with
      grTeamBets := db.grTeamBets.modify e.1 fun b =>
        b.withPool (b.pool.bet (op.winner = b.team1) op.bettor op.bet.amount) }.adjustBalance
      op.bettor (-op.bet)
  | none =>
    let b : GrTeamBet := { team1 := op.team1, team2 := op.team2 }
    { db with
      grTeamBets := db.grTeamBets.create
        (b.withPool
          (BetPool.empty.bet (op.winner = op.team1) op.bettor op.bet.amount)) }.adjustBalance
      op.bettor (-op.bet)

/-- A bet on two teams. -/
def grTeamBet (db : Database) (op : GrTeamBetOperation) : Option Database :=
  if op.validate then
    db.applyOperation op.bettor op.fee (grTeamBetEvaluate op) (grTeamBetApply op)
  else none

/-! ### The settlement -/

/-- The teams in an order by volume, those with the same volume by their numbers. -/
def teamsBy (db : Database) (volume : GrTeam → Int) : List (Nat × GrTeam) :=
  db.grTeams.inOrder.insertionSort fun a b => volume a.2 ≤ volume b.2

/-- The teams of the rating of `proceed_gr_bets`, the best first. -/
def rating (db : Database) : List Nat :=
  if isGrInterval db.currentGrInterval then
    ((db.teamsBy (·.grIntervalVolume db.currentGrInterval)).map Prod.fst).reverse
  else []

/-- `rating[team]`: the place of a team, and zero for a team that is not in the rating. -/
def place (db : Database) (team : Nat) : Nat :=
  if team ∈ db.rating then db.rating.idxOf team + 1 else 0

/-- The loops of `proceed_gr_bets`, over the pools with the ways in which they are settled. -/
def settleLoop : List (Option Settlement) → Database × Int → Option (Database × Int)
  | [], st => some st
  | s :: l, (db, accumulatedFee) =>
    s.bind fun s =>
      (db.adjustBalances (s.payments.map fun e => (e.1, .core e.2))).bind fun db =>
        settleLoop l (db, accumulatedFee + s.fee)

/-- The pools in the order in which they are settled, with whether the first side of the pool wins:
the team has come in between the two places, or the first team before the second. -/
def outcomes (db : Database) : List (BetPool × Bool) :=
  (db.grRangeBets.inOrder.map fun e =>
      (e.2.pool, decide (e.2.lowerRank ≤ db.place e.2.team ∧ db.place e.2.team ≤ e.2.upperRank))) ++
    db.grTeamBets.inOrder.map fun e =>
      (e.2.pool, decide (db.place e.2.team1 < db.place e.2.team2))

/-- `database::proceed_gr_bets`. What the loops pay out changes neither the rating nor the bets. -/
def proceedGrBets (db : Database) : Option Database :=
  (settleLoop (db.outcomes.map fun o => o.1.settle o.2) (db, 0)).bind fun (db, accumulatedFee) =>
    { db with
      grRangeBets := db.grRangeBets.clear
      grTeamBets := db.grTeamBets.clear }.modifyCore fun c =>
        { c with accumulatedFees := c.accumulatedFees + accumulatedFee }

/-! ### Places -/

variable {db db' : Database} {t : Nat}

section

variable (h : isGrInterval db.currentGrInterval)

include h

theorem mem_rating : t ∈ db.rating ↔ (db.grTeams.find t).isSome := by
  rw [rating, if_pos h, mem_reverse, teamsBy,
    ((perm_insertionSort _ db.grTeams.inOrder).map Prod.fst).mem_iff, List.mem_map,
    isSome_iff_exists]
  constructor
  · rintro ⟨e, he, rfl⟩
    exact ⟨e.2, Table.mem_inOrder.1 he⟩
  · rintro ⟨team, hteam⟩
    exact ⟨(t, team), Table.mem_inOrder.2 hteam, rfl⟩

theorem length_rating : db.rating.length = db.grTeams.inOrder.length := by
  rw [rating, if_pos h, length_reverse, length_map, teamsBy, length_insertionSort]

theorem place_mem_range (ht : (db.grTeams.find t).isSome) :
    1 ≤ db.place t ∧ db.place t ≤ db.grTeams.inOrder.length := by
  have hmem := (mem_rating h).2 ht
  have hlt := idxOf_lt_length_of_mem hmem
  rw [length_rating h] at hlt
  rw [place, if_pos hmem]
  exact ⟨Nat.le_add_left 1 _, hlt⟩

theorem place_injective {t' : Nat} (ht : (db.grTeams.find t).isSome)
    (ht' : (db.grTeams.find t').isSome) (heq : db.place t = db.place t') : t = t' := by
  have hmem := (mem_rating h).2 ht
  have hmem' := (mem_rating h).2 ht'
  rw [place, if_pos hmem, place, if_pos hmem'] at heq
  exact (idxOf_inj hmem).1 (Nat.succ.inj heq)

/-! ### What a bet changes -/

end

theorem mayBet_eq_true {bettor : AccountId} {bet : Asset} (h : db.mayBet bettor bet = true) :
    db.headBlockTime ≤ db.grBetIntervalTime ∧ db.greatraceParameters.minGrBet ≤ bet.amount := by
  simp only [mayBet, decide_eq_true_eq] at h
  exact ⟨h.1, h.2.1⟩

/-- A bet on places raises the pool of its outcome, or makes one. -/
theorem grRangeBet_eq_some {op : GrRangeBetOperation} (h : db.grRangeBet op = some db') :
    db'.raceView = { db.raceView with rangeBets := db'.grRangeBets.find } ∧
      db.mayBet op.bettor op.bet ∧ (db.grTeams.find op.team).isSome ∧
      db.balances.adjustAll [(op.bettor, -op.bet), (op.bettor, -op.fee)] = some db'.balances ∧
      ∃ id b, BetPool.Target db.grRangeBets GrRangeBet.pool op.IsOn id b ∧
        db'.grRangeBets.find = Function.update db.grRangeBets.find id
          (some (b.withPool (b.pool.bet op.result op.bettor op.bet.amount))) := by
  obtain ⟨-, coreFee, db1, m, -, hev, h1, hfee, rfl⟩ := operation_eq_some h
  simp only [grRangeBetEvaluate, decide_eq_true_eq] at hev
  rw [grRangeBetApply] at h1
  split at h1
  · next e he =>
    obtain ⟨m1, hbet, rfl⟩ := adjustBalance_eq_some h1
    have hkey := find?_some he
    have hkey := of_decide_eq_true hkey
    have hfind := Table.mem_inOrder.1 (mem_of_find?_eq_some he)
    exact ⟨rfl, hev.1, hev.2.1, Balances.adjustAll_pair hbet hfee, e.1, e.2,
      ⟨hkey, .inl hfind⟩, Table.find_modify_eq_update hfind _⟩
  · next he =>
    obtain ⟨m1, hbet, rfl⟩ := adjustBalance_eq_some h1
    refine ⟨rfl, hev.1, hev.2.1, Balances.adjustAll_pair hbet hfee, _,
      { team := op.team, lowerRank := op.lowerRank, upperRank := op.upperRank },
      ⟨⟨rfl, rfl, rfl⟩, .inr ⟨Table.find_nextId, rfl, fun i c hc hon => ?_⟩⟩,
      Table.find_create_eq_update _⟩
    exact find?_eq_none.1 he (i, c) (Table.mem_inOrder.2 hc) (decide_eq_true hon)

/-- A bet on two teams raises the pool of the two, whichever of them is the first there, or makes
one. -/
theorem grTeamBet_eq_some {op : GrTeamBetOperation} (h : db.grTeamBet op = some db') :
    db'.raceView = { db.raceView with teamBets := db'.grTeamBets.find } ∧
      db.mayBet op.bettor op.bet ∧
      (db.grTeams.find op.team1).isSome ∧ (db.grTeams.find op.team2).isSome ∧ op.team1 ≠ op.team2 ∧
      db.balances.adjustAll [(op.bettor, -op.bet), (op.bettor, -op.fee)] = some db'.balances ∧
      ∃ id b, BetPool.Target db.grTeamBets GrTeamBet.pool op.IsOn id b ∧
        db'.grTeamBets.find = Function.update db.grTeamBets.find id
          (some (b.withPool (b.pool.bet (op.winner = b.team1) op.bettor op.bet.amount))) := by
  obtain ⟨-, coreFee, db1, m, -, hev, h1, hfee, rfl⟩ := operation_eq_some h
  simp only [grTeamBetEvaluate, decide_eq_true_eq] at hev
  obtain ⟨hmay, hteam1, hteam2, hne, -⟩ := hev
  rw [grTeamBetApply] at h1
  split at h1
  · next e he =>
    obtain ⟨m1, hbet, rfl⟩ := adjustBalance_eq_some h1
    obtain ⟨hfind, hkey⟩ : db.grTeamBets.find e.1 = some e.2 ∧ op.IsOn e.2 := by
      rcases Option.or_eq_some_iff.1 he with he | ⟨-, he⟩
      · have hkey := find?_some he
        exact ⟨Table.mem_inOrder.1 (mem_of_find?_eq_some he), .inl (of_decide_eq_true hkey)⟩
      · have hkey := find?_some he
        exact ⟨Table.mem_inOrder.1 (mem_of_find?_eq_some he), .inr (of_decide_eq_true hkey)⟩
    exact ⟨rfl, hmay, hteam1, hteam2, hne, Balances.adjustAll_pair hbet hfee, e.1, e.2,
      ⟨hkey, .inl hfind⟩, Table.find_modify_eq_update hfind _⟩
  · next he =>
    obtain ⟨m1, hbet, rfl⟩ := adjustBalance_eq_some h1
    obtain ⟨hfirst, hsecond⟩ := Option.or_eq_none_iff.1 he
    refine ⟨rfl, hmay, hteam1, hteam2, hne, Balances.adjustAll_pair hbet hfee, _,
      { team1 := op.team1, team2 := op.team2 },
      ⟨.inl ⟨rfl, rfl⟩, .inr ⟨Table.find_nextId, rfl, fun i c hc hon => ?_⟩⟩,
      Table.find_create_eq_update _⟩
    rcases hon with hon | hon
    · exact find?_eq_none.1 hfirst (i, c) (Table.mem_inOrder.2 hc) (decide_eq_true hon)
    · exact find?_eq_none.1 hsecond (i, c) (Table.mem_inOrder.2 hc) (decide_eq_true hon)

/-! ### What a settlement pays -/

/-- The loops pay what the pools are settled with, and add up what is left of them. -/
theorem settleLoop_eq_some {l : List (Option Settlement)} {fee fee' : Int}
    (h : settleLoop l (db, fee) = some (db', fee')) :
    ∃ m, ∃ ss : List Settlement, l = ss.map some ∧ db' = { db with balances := m } ∧
      Balances.adjustAll db.balances
        (ss.flatMap fun s => s.payments.map fun e => (e.1, .core e.2)) = some m ∧
      fee' = fee + (ss.map Settlement.fee).sum := by
  induction l generalizing db fee with
  | nil =>
    obtain ⟨rfl, rfl⟩ := Prod.mk.inj (some.inj h)
    exact ⟨db.balances, [], rfl, rfl, rfl, by simp⟩
  | cons s l ih =>
    obtain ⟨s, hs, h'⟩ := bind_eq_some_iff.1 h
    obtain ⟨db1, h1, h'⟩ := bind_eq_some_iff.1 h'
    obtain ⟨m1, hm1, rfl⟩ := adjustBalances_eq_some h1
    obtain ⟨m, ss, rfl, rfl, hm, rfl⟩ := ih h'
    refine ⟨m, s :: ss, by rw [hs]; rfl, rfl, ?_, ?_⟩
    · rw [flatMap_cons, Balances.adjustAll_append, hm1]
      exact hm
    · rw [map_cons, sum_cons, add_assoc]

/-- The loops come to an end if every pool can be settled and nobody is to pay. -/
theorem settleLoop_isSome {ss : List Settlement} (hss : ∀ s ∈ ss, ∀ e ∈ s.payments, 0 ≤ e.2)
    (db : Database) (fee : Int) : ∃ st, settleLoop (ss.map some) (db, fee) = some st := by
  induction ss generalizing db fee with
  | nil => exact ⟨_, rfl⟩
  | cons s ss ih =>
    have hpay : ∀ e ∈ s.payments.map fun e => (e.1, Asset.core e.2), 0 ≤ e.2.amount := by
      intro e he
      obtain ⟨e', he', rfl⟩ := mem_map.1 he
      exact hss s mem_cons_self e' he'
    obtain ⟨m, hm⟩ := Balances.adjustAll_isSome (m := db.balances) hpay
    obtain ⟨st, hst⟩ := ih (fun s' hs' => hss s' (mem_cons_of_mem s hs'))
      { db with balances := m } (fee + s.fee)
    refine ⟨st, ?_⟩
    rw [map_cons, settleLoop, bind_some, adjustBalances, hm]
    exact hst

/-- **All pools are settled, and gone.** -/
theorem proceedGrBets_eq_some (h : db.proceedGrBets = some db') :
    ∃ m c, ∃ ss : List Settlement, (db.outcomes.map fun o => o.1.settle o.2) = ss.map some ∧
      db.assets.find 0 = some c ∧
      Balances.adjustAll db.balances
        (ss.flatMap fun s => s.payments.map fun e => (e.1, .core e.2)) = some m ∧
      db' = { db with
        balances := m
        grRangeBets := db.grRangeBets.clear
        grTeamBets := db.grTeamBets.clear
        assets := db.assets.modify 0 fun c =>
          { c with accumulatedFees := c.accumulatedFees + (ss.map Settlement.fee).sum } } := by
  obtain ⟨⟨db1, fee⟩, h1, h⟩ := bind_eq_some_iff.1 h
  obtain ⟨m, ss, hss, rfl, hm, rfl⟩ := settleLoop_eq_some h1
  obtain ⟨c, hc, rfl⟩ := modifyCore_eq_some h
  refine ⟨m, c, ss, hss, hc, hm, ?_⟩
  rw [zero_add]

end Database

end CrowdwizChain
