import CrowdwizChain.Chain.RaceBet

/-!
# The pools of bets add up

The numbers that a pool keeps next to its stakes are their sums, and every stake is positive
(`BetPool.Ok`). A bet keeps this, and it is what makes the settlement fair: the payments and
the part for the accumulated fees are the whole prize, a winner gets the floor of the exact
share and not less than the stake, and where there is no other side everybody gets the stake
back (`BetPool.Ok.settle`).
-/

namespace CrowdwizChain

open Option List

/-! ### The stakes of one side -/

namespace Stakes

/-- Every stake is positive. -/
def Pos (m : Stakes) : Prop := ∀ a x, m.lookup a = some x → 0 < x

variable {m : Stakes}

theorem total_add (m : Stakes) (a : AccountId) (x : Int) : (m.add a x).total = m.total + x := by
  rw [add]
  split
  · next stake hstake =>
    rw [total, AList.sumBy_insert, hstake, elim_some, total]
    ring
  · next hnone =>
    rw [total, AList.sumBy_insert, hnone, elim_none, total]
    ring

theorem lookup_add (m : Stakes) (a : AccountId) (x : Int) (b : AccountId) :
    (m.add a x).lookup b = if b = a then some ((m.lookup a).getD 0 + x) else m.lookup b := by
  have hinsert : m.add a x = m.insert a ((m.lookup a).getD 0 + x) := by
    rw [add]
    split
    · next stake hstake => rw [hstake, getD_some]
    · next hnone => rw [hnone, Option.getD_none, zero_add]
  rw [hinsert]
  split
  · next heq => rw [heq, AList.lookup_insert]
  · next hne => rw [AList.lookup_insert_ne hne]

theorem Pos.add (hm : m.Pos) (a : AccountId) {x : Int} (hx : 0 < x) : (m.add a x).Pos := by
  intro b y hy
  rw [lookup_add] at hy
  split at hy
  · cases hy
    cases hstake : m.lookup a with
    | none => simpa using hx
    | some stake => exact add_pos (hm a stake hstake) hx
  · exact hm b y hy

theorem Pos.of_mem (hm : m.Pos) {e : Σ _ : AccountId, Int} (he : e ∈ m.entries) : 0 < e.2 :=
  hm e.1 e.2 (AList.mem_lookup_iff.2 he)

theorem total_eq (m : Stakes) : m.total = (m.entries.map Sigma.snd).sum := rfl

theorem Pos.total_pos (hm : m.Pos) (hne : m.entries ≠ []) : 0 < m.total := by
  refine List.sum_pos _ (fun x hx => ?_) (by simpa using hne)
  obtain ⟨e, he, rfl⟩ := List.mem_map.1 hx
  exact hm.of_mem he

theorem Pos.total_nonneg (hm : m.Pos) : 0 ≤ m.total :=
  AList.sumBy_nonneg fun a x hx => (hm a x hx).le

end Stakes

/-! ### Pools -/

namespace BetPool

/-- **A pool adds up**: the prize is the stakes of both sides, the total of a side is the stakes on
it, and stakes are positive. -/
structure Ok (p : BetPool) : Prop where
  prize : p.totalPrize = p.total1 + p.total2
  total1 : p.total1 = p.bets1.total
  total2 : p.total2 = p.bets2.total
  pos1 : p.bets1.Pos
  pos2 : p.bets2.Pos

variable {p : BetPool}

theorem Ok.empty : empty.Ok where
  prize := rfl
  total1 := rfl
  total2 := rfl
  pos1 a x hx := by cases hx
  pos2 a x hx := by cases hx

theorem Ok.bet (h : p.Ok) (first : Bool) (bettor : AccountId) {amount : Int}
    (hamount : 0 < amount) :
    (p.bet first bettor amount).Ok := by
  have hprize := h.prize
  rw [BetPool.bet]
  split
  · refine ⟨?_, ?_, h.total2, h.pos1.add bettor hamount, h.pos2⟩
    · show p.totalPrize + amount = p.total1 + amount + p.total2
      omega
    · show p.total1 + amount = (p.bets1.add bettor amount).total
      rw [Stakes.total_add, h.total1]
  · refine ⟨?_, h.total1, ?_, h.pos1, h.pos2.add bettor hamount⟩
    · show p.totalPrize + amount = p.total1 + (p.total2 + amount)
      omega
    · show p.total2 + amount = (p.bets2.add bettor amount).total
      rw [Stakes.total_add, h.total2]

/-- The stakes on the winning side. -/
def winning (p : BetPool) (firstWins : Bool) : Stakes := if firstWins then p.bets1 else p.bets2

/-- The total of the winning side. -/
def winningTotal (p : BetPool) (firstWins : Bool) : Int := if firstWins then p.total1 else p.total2

/-- **A pool is raised by a bet**: the prize, the total of the side and what the bettor has on it go
up by the amount, and the other side is as before. -/
structure Raises (p p' : BetPool) (first : Bool) (bettor : AccountId) (amount : Int) : Prop where
  prize : p'.totalPrize = p.totalPrize + amount
  total : p'.winningTotal first = p.winningTotal first + amount
  stakes : ∀ a, ((p'.winning first).lookup a).getD 0 =
    ((p.winning first).lookup a).getD 0 + if a = bettor then amount else 0
  other : p'.winning (!first) = p.winning (!first) ∧
    p'.winningTotal (!first) = p.winningTotal (!first)

theorem raises_bet (p : BetPool) (first : Bool) (bettor : AccountId) (amount : Int) :
    p.Raises (p.bet first bettor amount) first bettor amount := by
  have hstakes : ∀ (m : Stakes) (a : AccountId), ((m.add bettor amount).lookup a).getD 0 =
      (m.lookup a).getD 0 + if a = bettor then amount else 0 := by
    intro m a
    rw [Stakes.lookup_add]
    split
    · next heq => rw [heq, getD_some]
    · rw [add_zero]
  cases first with
  | true => exact ⟨rfl, rfl, hstakes p.bets1, rfl, rfl⟩
  | false => exact ⟨rfl, rfl, hstakes p.bets2, rfl, rfl⟩

/-- **A bet is placed**: the pool of its outcome, a new one if there is none, is raised by it. All
others are as before. -/
def Placed {β : Type} (t t' : Table β) (pool : β → BetPool) (outcome : β → Prop) (first : β → Bool)
    (bettor : AccountId) (amount : Int) : Prop :=
  ∃ id b b', Target t pool outcome id b ∧ t'.find id = some b' ∧ outcome b' ∧
    (pool b).Raises (pool b') (first b) bettor amount ∧ ∀ i ≠ id, t'.find i = t.find i

/-- **A fair settlement**: payments and fee are the whole prize; if there are stakes on both sides,
every winner gets the floor of the exact share, which is at least the stake; and if a side is empty,
everybody gets the stake back. -/
structure Fair (p : BetPool) (firstWins : Bool) (s : Settlement) : Prop where
  conserved : (s.payments.map Prod.snd).sum + s.fee = p.totalPrize
  fee : 0 ≤ s.fee
  winners : p.bets1.entries ≠ [] → p.bets2.entries ≠ [] →
      s.payments = (p.winning firstWins).entries.map
        (fun e => (e.1, p.totalPrize * e.2 / p.winningTotal firstWins)) ∧
      ∀ e ∈ (p.winning firstWins).entries, e.2 ≤ p.totalPrize * e.2 / p.winningTotal firstWins
  refund : p.bets1.entries = [] ∨ p.bets2.entries = [] →
    s.payments = (p.bets1.entries ++ p.bets2.entries).map (fun e => (e.1, e.2)) ∧ s.fee = 0

/-- The winning side is paid out of a prize that is at least its stakes. -/
theorem pay_eq_some {prize total : Int} {bets : Stakes} (htotal : total = bets.total)
    (hpos : bets.Pos) (hne : bets.entries ≠ []) (hprize : total ≤ prize) :
    ∃ s : Settlement, pay prize total bets = some s ∧
      s.payments = bets.entries.map (fun e => (e.1, prize * e.2 / total)) ∧
      (s.payments.map Prod.snd).sum + s.fee = prize ∧ 0 ≤ s.fee := by
  have hlt : 0 < total := htotal ▸ hpos.total_pos hne
  have hsum : ((bets.entries.map fun e => (e.1, Shares.share prize total e.2)).map Prod.snd).sum ≤
      prize := by
    have hle := Shares.sum_share_le (hlt.le.trans hprize) hlt
      (l := bets.entries.map Sigma.snd) (by rw [← Stakes.total_eq, htotal])
    rwa [List.map_map] at hle ⊢
  rw [pay, if_neg hlt.ne']
  refine ⟨_, rfl, rfl, ?_⟩
  dsimp only
  split
  · exact ⟨by omega, by omega⟩
  · exact ⟨by omega, le_refl 0⟩

theorem Ok.winning (h : p.Ok) (firstWins : Bool) :
    p.winningTotal firstWins = (p.winning firstWins).total ∧ (p.winning firstWins).Pos ∧
      p.winningTotal firstWins ≤ p.totalPrize := by
  have h1 := h.pos1.total_nonneg
  have h2 := h.pos2.total_nonneg
  rw [h.prize, h.total1, h.total2]
  cases firstWins with
  | true => exact ⟨h.total1, h.pos1, by rw [winningTotal, if_pos rfl, h.total1]; omega⟩
  | false => exact ⟨h.total2, h.pos2, by rw [winningTotal, if_neg (by decide), h.total2]; omega⟩

/-- **A pool that adds up is settled in a fair way**, and nobody has to pay. -/
theorem Ok.settle (h : p.Ok) (firstWins : Bool) :
    ∃ s, p.settle firstWins = some s ∧ p.Fair firstWins s ∧ ∀ e ∈ s.payments, 0 ≤ e.2 := by
  obtain ⟨htotal, hpos, hprize⟩ := h.winning firstWins
  by_cases hne : p.bets1.entries ≠ [] ∧ p.bets2.entries ≠ []
  · have hwin : (p.winning firstWins).entries ≠ [] := by
      cases firstWins with
      | true => exact hne.1
      | false => exact hne.2
    have hlt : 0 < p.winningTotal firstWins := htotal ▸ hpos.total_pos hwin
    obtain ⟨s, hs, hpayments, hconserved, hfee⟩ := pay_eq_some htotal hpos hwin hprize
    have hshare :
        ∀ e ∈ (p.winning firstWins).entries, e.2 ≤ p.totalPrize * e.2 / p.winningTotal firstWins :=
      fun e he => Shares.le_share hlt hprize (hpos.of_mem he).le
    refine ⟨s, ?_, ⟨hconserved, hfee, fun _ _ => ⟨hpayments, hshare⟩, fun hempty => ?_⟩, ?_⟩
    · rw [BetPool.settle, if_pos hne, ← hs]
      cases firstWins <;> rfl
    · rcases hempty with hempty | hempty
      · exact absurd hempty hne.1
      · exact absurd hempty hne.2
    · intro e he
      rw [hpayments] at he
      obtain ⟨e', he', rfl⟩ := List.mem_map.1 he
      exact (hpos.of_mem he').le.trans (hshare e' he')
  · have hsum : (((p.bets1.entries ++ p.bets2.entries).map fun e => (e.1, e.2)).map Prod.snd).sum =
        p.totalPrize := by
      rw [List.map_map, map_append, sum_append, h.prize, h.total1, h.total2]
      rfl
    refine ⟨_, by rw [BetPool.settle, if_neg hne], ⟨?_, le_rfl, fun h1 h2 => absurd ⟨h1, h2⟩ hne,
      fun _ => ⟨rfl, rfl⟩⟩, ?_⟩
    · rw [add_zero]
      exact hsum
    · intro e he
      obtain ⟨e', he', rfl⟩ := List.mem_map.1 he
      rcases mem_append.1 he' with he' | he'
      · exact (h.pos1.of_mem he').le
      · exact (h.pos2.of_mem he').le

theorem settle_all {l : List (BetPool × Bool)} (hok : ∀ o ∈ l, o.1.Ok) :
    ∃ ss : List Settlement, (l.map fun o => o.1.settle o.2) = ss.map some ∧
      List.Forall₂ (fun o s => o.1.Fair o.2 s) l ss ∧ ∀ s ∈ ss, ∀ e ∈ s.payments, 0 ≤ e.2 := by
  induction l with
  | nil => exact ⟨[], rfl, .nil, by simp⟩
  | cons o l ih =>
    obtain ⟨s, hs, hfair, hpay⟩ := (hok o mem_cons_self).settle o.2
    obtain ⟨ss, hss, hfairs, hpays⟩ := ih fun o' ho' => hok o' (mem_cons_of_mem o ho')
    refine ⟨s :: ss, by rw [map_cons, hs, hss, map_cons], .cons hfair hfairs, ?_⟩
    rintro s' (_ | ⟨_, hs'⟩)
    · exact hpay
    · exact hpays s' hs'

end BetPool

namespace Database

/-- **Settled bets**: every pool is settled in a fair way, the bettors get their payments, and what
is left goes to the accumulated fees. -/
theorem proceedGrBets_fair {db : Database} {core : AssetObject}
    (hcore : db.assets.find 0 = some core) (hok : ∀ o ∈ db.outcomes, o.1.Ok) :
    ∃ db' m, ∃ ss : List Settlement, db.proceedGrBets = some db' ∧
      List.Forall₂ (fun o s => o.1.Fair o.2 s) db.outcomes ss ∧
      Balances.adjustAll db.balances
        (ss.flatMap fun s => s.payments.map fun e => (e.1, .core e.2)) = some m ∧
      db' = { db with
        balances := m
        grRangeBets := db.grRangeBets.clear
        grTeamBets := db.grTeamBets.clear
        assets := db.assets.modify 0 fun c =>
          { c with accumulatedFees := c.accumulatedFees + (ss.map Settlement.fee).sum } } := by
  obtain ⟨ss, hss, hfair, hpay⟩ := BetPool.settle_all hok
  obtain ⟨⟨db1, fee⟩, hloop⟩ := settleLoop_isSome hpay db 0
  have hsome : ∃ db', db.proceedGrBets = some db' := by
    obtain ⟨m, ss', -, rfl, -, -⟩ := settleLoop_eq_some hloop
    rw [proceedGrBets, hss, hloop, bind_some]
    exact ⟨_, map_eq_some_iff.2 ⟨core, hcore, rfl⟩⟩
  obtain ⟨db', hdb'⟩ := hsome
  obtain ⟨m, c, ss', hss', -, hm, heq⟩ := proceedGrBets_eq_some hdb'
  obtain rfl : ss = ss' :=
    List.map_injective_iff.2 (Option.some_injective Settlement) (hss.symm.trans hss')
  exact ⟨db', m, ss, hdb', hfair, hm, heq⟩

end Database

end CrowdwizChain
