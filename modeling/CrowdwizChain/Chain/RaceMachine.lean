import CrowdwizChain.Chain.RaceInterval
import CrowdwizChain.Chain.RacePool

/-!
# The race as a machine

The steps of the Great Race on its view alone: teams are founded and disbanded, players join and
leave, bets are placed, time goes by and intervals end. `RaceView.Step` says what each of them needs
and does, and three invariants are kept by all of them:

* `RaceView.Manned`: accounts and teams agree on who is in which team;
* `RaceView.Gated`: there are no bets in an interval in which teams may be deleted, so that bets are
  on teams which exist; for this, bets have to be placed `Timely`;
* `RaceView.Funded`: all pools of bets add up.
-/

namespace CrowdwizChain

open Function (update)

namespace RaceView

/-! ### Steps -/

/-- What kind of step it is: one of the teams, a bet, a block, or anything else. -/
inductive Kind
  | team
  | bet
  | block (time : Nat)
  | other

/-- **The steps of the race.** -/
inductive Step (v : RaceView) : Kind → RaceView → Prop
  /-- a captain without a team makes a new one -/
  | found {t : Nat} {captain : AccountId} (hinterval : v.interval = 1) (ht : v.roster t = none)
      (hcaptain : v.teamOf captain = none) :
      Step v .team { v with
        roster := update v.roster t (some (captain, []))
        teamOf := update v.teamOf captain (some t) }
  /-- a team goes, and its people have none any more -/
  | disband {t : Nat} {captain : AccountId} {players : List AccountId}
      {teamOf : AccountId → Option Nat} (hrest : isRestInterval v.interval)
      (ht : v.roster t = some (captain, players))
      (hin : ∀ a, a = captain ∨ a ∈ players → teamOf a = none)
      (hout : ∀ a, ¬(a = captain ∨ a ∈ players) → teamOf a = v.teamOf a) :
      Step v .team { v with roster := update v.roster t none, teamOf := teamOf }
  /-- somebody without a team joins one that is not full -/
  | join {t : Nat} {captain a : AccountId} {players : List AccountId}
      (ht : v.roster t = some (captain, players)) (hfull : players.length < 11)
      (ha : v.teamOf a = none) :
      Step v .team { v with
        roster := update v.roster t (some (captain, insertPlayer players a))
        teamOf := update v.teamOf a (some t) }
  /-- a player leaves -/
  | leave {t : Nat} {captain a : AccountId} {players : List AccountId}
      (ht : v.roster t = some (captain, players)) (ha : a ∈ players) :
      Step v .team { v with
        roster := update v.roster t (some (captain, players.erase a))
        teamOf := update v.teamOf a none }
  /-- a bet on places, in a pool that exists or in a new one -/
  | rangeBet {id : Nat} {b : GrRangeBet} {first : Bool} {bettor : AccountId} {amount : Int}
      (hopen : v.headBlockTime ≤ v.betTime) (hamount : v.parameters.minGrBet ≤ amount)
      (hteam : (v.roster b.team).isSome)
      (hb : v.rangeBets id = some b ∨ v.rangeBets id = none ∧ b.pool = .empty) :
      Step v .bet { v with
        rangeBets := update v.rangeBets id (some (b.withPool (b.pool.bet first bettor amount))) }
  /-- a bet on two teams, in a pool that exists or in a new one -/
  | teamBet {id : Nat} {b : GrTeamBet} {first : Bool} {bettor : AccountId} {amount : Int}
      (hopen : v.headBlockTime ≤ v.betTime) (hamount : v.parameters.minGrBet ≤ amount)
      (hteam1 : (v.roster b.team1).isSome) (hteam2 : (v.roster b.team2).isSome)
      (hne : b.team1 ≠ b.team2)
      (hb : v.teamBets id = some b ∨ v.teamBets id = none ∧ b.pool = .empty) :
      Step v .bet { v with
        teamBets := update v.teamBets id (some (b.withPool (b.pool.bet first bettor amount))) }
  /-- a block with which no interval ends -/
  | tick {time : Nat} (htime : v.headBlockTime < time) :
      Step v (.block time) { v with headBlockTime := time }
  /-- a block with which an interval ends -/
  | advance {time : Nat} (htime : v.headBlockTime < time) (hdue : v.nextTime ≤ time) :
      Step v (.block time) { v with headBlockTime := time }.advance
  /-- nothing -/
  | stay {κ : Kind} : Step v κ v

variable {v v' : RaceView} {κ : Kind}

variable {n t : Nat} {players : List AccountId}

theorem forall_of_update {β : Type*} {P : β → Prop} {f : Nat → Option β} {id : Nat} {o : Option β}
    (ho : ∀ x, o = some x → P x) (hf : ∀ {i x}, f i = some x → P x) {i : Nat} {x : β}
    (h : update f id o i = some x) : P x := by
  rw [Function.update_apply] at h
  split at h
  · exact ho x h
  · exact hf h

/-! ### The end of an interval -/

@[simp] theorem advance_roster (v : RaceView) : v.advance.roster = v.roster := by
  rw [RaceView.advance]
  split_ifs <;> rfl

@[simp] theorem advance_teamOf (v : RaceView) : v.advance.teamOf = v.teamOf := by
  rw [RaceView.advance]
  split_ifs <;> rfl

@[simp] theorem advance_parameters (v : RaceView) : v.advance.parameters = v.parameters := by
  rw [RaceView.advance]
  split_ifs <;> rfl

theorem advance_rangeBets (v : RaceView) :
    v.advance.rangeBets = if isGrInterval v.interval then fun _ => none else v.rangeBets := by
  rw [RaceView.advance]
  split_ifs <;> rfl

theorem advance_teamBets (v : RaceView) :
    v.advance.teamBets = if isGrInterval v.interval then fun _ => none else v.teamBets := by
  rw [RaceView.advance]
  split_ifs <;> rfl

/-! ### Who is in which team -/

/-- The people of a team. -/
def crew (v : RaceView) (t : Nat) : Option (Set AccountId) :=
  (v.roster t).map fun r => {a | a = r.1 ∨ a ∈ r.2}

/-- **Accounts and teams agree**, players are in the list once and not as the captain, and teams
have at most eleven of them. -/
structure Manned (v : RaceView) : Prop where
  agree : Roster.Agree v.teamOf v.crew
  players : ∀ {t r}, v.roster t = some r → r.2.Nodup ∧ r.1 ∉ r.2 ∧ r.2.length ≤ 11

theorem crew_of_roster {captain : AccountId} (h : v.roster t = some (captain, players)) :
    v.crew t = some {a | a = captain ∨ a ∈ players} := by
  rw [crew, h]
  rfl

theorem crew_update (v : RaceView) (teamOf : AccountId → Option Nat) (t : Nat)
    (r : Option (AccountId × List AccountId)) :
    crew { v with roster := update v.roster t r, teamOf := teamOf } =
      update v.crew t (r.map fun r => {a | a = r.1 ∨ a ∈ r.2}) := by
  funext i
  show (update v.roster t r i).map _ = _
  rw [Function.update_apply, Function.update_apply]
  split <;> rfl

theorem mem_insertPlayer {a b : AccountId} : b ∈ insertPlayer players a ↔ b = a ∨ b ∈ players := by
  rw [insertPlayer]
  split
  · next h =>
    constructor
    · exact .inr
    · rintro (rfl | hb)
      · exact h
      · exact hb
  · rw [List.mem_orderedInsert]

theorem insertPlayer_of_notMem {a : AccountId} (h : a ∉ players) (hnodup : players.Nodup) :
    (insertPlayer players a).Nodup ∧ (insertPlayer players a).length = players.length + 1 := by
  rw [insertPlayer, if_neg h]
  constructor
  · exact (List.perm_orderedInsert _ a players).nodup_iff.2 (List.nodup_cons.2 ⟨h, hnodup⟩)
  · exact List.orderedInsert_length _ players a

theorem Manned.of_eq (h : Manned v) (hroster : v'.roster = v.roster)
    (hteamOf : v'.teamOf = v.teamOf) :
    Manned v' := by
  have hcrew : v'.crew = v.crew := by
    funext t
    rw [crew, crew, hroster]
  exact ⟨by rw [hteamOf, hcrew]; exact h.agree, fun ht => h.players (hroster ▸ ht)⟩

/-- **Every step keeps teams and members in agreement.** -/
theorem Manned.step (h : Manned v) (hs : v.Step κ v') : Manned v' := by
  cases hs with
  | @found t captain hinterval ht hcaptain =>
    refine ⟨?_, forall_of_update ?_ h.players⟩
    · have hset : {a | a = captain ∨ a ∈ ([] : List AccountId)} = insert captain ∅ := by
        ext a
        simp
      rw [crew_update, Option.map_some, hset]
      exact h.agree.enter hcaptain (.inr ⟨by rw [crew, ht]; rfl, rfl⟩)
    · rintro r ⟨⟩
      simp
  | @disband t captain players teamOf hrest ht hin hout =>
    refine ⟨?_, forall_of_update ?_ h.players⟩
    · rw [crew_update]
      exact h.agree.disband (crew_of_roster ht) hin hout
    · rintro r ⟨⟩
  | @join t captain a players ht hfull ha =>
    obtain ⟨hnodup, hcaptain, -⟩ := h.players ht
    have hmem := h.agree.not_mem ha (crew_of_roster ht)
    obtain ⟨hnodup', hlength⟩ := insertPlayer_of_notMem (fun hp => hmem (.inr hp)) hnodup
    refine ⟨?_, forall_of_update ?_ h.players⟩
    · have hset : {b | b = captain ∨ b ∈ insertPlayer players a} =
          insert a {b | b = captain ∨ b ∈ players} := by
        ext b
        show b = captain ∨ b ∈ insertPlayer players a ↔ b = a ∨ b = captain ∨ b ∈ players
        rw [mem_insertPlayer]
        exact or_left_comm
      rw [crew_update, Option.map_some, hset]
      exact h.agree.enter ha (.inl (crew_of_roster ht))
    · rintro r ⟨⟩
      refine ⟨hnodup', fun hc => ?_, by rw [hlength]; exact hfull⟩
      rcases mem_insertPlayer.1 hc with hc | hc
      · exact hmem (.inl hc.symm)
      · exact hcaptain hc
  | @leave t captain a players ht ha =>
    obtain ⟨hnodup, hcaptain, hlength⟩ := h.players ht
    refine ⟨?_, forall_of_update ?_ h.players⟩
    · have hset :
          {b | b = captain ∨ b ∈ players.erase a} = {b | b = captain ∨ b ∈ players} \ {a} := by
        ext b
        show b = captain ∨ b ∈ players.erase a ↔ (b = captain ∨ b ∈ players) ∧ b ≠ a
        rw [hnodup.mem_erase_iff]
        constructor
        · rintro (rfl | ⟨hne, hb⟩)
          · exact ⟨.inl rfl, fun heq => hcaptain (heq ▸ ha)⟩
          · exact ⟨.inr hb, hne⟩
        · rintro ⟨rfl | hb, hne⟩
          · exact .inl rfl
          · exact .inr ⟨hne, hb⟩
      rw [crew_update, Option.map_some, hset]
      exact h.agree.leave (crew_of_roster ht) (.inr ha)
    · rintro r ⟨⟩
      exact ⟨hnodup.erase a, fun hc => hcaptain (List.mem_of_mem_erase hc),
        List.length_erase_le.trans hlength⟩
  | rangeBet => exact h.of_eq rfl rfl
  | teamBet => exact h.of_eq rfl rfl
  | tick => exact h.of_eq rfl rfl
  | advance => exact h.of_eq (advance_roster _) (advance_teamOf _)
  | stay => exact h

/-! ### Bets and living teams -/

/-- Two gates that the source does not have: no bet is placed at the very second at which the first
race starts, and blocks come three weeks before the end of time. -/
def Timely (v : RaceView) : Kind → Prop
  | .bet => v.headBlockTime ≠ grStartTime
  | .block time => time + 21 * secondsPerDay < 2 ^ 32
  | _ => True

instance (v : RaceView) : (κ : Kind) → Decidable (v.Timely κ)
  | .bet => inferInstanceAs (Decidable (_ ≠ _))
  | .block _ => inferInstanceAs (Decidable (_ < _))
  | .team => .isTrue trivial
  | .other => .isTrue trivial

/-- There is no bet. -/
def NoBets (v : RaceView) : Prop := (∀ i, v.rangeBets i = none) ∧ ∀ i, v.teamBets i = none

/-- Every bet is on teams that exist. -/
structure OnTeams (v : RaceView) : Prop where
  range : ∀ {i b}, v.rangeBets i = some b → (v.roster b.team).isSome
  teams : ∀ {i b}, v.teamBets i = some b →
    (v.roster b.team1).isSome ∧ (v.roster b.team2).isSome ∧ b.team1 ≠ b.team2

/-- **There are no bets while teams may be deleted.** Before the first race there are no teams
either. In a rest, the time for bets is over; only in the first one it can be that it ends right
now. In a race, the time for bets ends before the interval does. -/
structure Gated (v : RaceView) : Prop where
  parameters : v.parameters = {}
  interval : v.interval ≤ 14
  early : v.interval = 0 → (∀ t, v.roster t = none) ∧ v.betTime = grStartTime ∧
    v.nextTime = grStartTime
  rest : isRestInterval v.interval → v.NoBets ∧
    (v.betTime < v.headBlockTime ∨ v.betTime = grStartTime ∧ grStartTime ≤ v.headBlockTime)
  race : isGrInterval v.interval → v.betTime < v.nextTime
  onTeams : v.OnTeams

theorem NoBets.onTeams (h : v.NoBets) : v.OnTeams where
  range hb := by
    rw [h.1] at hb
    cases hb
  teams hb := by
    rw [h.2] at hb
    cases hb

theorem Gated.noBets_of_early (h : Gated v) (hearly : v.interval = 0) : v.NoBets := by
  have hnone := (h.early hearly).1
  constructor
  · intro i
    cases hb : v.rangeBets i with
    | none => rfl
    | some b => exact absurd (h.onTeams.range hb) (by rw [hnone]; decide)
  · intro i
    cases hb : v.teamBets i with
    | none => rfl
    | some b => exact absurd (h.onTeams.teams hb).1 (by rw [hnone]; decide)

theorem Gated.interval_ne_zero (h : Gated v) (ht : (v.roster t).isSome) : v.interval ≠ 0 := by
  intro hearly
  rw [(h.early hearly).1] at ht
  cases ht

/-- The intervals: before the first, a rest, or a race. -/
theorem interval_cases (hn : n ≤ 14) : n = 0 ∨ isRestInterval n = true ∨ isGrInterval n = true := by
  have hall : ∀ n < 15, n = 0 ∨ isRestInterval n = true ∨ isGrInterval n = true := by decide
  exact hall n (by omega)

theorem not_rest_of_race (h : isGrInterval n = true) : ¬isRestInterval n = true := by
  have hall : ∀ n ∈ [2, 4, 6, 9, 11, 13], ¬isRestInterval n = true := by decide
  exact hall n (of_decide_eq_true h)

/-- **Bets are placed in a race**, if they are timely. -/
theorem Gated.race_of_open (h : Gated v) (htimely : v.headBlockTime ≠ grStartTime)
    (hopen : v.headBlockTime ≤ v.betTime) (ht : (v.roster t).isSome) :
    isGrInterval v.interval = true := by
  rcases interval_cases h.interval with hearly | hrest | hrace
  · exact absurd hearly (h.interval_ne_zero ht)
  · rcases (h.rest hrest).2 with hlt | ⟨heq, hle⟩ <;> omega
  · exact hrace

/-- The teams change, but none that a bet is on goes. -/
theorem Gated.teams (h : Gated v) {roster : Nat → Option (AccountId × List AccountId)}
    {teamOf : AccountId → Option Nat} (hinterval : v.interval ≠ 0)
    (honTeams : OnTeams { v with roster := roster, teamOf := teamOf }) :
    Gated { v with roster := roster, teamOf := teamOf } where
  parameters := h.parameters
  interval := h.interval
  early hearly := absurd hearly hinterval
  rest := h.rest
  race := h.race
  onTeams := honTeams

/-- The teams that exist are still there when one of them changes. -/
theorem OnTeams.update (h : v.OnTeams) {r : AccountId × List AccountId}
    {teamOf : AccountId → Option Nat} :
    OnTeams { v with roster := update v.roster t (some r), teamOf := teamOf } := by
  have hsome : ∀ i, (v.roster i).isSome → (Function.update v.roster t (some r) i).isSome := by
    intro i hi
    rw [Function.update_apply]
    split
    · rfl
    · exact hi
  constructor
  · intro i b hb
    exact hsome b.team (h.range hb)
  · intro i b hb
    obtain ⟨h1, h2, hne⟩ := h.teams hb
    exact ⟨hsome b.team1 h1, hsome b.team2 h2, hne⟩

theorem Gated.bets (h : Gated v) (hrace : isGrInterval v.interval = true)
    {rangeBets : Nat → Option GrRangeBet} {teamBets : Nat → Option GrTeamBet}
    (honTeams : OnTeams { v with rangeBets := rangeBets, teamBets := teamBets }) :
    Gated { v with rangeBets := rangeBets, teamBets := teamBets } where
  parameters := h.parameters
  interval := h.interval
  early := h.early
  rest hrest := absurd hrest (not_rest_of_race hrace)
  race := h.race
  onTeams := honTeams

theorem Gated.tick (h : Gated v) {time : Nat} (htime : v.headBlockTime < time) :
    Gated { v with headBlockTime := time } where
  parameters := h.parameters
  interval := h.interval
  early := h.early
  rest hrest := by
    obtain ⟨hnone, hbet⟩ := h.rest hrest
    refine ⟨hnone, ?_⟩
    show v.betTime < time ∨ v.betTime = grStartTime ∧ grStartTime ≤ time
    omega
  race := h.race
  onTeams := ⟨h.onTeams.range, h.onTeams.teams⟩

theorem timeAfter_eq (v : RaceView) {days : Nat} (hdays : days ≤ 21)
    (htime : v.nextTime + 21 * secondsPerDay < 2 ^ 32) :
    v.timeAfter days = v.nextTime + days * secondsPerDay := by
  have hle : days * secondsPerDay ≤ 21 * secondsPerDay := Nat.mul_le_mul_right _ hdays
  rw [timeAfter, timePointSec, Nat.mod_eq_of_lt (by omega)]

/-- The intervals after one another: from a start or from the end, from a rest to a race, from a
race to a rest, and one rest after another. -/
theorem next_interval (hn : n ≤ 14) : n = 0 ∨ n = 14 ∨
      (n ≠ 0 ∧ n ≠ 14 ∧ isRestInterval n = true ∧ isGrInterval (n + 1) = true ∧
        GreatraceParameters.interval {} (n + 1) = 21) ∨
      (n ≠ 0 ∧ n ≠ 14 ∧ isGrInterval n = true ∧ isGrInterval (n + 1) = false ∧
        isRestInterval (n + 1) = true) ∨ n = 7 := by
  have hall : ∀ n < 15, n = 0 ∨ n = 14 ∨
      (n ≠ 0 ∧ n ≠ 14 ∧ isRestInterval n = true ∧ isGrInterval (n + 1) = true ∧
        GreatraceParameters.interval {} (n + 1) = 21) ∨
      (n ≠ 0 ∧ n ≠ 14 ∧ isGrInterval n = true ∧ isGrInterval (n + 1) = false ∧
        isRestInterval (n + 1) = true) ∨ n = 7 := by decide
  exact hall n (by omega)

/-- An interval ends, and a rest begins: there are no bets, and the time for them is over. -/
theorem Gated.of_rest (hparams : v.parameters = {}) (hrest : isRestInterval v.interval = true)
    (hinterval : v.interval ≤ 14) (hbets : v.NoBets)
    (htime : v.betTime < v.headBlockTime ∨ v.betTime = grStartTime ∧
    grStartTime ≤ v.headBlockTime) :
    Gated v where
  parameters := hparams
  interval := hinterval
  early hearly := by
    rw [hearly] at hrest
    cases hrest
  rest _ := ⟨hbets, htime⟩
  race hrace := absurd hrest (not_rest_of_race hrace)
  onTeams := hbets.onTeams

theorem Gated.advance (h : Gated v) (hdue : v.nextTime ≤ v.headBlockTime)
    (htime : v.headBlockTime + 21 * secondsPerDay < 2 ^ 32) : Gated v.advance := by
  have hparams : v.advance.parameters = {} := by rw [advance_parameters, h.parameters]
  rcases next_interval h.interval with hn | hn | ⟨h0, h14, hrest, hnext, hdays⟩ |
    ⟨h0, h14, hrace, hnext, hrest⟩ | hn
  · -- the first race starts
    obtain ⟨hnone, hbet, hstart⟩ := h.early hn
    have heq : v.advance = { v with
        interval := 1
        nextTime := v.timeAfter (v.parameters.interval 1) } := by
      rw [RaceView.advance, if_pos (.inl hn), if_neg (by rw [hn]; decide)]
    rw [heq] at hparams ⊢
    exact .of_rest hparams rfl (show 1 ≤ 14 by decide) (h.noBets_of_early hn)
      (.inr ⟨hbet, hstart ▸ hdue⟩)
  · -- the next race starts
    obtain ⟨hbets, hbet⟩ := h.rest (by rw [hn]; decide)
    have heq : v.advance = { v with
        interval := 1
        nextTime := v.timeAfter (v.parameters.interval 1) } := by
      rw [RaceView.advance, if_pos (.inr hn), if_neg (by rw [hn]; decide)]
    rw [heq] at hparams ⊢
    exact .of_rest hparams rfl (show 1 ≤ 14 by decide) hbets hbet
  · -- a race interval begins: the time for bets ends in the middle of it
    obtain ⟨hbets, -⟩ := h.rest hrest
    have hgr : ¬isGrInterval v.interval = true := fun hgr => not_rest_of_race hgr hrest
    have hnextTime : v.nextTime + 21 * secondsPerDay < 2 ^ 32 := by omega
    have heq : v.advance = { v with
          interval := v.interval + 1
          betTime := v.nextTime + 10 * secondsPerDay
          nextTime := v.nextTime + 21 * secondsPerDay } := by
      rw [RaceView.advance, if_neg hgr, if_neg (not_or.2 ⟨h0, h14⟩), if_pos hnext, h.parameters,
        hdays, timeAfter_eq v (by decide) hnextTime, timeAfter_eq v (by decide) hnextTime]
    have hbets' : v.advance.NoBets := by
      rw [heq]
      exact hbets
    rw [heq] at hparams hbets' ⊢
    refine ⟨hparams, ?_, fun hearly => absurd hearly (Nat.succ_ne_zero _),
      fun hrest' => absurd hrest' (not_rest_of_race hnext), fun _ => ?_, hbets'.onTeams⟩
    · have hle := h.interval
      show v.interval + 1 ≤ 14
      omega
    · exact Nat.add_lt_add_left (by decide) _
  · -- a race interval ends: the bets are settled
    have hbet := h.race hrace
    have hle := h.interval
    have heq : v.advance = { v.settled with
          interval := v.interval + 1
          nextTime := v.timeAfter (v.parameters.interval (v.interval + 1)) } := by
      rw [RaceView.advance, if_pos hrace, if_neg (not_or.2 ⟨h0, h14⟩), if_neg (by simp [hnext]),
        if_pos (by omega)]
      rfl
    rw [heq] at hparams ⊢
    exact .of_rest hparams hrest (by show v.interval + 1 ≤ 14; omega)
      ⟨fun _ => rfl, fun _ => rfl⟩ (.inl (by show v.betTime < v.headBlockTime; omega))
  · -- the second half begins
    obtain ⟨hbets, hbet⟩ := h.rest (by rw [hn]; decide)
    have heq : v.advance = { v with
        interval := 8
        nextTime := v.timeAfter (v.parameters.interval 8) } := by
      rw [RaceView.advance, hn]
      rfl
    rw [heq] at hparams ⊢
    exact .of_rest hparams rfl (show 8 ≤ 14 by decide) hbets hbet

/-- **Every step keeps the gates**: there are no bets while teams may be deleted. -/
theorem Gated.step (h : Gated v) (htimely : v.Timely κ) (hs : v.Step κ v') : Gated v' := by
  cases hs with
  | found hinterval ht hcaptain =>
    exact h.teams (by rw [hinterval]; decide) h.onTeams.update
  | disband hrest ht hin hout =>
    have hbets : v.NoBets := (h.rest hrest).1
    exact h.teams (h.interval_ne_zero (by rw [ht]; rfl)) (NoBets.onTeams hbets)
  | join ht hfull ha =>
    exact h.teams (h.interval_ne_zero (by rw [ht]; rfl)) h.onTeams.update
  | leave ht ha =>
    exact h.teams (h.interval_ne_zero (by rw [ht]; rfl)) h.onTeams.update
  | rangeBet hopen hamount hteam hb =>
    refine h.bets (h.race_of_open htimely hopen hteam) ⟨forall_of_update ?_ h.onTeams.range,
      h.onTeams.teams⟩
    rintro b ⟨⟩
    exact hteam
  | teamBet hopen hamount hteam1 hteam2 hne hb =>
    refine h.bets (h.race_of_open htimely hopen hteam1) ⟨h.onTeams.range,
      forall_of_update ?_ h.onTeams.teams⟩
    rintro b ⟨⟩
    exact ⟨hteam1, hteam2, hne⟩
  | tick htime => exact h.tick htime
  | advance htime hdue => exact (h.tick htime).advance hdue htimely
  | stay => exact h

/-! ### Pools -/

/-- **All pools add up**, and the smallest bet is positive. -/
structure Funded (v : RaceView) : Prop where
  minGrBet : 0 < v.parameters.minGrBet
  range : ∀ {i b}, v.rangeBets i = some b → b.pool.Ok
  teams : ∀ {i b}, v.teamBets i = some b → b.pool.Ok

/-- **Every step keeps the pools adding up.** -/
theorem Funded.step (h : Funded v) (hs : v.Step κ v') : Funded v' := by
  cases hs with
  | found => exact ⟨h.minGrBet, h.range, h.teams⟩
  | disband => exact ⟨h.minGrBet, h.range, h.teams⟩
  | join => exact ⟨h.minGrBet, h.range, h.teams⟩
  | leave => exact ⟨h.minGrBet, h.range, h.teams⟩
  | @rangeBet id b first bettor amount hopen hamount hteam hb =>
    have hpool : b.pool.Ok := by
      rcases hb with hb | ⟨-, hempty⟩
      · exact h.range hb
      · rw [hempty]
        exact .empty
    refine ⟨h.minGrBet, forall_of_update ?_ h.range, h.teams⟩
    rintro b' ⟨⟩
    exact hpool.bet first bettor (h.minGrBet.trans_le hamount)
  | @teamBet id b first bettor amount hopen hamount hteam1 hteam2 hne hb =>
    have hpool : b.pool.Ok := by
      rcases hb with hb | ⟨-, hempty⟩
      · exact h.teams hb
      · rw [hempty]
        exact .empty
    refine ⟨h.minGrBet, h.range, forall_of_update ?_ h.teams⟩
    rintro b' ⟨⟩
    exact hpool.bet first bettor (h.minGrBet.trans_le hamount)
  | tick => exact ⟨h.minGrBet, h.range, h.teams⟩
  | advance htime hdue =>
    refine ⟨by rw [advance_parameters]; exact h.minGrBet, fun {i b} hb => ?_, fun {i b} hb => ?_⟩
    · rw [advance_rangeBets] at hb
      split at hb
      · cases hb
      · exact h.range hb
    · rw [advance_teamBets] at hb
      split at hb
      · cases hb
      · exact h.teams hb
  | stay => exact h

end RaceView

end CrowdwizChain
