import CrowdwizChain.Chain.RaceInterval
import CrowdwizChain.Lib.SortedRange
import Mathlib.Tactic.IntervalCases

/-!
# The ranks at the end of a half

At the end of each half `database::proceed_gr_rank` gives the teams their ranks by the volume of
that half, with seven loops along the index by volume, pays the captains the rewards of the ranks,
and makes elites of the masters among the best ten. Every award is the same small change of the
state, and so the whole routine is a list of awards (`proceedGrRank_ok`); which awards these are
depends on the standings alone.

The loop for a rank should end where the loop for the next rank starts. It ends one short of it, at
the first team with a volume of at least the next threshold less one (`ranks_partition_iff`).
-/

namespace CrowdwizChain

open Option List Table Balances Prod

namespace Database

/-! ### Standings -/

section

variable (db : Database) (volume : GrTeam → Int)

/-- The teams in the order of the index, with what the index is sorted by. -/
def standings : List (Nat × Int) :=
  (db.teamsBy volume).map fun e => (e.1, volume e.2)

theorem standings_eq : db.standings volume =
      (db.grTeams.inOrder.map fun e => (e.1, volume e.2)).insertionSort fun a b => a.2 ≤ b.2 :=
  map_insertionSort _ _ _ _ fun _ _ _ _ => Iff.rfl

theorem perm_standings :
    (db.standings volume).Perm (db.grTeams.inOrder.map fun e => (e.1, volume e.2)) := by
  rw [standings_eq]
  exact perm_insertionSort _ _

theorem nodup_standings : ((db.standings volume).map fst).Nodup := by
  rw [((db.perm_standings volume).map fst).nodup_iff, List.map_map]
  exact nodup_keys_of_sublist (t := db.grTeams) (Sublist.refl _)

theorem pairwise_standings : (db.standings volume).Pairwise fun a b => a.2 ≤ b.2 := by
  rw [standings_eq]
  exact pairwise_insertionSort _ _

theorem length_standings : (db.teamsBy volume).length = (db.standings volume).length :=
  (length_map _).symm

theorem map_fst_standings : (db.teamsBy volume).map fst = (db.standings volume).map fst := by
  rw [standings, List.map_map]
  rfl

theorem length_takeWhile_teamsBy (k : Int) :
    ((db.teamsBy volume).takeWhile fun e => volume e.2 < k).length =
      SortedRange.lowerBound snd (db.standings volume) k := by
  rw [SortedRange.lowerBound, standings, takeWhile_map, length_map]
  rfl

/-- **The teams that a loop visits**, and when it ends: no team has a volume that is under the start
and not under the end. -/
theorem rankedTeams_eq (start stop : Int) (rank : Nat) :
    db.rankedTeams volume start stop rank =
      if rank = 7 ∨ ∀ s ∈ db.standings volume, s.2 < start → s.2 < stop then
        some (((db.standings volume).filter fun s =>
          start ≤ s.2 ∧ (rank = 7 ∨ s.2 < stop)).map fst)
      else none := by
  have hsorted := db.pairwise_standings volume
  simp only [rankedTeams, length_takeWhile_teamsBy, map_take, map_drop, map_fst_standings,
    length_standings]
  simp only [← map_drop, ← map_take]
  by_cases hrank : rank = 7
  · have hle : SortedRange.lowerBound snd (db.standings volume) start ≤
        (db.standings volume).length := (takeWhile_sublist _).length_le
    simp only [hrank, if_true, true_or, and_true, if_pos hle]
    rw [take_of_length_le (by simp), SortedRange.drop_eq_filter hsorted]
  · simp only [hrank, if_false, false_or, SortedRange.lowerBound_le_iff hsorted,
      SortedRange.range_eq_filter hsorted]

end

variable {db db' db'' : Database} {volume : GrTeam → Int} {id : Nat}

/-- The standings depend on the volumes and on nothing else of the teams. -/
theorem standings_congr (hnext : db'.grTeams.nextId = db.grTeams.nextId)
    (hfind : ∀ id, (db'.grTeams.find id).map volume = (db.grTeams.find id).map volume) :
    db'.standings volume = db.standings volume := by
  have hrows : ∀ d : Database, (d.grTeams.inOrder.map fun e => (e.1, volume e.2)) =
      (range d.grTeams.nextId).filterMap fun id =>
        ((d.grTeams.find id).map volume).map (id, ·) := by
    intro d
    rw [inOrder, map_filterMap]
    refine filterMap_congr fun id _ => ?_
    rw [Option.map_map, Option.map_map]
    rfl
  rw [standings_eq, standings_eq, hrows, hrows, hnext]
  congr 1
  refine filterMap_congr fun id _ => ?_
  rw [hfind]

theorem mem_standings {v : Int} :
    (id, v) ∈ db.standings volume ↔ ∃ t, db.grTeams.find id = some t ∧ volume t = v := by
  rw [(db.perm_standings volume).mem_iff, List.mem_map]
  constructor
  · rintro ⟨e, he, heq⟩
    cases heq
    exact ⟨e.2, mem_inOrder.1 he, rfl⟩
  · rintro ⟨t, ht, rfl⟩
    exact ⟨(id, t), mem_inOrder.2 ht, rfl⟩

theorem standings_unique {v w : Int} (hv : (id, v) ∈ db.standings volume)
    (hw : (id, w) ∈ db.standings volume) : v = w := by
  obtain ⟨t, ht, rfl⟩ := mem_standings.1 hv
  obtain ⟨t', ht', rfl⟩ := mem_standings.1 hw
  rw [some.inj (ht.symm.trans ht')]

variable (h : db.rankVolume = some volume)

include h

theorem bestTen_eq : db.bestTen = if 10 ≤ (db.standings volume).length then
      ((db.standings volume).reverse.take 10).map fst else [] := by
  simp only [bestTen, h, length_standings, map_take, map_reverse, map_fst_standings]

theorem nodup_bestTen : db.bestTen.Nodup := by
  rw [bestTen_eq h]
  split
  · refine (((take_sublist 10 _).map fst).nodup ?_)
    rw [map_reverse, nodup_reverse]
    exact db.nodup_standings volume
  · exact nodup_nil

theorem mem_standings_of_mem_bestTen (hid : id ∈ db.bestTen) :
    id ∈ (db.standings volume).map fst := by
  rw [bestTen_eq h] at hid
  split at hid
  · have hmem := ((take_sublist 10 _).map fst).subset hid
    rwa [map_reverse, mem_reverse] at hmem
  · cases hid

end Database

/-! ### Awards -/

/-- A rank for a team, with its reward. -/
structure Award where
  team : Nat
  rank : Nat
  reward : Int

/-- The rank of a team after a list of awards. -/
def lastRank (ws : List Award) (id old : Nat) : Nat :=
  ws.foldl (fun r w => if w.team = id then w.rank else r) old

theorem lastRank_append (ws ws' : List Award) (id old : Nat) :
    lastRank (ws ++ ws') id old = lastRank ws' id (lastRank ws id old) :=
  foldl_append

theorem lastRank_map (ids : List Nat) (rank : Nat) (reward : Int) (id old : Nat) :
    lastRank (ids.map fun i => ⟨i, rank, reward⟩) id old = if id ∈ ids then rank else old := by
  induction ids generalizing old with
  | nil => rfl
  | cons i ids ih =>
    have hstep : lastRank (Award.mk i rank reward :: ids.map fun i => ⟨i, rank, reward⟩) id old =
        lastRank (ids.map fun i => ⟨i, rank, reward⟩) id (if i = id then rank else old) := rfl
    rw [map_cons, hstep, ih]
    by_cases hid : id ∈ ids
    · simp [hid]
    · rcases eq_or_ne i id with rfl | hne
      · simp
      · simp [hid, hne, hne.symm]

namespace Database

variable {db db' db'' : Database} {volume : GrTeam → Int}

/-- `assign_gr_rank_to_team` -/
def award (db : Database) (w : Award) : Option Database :=
  assignGrRankToTeam w.reward w.rank db w.team

/-- The captain of a team. -/
def captainOf (db : Database) (id : Nat) : AccountId :=
  ((db.grTeams.find id).map GrTeam.captain).getD 0

/-- What the routines about ranks rely on: the members of teams are accounts, rewards are not
negative, and there is a core asset. -/
structure RaceOk (db : Database) : Prop where
  members : ∀ id t, db.grTeams.find id = some t →
    ∀ a ∈ t.captain :: t.players, (db.accounts.find a).isSome
  rewards : ∀ r, 0 ≤ db.grReward r
  core : (db.assets.find 0).isSome

/-- What a list of awards does: the teams have their last ranks, and the captains their rewards. -/
structure Awarded (db : Database) (ws : List Award) (db' : Database) : Prop where
  find : ∀ id, db'.grTeams.find id = (db.grTeams.find id).map fun t =>
    { t with lastGrRank := lastRank ws id t.lastGrRank }
  nextId : db'.grTeams.nextId = db.grTeams.nextId
  isSome : ∀ a, (db'.accounts.find a).isSome = (db.accounts.find a).isSome
  balances : db.balances.adjustAll (ws.map fun w => (db.captainOf w.team, .core w.reward)) =
    some db'.balances
  frame : ∃ accounts grTeams balances, db' = { db with accounts, grTeams, balances }

variable {ws : List Award} {e : Nat × GrRank × Int} {v : Int} {id : Nat} {t : GrTeam} {r : GrRank}

theorem Awarded.refl (db : Database) : db.Awarded [] db where
  find id := by cases db.grTeams.find id <;> rfl
  nextId := rfl
  isSome _ := rfl
  balances := rfl
  frame := ⟨_, _, _, rfl⟩

section

variable (h : db.Awarded ws db')

include h

theorem Awarded.captainOf_eq (id : Nat) : db'.captainOf id = db.captainOf id := by
  rw [captainOf, h.find, Option.map_map, captainOf]
  rfl

theorem Awarded.trans {ws' : List Award} (h' : db'.Awarded ws' db'') :
    db.Awarded (ws ++ ws') db'' where
  find id := by
    rw [h'.find, h.find, Option.map_map]
    congr 1
    funext t
    simp only [Function.comp_apply, lastRank_append]
  nextId := h'.nextId.trans h.nextId
  isSome a := (h'.isSome a).trans (h.isSome a)
  balances := by
    have h'bal := h'.balances
    simp only [h.captainOf_eq] at h'bal
    rw [map_append, adjustAll_append, h.balances]
    exact h'bal
  frame := by
    obtain ⟨a, t, b, rfl⟩ := h.frame
    obtain ⟨a', t', b', rfl⟩ := h'.frame
    exact ⟨a', t', b', rfl⟩

theorem Awarded.raceOk (hok : db.RaceOk) : db'.RaceOk := by
  refine ⟨fun id t' ht' a ha => ?_, fun r => ?_, ?_⟩
  · rw [h.find, map_eq_some_iff] at ht'
    obtain ⟨t, ht, rfl⟩ := ht'
    rw [h.isSome]
    exact hok.members id t ht a ha
  · obtain ⟨a, t, b, rfl⟩ := h.frame
    exact hok.rewards r
  · obtain ⟨a, t, b, rfl⟩ := h.frame
    exact hok.core

theorem Awarded.rankVolume_eq : db'.rankVolume = db.rankVolume := by
  obtain ⟨a, t, b, rfl⟩ := h.frame
  rfl

theorem Awarded.grVolume_eq : db'.grVolume = db.grVolume := by
  obtain ⟨a, t, b, rfl⟩ := h.frame
  rfl

theorem Awarded.grReward_eq : db'.grReward = db.grReward := by
  obtain ⟨a, t, b, rfl⟩ := h.frame
  rfl

end

/-- The volume of a half is not a matter of the rank. -/
theorem rankVolume_withRank (h : db.rankVolume = some volume) (t : GrTeam) (n : Nat) :
    volume { t with lastGrRank := n } = volume t := by
  rw [rankVolume] at h
  split at h
  · cases h
    rfl
  · split at h
    · cases h
      rfl
    · cases h

theorem Awarded.standings_eq (h : db.Awarded ws db') (hvol : db.rankVolume = some volume) :
    db'.standings volume = db.standings volume := by
  refine standings_congr h.nextId fun id => ?_
  rw [h.find, Option.map_map]
  congr 1
  funext t
  exact rankVolume_withRank hvol t _

theorem setGrRanks_ok (rank : Nat) (db : Database) {l : List AccountId}
    (hl : ∀ a ∈ l, (db.accounts.find a).isSome) :
    ∃ accounts, l.foldlM (setGrRank rank) db = some { db with accounts } ∧
      ∀ a, (accounts.find a).isSome = (db.accounts.find a).isSome := by
  induction l generalizing db with
  | nil => exact ⟨db.accounts, rfl, fun _ => rfl⟩
  | cons a l ih =>
    obtain ⟨acc, hacc⟩ := isSome_iff_exists.1 (hl a mem_cons_self)
    have hmod := isSome_find_modify (t := db.accounts) a fun acc => { acc with lastGrRank := rank }
    obtain ⟨accounts, hrun, hsome⟩ := ih
      { db with accounts := db.accounts.modify a fun acc => { acc with lastGrRank := rank } }
      (fun b hb => (hmod b).trans (hl b (mem_cons_of_mem _ hb)))
    refine ⟨accounts, ?_, fun b => (hsome b).trans (hmod b)⟩
    rw [foldlM_cons, setGrRank, hacc]
    exact hrun

theorem award_ok (hok : db.RaceOk) {w : Award} (hteam : (db.grTeams.find w.team).isSome)
    (hreward : 0 ≤ w.reward) : ∃ db', db.award w = some db' ∧ db.Awarded [w] db' := by
  obtain ⟨team, hteam⟩ := isSome_iff_exists.1 hteam
  have hmembers := hok.members _ _ hteam
  obtain ⟨acc, hacc⟩ := isSome_iff_exists.1 (hmembers _ mem_cons_self)
  obtain ⟨m, hm⟩ := adjust_isSome (m := db.balances) (a := team.captain)
    (d := .core w.reward) hreward
  have hcap := isSome_find_modify (t := db.accounts) team.captain fun a =>
    { a with lastGrRank := w.rank }
  obtain ⟨accounts, hrun, hsome⟩ := setGrRanks_ok w.rank
    { db with
      grTeams := db.grTeams.modify w.team fun t => { t with lastGrRank := w.rank }
      accounts := db.accounts.modify team.captain fun a => { a with lastGrRank := w.rank }
      balances := m } (l := team.players)
    (fun b hb => (hcap b).trans (hmembers b (mem_cons_of_mem _ hb)))
  refine ⟨{ db with
      accounts
      grTeams := db.grTeams.modify w.team fun t => { t with lastGrRank := w.rank }
      balances := m }, ?_, ⟨fun id => ?_, rfl, fun a => ?_, ?_, ⟨_, _, _, rfl⟩⟩⟩
  · rw [award, assignGrRankToTeam, hteam, bind_some, setGrRank, hacc]
    simp only [map_some, bind_some, adjustBalance]
    rw [hm]
    exact hrun
  · simp only [find_modify, lastRank, foldl_cons, foldl_nil]
    rcases eq_or_ne id w.team with rfl | hne
    · simp
    · simp only [hne, hne.symm, if_false]
      cases db.grTeams.find id <;> rfl
  · exact (hsome a).trans (hcap a)
  · simp only [map_cons, map_nil, captainOf, hteam, map_some, getD_some]
    simpa using hm

theorem awards_ok (hok : db.RaceOk)
    (hws : ∀ w ∈ ws, (db.grTeams.find w.team).isSome ∧ 0 ≤ w.reward) :
    ∃ db', ws.foldlM award db = some db' ∧ db.Awarded ws db' := by
  induction ws generalizing db with
  | nil => exact ⟨db, rfl, Awarded.refl db⟩
  | cons w ws ih =>
    obtain ⟨db1, h1, haw1⟩ := award_ok hok (hws w mem_cons_self).1 (hws w mem_cons_self).2
    obtain ⟨db2, h2, haw2⟩ := ih (haw1.raceOk hok) fun w' hw' => by
      rw [haw1.find, isSome_map]
      exact hws w' (mem_cons_of_mem _ hw')
    refine ⟨db2, ?_, haw1.trans haw2⟩
    rw [foldlM_cons, h1]
    exact h2

/-! ### The loops as awards -/

/-- A volume is in the range of the loop for a rank. -/
def inTier (db : Database) (e : Nat × GrRank × Int) (v : Int) : Bool :=
  db.grVolume e.2.1 ≤ v ∧ (e.1 = 7 ∨ v < e.2.2)

/-- The loop for a rank comes to its end. -/
def TierEnds (db : Database) (volume : GrTeam → Int) (e : Nat × GrRank × Int) : Prop :=
  e.1 = 7 ∨ ∀ s ∈ db.standings volume, s.2 < db.grVolume e.2.1 → s.2 < e.2.2

/-- The awards of the loop for a rank. -/
def tierAwards (db : Database) (volume : GrTeam → Int) (e : Nat × GrRank × Int) : List Award :=
  (((db.standings volume).filter fun s => db.inTier e s.2).map fst).map fun id =>
    ⟨id, e.1, db.grReward e.2.1⟩

theorem tierAwards_ok (hok : db.RaceOk) (volume : GrTeam → Int) (e : Nat × GrRank × Int) :
    ∀ w ∈ db.tierAwards volume e, (db.grTeams.find w.team).isSome ∧ 0 ≤ w.reward := by
  intro w hw
  simp only [tierAwards, List.map_map, List.mem_map, mem_filter] at hw
  obtain ⟨⟨id, v⟩, ⟨hs, -⟩, rfl⟩ := hw
  obtain ⟨t, ht, -⟩ := mem_standings.1 hs
  exact ⟨by simp [ht], hok.rewards _⟩

/-- The loops go by the standings and the thresholds, which awards leave alone. -/
theorem Awarded.tierAwards_eq (h : db.Awarded ws db') (hvol : db.rankVolume = some volume)
    (e : Nat × GrRank × Int) : db'.tierAwards volume e = db.tierAwards volume e := by
  simp only [tierAwards, inTier, h.standings_eq hvol, h.grVolume_eq, h.grReward_eq]

theorem Awarded.tierEnds_iff (h : db.Awarded ws db') (hvol : db.rankVolume = some volume)
    (e : Nat × GrRank × Int) : db'.TierEnds volume e ↔ db.TierEnds volume e := by
  simp only [TierEnds, h.standings_eq hvol, h.grVolume_eq]

section

variable (hok : db.RaceOk) (hvol : db.rankVolume = some volume)

include hvol

theorem assignGrRank_none (hend : ¬db.TierEnds volume e) :
    db.assignGrRank (db.grVolume e.2.1) e.2.2 (db.grReward e.2.1) e.1 = none := by
  have hteams : db.rankedTeams volume (db.grVolume e.2.1) e.2.2 e.1 = none := by
    rw [rankedTeams_eq]
    exact if_neg hend
  rw [assignGrRank, hvol]
  simp only
  rw [hteams]
  rfl

include hok

/-- **The loop for a rank** is the list of its awards, if it ends. -/
theorem assignGrRank_ok (hend : db.TierEnds volume e) :
    ∃ db', db.assignGrRank (db.grVolume e.2.1) e.2.2 (db.grReward e.2.1) e.1 =
        some (db', ((db.tierAwards volume e).map Award.reward).sum) ∧
      db.Awarded (db.tierAwards volume e) db' := by
  obtain ⟨db', hrun, haw⟩ := awards_ok hok (tierAwards_ok hok volume e)
  refine ⟨db', ?_, haw⟩
  have hsum : ((db.tierAwards volume e).map Award.reward).sum = db.grReward e.2.1 *
        (((db.standings volume).filter fun s => db.inTier e s.2).map fst).length := by
    rw [tierAwards, List.map_map]
    have hconst : (Award.reward ∘ fun id => (⟨id, e.1, db.grReward e.2.1⟩ : Award)) =
        fun _ => db.grReward e.2.1 := rfl
    rw [hconst, map_const', sum_replicate, nsmul_eq_mul, mul_comm]
  rw [tierAwards, foldlM_map] at hrun
  have hteams : db.rankedTeams volume (db.grVolume e.2.1) e.2.2 e.1 =
      some (((db.standings volume).filter fun s => db.inTier e s.2).map fst) := by
    rw [rankedTeams_eq]
    exact if_pos hend
  rw [assignGrRank, hvol]
  simp only
  rw [hteams, bind_some, hsum]
  exact map_eq_some_iff.2 ⟨db', hrun, rfl⟩

theorem assignGrRanks_ok {l : List (Nat × GrRank × Int)} (hend : ∀ e ∈ l, db.TierEnds volume e)
    (total : Int) :
    ∃ db', assignGrRanks l (db, total) =
        some (db', total + ((l.flatMap (db.tierAwards volume)).map Award.reward).sum) ∧
      db.Awarded (l.flatMap (db.tierAwards volume)) db' := by
  induction l generalizing db total with
  | nil => exact ⟨db, by simp [assignGrRanks], Awarded.refl db⟩
  | cons e l ih =>
    obtain ⟨db1, h1, haw1⟩ := assignGrRank_ok hok hvol (hend e mem_cons_self)
    obtain ⟨db2, h2, haw2⟩ := ih (haw1.raceOk hok) (haw1.rankVolume_eq.trans hvol)
      (fun e' he' => (haw1.tierEnds_iff hvol e').2 (hend e' (mem_cons_of_mem _ he')))
      (total + ((db.tierAwards volume e).map Award.reward).sum)
    have hsame : db1.tierAwards volume = db.tierAwards volume :=
      funext fun e' => haw1.tierAwards_eq hvol e'
    rw [hsame] at h2 haw2
    refine ⟨db2, ?_, ?_⟩
    · rw [assignGrRanks, h1, bind_some]
      simp only
      rw [h2, flatMap_cons, map_append, sum_append, add_assoc]
    · rw [flatMap_cons]
      exact haw1.trans haw2

/-- A loop that does not end is not made up for by the others. -/
theorem assignGrRanks_none {l : List (Nat × GrRank × Int)} (he : e ∈ l)
    (hend : ¬db.TierEnds volume e) (total : Int) : assignGrRanks l (db, total) = none := by
  induction l generalizing db total with
  | nil => cases he
  | cons e' l ih =>
    rw [assignGrRanks]
    by_cases hend' : db.TierEnds volume e'
    · obtain ⟨db1, h1, haw1⟩ := assignGrRank_ok hok hvol hend'
      rw [h1, bind_some]
      rcases mem_cons.1 he with rfl | he
      · exact absurd hend' hend
      · exact ih (haw1.raceOk hok) (haw1.rankVolume_eq.trans hvol) he
          (fun h => hend ((haw1.tierEnds_iff hvol e).1 h)) _
    · rw [assignGrRank_none hvol hend']
      rfl

end

/-! ### The elite -/

/-- The awards of the loop for the elite. -/
def eliteAwards (db : Database) (ids : List Nat) : List Award :=
  (ids.filter fun id => (db.grTeams.find id).any fun t => t.lastGrRank = 7).map fun id =>
    ⟨id, 8, db.grReward .elite⟩

theorem assignElite_ok (hok : db.RaceOk) {ids : List Nat} (hnd : ids.Nodup) (total : Int) :
    ∃ db', assignElite ids (db, total) =
      some (db', total + ((db.eliteAwards ids).map Award.reward).sum) ∧
      db.Awarded (db.eliteAwards ids) db' := by
  induction ids generalizing db total with
  | nil => exact ⟨db, by simp [assignElite, eliteAwards], Awarded.refl db⟩
  | cons id ids ih =>
    obtain ⟨hid, hnd⟩ := nodup_cons.1 hnd
    rw [assignElite]
    by_cases hmaster : (db.grTeams.find id).any fun t => t.lastGrRank = 7
    · have hsome : (db.grTeams.find id).isSome := by
        cases h : db.grTeams.find id with
        | none =>
          rw [h] at hmaster
          cases hmaster
        | some t => rfl
      obtain ⟨db1, h1, haw1⟩ :=
        award_ok hok (w := ⟨id, 8, db.grReward .elite⟩) hsome (hok.rewards _)
      obtain ⟨db2, h2, haw2⟩ := ih (haw1.raceOk hok) hnd (total + db1.grReward .elite)
      -- the award leaves the ranks of the others alone
      have hsame : db1.eliteAwards ids = db.eliteAwards ids := by
        rw [eliteAwards, eliteAwards, haw1.grReward_eq]
        congr 1
        refine filter_congr fun i hi => ?_
        have hne : id ≠ i := fun h => hid (h ▸ hi)
        rw [haw1.find]
        cases db.grTeams.find i with
        | none => rfl
        | some t => simp [lastRank, hne]
      have hcons :
          db.eliteAwards (id :: ids) = ⟨id, 8, db.grReward .elite⟩ :: db.eliteAwards ids := by
        rw [eliteAwards, filter_cons, if_pos hmaster]
        rfl
      rw [hsame, haw1.grReward_eq] at h2
      rw [hsame] at haw2
      refine ⟨db2, ?_, ?_⟩
      · have h1' : assignGrRankToTeam (db.grReward .elite) 8 db id = some db1 := h1
        rw [if_pos hmaster, h1', bind_some, haw1.grReward_eq, h2, hcons, map_cons,
          sum_cons, add_assoc]
      · rw [hcons]
        exact haw1.trans haw2
    · have hcons : db.eliteAwards (id :: ids) = db.eliteAwards ids := by
        rw [eliteAwards, filter_cons, if_neg hmaster]
        rfl
      rw [if_neg hmaster, hcons]
      exact ih hok hnd total

/-! ### The whole routine -/

theorem resetGrRank_raceOk (hok : db.RaceOk) : db.resetGrRank.RaceOk := by
  refine ⟨fun id t ht a ha => ?_, hok.rewards, hok.core⟩
  simp only [resetGrRank, find_modifyAll, map_eq_some_iff] at ht
  obtain ⟨t, ht, rfl⟩ := ht
  simp only [resetGrRank, find_modifyAll, isSome_map]
  exact hok.members id t ht a ha

section

variable (hvol : db.rankVolume = some volume)

include hvol

theorem standings_resetGrRank : db.resetGrRank.standings volume = db.standings volume := by
  refine standings_congr rfl (congrFun (map_find_modifyAll_of_eq ?_ db.grTeams))
  exact fun t => rankVolume_withRank hvol t 0

/-- All loops come to their ends. -/
def RanksEnd (db : Database) (volume : GrTeam → Int) : Prop :=
  ∀ e ∈ db.rankRanges, db.TierEnds volume e

theorem tierEnds_resetGrRank (e : Nat × GrRank × Int) :
    db.resetGrRank.TierEnds volume e ↔ db.TierEnds volume e := by
  rw [TierEnds, standings_resetGrRank hvol]
  rfl

/-- The awards of the seven loops. -/
def rankAwards (db : Database) (volume : GrTeam → Int) : List Award :=
  db.rankRanges.flatMap (db.tierAwards volume)

theorem rankAwards_resetGrRank : db.resetGrRank.rankAwards volume = db.rankAwards volume := by
  have hsame : db.resetGrRank.tierAwards volume = db.tierAwards volume := by
    funext e
    rw [tierAwards, standings_resetGrRank hvol]
    rfl
  rw [rankAwards, hsame]
  rfl

end

section

variable (hok : db.RaceOk) (hvol : db.rankVolume = some volume)

include hok hvol

/-- **The routine is a list of awards**: first those of the seven loops, then those of the elite,
and the supply grows by what they add up to. -/
theorem proceedGrRank_ok (hend : db.RanksEnd volume) :
    ∃ db1 db2 : Database, db.resetGrRank.Awarded (db.rankAwards volume) db1 ∧
      db1.Awarded (db1.eliteAwards db.bestTen) db2 ∧ db.proceedGrRank = db2.modifyCore fun c =>
        { c with currentSupply := c.currentSupply +
          (((db.rankAwards volume).map Award.reward).sum +
            ((db1.eliteAwards db.bestTen).map Award.reward).sum) } := by
  have hok0 := resetGrRank_raceOk hok
  have hvol0 : db.resetGrRank.rankVolume = some volume := hvol
  obtain ⟨db1, h1, haw1⟩ := assignGrRanks_ok hok0 hvol0 (l := db.resetGrRank.rankRanges)
    (fun e he => (tierEnds_resetGrRank hvol e).2 (hend e he)) 0
  have hawards : db.resetGrRank.rankRanges.flatMap (db.resetGrRank.tierAwards volume) =
      db.rankAwards volume := rankAwards_resetGrRank hvol
  rw [hawards] at h1 haw1
  have hbest : db1.bestTen = db.bestTen := by
    rw [bestTen_eq (haw1.rankVolume_eq.trans hvol0), bestTen_eq hvol, haw1.standings_eq hvol0,
      standings_resetGrRank hvol]
  obtain ⟨db2, h2, haw2⟩ := assignElite_ok (haw1.raceOk hok0) (nodup_bestTen hvol)
    (0 + ((db.rankAwards volume).map Award.reward).sum)
  refine ⟨db1, db2, haw1, haw2, ?_⟩
  simp only [proceedGrRank]
  rw [h1, bind_some]
  simp only
  rw [hbest, h2, bind_some, zero_add]

theorem proceedGrRank_none (hend : ¬db.RanksEnd volume) : db.proceedGrRank = none := by
  simp only [RanksEnd, not_forall] at hend
  obtain ⟨e, he, hend⟩ := hend
  have hvol0 : db.resetGrRank.rankVolume = some volume := hvol
  have hnone := assignGrRanks_none (resetGrRank_raceOk hok) hvol0
    (l := db.resetGrRank.rankRanges) he (fun h => hend ((tierEnds_resetGrRank hvol e).1 h)) 0
  simp only [proceedGrRank]
  rw [hnone]
  rfl

/-- **The routine ends just when its loops do.** -/
theorem isSome_proceedGrRank : db.proceedGrRank.isSome ↔ db.RanksEnd volume := by
  constructor
  · intro h
    by_contra hend
    rw [proceedGrRank_none hok hvol hend] at h
    cases h
  · intro hend
    obtain ⟨db1, db2, haw1, haw2, heq⟩ := proceedGrRank_ok hok hvol hend
    obtain ⟨c, hc⟩ := isSome_iff_exists.1
      (haw2.raceOk (haw1.raceOk (resetGrRank_raceOk hok))).core
    rw [heq, modifyCore, hc]
    rfl

/-! ### What the ranks should be -/

end

/-- The rank for a volume: that of the highest threshold that it reaches, and zero if it reaches
none. -/
def rankOf (db : Database) (v : Int) : Nat :=
  if db.grVolume .master ≤ v then 7
  else if db.grVolume .diamond ≤ v then 6
  else if db.grVolume .platinum ≤ v then 5
  else if db.grVolume .gold ≤ v then 4
  else if db.grVolume .silver ≤ v then 3
  else if db.grVolume .bronze ≤ v then 2
  else if db.grVolume .iron ≤ v then 1
  else 0

theorem rankOf_spec (db : Database) (v : Int) : db.rankOf v = 7 ∧ db.grVolume .master ≤ v ∨
    db.rankOf v = 6 ∧ db.grVolume .diamond ≤ v ∧ v < db.grVolume .master ∨
    db.rankOf v = 5 ∧ db.grVolume .platinum ≤ v ∧ v < db.grVolume .diamond ∨
    db.rankOf v = 4 ∧ db.grVolume .gold ≤ v ∧ v < db.grVolume .platinum ∨
    db.rankOf v = 3 ∧ db.grVolume .silver ≤ v ∧ v < db.grVolume .gold ∨
    db.rankOf v = 2 ∧ db.grVolume .bronze ≤ v ∧ v < db.grVolume .silver ∨
    db.rankOf v = 1 ∧ db.grVolume .iron ≤ v ∧ v < db.grVolume .bronze ∨
    db.rankOf v = 0 ∧ v < db.grVolume .iron := by
  rw [rankOf]
  split_ifs <;> omega

theorem rankOf_le (db : Database) (v : Int) : db.rankOf v ≤ 7 := by
  have := db.rankOf_spec v
  omega

/-- The reward of a rank. -/
def rewardOfRank (db : Database) : Nat → Int
  | 1 => db.grReward .iron
  | 2 => db.grReward .bronze
  | 3 => db.grReward .silver
  | 4 => db.grReward .gold
  | 5 => db.grReward .platinum
  | 6 => db.grReward .diamond
  | 7 => db.grReward .master
  | _ => 0

/-- The thresholds go up from iron to master. -/
structure Monotone (db : Database) : Prop where
  iron : db.grVolume .iron ≤ db.grVolume .bronze
  bronze : db.grVolume .bronze ≤ db.grVolume .silver
  silver : db.grVolume .silver ≤ db.grVolume .gold
  gold : db.grVolume .gold ≤ db.grVolume .platinum
  platinum : db.grVolume .platinum ≤ db.grVolume .diamond
  diamond : db.grVolume .diamond ≤ db.grVolume .master

/-- A team becomes an elite: it is one of the best ten, and a master. -/
def isElite (db : Database) (volume : GrTeam → Int) (id : Nat) (t : GrTeam) : Bool :=
  id ∈ db.bestTen ∧ db.rankOf (volume t) = 7

/-- What a team should be paid: the reward of its rank, and that of the elite on top. -/
def rankPay (db : Database) (volume : GrTeam → Int) (id : Nat) (t : GrTeam) : Int :=
  db.rewardOfRank (db.rankOf (volume t)) +
    if db.isElite volume id t then db.grReward .elite else 0

/-- A sum over all teams. -/
def sumTeams (db : Database) (f : Nat → GrTeam → Int) : Int :=
  (db.grTeams.inOrder.map fun e => f e.1 e.2).sum

/-- **The ranks are right**: every team has the rank of its volume, or that of the elite; every
captain is paid once for the rank of the team; and the supply has grown by what was paid. -/
structure RankedRight (db : Database) (volume : GrTeam → Int) (db' : Database) : Prop where
  ranks : ∀ id t, db.grTeams.find id = some t → ∃ t', db'.grTeams.find id = some t' ∧
    t'.lastGrRank = if db.isElite volume id t then 8 else db.rankOf (volume t)
  paid : ∀ a, db'.getBalance a 0 = db.getBalance a 0 +
    db.sumTeams fun id t => if t.captain = a then db.rankPay volume id t else 0
  supply : ∀ c, db.assets.find 0 = some c → ∃ c', db'.assets.find 0 = some c' ∧
    c'.currentSupply = c.currentSupply + db.sumTeams (db.rankPay volume)

/-! ### Sums over awards -/

/-- A sum over the awards of several loops is one over the standings, of what each team gets from
all the loops. -/
theorem sum_flatMap_tierAwards (db : Database) (volume : GrTeam → Int) (g : Award → Int)
    (l : List (Nat × GrRank × Int)) :
    ((l.flatMap (db.tierAwards volume)).map g).sum = ((db.standings volume).map fun s =>
      (l.map fun e => if db.inTier e s.2 then g ⟨s.1, e.1, db.grReward e.2.1⟩ else 0).sum).sum := by
  have hfilter : ∀ (p : Nat × Int → Bool) (f : Nat × Int → Int) (m : List (Nat × Int)),
      ((m.filter p).map f).sum = (m.map fun s => if p s then f s else 0).sum := by
    intro p f m
    induction m with
    | nil => rfl
    | cons s m ih =>
      rw [filter_cons, map_cons, sum_cons, ← ih]
      split
      · rw [map_cons, sum_cons]
      · rw [zero_add]
  induction l with
  | nil => simp
  | cons e l ih =>
    simp only [flatMap_cons, map_append, sum_append, ih, map_cons, sum_cons, sum_map_add]
    congr 1
    rw [tierAwards, List.map_map, List.map_map]
    exact hfilter _ _ _

theorem sum_standings (db : Database) (volume : GrTeam → Int) (f : Nat → Int → Int) :
    ((db.standings volume).map fun s => f s.1 s.2).sum = db.sumTeams fun id t => f id
    (volume t) := by
  rw [((db.perm_standings volume).map _).sum_eq, List.map_map]
  rfl

theorem sum_ids (db : Database) {ids : List Nat} (hnd : ids.Nodup)
    (hids : ∀ id ∈ ids, (db.grTeams.find id).isSome) (f : Nat → Int) :
    (ids.map f).sum = db.sumTeams fun id _ => if id ∈ ids then f id else 0 := by
  have hkeys : (db.grTeams.inOrder.map fst).Nodup :=
    nodup_keys_of_sublist (t := db.grTeams) (Sublist.refl _)
  have hperm : ((db.grTeams.inOrder.map fst).filter (· ∈ ids)).Perm ids := by
    refine (perm_ext_iff_of_nodup (hkeys.filter _) hnd).2 fun id => ?_
    rw [mem_filter, List.mem_map, decide_eq_true_eq]
    constructor
    · exact fun h => h.2
    · intro h
      obtain ⟨t, ht⟩ := isSome_iff_exists.1 (hids id h)
      exact ⟨⟨(id, t), mem_inOrder.2 ht, rfl⟩, h⟩
  rw [← (hperm.map f).sum_eq, sumTeams]
  induction db.grTeams.inOrder with
  | nil => rfl
  | cons e l ih =>
    rw [map_cons, filter_cons, map_cons, sum_cons, ← ih]
    by_cases he : e.1 ∈ ids
    · simp [he]
    · simp [he]

/-! ### The awards are the right ones -/

/-- No team has a volume that is one under the threshold of bronze or higher. -/
def NoGap (db : Database) (volume : GrTeam → Int) : Prop :=
  ∀ id t, db.grTeams.find id = some t →
      ∀ r ∈ [GrRank.bronze, .silver, .gold, .platinum, .diamond, .master],
      volume t ≠ db.grVolume r - 1

/-- A volume is one under the threshold of bronze or higher. -/
def InGap (db : Database) (v : Int) : Prop :=
  ∃ r ∈ [GrRank.bronze, .silver, .gold, .platinum, .diamond, .master], v = db.grVolume r - 1

section

variable (hmono : db.Monotone)

include hmono

/-- A volume that is not one under a threshold is in the range of the loop of its rank, and in no
other. -/
theorem inTier_iff (hgap : ¬db.InGap v) (he : e ∈ db.rankRanges) :
    db.inTier e v = decide (db.rankOf v = e.1) := by
  obtain ⟨h1, h2, h3, h4, h5, h6⟩ := hmono
  simp only [InGap, mem_cons, not_mem_nil, or_false, exists_eq_or_imp, exists_eq_left,
    not_or] at hgap
  obtain ⟨g1, g2, g3, g4, g5, g6⟩ := hgap
  have hspec := db.rankOf_spec v
  generalize db.rankOf v = n at hspec ⊢
  simp only [rankRanges, mem_cons, not_mem_nil, or_false] at he
  rw [inTier, decide_eq_decide]
  rcases he with rfl | rfl | rfl | rfl | rfl | rfl | rfl <;> dsimp only <;> omega

/-- A volume that is one under a threshold is in the range of no loop: there is none
for rank zero. -/
theorem inTier_gap (hgap : db.InGap v) (he : e ∈ db.rankRanges) :
    db.inTier e v = decide (0 = e.1) := by
  obtain ⟨h1, h2, h3, h4, h5, h6⟩ := hmono
  obtain ⟨r, hr, hv⟩ := hgap
  simp only [rankRanges, mem_cons, not_mem_nil, or_false] at he
  simp only [mem_cons, not_mem_nil, or_false] at hr
  rw [inTier, decide_eq_decide]
  rcases he with rfl | rfl | rfl | rfl | rfl | rfl | rfl <;>
    rcases hr with rfl | rfl | rfl | rfl | rfl | rfl <;> dsimp only <;> omega

theorem ranksEnd_of_noGap (hgap : db.NoGap volume) : db.RanksEnd volume := by
  intro e he
  obtain ⟨h1, h2, h3, h4, h5, h6⟩ := hmono
  rw [TierEnds, or_iff_not_imp_left]
  rintro hrank ⟨id, v⟩ hs
  obtain ⟨t, ht, rfl⟩ := mem_standings.1 hs
  have hgap := hgap id t ht
  simp only [mem_cons, not_mem_nil, or_false, forall_eq_or_imp, forall_eq] at hgap
  obtain ⟨g1, g2, g3, g4, g5, g6⟩ := hgap
  simp only [rankRanges, mem_cons, not_mem_nil, or_false] at he
  rcases he with rfl | rfl | rfl | rfl | rfl | rfl | rfl <;> dsimp only at hrank ⊢ <;> omega

theorem sum_tiers (hgap : ¬db.InGap v) :
    (db.rankRanges.map fun e => if db.inTier e v then db.grReward e.2.1 else 0).sum =
      db.rewardOfRank (db.rankOf v) := by
  have hmap : (db.rankRanges.map fun e => if db.inTier e v then db.grReward e.2.1 else 0) =
      db.rankRanges.map fun e => if db.rankOf v = e.1 then db.grReward e.2.1 else 0 := by
    refine map_congr_left fun e he => ?_
    rw [inTier_iff hmono hgap he]
    simp
  rw [hmap]
  simp only [rankRanges, map_cons, map_nil, sum_cons, sum_nil]
  have hle := db.rankOf_le v
  generalize db.rankOf v = n at hle ⊢
  interval_cases n <;> simp [rewardOfRank]

end

/-- The rank of a team after the seven loops, which start with rank zero. -/
theorem lastRank_rankAwards (hs : (id, v) ∈ db.standings volume) (l : List (Nat × GrRank × Int))
    (old : Nat) :
    lastRank (l.flatMap (db.tierAwards volume)) id old =
      l.foldl (fun r e => if db.inTier e v then e.1 else r) old := by
  induction l generalizing old with
  | nil => rfl
  | cons e l ih =>
    have hmem : id ∈ ((db.standings volume).filter fun s => db.inTier e s.2).map fst ↔
        db.inTier e v = true := by
      rw [List.mem_map]
      constructor
      · rintro ⟨⟨id', w⟩, hw, rfl⟩
        rw [mem_filter] at hw
        rw [standings_unique hs hw.1]
        exact hw.2
      · exact fun h => ⟨(id, v), mem_filter.2 ⟨hs, h⟩, rfl⟩
    rw [flatMap_cons, lastRank_append, tierAwards, lastRank_map, ih, foldl_cons]
    simp only [hmem]

theorem lastRank_rankAwards_eq (ht : db.grTeams.find id = some t) {n : Nat} (hn : n ≤ 7)
    (h : ∀ e ∈ db.rankRanges, db.inTier e (volume t) = decide (n = e.1)) :
    lastRank (db.rankAwards volume) id 0 = n := by
  rw [rankAwards, lastRank_rankAwards (mem_standings.2 ⟨t, ht, rfl⟩)]
  have hfold : db.rankRanges.foldl (fun r e => if db.inTier e (volume t) then e.1 else r) 0 =
      db.rankRanges.foldl (fun r e => if n = e.1 then e.1 else r) 0 := by
    refine foldl_ext _ _ 0 fun r e he => ?_
    rw [h e he]
    simp
  rw [hfold]
  simp only [rankRanges, foldl_cons, foldl_nil]
  interval_cases n <;> rfl

/-! ### The partition -/

theorem proceedGrRank_right (hok : db.RaceOk) (hvol : db.rankVolume = some volume)
    (hmono : db.Monotone) (hgap : db.NoGap volume) :
    ∃ db', db.proceedGrRank = some db' ∧ db.RankedRight volume db' := by
  obtain ⟨db1, db2, haw1, haw2, heq⟩ := proceedGrRank_ok hok hvol (ranksEnd_of_noGap hmono hgap)
  obtain ⟨c, hc⟩ := isSome_iff_exists.1 hok.core
  have hgap : ∀ id t, db.grTeams.find id = some t → ¬db.InGap (volume t) :=
    fun id t ht ⟨r, hr, hv⟩ => hgap id t ht r hr hv
  have hassets : db2.assets = db.assets := by
    obtain ⟨_, _, _, rfl⟩ := haw2.frame
    obtain ⟨_, _, _, rfl⟩ := haw1.frame
    rfl
  have hreward : db1.grReward = db.grReward := haw1.grReward_eq
  -- the ranks after the seven loops
  have hrank : ∀ id t, db.grTeams.find id = some t → ∃ t1, db1.grTeams.find id = some t1 ∧
      t1.captain = t.captain ∧ t1.lastGrRank = db.rankOf (volume t) := by
    intro id t ht
    refine ⟨{ t with lastGrRank := lastRank (db.rankAwards volume) id 0 }, ?_, rfl,
      lastRank_rankAwards_eq ht (db.rankOf_le _) fun e he => inTier_iff hmono (hgap id t ht) he⟩
    rw [haw1.find, resetGrRank, find_modifyAll, ht]
    rfl
  -- the masters among the best ten
  have helite : ∀ id t, db.grTeams.find id = some t →
      (id ∈ db.bestTen.filter (fun id => (db1.grTeams.find id).any fun t => t.lastGrRank = 7) ↔
        db.isElite volume id t = true) := by
    intro id t ht
    obtain ⟨t1, ht1, -, hr1⟩ := hrank id t ht
    rw [mem_filter, ht1, isElite, decide_eq_true_eq]
    simp [hr1]
  have hbest :
      ∀ id ∈ db.bestTen.filter (fun id => (db1.grTeams.find id).any fun t => t.lastGrRank = 7),
      (db.grTeams.find id).isSome := by
    intro id hid
    obtain ⟨⟨id', v⟩, hs, rfl⟩ := mem_map.1 (mem_standings_of_mem_bestTen hvol (mem_filter.1 hid).1)
    obtain ⟨t, ht, -⟩ := mem_standings.1 hs
    simp [ht]
  -- what all awards add up to, for any way of counting them
  have hsum : ∀ g : AccountId → Prop, ∀ [DecidablePred g], ((db.rankAwards volume).map fun w =>
        if g (db.captainOf w.team) then w.reward else 0).sum +
      ((db1.eliteAwards db.bestTen).map fun w =>
        if g (db.captainOf w.team) then w.reward else 0).sum =
      db.sumTeams fun id t => if g t.captain then db.rankPay volume id t else 0 := by
    intro g _
    rw [rankAwards, sum_flatMap_tierAwards, eliteAwards, List.map_map,
      sum_standings db volume (fun id v => (db.rankRanges.map fun e => if db.inTier e v then
        (if g (db.captainOf id) then db.grReward e.2.1 else 0) else 0).sum),
      sum_ids db ((nodup_bestTen hvol).filter _) hbest, sumTeams, sumTeams, sumTeams,
      ← sum_map_add]
    congr 1
    refine map_congr_left fun e he => ?_
    have ht := mem_inOrder.1 he
    have hcap : db.captainOf e.1 = e.2.captain := by rw [captainOf, ht]; rfl
    simp only [Function.comp_apply, hcap, rankPay, hreward, helite e.1 e.2 ht]
    by_cases hg : g e.2.captain
    · simp only [hg, if_true]
      rw [sum_tiers hmono (hgap e.1 e.2 ht)]
    · simp [hg]
  have hcap0 : ∀ id, db.resetGrRank.captainOf id = db.captainOf id := fun id => by
    rw [captainOf, resetGrRank, find_modifyAll, Option.map_map, captainOf]
    rfl
  have hcap1 : ∀ id, db1.captainOf id = db.captainOf id :=
    fun id => (haw1.captainOf_eq id).trans (hcap0 id)
  have hfinal : db.proceedGrRank = some { db2 with
      assets := db2.assets.modify 0 fun c =>
        { c with currentSupply := c.currentSupply +
          (((db.rankAwards volume).map Award.reward).sum +
            ((db1.eliteAwards db.bestTen).map Award.reward).sum) } } := by
    rw [heq, modifyCore, hassets, hc]
    rfl
  refine ⟨_, hfinal, fun id t ht => ?_, fun a => ?_, fun c' hc' => ?_⟩
  · obtain ⟨t1, ht1, -, hr1⟩ := hrank id t ht
    refine ⟨{ t1 with lastGrRank := lastRank (db1.eliteAwards db.bestTen) id t1.lastGrRank }, ?_,
      ?_⟩
    · change db2.grTeams.find id = _
      rw [haw2.find, ht1]
      rfl
    · simp only [eliteAwards, lastRank_map, hr1, helite id t ht]
  · have hbal1 := Balances.amountOf_adjustAll haw1.balances a 0
    have hbal2 := Balances.amountOf_adjustAll haw2.balances a 0
    have hs := hsum (· = a)
    simp only [Balances.given, List.map_map, Function.comp_def, Asset.core, and_true, hcap1,
      hcap0, eq_comm (a := a)] at hbal1 hbal2
    change Balances.amountOf db2.balances a 0 = Balances.amountOf db.balances a 0 + _
    rw [hbal2, hbal1, ← hs, add_assoc]
    rfl
  · cases hc.symm.trans hc'
    have hs := hsum (fun _ => True)
    simp only [if_true] at hs
    refine ⟨{ c with currentSupply := c.currentSupply + db.sumTeams (db.rankPay volume) }, ?_, rfl⟩
    change (db2.assets.modify 0 _).find 0 = _
    rw [find_modify_self, hassets, hc, map_some]
    have hpay : db.sumTeams (db.rankPay volume) = _ := hs.symm
    rw [hpay]

/-- A team in a gap under the lowest threshold makes the first loop start behind its end. -/
theorem not_ranksEnd_of_gap (hmono : db.Monotone) (ht : db.grTeams.find id = some t)
    (hgap : db.InGap (volume t)) (hiron : volume t < db.grVolume .iron) : ¬db.RanksEnd volume := by
  intro hend
  obtain ⟨r, hr, hv⟩ := hgap
  obtain ⟨h1, h2, h3, h4, h5, h6⟩ := hmono
  have htier := hend (1, .iron, db.grVolume .bronze - 1) (by simp [rankRanges])
  rcases htier with h | h
  · cases h
  · have hlt := h (id, volume t) (mem_standings.2 ⟨t, ht, rfl⟩) hiron
    simp only [mem_cons, not_mem_nil, or_false] at hr
    -- the thresholds up to the one over the volume are all the same
    rcases hr with rfl | rfl | rfl | rfl | rfl | rfl <;> dsimp only at hlt <;> omega

/-- **The ranks partition the teams just when no volume is one under a threshold.** At the end of a
half, with thresholds that go up, the routine ends and gives every team the rank of its volume, pays
every captain once and adds just that to the supply, if and only if no team has a volume that is one
under the threshold of bronze or of a higher rank. -/
theorem ranks_partition_iff (hok : db.RaceOk) (hvol : db.rankVolume = some volume)
    (hmono : db.Monotone) :
    (∃ db', db.proceedGrRank = some db' ∧ db.RankedRight volume db') ↔ db.NoGap volume := by
  constructor
  · rintro ⟨db', hdb', hright⟩ id t ht r hr hv
    have hgap : db.InGap (volume t) := ⟨r, hr, hv⟩
    by_cases hend : db.RanksEnd volume
    · obtain ⟨db1, db2, haw1, haw2, heq⟩ := proceedGrRank_ok hok hvol hend
      have hiron : db.grVolume .iron ≤ volume t := by
        by_contra hlt
        exact not_ranksEnd_of_gap hmono ht hgap (not_le.1 hlt) hend
      -- the team gets no rank from the seven loops, so it is no master, and no elite
      have ht1 : db1.grTeams.find id = some { t with lastGrRank := 0 } := by
        rw [haw1.find, resetGrRank, find_modifyAll, ht]
        have hzero : lastRank (db.rankAwards volume) id 0 = 0 :=
          lastRank_rankAwards_eq ht (Nat.zero_le 7) fun e he => inTier_gap hmono hgap he
        simp only [map_some, hzero]
      have hnot :
          id ∉ db.bestTen.filter (fun id => (db1.grTeams.find id).any fun t =>
          t.lastGrRank = 7) := by
        rw [mem_filter, ht1]
        simp
      have ht2 : db2.grTeams.find id = some { t with lastGrRank := 0 } := by
        rw [haw2.find, ht1, map_some, eliteAwards, lastRank_map, if_neg hnot]
      have hteams : db'.grTeams = db2.grTeams := by
        obtain ⟨c, -, rfl⟩ := modifyCore_eq_some (heq.symm.trans hdb')
        rfl
      obtain ⟨t', ht', hrank⟩ := hright.ranks id t ht
      rw [hteams, ht2] at ht'
      cases ht'
      have hspec := db.rankOf_spec (volume t)
      dsimp only at hrank
      split at hrank <;> omega
    · rw [proceedGrRank_none hok hvol hend] at hdb'
      cases hdb'
  · exact proceedGrRank_right hok hvol hmono

/-! ### One team -/

/-- A chain at the end of the first half, with one team of one player besides the captain. -/
def oneTeam (firstHalfVolume : Int) : Database :=
  { start grStartTime [{ referrer := 0 }, { referrer := 0 }] 0 with
    currentGrInterval := 7
    grTeams := Table.empty.create { captain := 0, players := [1], firstHalfVolume } }

theorem oneTeam_find (h : (oneTeam v).grTeams.find id = some t) :
    t = { captain := 0, players := [1], firstHalfVolume := v } := by
  simp only [oneTeam, find_create] at h
  split at h
  · exact (some.inj h).symm
  · cases h

theorem oneTeam_raceOk (v : Int) : (oneTeam v).RaceOk := by
  refine ⟨fun id t ht a ha => ?_, fun r => ?_, rfl⟩
  · obtain rfl := oneTeam_find ht
    simp only [mem_cons, not_mem_nil, or_false] at ha
    rcases ha with rfl | rfl <;> rfl
  · change 0 ≤ GrRank.defaultReward r
    cases r <;> decide

theorem oneTeam_monotone (v : Int) : (oneTeam v).Monotone where
  iron := (by decide : GrRank.iron.defaultVolume ≤ GrRank.bronze.defaultVolume)
  bronze := (by decide : GrRank.bronze.defaultVolume ≤ GrRank.silver.defaultVolume)
  silver := (by decide : GrRank.silver.defaultVolume ≤ GrRank.gold.defaultVolume)
  gold := (by decide : GrRank.gold.defaultVolume ≤ GrRank.platinum.defaultVolume)
  platinum := (by decide : GrRank.platinum.defaultVolume ≤ GrRank.diamond.defaultVolume)
  diamond := (by decide : GrRank.diamond.defaultVolume ≤ GrRank.master.defaultVolume)

/-- A team that reaches the threshold of bronze gets the rank of bronze. -/
theorem ranks_partition_iff_bronze :
    ∃ db', (oneTeam (GrRank.bronze.defaultVolume)).proceedGrRank = some db' ∧
      (oneTeam (GrRank.bronze.defaultVolume)).RankedRight GrTeam.firstHalfVolume db' := by
  refine (ranks_partition_iff (oneTeam_raceOk _) rfl (oneTeam_monotone _)).2 fun id t ht r hr => ?_
  obtain rfl := oneTeam_find ht
  simp only [mem_cons, not_mem_nil, or_false] at hr
  rcases hr with rfl | rfl | rfl | rfl | rfl | rfl <;> decide

/-- A team that misses the threshold of bronze by one has reached that of iron, and gets no rank and
no reward. -/
theorem rank_lost_under_bronze :
    ∃ db' t', (oneTeam (GrRank.bronze.defaultVolume - 1)).proceedGrRank = some db' ∧
      GrRank.iron.defaultVolume ≤ GrRank.bronze.defaultVolume - 1 ∧
      db'.grTeams.find 0 = some t' ∧ t'.lastGrRank = 0 ∧ db'.getBalance 0 0 = 0 ∧
      ¬(oneTeam (GrRank.bronze.defaultVolume - 1)).RankedRight GrTeam.firstHalfVolume db' := by
  refine ⟨_, _, (some_get (by decide +kernel)).symm, by decide,
    (some_get (by decide +kernel)).symm, by decide +kernel, by decide +kernel,
    fun h => ?_⟩
  obtain ⟨t', ht', hrank⟩ := h.ranks 0 _ rfl
  revert hrank
  obtain rfl := some.inj ((some_get (by decide +kernel)).trans ht')
  decide +kernel

end Database

end CrowdwizChain
