import CrowdwizChain.Chain.PocVote
import Mathlib.Data.Finset.Max
import Mathlib.Data.Rat.Floor
import Mathlib.Data.Int.ConditionallyCompleteOrder

/-!
# The count of the votes is a trimmed mean

The loop of `database::count_poc_votes` as the source has it: an iterator over the index by
`has_poc_vote`, which steps on before the votes of the account are cleared and the account moves to
the front part of the index. The loop meets every account with a vote once, so that it does what
`Database.countPocVotes` says (`countPocVotesLoop_eq`), and what is written for each of the three
terms is the mean of the votes that are left when as many of the smallest as of the largest ones are
dropped, in whole coins (`poc_percent_trimmed_mean`).
-/

namespace CrowdwizChain

open Option OrderedTable Database List

/-! ### The loop -/

/-- The statistics of an account, with its number. -/
abbrev StatisticsRow := Σ _ : AccountId, AccountStatistics

/-- The key of the index: whether there is a vote. -/
def hasPocVote (s : AccountStatistics) : Nat := if s.pocVotes.hasVote then 1 else 0

/-- The votes are cleared. -/
def AccountStatistics.withoutPocVotes (s : AccountStatistics) : AccountStatistics :=
  { s with poc3Vote := 0, poc6Vote := 0, poc12Vote := 0 }

theorem hasPocVote_withoutPocVotes (s : AccountStatistics) : hasPocVote s.withoutPocVotes = 0 := rfl

theorem clearPocVotes_eq (s : AccountStatistics) :
    s.clearPocVotes = if s.pocVotes.hasVote then s.withoutPocVotes else s := rfl

namespace Database

/-- The index by `has_poc_vote`: the accounts with a vote come last. -/
def byPocVote (db : Database) : List StatisticsRow :=
  db.statistics.entries.filter (fun e => hasPocVote e.2 = 0) ++
    db.statistics.entries.filter fun e => hasPocVote e.2 = 1

/-- The loop, from an iterator to the end of the index. It yields the votes that it has
met; `none` stands for an iterator that is not in the index, and for a loop that goes on
for more rounds than `n`. -/
def tally : Nat → Option AccountId → List StatisticsRow →
    AList (fun _ : AccountId => AccountStatistics) →
    Option (AList (fun _ : AccountId => AccountStatistics) × List PocVotes)
  | _, none, _, statistics => some (statistics, [])
  | 0, some _, _, _ => none
  | n + 1, some a, index, statistics =>
    (index.dlookup a).bind fun s =>
      -- the iterator steps on before the row moves
      (tally n (OrderedTable.nextId? a index)
        (OrderedTable.modifyRows hasPocVote a AccountStatistics.withoutPocVotes index)
        (statistics.modify a AccountStatistics.withoutPocVotes)).map fun (statistics, votes) =>
          (statistics, s.pocVotes :: votes)

/-- `database::count_poc_votes`, with its loop -/
def countPocVotesLoop (db : Database) : Option Database :=
  (tally db.byPocVote.length
    (OrderedTable.headId (db.byPocVote.dropWhile fun e => hasPocVote e.2 < 1)) db.byPocVote
    db.statistics).bind fun (statistics, ballots) =>
      let votes (f : PocVotes → Int) := (ballots.map f).filter (0 < ·)
      (pocPercent db.stakingParameters (votes PocVotes.poc3) db.poc3Percent).bind fun poc3 =>
        (pocPercent db.stakingParameters (votes PocVotes.poc6) db.poc6Percent).bind fun poc6 =>
          (pocPercent db.stakingParameters (votes PocVotes.poc12) db.poc12Percent).map fun poc12 =>
            { db with
              statistics := statistics
              poc3Percent := poc3
              poc6Percent := poc6
              poc12Percent := poc12 }

variable {X : List StatisticsRow}

/-- A row without a vote stays between the other ones without and those with one. -/
theorem modifyRows_front {a : AccountId} {s : AccountStatistics} {Z : List StatisticsRow}
    (ha : a ∉ Z.keys) (hZ : ∀ e ∈ Z, hasPocVote e.2 = 0) :
    modifyRows hasPocVote a AccountStatistics.withoutPocVotes (Z ++ ⟨a, s⟩ :: X) =
      Z ++ ⟨a, s.withoutPocVotes⟩ :: X := by
  rw [modifyRows_split ha, if_pos]
  rw [inPlace, Bool.and_eq_true_iff]
  constructor
  · rw [Option.all_eq_true]
    intro e he
    simp [hZ e (mem_of_getLast? he)]
  · rw [Option.all_eq_true]
    intro e _
    simp [hasPocVote_withoutPocVotes]

/-- **The loop** meets the rows that remain, one after another, by induction on these. -/
theorem tally_eq {Z : List StatisticsRow} (hnodup : (Z ++ X).NodupKeys)
    (hZ : ∀ e ∈ Z, hasPocVote e.2 = 0) (statistics : AList (fun _ : AccountId => AccountStatistics))
    {n : Nat} (hn : X.length ≤ n) : tally n (headId X) (Z ++ X) statistics =
      some (X.foldl (fun m e => m.modify e.1 AccountStatistics.withoutPocVotes) statistics,
        X.map fun e => e.2.pocVotes) := by
  induction X generalizing Z statistics n with
  | nil =>
    cases n <;> rfl
  | cons e X ih =>
    obtain ⟨a, s⟩ := e
    obtain _ | n := n
    · simp at hn
    have hkeys : (Z ++ ⟨a, s⟩ :: X).keys.Nodup := hnodup
    rw [keys_append, keys_cons] at hkeys
    have ha : a ∉ Z.keys := fun hin => (nodup_append.1 hkeys).2.2 a hin a mem_cons_self rfl
    have hmoved : ((Z ++ [(⟨a, s.withoutPocVotes⟩ : StatisticsRow)]) ++ X).NodupKeys := by
      rw [append_assoc, NodupKeys, keys_append]
      exact hkeys
    have hnext := ih hmoved (fun e he => by
      rcases mem_append.1 he with he | he
      · exact hZ e he
      · rw [mem_singleton.1 he]
        exact hasPocVote_withoutPocVotes s)
      (statistics.modify a AccountStatistics.withoutPocVotes) (Nat.le_of_succ_le_succ hn)
    rw [append_assoc, singleton_append] at hnext
    have hlookup : (Z ++ ⟨a, s⟩ :: X).dlookup a = some s :=
      (mem_dlookup_iff hnodup).2 (mem_append_right _ mem_cons_self)
    change ((Z ++ ⟨a, s⟩ :: X).dlookup a).bind _ = _
    rw [hlookup, bind_some, modifyRows_front ha hZ, nextId?_append ha, hnext]
    rfl

/-! ### The loop does what the count says -/

theorem hasPocVote_le_one (s : AccountStatistics) : hasPocVote s = 0 ∨ hasPocVote s = 1 := by
  unfold hasPocVote
  split
  · exact .inr rfl
  · exact .inl rfl

theorem byPocVote_perm (db : Database) : db.byPocVote.Perm db.statistics.entries := by
  have hnot : (fun e : StatisticsRow => decide (hasPocVote e.2 = 1)) =
      fun e => !decide (hasPocVote e.2 = 0) := by
    funext e
    rcases hasPocVote_le_one e.2 with h | h <;> simp [h]
  rw [byPocVote, hnot]
  exact filter_append_perm _ _

theorem pocBallots_eq (db : Database) : db.pocBallots.map Prod.snd =
    (db.statistics.entries.filter fun e => hasPocVote e.2 = 1).map fun e => e.2.pocVotes := by
  have hkey : (fun e : StatisticsRow => decide (hasPocVote e.2 = 1)) = fun e =>
      e.2.pocVotes.hasVote := by
    funext e
    unfold hasPocVote
    cases e.2.pocVotes.hasVote <;> rfl
  rw [pocBallots, List.filter_map, List.map_map, hkey]
  rfl

/-- What is left of the statistics when the votes of some rows have been cleared. -/
theorem lookup_foldl_withoutPocVotes (hX : X.NodupKeys)
    (m : AList (fun _ : AccountId => AccountStatistics)) (a : AccountId) :
    (X.foldl (fun m e => m.modify e.1 AccountStatistics.withoutPocVotes) m).lookup a =
      (m.lookup a).map fun s => if a ∈ X.keys then s.withoutPocVotes else s := by
  induction X generalizing m with
  | nil => simp
  | cons e X ih =>
    obtain ⟨hnotin, hX⟩ := nodupKeys_cons.1 hX
    rw [foldl_cons, ih hX, AList.lookup_modify, keys_cons]
    by_cases hae : a = e.1
    · subst hae
      simp [Function.comp_def, hnotin]
    · simp [hae]

/-- **The loop and the count agree**, but for the order in which the statistics are kept. -/
theorem countPocVotesLoop_eq (db : Database) :
    ∃ statistics,
      (∀ a, statistics.lookup a = (db.statistics.lookup a).map AccountStatistics.clearPocVotes) ∧
      db.countPocVotesLoop = db.countPocVotes.map fun db' =>
      { db' with statistics := statistics } := by
  have hperm := db.byPocVote_perm
  have hnodup : db.byPocVote.NodupKeys :=
    (perm_nodupKeys hperm).2 db.statistics.nodupKeys
  have hZ : ∀ e ∈ db.statistics.entries.filter (fun e => hasPocVote e.2 = 0), hasPocVote e.2 = 0 :=
    fun e he => of_decide_eq_true (mem_filter.1 he).2
  have hdrop : db.byPocVote.dropWhile (fun e => hasPocVote e.2 < 1) =
      db.statistics.entries.filter fun e => hasPocVote e.2 = 1 := by
    rw [byPocVote, dropWhile_append_of_pos fun e he => by simp [hZ e he]]
    refine dropWhile_eq_self_iff.2 fun hpos => ?_
    have hhead := getElem_mem hpos
    have hone : hasPocVote _ = 1 := of_decide_eq_true (mem_filter.1 hhead).2
    simp [hone]
  have htally := tally_eq hnodup hZ db.statistics (n := db.byPocVote.length) (by
    rw [byPocVote, length_append]
    exact Nat.le_add_left _ _)
  refine ⟨(db.statistics.entries.filter fun e => hasPocVote e.2 = 1).foldl
    (fun m e => m.modify e.1 AccountStatistics.withoutPocVotes) db.statistics, fun a => ?_, ?_⟩
  · rw [lookup_foldl_withoutPocVotes (NodupKeys.sublist filter_sublist db.statistics.nodupKeys)]
    cases hs : db.statistics.lookup a with
    | none => rfl
    | some s =>
      have hmem : a ∈ (db.statistics.entries.filter fun e => hasPocVote e.2 = 1).keys ↔
          s.pocVotes.hasVote = true := by
        rw [mem_keys]
        constructor
        · rintro ⟨s', hs'⟩
          obtain ⟨hin, hone⟩ := mem_filter.1 hs'
          cases hs.symm.trans (AList.mem_lookup_iff.2 hin)
          by_contra hno
          simp [hasPocVote, hno] at hone
        · intro hvote
          refine ⟨s, mem_filter.2 ⟨AList.mem_lookup_iff.1 hs, ?_⟩⟩
          simp [hasPocVote, hvote]
      rw [map_some, map_some, clearPocVotes_eq]
      simp only [hmem]
  · rw [countPocVotesLoop, hdrop]
    change (tally _ _ (_ ++ _) _).bind _ = _
    rw [htally, bind_some, countPocVotes]
    simp only [← pocBallots_eq, List.map_map, Option.map_bind, Option.map_map, Function.comp_def]

/-! ### The mean -/

/-- The votes for one of the terms, one from each account that has voted for it. -/
def termVotes (db : Database) (term : PocVotes → Int) : List Int :=
  (db.statistics.entries.map fun e => term e.2.pocVotes).filter (0 < ·)

theorem termVotes_eq (db : Database) {term : PocVotes → Int}
    (hterm : ∀ v, 0 < term v → v.hasVote = true) :
    (db.pocBallots.map fun b => term b.2).filter (0 < ·) = db.termVotes term := by
  rw [termVotes, pocBallots]
  simp only [List.filter_map, List.filter_filter, List.map_map]
  refine congrArg _ (filter_congr fun e _ => ?_)
  simp only [Function.comp_apply, Bool.and_eq_left_iff_imp, decide_eq_true_eq]
  exact hterm _

end Database

/-- **A trimmed mean.** What is written for a term with enough votes: of the votes in order, as many
of the lowest as of the highest ones are left out, a given part of all. One percent is written for
every whole coin of the mean of the others, which lies between the lowest and the highest of all
votes in that unit. With too few votes nothing is written. -/
structure TrimmedMean (p : StakingParameters) (votes : List Int) (old new : Nat) : Prop where
  few : votes.length < p.pocMinVotes → new = old
  mean : p.pocMinVotes ≤ votes.length → ∃ low mid high : List Int,
    (low ++ mid ++ high).Perm votes ∧ (low ++ mid ++ high).SortedLE ∧
      low.length = votes.length * p.pocFilterPercent / graphene100Percent ∧
      high.length = low.length ∧ mid ≠ [] ∧
      (new : Int) = graphene1Percent * ⌊(mid.sum : ℚ) / mid.length / grapheneBlockchainPrecision⌋
  bounds : p.pocMinVotes ≤ votes.length → ∃ v ∈ votes, ∃ w ∈ votes, (∀ x ∈ votes, v ≤ x ∧ x ≤ w) ∧
    graphene1Percent * (v / grapheneBlockchainPrecision) ≤ new ∧
    new ≤ graphene1Percent * (w / grapheneBlockchainPrecision)

/-- Three divisions, one after another, are the integer part of the mean. -/
theorem floor_mean (sum : Int) (n : Nat) (hsum : 0 ≤ sum) :
    ((sum.toNat / n / grapheneBlockchainPrecision.toNat * graphene1Percent : Nat) : Int) =
      graphene1Percent * ⌊(sum : ℚ) / n / grapheneBlockchainPrecision⌋ := by
  obtain ⟨s, rfl⟩ := Int.eq_ofNat_of_zero_le hsum
  have hfloor : ⌊((s : Int) : ℚ) / n / grapheneBlockchainPrecision⌋ = (s / (n * 100000) : Nat) := by
    rw [div_div]
    have hcast : (n : ℚ) * (grapheneBlockchainPrecision : ℚ) = ((n * 100000 : Nat) : ℚ) := by
      simp [grapheneBlockchainPrecision]
    rw [hcast, Rat.floor_intCast_div_natCast]
    rfl
  rw [hfloor, Nat.div_div_eq_div_mul, Int.toNat_natCast]
  rw [Int.mul_comm]
  rfl

theorem sum_bounds {l : List Int} {v w : Int} (h : ∀ x ∈ l, v ≤ x ∧ x ≤ w) :
    l.length * v ≤ l.sum ∧ l.sum ≤ l.length * w := by
  induction l with
  | nil => simp
  | cons x l ih =>
    obtain ⟨hlow, hhigh⟩ := ih fun y hy => h y (mem_cons_of_mem _ hy)
    obtain ⟨hv, hw⟩ := h x mem_cons_self
    rw [sum_cons, length_cons]
    push_cast
    constructor <;> linarith

/-- The mean is between the least and the greatest of the numbers, in whole coins too. -/
theorem mean_bounds {sum v w : Int} {n : Nat} (hn : 0 < n) (hv : 0 ≤ v) (hlow : n * v ≤ sum)
    (hhigh : sum ≤ n * w) : graphene1Percent * (v / grapheneBlockchainPrecision) ≤
        ((sum.toNat / n / grapheneBlockchainPrecision.toNat * graphene1Percent : Nat) : Int) ∧
      ((sum.toNat / n / grapheneBlockchainPrecision.toNat * graphene1Percent : Nat) : Int) ≤
        graphene1Percent * (w / grapheneBlockchainPrecision) := by
  have hn' : (0 : Int) < n := Int.natCast_pos.2 hn
  have hsum : 0 ≤ sum := (Int.mul_nonneg hn'.le hv).trans hlow
  have hmean : v ≤ sum / n ∧ sum / n ≤ w := by
    constructor
    · rwa [Int.le_ediv_iff_mul_le hn', Int.mul_comm]
    · rw [← Int.lt_add_one_iff, Int.ediv_lt_iff_lt_mul hn', Int.mul_comm]
      linarith
  have hcast :
      ((sum.toNat / n / grapheneBlockchainPrecision.toNat * graphene1Percent : Nat) : Int) =
      sum / n / 100000 * 100 := by
    push_cast
    rw [Int.toNat_of_nonneg hsum]
    rfl
  rw [hcast]
  unfold graphene1Percent grapheneBlockchainPrecision
  omega

/-- **What is written is a trimmed mean**, if less than half of the votes is left out
at either end. -/
theorem pocPercent_trimmedMean {p : StakingParameters} {votes : List Int} (old : Nat)
    (hfilter : p.pocFilterPercent < 50 * graphene1Percent) (hmin : 1 ≤ p.pocMinVotes)
    (hpos : ∀ x ∈ votes, 0 < x) : ∃ new, pocPercent p votes old = some new ∧
    TrimmedMean p votes old new := by
  rw [pocPercent]
  split
  swap
  · next hfew =>
    exact ⟨old, rfl, fun _ => rfl, fun h => absurd h hfew, fun h => absurd h hfew⟩
  next henough =>
  dsimp only
  generalize hk : votes.length * p.pocFilterPercent / graphene100Percent = k
  have hlt : 2 * k < votes.length := by
    unfold graphene100Percent at hk
    unfold graphene1Percent at hfilter
    have hbound : votes.length * p.pocFilterPercent ≤ votes.length * 4999 :=
      Nat.mul_le_mul_left _ (by omega)
    omega
  generalize hsorted : votes.insertionSort (· ≤ ·) = sorted
  have hperm : sorted.Perm votes := hsorted ▸ perm_insertionSort _ votes
  have hlength : sorted.length = votes.length := hperm.length_eq
  have hmid : ((sorted.drop k).take (votes.length - 2 * k)).length = votes.length - 2 * k := by
    rw [length_take, length_drop]
    omega
  have hsplit : sorted = sorted.take k ++ (sorted.drop k).take (votes.length - 2 * k) ++
      (sorted.drop k).drop (votes.length - 2 * k) := by
    rw [append_assoc, take_append_drop, take_append_drop]
  generalize hmiddef : (sorted.drop k).take (votes.length - 2 * k) = mid at hmid hsplit ⊢
  rw [if_neg (by omega)]
  have hsub : ∀ x ∈ mid, x ∈ votes := by
    intro x hx
    refine hperm.mem_iff.1 ?_
    rw [hsplit]
    exact mem_append_left _ (mem_append_right _ hx)
  have hnonneg : 0 ≤ mid.sum := sum_nonneg fun x hx => (hpos x (hsub x hx)).le
  refine ⟨_, rfl, fun h => absurd henough (by omega), fun _ => ?_, fun _ => ?_⟩
  · refine ⟨sorted.take k, mid, (sorted.drop k).drop (votes.length - 2 * k), ?_, ?_, ?_, ?_, ?_, ?_⟩
    · rw [← hsplit]
      exact hperm
    · rw [← hsplit, ← hsorted]
      exact sortedLE_insertionSort
    · rw [length_take]
      omega
    · rw [length_drop, length_drop, length_take]
      omega
    · rw [← length_pos_iff]
      omega
    · exact floor_mean _ _ hnonneg
  · have hne : votes.toFinset.Nonempty := by
      rw [toFinset_nonempty_iff, ← length_pos_iff]
      omega
    obtain ⟨v, hv, hleast⟩ := votes.toFinset.exists_min_image id hne
    obtain ⟨w, hw, hgreatest⟩ := votes.toFinset.exists_max_image id hne
    rw [List.mem_toFinset] at hv hw
    have hbounds : ∀ x ∈ votes, v ≤ x ∧ x ≤ w := fun x hx =>
      ⟨hleast x (List.mem_toFinset.2 hx), hgreatest x (List.mem_toFinset.2 hx)⟩
    refine ⟨v, hv, w, hw, hbounds, ?_⟩
    obtain ⟨hlow, hhigh⟩ := sum_bounds fun x hx => hbounds x (hsub x hx)
    exact mean_bounds (by omega) (hpos v hv).le hlow hhigh

theorem pocPercent_perm {votes votes' : List Int} (h : votes'.Perm votes) (p : StakingParameters)
    (old : Nat) : pocPercent p votes' old = pocPercent p votes old := by
  have hsorted : votes'.insertionSort (· ≤ ·) = votes.insertionSort (· ≤ ·) := by
    refine Perm.eq_of_sortedLE sortedLE_insertionSort sortedLE_insertionSort ?_
    exact (perm_insertionSort _ _).trans (h.trans (perm_insertionSort _ _).symm)
  rw [pocPercent, pocPercent, h.length_eq, hsorted]

namespace Database

theorem termVotes_pos (db : Database) (term : PocVotes → Int) : ∀ x ∈ db.termVotes term, 0 < x :=
  fun _ hx => of_decide_eq_true (mem_filter.1 hx).2

theorem termVotes_perm (db : Database) {statistics : AList fun _ : AccountId => AccountStatistics}
    (h : statistics.entries.Perm db.statistics.entries) (term : PocVotes → Int) :
    ({ db with statistics := statistics }.termVotes term).Perm (db.termVotes term) :=
  (h.map _).filter _

/-- The percentages that the loop writes, out of the votes for each term. -/
theorem countPocVotesLoop_eq_some (db : Database) {poc3 poc6 poc12 : Nat}
    (h3 : pocPercent db.stakingParameters (db.termVotes PocVotes.poc3) db.poc3Percent = some poc3)
    (h6 : pocPercent db.stakingParameters (db.termVotes PocVotes.poc6) db.poc6Percent = some poc6)
    (h12 : pocPercent db.stakingParameters (db.termVotes PocVotes.poc12) db.poc12Percent =
    some poc12) :
    ∃ db', db.countPocVotesLoop = some db' ∧ (∀ a, (db'.pocVotesOf a).hasVote = false) ∧
      db'.poc3Percent = poc3 ∧ db'.poc6Percent = poc6 ∧ db'.poc12Percent = poc12 := by
  have hcount : db.countPocVotes = some { db with
        statistics := db.statistics.mapValues AccountStatistics.clearPocVotes
        poc3Percent := poc3
        poc6Percent := poc6
        poc12Percent := poc12 } := by
    rw [countPocVotes]
    dsimp only
    rw [termVotes_eq db fun v hv => by simp [PocVotes.hasVote, hv], h3, bind_some,
      termVotes_eq db fun v hv => by simp [PocVotes.hasVote, hv], h6, bind_some,
      termVotes_eq db fun v hv => by simp [PocVotes.hasVote, hv], h12, map_some]
  obtain ⟨statistics, hlookup, hloop⟩ := db.countPocVotesLoop_eq
  rw [hcount, map_some] at hloop
  refine ⟨_, hloop, fun a => ?_, rfl, rfl, rfl⟩
  rw [pocVotesOf]
  rw [hlookup]
  cases db.statistics.lookup a with
  | none => rfl
  | some s =>
    rw [map_some, elim_some, AccountStatistics.pocVotes_clearPocVotes]
    split
    · rfl
    · next hno => simpa using hno

/-- **The count of the votes.** With a filter below one half and at least one vote required,
the count goes through and leaves no vote behind. What it writes for each term is the trimmed
mean of the votes of all accounts, one from each; and in whatever order the accounts are
kept, it is the same. -/
theorem poc_percent_trimmed_mean (db : Database)
    (hfilter : db.stakingParameters.pocFilterPercent < 50 * graphene1Percent)
    (hmin : 1 ≤ db.stakingParameters.pocMinVotes) :
    ∃ db', db.countPocVotesLoop = some db' ∧ (∀ a, (db'.pocVotesOf a).hasVote = false) ∧
      TrimmedMean db.stakingParameters (db.termVotes PocVotes.poc3) db.poc3Percent db'.poc3Percent ∧
      TrimmedMean db.stakingParameters (db.termVotes PocVotes.poc6) db.poc6Percent db'.poc6Percent ∧
      TrimmedMean db.stakingParameters (db.termVotes PocVotes.poc12) db.poc12Percent
      db'.poc12Percent ∧ ∀ statistics, statistics.entries.Perm db.statistics.entries →
        ∃ db₂, { db with statistics := statistics }.countPocVotesLoop = some db₂ ∧
          db₂.poc3Percent = db'.poc3Percent ∧ db₂.poc6Percent = db'.poc6Percent ∧
          db₂.poc12Percent = db'.poc12Percent := by
  obtain ⟨poc3, h3, hmean3⟩ :=
    pocPercent_trimmedMean db.poc3Percent hfilter hmin (db.termVotes_pos PocVotes.poc3)
  obtain ⟨poc6, h6, hmean6⟩ :=
    pocPercent_trimmedMean db.poc6Percent hfilter hmin (db.termVotes_pos PocVotes.poc6)
  obtain ⟨poc12, h12, hmean12⟩ :=
    pocPercent_trimmedMean db.poc12Percent hfilter hmin (db.termVotes_pos PocVotes.poc12)
  obtain ⟨db', hdb', hcleared, rfl, rfl, rfl⟩ := db.countPocVotesLoop_eq_some h3 h6 h12
  refine ⟨db', hdb', hcleared, hmean3, hmean6, hmean12, fun statistics hperm => ?_⟩
  have hvotes := db.termVotes_perm hperm
  obtain ⟨db₂, hdb2, -, heq⟩ := { db with statistics := statistics }.countPocVotesLoop_eq_some
    ((pocPercent_perm (hvotes _) _ _).trans h3) ((pocPercent_perm (hvotes _) _ _).trans h6)
    ((pocPercent_perm (hvotes _) _ _).trans h12)
  exact ⟨db₂, hdb2, heq⟩

/-- Five accounts that have voted for the shortest term; one vote is left out at either end. -/
def fiveVotes : Database :=
  { start 0 [] 0 with
    stakingParameters := { pocMinVotes := 5, pocFilterPercent := 20 * graphene1Percent }
    statistics := [10, 1000, 30, 20, 40].zipIdx.foldl
      (fun m (coins, a) => m.insert a { poc3Vote := coins * grapheneBlockchainPrecision }) ∅ }

/-- The mean of the three votes in the middle is thirty coins. -/
theorem poc_percent_trimmed_mean_five :
    ∃ db', fiveVotes.countPocVotesLoop = some db' ∧ db'.poc3Percent = 30 * graphene1Percent ∧
      (∀ a, (db'.pocVotesOf a).hasVote = false) ∧
      TrimmedMean fiveVotes.stakingParameters (fiveVotes.termVotes PocVotes.poc3)
        fiveVotes.poc3Percent (30 * graphene1Percent) := by
  obtain ⟨db', hdb', hcleared, hmean, -⟩ :=
    poc_percent_trimmed_mean fiveVotes (by decide) (by decide)
  have hpercent :
      fiveVotes.countPocVotesLoop.map (·.poc3Percent) = some (30 * graphene1Percent) := by
    decide +kernel
  rw [hdb', map_some, some.injEq] at hpercent
  exact ⟨db', hdb', hpercent, hcleared, hpercent ▸ hmean⟩

end Database

end CrowdwizChain
