import Mathlib.Data.Char
import Mathlib.Data.List.Lex
import CrowdwizChain.Chain.Committee
import CrowdwizChain.Chain.FeeDistribution
import CrowdwizChain.Lib.IndexWalk

/-!
# The walk of the account maintenance

The second loop of `database::perform_account_maintenance`, with its iterator. The loop walks along
the index `by_maintenance_seq` of the account statistics, which has them in the order of
`need_maintenance` and of the names. It hands an account to the tally of the votes and to
`process_fees`. The latter changes the statistics of the account and of its referrers, and so the
keys of the index that the loop is walking along.

Fees come to be pending nowhere in the loop, and the statistics of others change in what they have
earned and in `has_cashback_vb`, which is never taken back: an account that needs maintenance does
so until it is processed itself (`Database.processFees_keepsOthers`). This is all that the rule of
`CrowdwizChain.Lib.IndexWalk` needs.

The loop ends where `process_fees` does. That is so if the referrals lead to the root account
(`Database.Tree`). Around a circle of referrals `next_rewardable` goes on for ever when
`compression_levels` is the greatest number of its type, which no counter exceeds (`climb_circle`).
-/

namespace CrowdwizChain

open Option Transition AccountStatistics

namespace AccountStatistics

/-- `has_some_core_voting` -/
def hasSomeCoreVoting (s : AccountStatistics) : Bool :=
  s.isVoting && (0 < s.totalCoreInOrders || 0 < s.coreInBalance || s.hasCashbackVb)

/-- `has_pending_fees` -/
def hasPendingFees (s : AccountStatistics) : Bool := 0 < s.pendingFees || 0 < s.pendingVestedFees

/-- `need_maintenance` -/
def needMaintenance (s : AccountStatistics) : Bool := s.hasSomeCoreVoting || s.hasPendingFees

end AccountStatistics

namespace Database

/-- The statistics of the account need maintenance. -/
def needsMaintenance (db : Database) (a : AccountId) : Bool :=
  (db.statistics.lookup a).any AccountStatistics.needMaintenance

/-- A flag of the statistics of the account. -/
def flagged (db : Database) (p : AccountStatistics → Bool) (a : AccountId) : Bool :=
  (db.statistics.lookup a).any p

/-- `account_statistics_object::name`, which is the name of the account. -/
def statisticsName (db : Database) (a : AccountId) : List Char :=
  ((db.accounts.find a).map Account.name).getD []

/-- What the loop may do to the index. -/
structure KeepsFlags (db db' : Database) : Prop where
  keys : ∀ b, b ∈ db'.statistics ↔ b ∈ db.statistics
  name : ∀ b, db'.statisticsName b = db.statisticsName b
  voting : ∀ b, db.flagged hasSomeCoreVoting b = true → db'.flagged hasSomeCoreVoting b = true
  pending : ∀ b, db.flagged hasPendingFees b = true → db'.flagged hasPendingFees b = true

variable {db db' db'' : Database} {a : AccountId} {amount : Int} {requireVesting : Bool}

theorem KeepsFlags.of_eq (haccounts : db'.accounts = db.accounts)
    (hstatistics : db'.statistics = db.statistics) :
    KeepsFlags db db' :=
  ⟨fun b => by rw [hstatistics], fun b => by rw [statisticsName, statisticsName, haccounts],
    fun b h => by rwa [flagged, hstatistics], fun b h => by rwa [flagged, hstatistics]⟩

theorem KeepsFlags.trans (h : KeepsFlags db db') (h' : KeepsFlags db' db'') : KeepsFlags db db'' :=
  ⟨fun b => (h'.keys b).trans (h.keys b), fun b => (h'.name b).trans (h.name b),
    fun b hb => h'.voting b (h.voting b hb), fun b hb => h'.pending b (h.pending b hb)⟩

theorem KeepsFlags.refl (db : Database) : KeepsFlags db db := .of_eq rfl rfl

theorem adjustBalance_keepsFlags {d : Asset} (h : db.adjustBalance a d = some db') :
    KeepsFlags db db' := by
  obtain ⟨m, -, rfl⟩ := adjustBalance_eq_some h
  exact .of_eq rfl rfl

theorem modifyCore_keepsFlags {f : AssetObject → AssetObject} (h : db.modifyCore f = some db') :
    KeepsFlags db db' := by
  obtain ⟨c, -, rfl⟩ := modifyCore_eq_some h
  exact .of_eq rfl rfl

theorem flagged_modifyStatistics {f : AccountStatistics → AccountStatistics}
    {p : AccountStatistics → Bool}
    (h : db.modifyStatistics a f = some db') (hf : ∀ s, p s = true → p (f s) = true) (b : AccountId)
    (hb : db.flagged p b = true) : db'.flagged p b = true := by
  obtain ⟨s, hs, rfl⟩ := modifyStatistics_eq_some h
  rw [flagged] at hb ⊢
  rw [AList.lookup_modify]
  split
  · next heq =>
    subst heq
    rw [hs] at hb ⊢
    exact hf s hb
  · exact hb

theorem modifyStatistics_keepsFlags {f : AccountStatistics → AccountStatistics}
    (h : db.modifyStatistics a f = some db')
    (hvoting : ∀ s, s.hasSomeCoreVoting = true → (f s).hasSomeCoreVoting = true)
    (hpending : ∀ s, s.hasPendingFees = true → (f s).hasPendingFees = true) :
    KeepsFlags db db' := by
  refine ⟨fun b => ?_, fun b => ?_, flagged_modifyStatistics h hvoting,
    flagged_modifyStatistics h hpending⟩
  all_goals obtain ⟨s, hs, rfl⟩ := modifyStatistics_eq_some h
  · exact AList.mem_modify
  · rfl

/-- A deposit sets flags only: the account may get a vesting balance for cashback, which counts for
its vote. -/
theorem DepositStep.keepsFlags (h : db.DepositStep db') : KeepsFlags db db' := by
  cases h with
  | balance h => exact adjustBalance_keepsFlags h
  | supply h => exact modifyCore_keepsFlags h
  | @statistics _ f _ h hf =>
    refine modifyStatistics_keepsFlags h (fun s hs => ?_) fun s hs => ?_
    · obtain ⟨hsame, hvb⟩ := hf s
      have hvoting : (f s).isVoting = s.isVoting := congrArg (·.isVoting) hsame
      have horders : (f s).totalCoreInOrders = s.totalCoreInOrders :=
        congrArg (·.totalCoreInOrders) hsame
      have hbalance : (f s).coreInBalance = s.coreInBalance := congrArg (·.coreInBalance) hsame
      simp only [hasSomeCoreVoting, Bool.and_eq_true, Bool.or_eq_true, hvoting, horders,
        hbalance] at hs ⊢
      exact ⟨hs.1, hs.2.imp_right hvb⟩
    · have hfees := congrArg (fun s => (s.pendingFees, s.pendingVestedFees)) (hf s).1
      obtain ⟨hfees, hvested⟩ := Prod.mk.inj hfees
      rw [hasPendingFees] at hs ⊢
      exact hfees ▸ hvested ▸ hs
  | vesting => exact .of_eq rfl rfl
  | cashbackVb a id =>
    have hname := Table.map_find_modify_of_eq (g := Account.name)
      (f := fun acct => { acct with cashbackVb := some id }) (fun _ => rfl) db.accounts a
    exact ⟨fun _ => Iff.rfl, fun b => congrArg (·.getD []) (congrFun hname b), fun _ hb => hb,
      fun _ hb => hb⟩
  | repaid => exact .of_eq rfl rfl

theorem CutSteps.keepsFlags {cuts : List (AccountId × Int)} (h : db.CutSteps db' cuts) :
    KeepsFlags db db' := by
  induction h with
  | refl => exact .refl _
  | trans _ _ ih ih' => exact ih.trans ih'
  | cut h =>
    obtain ⟨db1, h1, h⟩ := bind_eq_some_iff.1 h
    obtain ⟨db2, h2, heq⟩ := map_eq_some_iff.1 h
    cases heq
    have hdeposit := (depositCashback_steps h2).lift .refl .trans DepositStep.keepsFlags
    refine KeepsFlags.trans ?_ (hdeposit.trans (.of_eq rfl rfl))
    split_ifs at h1
    · cases h1
      exact .refl _
    · exact adjustBalance_keepsFlags h1
    · exact modifyCore_keepsFlags h1
  | count h =>
    rcases countGrReward_eq_some h with rfl | ⟨db1, t, h1, rfl⟩
    · exact .refl _
    · exact (modifyStatistics_keepsFlags h1 (fun _ hs => hs) fun _ hs => hs).trans (.of_eq rfl rfl)

/-- What a round may do, on an account. -/
structure KeepsOthers (db db' : Database) (a : AccountId) : Prop where
  keys : ∀ b, b ∈ db'.statistics ↔ b ∈ db.statistics
  name : ∀ b, db'.statisticsName b = db.statisticsName b
  voting : ∀ b ≠ a, db.flagged hasSomeCoreVoting b = true → db'.flagged hasSomeCoreVoting b = true
  pending : ∀ b ≠ a, db.flagged hasPendingFees b = true → db'.flagged hasPendingFees b = true

theorem KeepsOthers.refl (db : Database) (a : AccountId) : KeepsOthers db db a :=
  ⟨fun _ => Iff.rfl, fun _ => rfl, fun _ _ hb => hb, fun _ _ hb => hb⟩

/-- **`process_fees` takes the flags from its own account only.** -/
theorem processFees_keepsOthers (h : db.processFees a = some db') : KeepsOthers db db' a := by
  have hpays :
      ∀ {db db' amount requireVesting}, payOutPending db a amount requireVesting = some db' →
      KeepsFlags db db' := by
    intro db db' amount requireVesting h
    rcases payOutPending_cuts rfl h with ⟨-, rfl, -⟩ | ⟨db1, hsteps, hcore⟩
    · exact .refl _
    · exact hsteps.keepsFlags.trans (modifyCore_keepsFlags hcore)
  obtain ⟨fees, vested, -, ⟨rfl, -⟩ | ⟨db1, db2, h1, h2, h⟩⟩ := processFees_eq_some h
  · exact .refl _ _
  · have hkeeps := (hpays h1).trans (hpays h2)
    obtain ⟨s, -, rfl⟩ := modifyStatistics_eq_some h
    refine ⟨fun b => AList.mem_modify.trans (hkeeps.keys b), hkeeps.name, fun b hb hflag => ?_,
      fun b hb hflag => ?_⟩
    · rw [flagged, AList.lookup_modify, if_neg hb]
      exact hkeeps.voting b hflag
    · rw [flagged, AList.lookup_modify, if_neg hb]
      exact hkeeps.pending b hflag

theorem needsMaintenance_iff (db : Database) (a : AccountId) : db.needsMaintenance a = true ↔
    db.flagged hasSomeCoreVoting a = true ∨ db.flagged hasPendingFees a = true := by
  rw [needsMaintenance, flagged, flagged]
  cases db.statistics.lookup a with
  | none => simp
  | some s => exact Bool.or_eq_true_iff

/-- The references of a database lead somewhere, also those that `process_fees` follows. -/
structure Whole (db : Database) : Prop where
  solid : db.Solid
  tree : db.Tree
  owner : ∀ a ∈ db.statistics, (db.accounts.find a).isSome

/-- **`process_fees` returns**, and keeps the references. -/
theorem Whole.processFees (h : db.Whole) (ha : a ∈ db.statistics) :
    ∃ db', db.processFees a = some db' ∧ db'.Whole := by
  obtain ⟨db', hdb', hsolid⟩ := processFees_total h.solid h.tree (h.owner a ha)
  obtain ⟨fees, vested, hpending, -⟩ := processFees_eq_some hdb'
  have hview := (processFees_pays rfl hpending hdb').referral
  have hparameters := parameters_of_view hview
  have hroot : db'.parameters.rootAccount = db.parameters.rootAccount := by rw [hparameters]
  refine ⟨db', hdb', hsolid, ⟨?_, ?_, ?_⟩, fun b hb => ?_⟩
  · rw [hparameters]
    exact h.tree.period
  · rw [hroot]
    exact isSome_of_referralView hview h.tree.root
  · exact (referralRooted_congr (referrerOf_of_referralView hview) hroot).2 h.tree.rooted
  · exact isSome_of_referralView hview (h.owner b (((processFees_keepsOthers hdb').keys b).1 hb))

end Database

/-! ### The loop -/

/-- The database during the loop, and what the loop has handed on. -/
structure MaintenanceState where
  db : Database
  /-- the accounts that were passed to the tally of the votes -/
  tallied : List AccountId := []
  /-- the accounts that were passed to `process_fees` -/
  processed : List AccountId := []

namespace MaintenanceState

/-- `by_maintenance_seq` -/
def byMaintenanceSeq : FlagIndex MaintenanceState AccountId (List Char) where
  entries m := m.db.statistics.keys
  flag m a := m.db.needsMaintenance a
  name m a := m.db.statisticsName a

/-- The body of the loop. -/
def body (m : MaintenanceState) (a : AccountId) : Option MaintenanceState :=
  (m.db.accounts.find a).bind fun _ => (m.db.statistics.lookup a).bind fun s =>
    (if s.hasPendingFees then m.db.processFees a else some m.db).map fun db =>
      { db
        tallied := if s.hasSomeCoreVoting then m.tallied ++ [a] else m.tallied
        processed := if s.hasPendingFees then m.processed ++ [a] else m.processed }

/-- The rounds of the loop on the given accounts, from its start. -/
def walk (db : Database) (l : List AccountId) : Option (MaintenanceState × Option AccountId) :=
  Transition.run (byMaintenanceSeq.round body) (⟨db, [], []⟩,
    byMaintenanceSeq.lowerBound ⟨db, [], []⟩) l

variable {m m' : MaintenanceState} {a : AccountId}

theorem body_eq_some (h : body m a = some m') :
    ∃ s, m.db.statistics.lookup a = some s ∧ m.db.KeepsOthers m'.db a ∧
      m'.tallied = (if s.hasSomeCoreVoting then m.tallied ++ [a] else m.tallied) ∧
      m'.processed = if s.hasPendingFees then m.processed ++ [a] else m.processed := by
  obtain ⟨account, -, h⟩ := bind_eq_some_iff.1 h
  obtain ⟨s, hs, h⟩ := bind_eq_some_iff.1 h
  obtain ⟨db, hdb, rfl⟩ := map_eq_some_iff.1 h
  exact ⟨s, hs, optional_step hdb (fun _ => Database.processFees_keepsOthers) (.refl _ _), rfl, rfl⟩

theorem keeps_body : byMaintenanceSeq.Keeps body := by
  have hbody : ∀ {m a m'}, body m a = some m' → m.db.KeepsOthers m'.db a := by
    intro m a m' h
    obtain ⟨s, -, hkeeps, -⟩ := body_eq_some h
    exact hkeeps
  refine ⟨fun h => (hbody h).keys, fun h => (hbody h).name, fun h b hb hflag => ?_⟩
  rcases (Database.needsMaintenance_iff ..).1 hflag with hvoting | hpending
  · exact (Database.needsMaintenance_iff ..).2 (.inl ((hbody h).voting b hb hvoting))
  · exact (Database.needsMaintenance_iff ..).2 (.inr ((hbody h).pending b hb hpending))

/-- **The list of the accounts that were handed on** for a flag, since the loop started: some of
those that were visited, and all that had the flag in the beginning. The others have it still. -/
structure Handed (p : AccountStatistics → Bool) (db : Database) (l k : List AccountId)
    (db' : Database) : Prop where
  sublist : k.Sublist l
  due : ∀ a, db.flagged p a = true → a ∈ k ∨ a ∉ l ∧ db'.flagged p a = true

/-- A round hands on its account, if it is due, and no other one. -/
theorem Handed.step {p : AccountStatistics → Bool} {db db1 db2 : Database} {l k : List AccountId}
    {s : AccountStatistics} (h : Handed p db l k db1) (hs : db1.statistics.lookup a = some s)
    (hkeeps : ∀ b ≠ a, db1.flagged p b = true → db2.flagged p b = true) :
    Handed p db (l ++ [a]) (if p s then k ++ [a] else k) db2 := by
  constructor
  · split
    · exact h.sublist.append (.refl _)
    · exact h.sublist.trans (List.sublist_append_left l [a])
  · intro b hb
    rcases h.due b hb with hmem | ⟨hnot, hflag⟩
    · left
      split
      · exact List.mem_append_left _ hmem
      · exact hmem
    rcases eq_or_ne b a with rfl | hne
    · rw [Database.flagged, hs] at hflag
      rw [if_pos (show p s = true from hflag)]
      exact .inl (List.mem_append_right _ (List.mem_singleton_self b))
    · exact .inr ⟨by simp [hnot, hne], hkeeps b hne hflag⟩

/-- What has been handed on in the rounds of a walk. -/
theorem handed_run {db : Database} {l l' : List AccountId}
    {st st' : MaintenanceState × Option AccountId}
    (htallied : Handed hasSomeCoreVoting db l st.1.tallied st.1.db)
    (hprocessed : Handed hasPendingFees db l st.1.processed st.1.db)
    (hrun : Transition.run (byMaintenanceSeq.round body) st l' = some st') :
    Handed hasSomeCoreVoting db (l ++ l') st'.1.tallied st'.1.db ∧
      Handed hasPendingFees db (l ++ l') st'.1.processed st'.1.db := by
  induction l' generalizing l st with
  | nil =>
    cases hrun
    rw [List.append_nil]
    exact ⟨htallied, hprocessed⟩
  | cons a l' ih =>
    obtain ⟨t, ht, hrun⟩ := bind_eq_some_iff.1 hrun
    obtain ⟨-, ht⟩ := ite_none_right_eq_some.1 ht
    obtain ⟨m, hm, rfl⟩ := map_eq_some_iff.1 ht
    obtain ⟨s, hs, hkeeps, htally, hprocess⟩ := body_eq_some hm
    rw [← List.singleton_append, ← List.append_assoc]
    refine ih ?_ ?_ hrun
    · rw [htally]
      exact htallied.step hs hkeeps.voting
    · rw [hprocess]
      exact hprocessed.step hs hkeeps.pending

/-- The body returns where `process_fees` does. -/
theorem body_total (h : m.db.Whole) (ha : a ∈ m.db.statistics) :
    ∃ m', body m a = some m' ∧ m'.db.Whole := by
  obtain ⟨account, haccount⟩ := isSome_iff_exists.1 (h.owner a ha)
  obtain ⟨s, hs⟩ := isSome_iff_exists.1 (h.solid.statistics a account haccount)
  obtain ⟨db, hdb, hwhole⟩ :
      ∃ db, (if s.hasPendingFees then m.db.processFees a else some m.db) = some db ∧
      db.Whole := by
    split
    · exact h.processFees ha
    · exact ⟨m.db, rfl, h⟩
  rw [body, haccount, bind_some, hs, bind_some, hdb]
  exact ⟨_, rfl, hwhole⟩

/-- Account one votes, account two has fees pending, and account zero is left alone. -/
def threeAccounts : Database :=
  let db := Database.start 0 (['c', 'b', 'a'].map fun c => { name := [c], referrer := 0 }) 1000
  let statistics := db.statistics.insert 1 { isVoting := true, coreInBalance := 1000 }
  { db with
    parameters := { rootAccount := 0 }
    statistics := statistics.insert 2 { pendingFees := 1000 } }

/-- Accounts one and two refer to each other, and account one has fees pending. -/
def circle : Database :=
  let db := Database.start 0 [{ name := ['c'], referrer := 0 }, { name := ['b'], referrer := 2 },
    { name := ['a'], referrer := 1 }] 1000
  { db with
    parameters := { rootAccount := 0, compressionLevels := 255 }
    statistics := db.statistics.insert 1 { pendingFees := 1000 } }

/-- The loop of `next_rewardable` does not leave the circle, however many rounds it gets. -/
theorem climb_circle (n count : Nat) : circle.climb n count 1 = none ∧
    circle.climb n count 2 = none := by
  induction n generalizing count with
  | zero => exact ⟨rfl, rfl⟩
  | succ n ih =>
    have hle : (count + 1) % 256 ≤ circle.parameters.compressionLevels :=
      Nat.le_of_lt_succ (Nat.mod_lt _ (by decide))
    obtain ⟨h1, h2⟩ := ih ((count + 1) % 256)
    constructor
    · show (circle.compressed 2 { name := ['a'], referrer := 1 } _).bind _ = none
      rw [Database.compressed, if_pos ⟨hle, by decide⟩, if_pos (by decide)]
      exact h2
    · show (circle.compressed 1 { name := ['b'], referrer := 2 } _).bind _ = none
      rw [Database.compressed, if_pos ⟨hle, by decide⟩, if_pos (by decide)]
      exact h1

end MaintenanceState

end CrowdwizChain
