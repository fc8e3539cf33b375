import CrowdwizChain.Chain.CreditBook
import CrowdwizChain.Chain.Evaluator
import CrowdwizChain.Chain.LinearBonus

/-!
# What the walks along the referral chain read

While rewards are handed out, the walk that hands them out goes on. What it reads on its way is not
touched by the rewards, though: the referrers and the status of the accounts, their personal volume,
the parameters and the head of the chain. `ReferralView` collects all of it, and `next_rewardable`
has the same value in two databases with the same view. The rewards change neither the view nor the
network volumes, which is `WalkFrame`.
-/

namespace CrowdwizChain

open Option

/-- What a walk reads of an account: all but its vesting balance for cashback. -/
def Account.referral (a : Account) : Account := { a with cashbackVb := none }

theorem Account.eq_of_referral {a a' : Account} (h : a'.referral = a.referral) :
    a' = { a with cashbackVb := a'.cashbackVb } := by
  cases a'
  simp only [referral, Account.mk.injEq] at h ⊢
  tauto

/-- The personal volume and its date. -/
def AccountStatistics.personal (s : AccountStatistics) : Int × Nat :=
  (s.personalVolumeInPeriod, s.lastPvUpdateDate)

/-- The network volume and its date. -/
def AccountStatistics.network (s : AccountStatistics) : Int × Nat :=
  (s.networkVolumeInPeriod, s.lastNvUpdateDate)

/-- What the walks read. -/
structure ReferralView where
  headBlockNum : Nat
  headBlockTime : Nat
  parameters : ChainParameters
  nextAccount : Nat
  account : AccountId → Option Account
  personal : AccountId → Option (Int × Nat)

namespace Database

/-- The view of a database. -/
def referralView (db : Database) : ReferralView where
  headBlockNum := db.headBlockNum
  headBlockTime := db.headBlockTime
  parameters := db.parameters
  nextAccount := db.accounts.nextId
  account a := (db.accounts.find a).map Account.referral
  personal a := (db.statistics.lookup a).map AccountStatistics.personal

/-- The network volumes, with their dates. -/
def networkVolumes (db : Database) : AccountId → Option (Int × Nat) :=
  fun a => (db.statistics.lookup a).map AccountStatistics.network

/-! ### Two databases with the same view -/

section Congr

variable {db db' : Database}

variable {account' : Account}

theorem bind_eq_bind_of_map_eq {α β γ : Type*} {o o' : Option α} {g : α → γ} {f f' : α → Option β}
    (h : o'.map g = o.map g) (hf : ∀ x x', g x' = g x → f' x' = f x) : o'.bind f' = o.bind f := by
  rcases o with _ | x
  · rcases o' with _ | x'
    · rfl
    · cases h
  · rcases o' with _ | x'
    · cases h
    · exact hf x x' (some.inj h)

variable (hv : db'.referralView = db.referralView)

include hv

theorem headBlockNum_of_view : db'.headBlockNum = db.headBlockNum :=
  congrArg ReferralView.headBlockNum hv

theorem headBlockTime_of_view : db'.headBlockTime = db.headBlockTime :=
  congrArg ReferralView.headBlockTime hv

theorem parameters_of_view : db'.parameters = db.parameters := congrArg ReferralView.parameters hv

/-- The two accounts under one number, as far as a walk reads them. -/
theorem find_of_referralView {a : AccountId} (h : db'.accounts.find a = some account') :
    ∃ account, db.accounts.find a = some account ∧ account'.referral = account.referral := by
  have ha := congrFun (congrArg ReferralView.account hv) a
  simp only [referralView, h, map_some] at ha
  obtain ⟨account, hfind, heq⟩ := map_eq_some_iff.1 ha.symm
  exact ⟨account, hfind, heq.symm⟩

theorem decayed_congr (volume : Int) (lastUpdate : Nat) :
    db'.decayed volume lastUpdate = db.decayed volume lastUpdate := by
  have htime := headBlockTime_of_view hv
  have hparams := parameters_of_view hv
  simp only [decayed, decreaseVol, htime, hparams]

theorem activeStatus_congr {account : Account} (h : account'.referral = account.referral) :
    db'.activeStatus account' = db.activeStatus account := by
  have htime := headBlockTime_of_view hv
  rw [activeStatus, activeStatus, htime, Account.eq_of_referral h]
  rfl

theorem compressed_congr {account : Account}
    (h : account'.referral = account.referral) (ref : AccountId) (n : Nat) :
    db'.compressed ref account' n = db.compressed ref account n := by
  have hparams := parameters_of_view hv
  have hpersonal := congrFun (congrArg ReferralView.personal hv) ref
  rw [compressed, compressed, hparams, activeStatus_congr hv h]
  refine ite_congr rfl (fun _ => ite_congr rfl (fun _ => rfl) fun _ => ?_) fun _ => rfl
  refine bind_eq_bind_of_map_eq hpersonal fun s s' hs => ?_
  have hvolume : s'.personalVolumeInPeriod = s.personalVolumeInPeriod := congrArg Prod.fst hs
  have hdate : s'.lastPvUpdateDate = s.lastPvUpdateDate := congrArg Prod.snd hs
  rw [getPv, getPv, hvolume, hdate, decayed_congr hv]

/-- The loop of `next_rewardable`, by induction over its rounds. -/
theorem climb_congr (n count : Nat) (a : AccountId) : db'.climb n count a = db.climb n count a := by
  induction n generalizing count a with
  | zero => rfl
  | succ n ih =>
    refine bind_eq_bind_of_map_eq (congrFun (congrArg ReferralView.account hv) a)
      fun account account' haccount => ?_
    have href : account'.referrer = account.referrer := by rw [Account.eq_of_referral haccount]
    rw [href]
    refine bind_eq_bind_of_map_eq (congrFun (congrArg ReferralView.account hv) account.referrer)
      fun referrer referrer' hreferrer => ?_
    dsimp only
    rw [compressed_congr hv hreferrer]
    simp only [ih]

theorem nextRewardable_congr (a : AccountId) : db'.nextRewardable a = db.nextRewardable a := by
  have hparams := parameters_of_view hv
  have hnext : db'.accounts.nextId = db.accounts.nextId := congrArg ReferralView.nextAccount hv
  have haccount := congrFun (congrArg ReferralView.account hv) a
  rw [nextRewardable, nextRewardable, hparams, referralFuel, referralFuel, hnext, climb_congr hv]
  refine ite_congr rfl (fun _ => rfl) fun _ => ite_congr rfl (fun _ => rfl) fun _ => ?_
  have href := congrArg (Option.map Account.referrer) haccount
  simp only [referralView, Option.map_map] at href
  exact href

end Congr

/-! ### What rewards leave alone -/

/-- What the walks read, and the network volumes, are unchanged. -/
structure WalkFrame (db db' : Database) : Prop where
  referral : db'.referralView = db.referralView
  network : db'.networkVolumes = db.networkVolumes

variable {db db' : Database} {a : AccountId} {f : AccountStatistics → AccountStatistics}
    {amount : Int}

theorem WalkFrame.refl (db : Database) : db.WalkFrame db := ⟨rfl, rfl⟩

theorem WalkFrame.trans {db'' : Database} (h : db.WalkFrame db') (h' : db'.WalkFrame db'') :
    db.WalkFrame db'' := ⟨h'.referral.trans h.referral, h'.network.trans h.network⟩

theorem WalkFrame.headBlockTime (h : db.WalkFrame db') :
    db'.headBlockTime = db.headBlockTime := headBlockTime_of_view h.referral

theorem walkFrame_adjustBalance {d : Asset} (h : db.adjustBalance a d = some db') :
    db.WalkFrame db' := by
  obtain ⟨m, -, rfl⟩ := adjustBalance_eq_some h
  exact ⟨rfl, rfl⟩

theorem walkFrame_modifyCore {f : AssetObject → AssetObject} (h : db.modifyCore f = some db') :
    db.WalkFrame db' := by
  obtain ⟨c, -, rfl⟩ := modifyCore_eq_some h
  exact ⟨rfl, rfl⟩

section

variable (h : db.modifyStatistics a f = some db')

include h

theorem referralView_modifyStatistics
    (hf : ∀ s, (f s).personal = s.personal) : db'.referralView = db.referralView := by
  obtain ⟨s, -, rfl⟩ := modifyStatistics_eq_some h
  have hpersonal := AList.map_lookup_modify_of_eq hf db.statistics a
  simp only [referralView, hpersonal]

theorem networkVolumes_modifyStatistics
    (hf : ∀ s, (f s).network = s.network) : db'.networkVolumes = db.networkVolumes := by
  obtain ⟨s, -, rfl⟩ := modifyStatistics_eq_some h
  exact AList.map_lookup_modify_of_eq hf db.statistics a

theorem walkFrame_modifyStatistics
    (hf : ∀ s, (f s).personal = s.personal ∧ (f s).network = s.network) : db.WalkFrame db' :=
  ⟨referralView_modifyStatistics h fun s => (hf s).1, networkVolumes_modifyStatistics h fun s =>
    (hf s).2⟩

end

/-- The account may get a vesting balance for cashback, which no walk reads. -/
theorem DepositStep.walkFrame (h : db.DepositStep db') : db.WalkFrame db' := by
  cases h with
  | balance h => exact walkFrame_adjustBalance h
  | supply h => exact walkFrame_modifyCore h
  | statistics h hf =>
    exact walkFrame_modifyStatistics h fun s =>
      ⟨congrArg (·.personal) (hf s).1, congrArg (·.network) (hf s).1⟩
  | cashbackVb a id =>
    refine ⟨?_, rfl⟩
    have haccount : (fun a' => ((db.accounts.modify a fun acct =>
        { acct with cashbackVb := some id }).find a').map Account.referral) =
        fun a' => (db.accounts.find a').map Account.referral := by
      refine Table.map_find_modify_of_eq ?_ db.accounts a
      exact fun _ => rfl
    simp only [referralView, haccount, Table.nextId_modify]
  | vesting => exact ⟨rfl, rfl⟩
  | repaid => exact ⟨rfl, rfl⟩

theorem walkFrame_depositCashback {requireVesting countIncome : Bool}
    (h : db.depositCashback a amount requireVesting countIncome = some db') : db.WalkFrame db' :=
  (depositCashback_steps h).lift WalkFrame.refl WalkFrame.trans DepositStep.walkFrame

/-- The fee of an operation is entered where no walk reads. -/
theorem referralView_convertAndPayFee (db : Database) (payer : AccountId) (fee : Asset)
    (coreFee : Int) :
    (db.convertAndPayFee payer fee coreFee).referralView = db.referralView ∧
      (db.convertAndPayFee payer fee coreFee).networkVolumes = db.networkVolumes ∧
      (db.convertAndPayFee payer fee coreFee).credits = db.credits := by
  have hpersonal : (fun a => ((db.statistics.modify payer (·.payFee coreFee)).lookup a).map
      AccountStatistics.personal) = fun a =>
      (db.statistics.lookup a).map AccountStatistics.personal := by
    refine AList.map_lookup_modify_of_eq ?_ db.statistics payer
    exact fun _ => rfl
  refine ⟨?_, ?_, ?_⟩
  · simp only [referralView, convertAndPayFee, hpersonal]
  · refine AList.map_lookup_modify_of_eq ?_ db.statistics payer
    exact fun _ => rfl
  · refine AList.map_lookup_modify_of_eq ?_ db.statistics payer
    exact fun _ => rfl

end Database

end CrowdwizChain
