import CrowdwizChain.Chain.Account
import CrowdwizChain.Lib.Ascent

/-!
# The referral tree

Rewards climb from an account to its referrer and on to the root account. That this climb
ends is an invariant which two operations could break, the creation of an account and the
change of a referrer. A new account cannot be met on any way up, so the first one keeps it.
The second one looks for the account among the referrers of the new referrer, but only
through as many of them as `compression_levels` says: a loop that closes further up is not
seen, and `change_referrer_closes_loop` is one of thirty-three accounts, with the parameters
that the chain starts with.
-/

namespace CrowdwizChain

open Transition Option Database

namespace Database

/-- `account.referrer` -/
def referrerOf (db : Database) (a : AccountId) : Option AccountId :=
  (db.accounts.find a).map Account.referrer

/-- An account with an id not above the root account. -/
def AtRoot (db : Database) (a : AccountId) : Prop :=
  (db.accounts.find a).isSome ∧ a ≤ db.parameters.rootAccount

instance (db : Database) (a : AccountId) : Decidable (db.AtRoot a) :=
  inferInstanceAs (Decidable (_ ∧ _))

/-- **The referral graph is well founded**: following the referrers from any account, one gets to an
account not above the root account in finitely many steps. -/
def ReferralRooted (db : Database) : Prop :=
  ∀ a, (db.accounts.find a).isSome → Ascent.Rooted db.referrerOf db.AtRoot a

variable {db db' : Database}

/-- The accounts are numbered along the referrals. -/
theorem referralRooted_of_lt (h : ∀ e ∈ db.accounts.inOrder, e.1 ≤ db.parameters.rootAccount ∨
      e.2.referrer < e.1 ∧ (db.accounts.find e.2.referrer).isSome) : db.ReferralRooted := by
  intro a
  induction a using Nat.strong_induction_on with
  | _ a ih =>
    intro ha
    obtain ⟨account, haccount⟩ := isSome_iff_exists.1 ha
    rcases h (a, account) (Table.mem_inOrder.2 haccount) with hle | ⟨hlt, href⟩
    · exact .stop ⟨ha, hle⟩
    · exact .step (by rw [referrerOf, haccount]; rfl) (ih account.referrer hlt href)

/-- Some accounts above the root account refer to each other only. -/
theorem not_referralRooted_of_circle {l : List AccountId}
    (hl : ∀ a ∈ l, ¬db.AtRoot a ∧ (db.referrerOf a).any fun b => b ∈ l) {a : AccountId}
    (ha : a ∈ l) :
    ¬db.ReferralRooted := by
  have hnext : ∀ a ∈ l, ∃ b, db.referrerOf a = some b ∧ b ∈ l := by
    intro a ha
    obtain ⟨b, hb, hmem⟩ := (any_eq_true _ _).1 (hl a ha).2
    exact ⟨b, hb, of_decide_eq_true hmem⟩
  intro h
  obtain ⟨b, hb, -⟩ := hnext a ha
  have hexists : (db.accounts.find a).isSome := by
    rw [← isSome_map (f := Account.referrer)]
    exact isSome_iff_exists.2 ⟨b, hb⟩
  exact (h a hexists).not_mem_of_closed (fun a ha => ⟨(hl a ha).1, hnext a ha⟩) ha

/-- The same accounts with the same referrers, and the same root account. -/
theorem referralRooted_congr (hreferrer : db'.referrerOf = db.referrerOf)
    (hroot : db'.parameters.rootAccount = db.parameters.rootAccount) :
    db'.ReferralRooted ↔ db.ReferralRooted := by
  have hfind : ∀ a, (db'.accounts.find a).isSome = (db.accounts.find a).isSome := by
    intro a
    have ha := congrArg Option.isSome (congrFun hreferrer a)
    simpa only [referrerOf, isSome_map] using ha
  have hstop : db'.AtRoot = db.AtRoot := by
    funext a
    rw [AtRoot, AtRoot, hfind, hroot]
  simp only [ReferralRooted, hfind, hreferrer, hstop]

theorem referrerOf_of_referralView (h : db'.referralView = db.referralView) :
    db'.referrerOf = db.referrerOf := by
  funext a
  have ha := congrArg (Option.map Account.referrer) (congrFun (congrArg ReferralView.account h) a)
  simp only [referralView, Option.map_map] at ha
  exact ha

/-! ### New accounts -/

/-- **A new account keeps the graph well founded**: nobody refers to it yet. -/
theorem referralRooted_accountCreate {op : AccountCreateOperation} (hdb : db.ReferralRooted)
    (h : db.accountCreate op = some db') : db'.ReferralRooted := by
  obtain ⟨account, fee, href, hexists, haccounts, hparams, -⟩ := accountCreate_eq_some h
  have hfind : ∀ a, a ≠ db.accounts.nextId → db'.accounts.find a = db.accounts.find a := by
    intro a ha
    rw [haccounts, Table.find_create_ne account ha]
  have hold : ∀ a, (db.accounts.find a).isSome → a ≠ db.accounts.nextId := by
    rintro a ha rfl
    rw [Table.find_nextId] at ha
    cases ha
  have hroot : db'.parameters.rootAccount = db.parameters.rootAccount := by rw [hparams]
  have hmono : ∀ a, (db.accounts.find a).isSome → Ascent.Rooted db'.referrerOf db'.AtRoot a := by
    intro a ha
    refine (hdb a ha).mono (fun b c hbc => ?_) fun b hb => ?_
    · have hb : (db.accounts.find b).isSome := by
        rw [← isSome_map (f := Account.referrer)]
        exact isSome_iff_exists.2 ⟨c, hbc⟩
      rw [referrerOf, hfind b (hold b hb)]
      exact hbc
    · rw [AtRoot, hfind b (hold b hb.1), hroot]
      exact hb
  intro a ha
  rcases eq_or_ne a db.accounts.nextId with rfl | hne
  · refine .step ?_ (hmono op.referrer hexists)
    rw [referrerOf, haccounts, Table.find_create_self, ← href]
    rfl
  · rw [hfind a hne] at ha
    exact hmono a ha

/-! ### New referrers -/

/-- **What the loop of `change_referrer_evaluator` has seen**: the account is not among the first
referrers of the new one, unless it is not above the root account. -/
theorem climbs_of_changeReferrerLoop {x : AccountId} {n : Nat} {a : AccountId} {account : Account}
    (ha : db.accounts.find a = some account) (h : db.changeReferrerLoop x n account = some true)
    {k : Nat} (hk : k < n) (hclimb : Ascent.Climbs db.referrerOf db.AtRoot (k + 1) a x) :
    x ≤ db.parameters.rootAccount := by
  induction n generalizing a account k with
  | zero => exact absurd hk (Nat.not_lt_zero k)
  | succ n ih =>
    obtain ⟨tmp, htmp, h⟩ := bind_eq_some_iff.1 h
    obtain ⟨-, b, hab, hbx⟩ := Ascent.climbs_succ_iff.1 hclimb
    rw [referrerOf, ha] at hab
    cases hab
    split at h
    · cases h
    · next hne =>
      rcases k with _ | k
      · exact absurd (Ascent.climbs_zero_iff.1 hbx) hne
      · split at h
        · next hlt =>
          -- the loop has stopped early, because the next referrer is below the root account
          obtain ⟨-, c, hbc, hcx⟩ := Ascent.climbs_succ_iff.1 hbx
          rw [referrerOf, htmp] at hbc
          cases hbc
          rcases k with _ | k
          · obtain rfl := Ascent.climbs_zero_iff.1 hcx
            exact hlt.le
          · obtain ⟨hstop, d, hd, -⟩ := Ascent.climbs_succ_iff.1 hcx
            refine absurd ⟨?_, hlt.le⟩ hstop
            rw [← isSome_map (f := Account.referrer)]
            exact isSome_iff_exists.2 ⟨d, hd⟩
        · exact ih htmp h (by omega) hbx

/-- The account that gets a new referrer is not met on the way up from it beyond the referrers that
the evaluator looks at, or is not above the root account. -/
def SeenByCheck (db : Database) (op : ChangeReferrerOperation) : Prop :=
  ∀ n, db.parameters.compressionLevels < n →
    Ascent.Climbs db.referrerOf db.AtRoot n op.newReferrer op.accountId →
      op.accountId ≤ db.parameters.rootAccount

theorem referrerOf_changeReferrer {op : ChangeReferrerOperation}
    (h : db.changeReferrer op = some db') :
    db'.referrerOf = Function.update db.referrerOf op.accountId (some op.newReferrer) := by
  obtain ⟨hexists, -, -, db1, hview, haccounts, -⟩ := changeReferrer_eq_some h
  have hsame := referrerOf_of_referralView hview
  have hexists1 : (db1.accounts.find op.accountId).isSome := by
    rw [← isSome_map (f := Account.referrer)] at hexists ⊢
    exact (congrArg Option.isSome (congrFun hsame op.accountId)).trans hexists
  obtain ⟨account, haccount⟩ := isSome_iff_exists.1 hexists1
  rw [← hsame]
  funext a
  rw [referrerOf, haccounts, Table.find_modify, Function.update_apply]
  split
  · rw [haccount]
    rfl
  · rfl

/-- **An accepted change keeps the graph well founded exactly if the evaluator has looked far
enough.** -/
theorem referralRooted_changeReferrer_iff {op : ChangeReferrerOperation} (hdb : db.ReferralRooted)
    (hfork : hardforkCore1480BlockNum < db.headBlockNum) (h : db.changeReferrer op = some db') :
    db'.ReferralRooted ↔ db.SeenByCheck op := by
  have hreferrer := referrerOf_changeReferrer h
  obtain ⟨hexists, hne, hloop, -, -, -, hparams, -⟩ := changeReferrer_eq_some h
  obtain ⟨referrer, href, hloop⟩ := hloop hfork
  -- the change gives no account away and makes none
  have hfind : ∀ a, (db'.accounts.find a).isSome = (db.accounts.find a).isSome := by
    intro a
    rw [← isSome_map (f := Account.referrer), ← isSome_map (f := Account.referrer)]
    show (db'.referrerOf a).isSome = (db.referrerOf a).isSome
    rw [hreferrer, Function.update_apply]
    split
    · next heq =>
      rw [heq, referrerOf, isSome_map, hexists]
      rfl
    · rfl
  have hstop : db'.AtRoot = db.AtRoot := by
    funext a
    rw [AtRoot, AtRoot, hfind, hparams]
  have hiff := Ascent.rooted_update_iff (x := op.accountId) (y := op.newReferrer) hdb
    (isSome_iff_exists.2 ⟨referrer, href⟩)
  simp only [ReferralRooted, hfind, hreferrer, hstop]
  refine hiff.trans ⟨fun hclimbs n _ hn => (hclimbs n hn).2, fun hseen n hn => ⟨hexists, ?_⟩⟩
  rcases Nat.lt_or_ge db.parameters.compressionLevels n with hfar | hnear
  · exact hseen n hfar hn
  · rcases n with _ | n
    · exact absurd (Ascent.climbs_zero_iff.1 hn).symm hne
    · exact climbs_of_changeReferrerLoop href hloop hnear hn

end Database

/-! ### Runs -/

/-- What can happen on the chain, as far as the referrers of accounts go. -/
inductive ReferralAction
  | create (op : AccountCreateOperation)
  | changeReferrer (op : ChangeReferrerOperation)
  /-- anything else: every part of the database may change, but accounts keep their referrers, none
  comes or goes, the root account stays and the head does not move back -/
  | other (e : Database)

namespace ReferralSystem

/-- The accounts have the referrers that they had. -/
def SameReferrers (db e : Database) : Prop :=
  (∀ a < max db.accounts.nextId e.accounts.nextId, e.referrerOf a = db.referrerOf a) ∧
    e.parameters.rootAccount = db.parameters.rootAccount ∧ db.headBlockNum ≤ e.headBlockNum

instance (db e : Database) : Decidable (SameReferrers db e) := inferInstanceAs (Decidable (_ ∧ _))

theorem SameReferrers.referrerOf_eq {db e : Database} (h : SameReferrers db e) :
    e.referrerOf = db.referrerOf := by
  have hnone : ∀ (d : Database) a, d.accounts.nextId ≤ a → d.referrerOf a = none := by
    intro d a ha
    rw [referrerOf, map_eq_none_iff]
    exact Table.find_of_nextId_le ha
  funext a
  rcases Nat.lt_or_ge a (max db.accounts.nextId e.accounts.nextId) with hlt | hge
  · exact h.1 a hlt
  · rw [hnone e a (le_trans (le_max_right _ _) hge), hnone db a (le_trans (le_max_left _ _) hge)]

/-- One action. -/
def step (db : Database) : ReferralAction → Option Database
  | .create op => db.accountCreate op
  | .changeReferrer op => db.changeReferrer op
  | .other e => if SameReferrers db e then some e else none

/-- The condition on a step: a change of a referrer that would close a loop is within the
reach of the evaluator. -/
def Seen (db : Database) : ReferralAction → Prop
  | .changeReferrer op => db.SeenByCheck op
  | _ => True

/-- The graph is well founded, and the check for loops is in force. -/
structure Inv (db : Database) : Prop where
  rooted : db.ReferralRooted
  fork : hardforkCore1480BlockNum < db.headBlockNum

/-- **Every step that the check sees through keeps the referrals a tree.** -/
theorem Inv.step {db db' : Database} {a : ReferralAction} (h : Inv db) (ha : Seen db a)
    (hs : step db a = some db') : Inv db' := by
  cases a with
  | create op =>
    obtain ⟨-, -, -, -, -, -, hhead⟩ := accountCreate_eq_some hs
    exact ⟨referralRooted_accountCreate h.rooted hs, hhead ▸ h.fork⟩
  | changeReferrer op =>
    obtain ⟨-, -, -, -, -, -, -, hhead⟩ := changeReferrer_eq_some hs
    exact ⟨(referralRooted_changeReferrer_iff h.rooted h.fork hs).2 ha, hhead ▸ h.fork⟩
  | other e =>
    obtain ⟨hsame, hs⟩ := ite_none_right_eq_some.1 hs
    cases hs
    exact ⟨(referralRooted_congr hsame.referrerOf_eq hsame.2.1).2 h.rooted,
      h.fork.trans_le hsame.2.2⟩

/-- **The referral graph stays well founded exactly as far as the evaluator looks.** From any state
with a well-founded graph, every run in which no account is met beyond the referrers that
`change_referrer` looks at reaches a state with a well-founded graph; and from there an accepted
change keeps it so if and only if it meets this condition too. -/
theorem referral_graph_rooted {db db' : Database} {l : List ReferralAction}
    (hdb : db.ReferralRooted) (hfork : hardforkCore1480BlockNum < db.headBlockNum)
    (hl : Along step Seen db l) (hrun : run step db l = some db') : db'.ReferralRooted ∧
      ∀ op db'', db'.changeReferrer op = some db'' →
      (db''.ReferralRooted ↔ db'.SeenByCheck op) := by
  have hinv : Inv db' := invariant_of_along (fun h ha hs => h.step ha hs) ⟨hdb, hfork⟩ hl hrun
  exact ⟨hinv.rooted, fun op db'' h =>
    referralRooted_changeReferrer_iff hinv.rooted hinv.fork h⟩

/-- Accounts after the check was put in force, each with the one before it as its referrer. -/
def chain (n : Nat) : Database :=
  { Database.start hardforkCwd7Time
      ((List.range n).map fun id => { referrer := id - 1, isLifetimeMember := true }) 1000 with
    headBlockNum := hardforkCore1480BlockNum + 1 }

/-- Account 30 is created with account 29 as its referrer, and moves to account 28. -/
def createAndMove : List ReferralAction :=
  [.create ⟨.core 1, 29, 29, 0, ['a', 'b']⟩, .changeReferrer ⟨.core 0, 30, 28⟩]

theorem chain_rooted : (chain 30).ReferralRooted :=
  referralRooted_of_lt (by decide +kernel)

/-- The way up from account 28 has one step, which is less than the evaluator looks at. -/
theorem createAndMove_seen : Along step Seen (chain 30) createAndMove := by
  refine ⟨trivial, fun db hdb => ⟨fun n hn hclimb => ?_, fun _ _ => trivial⟩⟩
  have hsteps : (step (chain 30) (.create ⟨.core 1, 29, 29, 0, ['a', 'b']⟩)).all fun db =>
      db.referrerOf 28 = some 27 ∧ db.AtRoot 27 ∧ db.parameters.compressionLevels = 30 := by
    decide +kernel
  rw [hdb, all_some, decide_eq_true_eq] at hsteps
  obtain ⟨href, hroot, hlevels⟩ := hsteps
  obtain ⟨n, rfl⟩ := Nat.exists_eq_add_of_lt (hlevels ▸ hn)
  obtain ⟨-, b, hb, hclimb⟩ := Ascent.climbs_succ_iff.1 hclimb
  cases href.symm.trans hb
  rw [Nat.add_comm] at hclimb
  exact absurd hroot (Ascent.climbs_succ_iff.1 hclimb).1

theorem referral_graph_rooted_create_and_move :
    ∃ db', run step (chain 30) createAndMove = some db' ∧ db'.ReferralRooted ∧
      ∀ op db'', db'.changeReferrer op = some db'' → (db''.ReferralRooted ↔ db'.SeenByCheck op) :=
  ⟨_, (some_get (by decide +kernel)).symm,
      referral_graph_rooted chain_rooted (by decide) createAndMove_seen
      (some_get (by decide +kernel)).symm⟩

/-- Account 28 moves to account 60, which is thirty-two referrals below it: the
evaluator looks at thirty, accepts the change, and from then on the accounts 28 to 60
refer to each other in a circle. -/
theorem change_referrer_closes_loop : (chain 61).ReferralRooted ∧
      ∃ db', run step (chain 61) [.changeReferrer ⟨.core 0, 28, 60⟩] = some db' ∧
      ¬db'.ReferralRooted := by
  refine ⟨referralRooted_of_lt (by decide +kernel), _, (some_get (by decide +kernel)).symm, ?_⟩
  exact not_referralRooted_of_circle (l := List.range' 28 33) (by decide +kernel)
    (a := 28) (by decide)

end ReferralSystem

end CrowdwizChain
