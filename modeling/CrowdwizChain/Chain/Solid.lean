import CrowdwizChain.Chain.ReferralTree

/-!
# Databases on which rewards go through

Rewards follow references from object to object: from an account to its statistics, its team and its
vesting balance, and from a referrer to the next one. `Solid` says that these references lead
somewhere, and that no more of a credit was repaid than it is; it is kept by everything that pays
rewards. On a solid database a deposit of cashback never fails (`Solid.depositCashback`), and where
the referral graph is rooted the climb to the next referrer ends (`nextRewardable_isSome`).
-/

namespace CrowdwizChain

open Option Database Table Nat

namespace Database

/-- The references that rewards follow lead somewhere. -/
structure Solid (db : Database) : Prop where
  core : (db.assets.find 0).isSome
  statistics : ∀ a account, db.accounts.find a = some account → (db.statistics.lookup a).isSome
  team : ∀ a account t, db.accounts.find a = some account → account.grTeam = some t →
    (db.grTeams.find t).isSome
  vesting : ∀ a account id, db.accounts.find a = some account → account.cashbackVb = some id →
    ∃ v, db.vestingBalances.find id = some v ∧ v.balance.assetId = 0
  credit : ∀ a s, db.statistics.lookup a = some s → s.creditRepaid ≤ s.totalCredit

variable {db : Database}

variable {a c : AccountId} {db' : Database} {account : Account} {amount : Int} {k : Nat}

/-- Accounts without teams and vesting balances refer to their statistics only. -/
theorem solid_of_entries (hcore : (db.assets.find 0).isSome) (haccounts : ∀ e ∈ db.accounts.inOrder,
      (db.statistics.lookup e.1).isSome ∧ e.2.grTeam = none ∧ e.2.cashbackVb = none)
    (hcredit : ∀ e ∈ db.statistics.entries, e.2.creditRepaid ≤ e.2.totalCredit) : db.Solid := by
  have hrow : ∀ {a account}, db.accounts.find a = some account → (db.statistics.lookup a).isSome ∧
      account.grTeam = none ∧ account.cashbackVb = none :=
    fun h => haccounts (_, _) (mem_inOrder.2 h)
  refine ⟨hcore, fun a account h => (hrow h).1, fun a account t h ht => ?_,
    fun a account id h hid => ?_,
    fun a s hs => hcredit ⟨a, s⟩ (AList.mem_lookup_iff.1 hs)⟩
  · cases (hrow h).2.1.symm.trans ht
  · cases (hrow h).2.2.symm.trans hid

/-! ### What is kept -/

theorem Solid.log (h : db.Solid) (e : JournalEntry) : (db.log e).Solid := { h with }

theorem Solid.adjustBalance (h : db.Solid) (a : AccountId) {d : Asset} (hd : 0 ≤ d.amount) :
    ∃ db', db.adjustBalance a d = some db' ∧ db'.Solid := by
  obtain ⟨m, hm⟩ := Balances.adjust_isSome (m := db.balances) (a := a) hd
  exact ⟨{ db with balances := m }, by rw [Database.adjustBalance, hm]; rfl, { h with }⟩

theorem Solid.modifyCore (h : db.Solid) (f : AssetObject → AssetObject) :
    ∃ db', db.modifyCore f = some db' ∧ db'.Solid := by
  obtain ⟨c, hc⟩ := isSome_iff_exists.1 h.core
  refine ⟨{ db with assets := db.assets.modify 0 f }, by rw [Database.modifyCore, hc]; rfl, ?_⟩
  refine { h with core := ?_ }
  rw [find_modify, if_pos rfl, hc]
  rfl

variable {f : AccountStatistics → AccountStatistics}

section

variable (h : db.Solid)

include h

theorem Solid.modifyStatistics (ha : (db.statistics.lookup a).isSome)
    (hf : ∀ s, s.creditRepaid ≤ s.totalCredit → (f s).creditRepaid ≤ (f s).totalCredit) :
    ∃ db', db.modifyStatistics a f = some db' ∧ db'.Solid := by
  obtain ⟨s, hs⟩ := isSome_iff_exists.1 ha
  refine ⟨{ db with statistics := db.statistics.modify a f },
    by rw [Database.modifyStatistics, hs]; rfl, ?_⟩
  refine { h with statistics := fun b account hb => ?_, credit := fun b s' hs' => ?_ }
  · rw [AList.lookup_modify]
    split
    · rw [hs]
      rfl
    · exact h.statistics b account hb
  · simp only [AList.lookup_modify, hs, map_some] at hs'
    split at hs'
    · cases hs'
      exact hf s (h.credit a s hs)
    · exact h.credit b s' hs'

/-! ### A deposit -/

theorem Solid.closeCredit {s : AccountStatistics} (hs : db.statistics.lookup a = some s) :
    ∃ db', db.closeCredit a s = some db' ∧ db'.Solid := by
  have hfree : ∀ s : AccountStatistics, s.creditRepaid ≤ s.totalCredit → (0 : Int) ≤ 0 :=
    fun _ _ => le_rfl
  rw [Database.closeCredit]
  split
  · obtain ⟨db1, h1, hsolid1⟩ := h.modifyCore
      fun c => { c with currentSupply := c.currentSupply - s.totalCredit }
    rw [h1, map_some, bind_some]
    refine (hsolid1.log _).modifyStatistics ?_ hfree
    obtain ⟨c, -, rfl⟩ := modifyCore_eq_some h1
    exact isSome_iff_exists.2 ⟨s, hs⟩
  · obtain ⟨db1, h1, hsolid1⟩ := h.adjustBalance s.creditor
      (d := .core (s.totalCredit - s.creditRepaid)) (Int.sub_nonneg.2 (h.credit a s hs))
    rw [h1, map_some, bind_some]
    refine (hsolid1.log _).modifyStatistics ?_ hfree
    obtain ⟨m, -, rfl⟩ := adjustBalance_eq_some h1
    exact isSome_iff_exists.2 ⟨s, hs⟩

theorem Solid.withholdCashback (ha : (db.statistics.lookup a).isSome) (amount : Int) :
    ∃ db' rest, db.withholdCashback a amount = some (db', rest) ∧ db'.Solid := by
  obtain ⟨s, hs⟩ := isSome_iff_exists.1 ha
  rw [Database.withholdCashback, hs, bind_some]
  split
  · dsimp only
    split
    · obtain ⟨db1, h1, hsolid1⟩ := h.modifyStatistics ha
        (f := fun s => { s with allowedToRepay := s.allowedToRepay + amount }) fun _ hs => hs
      exact ⟨db1, none, by rw [h1]; rfl, hsolid1⟩
    · obtain ⟨db1, h1, hsolid1⟩ := h.closeCredit hs
      exact ⟨db1, some _, by rw [h1]; rfl, hsolid1⟩
  · exact ⟨db, some amount, rfl, h⟩

theorem Solid.depositLazyVesting (ha : db.accounts.find a = some account) (amount : Int)
    (seconds : Nat) (requireVesting : Bool) :
    ∃ t new, db.depositLazyVesting account.cashbackVb amount seconds a requireVesting =
        some ({ db with vestingBalances := t }, new) ∧
      (∀ id v, db.vestingBalances.find id = some v → v.balance.assetId = 0 →
        ∃ v', t.find id = some v' ∧ v'.balance.assetId = 0) ∧
      ∀ id, new = some id → ∃ v, t.find id = some v ∧ v.balance.assetId = 0 := by
  rw [Database.depositLazyVesting]
  split
  · exact ⟨db.vestingBalances, none, rfl, fun id v hv hcore => ⟨v, hv, hcore⟩, by simp⟩
  -- there is a target, or a new balance is made
  have hnew : ∀ v : VestingBalance, v.balance.assetId = 0 →
      (∀ id w, db.vestingBalances.find id = some w → w.balance.assetId = 0 →
        ∃ w', (db.vestingBalances.create v).find id = some w' ∧ w'.balance.assetId = 0) ∧
      ∀ id, some db.vestingBalances.nextId = some id →
        ∃ w, (db.vestingBalances.create v).find id = some w ∧ w.balance.assetId = 0 := by
    intro v hv
    refine ⟨fun id w hw hcore => ⟨w, ?_, hcore⟩, ?_⟩
    · rw [find_create, if_neg (Nat.ne_of_lt (lt_nextId hw))]
      exact hw
    · rintro id ⟨⟩
      exact ⟨v, by rw [find_create, if_pos rfl], hv⟩
  cases htarget : db.lazyTarget account.cashbackVb seconds a with
  | none =>
    rcases hvb : account.cashbackVb with _ | id
    · rw [hvb] at htarget
      cases htarget
    · obtain ⟨v, hv, -⟩ := h.vesting a account id ha hvb
      rw [hvb, lazyTarget, hv] at htarget
      cases htarget
  | some target =>
    rw [bind_some]
    rcases target with _ | ⟨id, v, p⟩
    · exact ⟨_, _, rfl, hnew _ rfl⟩
    · obtain ⟨hfind, -⟩ := lazyTarget_eq_some htarget
      have hcore : v.balance.assetId = 0 := by
        rcases hvb : account.cashbackVb with _ | id'
        · rw [hvb] at htarget
          cases htarget
        · obtain ⟨v', hv', hcore'⟩ := h.vesting a account id' ha hvb
          have hid : id = id' := by
            rw [hvb, lazyTarget, hv', map_some, some.injEq] at htarget
            split at htarget
            · cases htarget
            · split at htarget
              · cases htarget
                rfl
              · cases htarget
          subst hid
          cases hfind.symm.trans hv'
          exact hcore'
      dsimp only
      rw [if_pos hcore]
      refine ⟨_, _, rfl, fun id' w hw hw' => ?_, by simp⟩
      rw [find_modify]
      split
      · next heq =>
        subst heq
        exact ⟨w.depositCore p db.headBlockTime amount requireVesting, by rw [hw]; rfl, hw'⟩
      · exact ⟨w, hw, hw'⟩

theorem Solid.creditCashback (ha : (db.accounts.find a).isSome) (amount : Int)
    (requireVesting : Bool) :
    ∃ db', db.creditCashback a amount requireVesting = some db' ∧ db'.Solid := by
  rw [Database.creditCashback]
  split
  · exact h.modifyCore _
  obtain ⟨account, haccount⟩ := isSome_iff_exists.1 ha
  obtain ⟨t, new, hdeposit, hkept, hnew⟩ :=
    h.depositLazyVesting haccount amount db.parameters.cashbackVestingPeriodSeconds requireVesting
  rw [haccount, bind_some, hdeposit, bind_some]
  have hvesting : ∀ b account' id, db.accounts.find b = some account' →
      account'.cashbackVb = some id → ∃ v, t.find id = some v ∧ v.balance.assetId = 0 := by
    intro b account' id hb hid
    obtain ⟨v, hv, hcore⟩ := h.vesting b account' id hb hid
    exact hkept id v hv hcore
  cases new with
  | none => exact ⟨_, rfl, { h with vesting := hvesting }⟩
  | some id =>
    -- the account gets the new balance
    have hsolid : ({ db with
        vestingBalances := t
        accounts := db.accounts.modify a fun acct => { acct with cashbackVb := some id } } :
          Database).Solid := by
      have hback : ∀ b account', (db.accounts.modify a fun acct =>
          { acct with cashbackVb := some id }).find b = some account' →
          ∃ account0, db.accounts.find b = some account0 ∧ account'.grTeam = account0.grTeam ∧
            (account'.cashbackVb = account0.cashbackVb ∨ account'.cashbackVb = some id) := by
        intro b account' hb
        rcases find_modify_cases hb haccount with ⟨rfl, rfl⟩ | hb
        · exact ⟨account, haccount, rfl, .inr rfl⟩
        · exact ⟨account', hb, rfl, .inl rfl⟩
      refine { h with
        statistics := fun b account' hb => ?_
        team := fun b account' i hb hi => ?_
        vesting := fun b account' i hb hi => ?_ }
      · obtain ⟨account0, hb0, -⟩ := hback b account' hb
        exact h.statistics b account0 hb0
      · obtain ⟨account0, hb0, hteam, -⟩ := hback b account' hb
        exact h.team b account0 i hb0 (hteam.symm.trans hi)
      · obtain ⟨account0, hb0, -, hvb | hvb⟩ := hback b account' hb
        · exact hvesting b account0 i hb0 (hvb.symm.trans hi)
        · exact hnew i (hvb.symm.trans hi)
    exact hsolid.modifyStatistics (h.statistics a account haccount) fun _ hs => hs

theorem Solid.depositCashback (ha : (db.accounts.find a).isSome) (amount : Int)
    (requireVesting countIncome : Bool) :
    ∃ db', db.depositCashback a amount requireVesting countIncome = some db' ∧ db'.Solid := by
  rw [Database.depositCashback]
  split
  · exact ⟨db, rfl, h⟩
  obtain ⟨account, haccount⟩ := isSome_iff_exists.1 ha
  have hincome : ∃ db1, (if countIncome then
      db.modifyStatistics a fun s => { s with currentMonthIncome := s.currentMonthIncome + amount }
      else some db) = some db1 ∧ db1.Solid ∧ db.RewardFrame db1 := by
    split
    · obtain ⟨db1, h1, hsolid1⟩ := h.modifyStatistics (h.statistics a account haccount)
        (f := fun s => { s with currentMonthIncome := s.currentMonthIncome + amount }) fun _ hs =>
        hs
      exact ⟨db1, h1, hsolid1, rewardFrame_modifyStatistics h1 fun _ => ⟨rfl, rfl⟩⟩
    · exact ⟨db, rfl, h, RewardFrame.refl db⟩
  obtain ⟨db1, h1, hsolid1, hframe1⟩ := hincome
  obtain ⟨account1, haccount1⟩ := isSome_iff_exists.1 ((hframe1.accounts a).trans ha)
  obtain ⟨db2, rest, h2, hsolid2⟩ :=
    hsolid1.withholdCashback (hsolid1.statistics a account1 haccount1) amount
  rw [h1, bind_some, h2, bind_some]
  cases rest with
  | none => exact ⟨db2, rfl, hsolid2⟩
  | some amount =>
    refine hsolid2.creditCashback ?_ amount requireVesting
    rw [(withholdCashback_withholds h2).rewardFrame.accounts, haccount1]
    rfl

/-! ### What a deposit leaves alone -/

end

/-- The accumulated fees of the core asset. -/
def accumulatedFees (db : Database) : Int :=
  ((db.assets.find 0).map AssetObject.accumulatedFees).getD 0

/-- The journal only gets entries about ended credits, and the accumulated fees stay. -/
structure DepositFrame (db db' : Database) : Prop where
  journal : ∃ l, db'.journal = l ++ db.journal ∧
    ∀ e ∈ l, ∃ debitor creditor amount repaid, e = .creditTotalRepay debitor creditor amount repaid
  fees : db'.accumulatedFees = db.accumulatedFees

theorem DepositFrame.refl (db : Database) : db.DepositFrame db := ⟨⟨[], rfl, by simp⟩, rfl⟩

theorem DepositFrame.trans {db'' : Database} (h : db.DepositFrame db')
    (h' : db'.DepositFrame db'') :
    db.DepositFrame db'' := by
  obtain ⟨l, hl, hmem⟩ := h.journal
  obtain ⟨l', hl', hmem'⟩ := h'.journal
  refine ⟨⟨l' ++ l, by rw [hl', hl, List.append_assoc], fun e he => ?_⟩, h'.fees.trans h.fees⟩
  rcases List.mem_append.1 he with he | he
  · exact hmem' e he
  · exact hmem e he

theorem DepositFrame.of_eq (hjournal : db'.journal = db.journal)
    (hfees : db'.accumulatedFees = db.accumulatedFees) : db.DepositFrame db' :=
  ⟨⟨[], hjournal, by simp⟩, hfees⟩

theorem depositFrame_repay (db : Database) (debitor creditor : AccountId) (amount repaid : Int) :
    db.DepositFrame (db.log (.creditTotalRepay debitor creditor amount repaid)) := by
  refine ⟨⟨[_], rfl, fun e he => ?_⟩, rfl⟩
  obtain rfl := List.mem_singleton.1 he
  exact ⟨_, _, _, _, rfl⟩

theorem depositFrame_adjustBalance {d : Asset} (h : db.adjustBalance a d = some db') :
    db.DepositFrame db' := by
  obtain ⟨m, -, rfl⟩ := adjustBalance_eq_some h
  exact .of_eq rfl rfl

theorem depositFrame_modifyStatistics (h : db.modifyStatistics a f = some db') :
    db.DepositFrame db' := by
  obtain ⟨s, -, rfl⟩ := modifyStatistics_eq_some h
  exact .of_eq rfl rfl

theorem accumulatedFees_modifyCore {f : AssetObject → AssetObject} {x : Int}
    (h : db.modifyCore f = some db') (hf : ∀ c, (f c).accumulatedFees = c.accumulatedFees + x) :
    db'.accumulatedFees = db.accumulatedFees + x := by
  obtain ⟨c, hc, rfl⟩ := modifyCore_eq_some h
  simp only [accumulatedFees, find_modify_self, hc, map_some, getD_some, hf]

theorem depositFrame_modifyCore {f : AssetObject → AssetObject} (h : db.modifyCore f = some db')
    (hf : ∀ c, (f c).accumulatedFees = c.accumulatedFees) : db.DepositFrame db' := by
  have hfees := accumulatedFees_modifyCore h (x := 0) fun c => (hf c).trans (add_zero _).symm
  rw [add_zero] at hfees
  obtain ⟨c, -, rfl⟩ := modifyCore_eq_some h
  exact .of_eq rfl hfees

theorem DepositStep.depositFrame (h : db.DepositStep db') : db.DepositFrame db' := by
  cases h with
  | balance h => exact depositFrame_adjustBalance h
  | supply h hf => exact depositFrame_modifyCore h hf
  | statistics h => exact depositFrame_modifyStatistics h
  | vesting => exact .of_eq rfl rfl
  | cashbackVb => exact .of_eq rfl rfl
  | repaid => exact depositFrame_repay _ _ _ _ _

/-- **A deposit of cashback** writes about ended credits only, and leaves the accumulated fees. -/
theorem depositFrame_depositCashback {requireVesting countIncome : Bool}
    (h : db.depositCashback a amount requireVesting countIncome = some db') : db.DepositFrame db' :=
  (depositCashback_steps h).lift DepositFrame.refl DepositFrame.trans DepositStep.depositFrame

/-! ### The next referrer -/

theorem decayed_isSome (hperiod : 0 < db.parameters.referralStatisticSeconds) (volume : Int)
    (lastUpdate : Nat) : (db.decayed volume lastUpdate).isSome := by
  rw [decayed, isSome_map, decreaseVol, if_neg (pos_iff_ne_zero.1 hperiod)]
  rfl

theorem compressed_isSome (hsolid : db.Solid) (hperiod : 0 < db.parameters.referralStatisticSeconds)
    {ref : AccountId} (hfind : db.accounts.find ref = some account) (count : Nat) :
    ∃ again, db.compressed ref account count = some again ∧
    (again = true → db.parameters.rootAccount < ref) := by
  rw [compressed]
  split
  · next hcond =>
    split
    · exact ⟨true, rfl, fun _ => hcond.2⟩
    · obtain ⟨s, hs⟩ := isSome_iff_exists.1 (hsolid.statistics ref account hfind)
      obtain ⟨pv, hpv⟩ := isSome_iff_exists.1
        (decayed_isSome hperiod s.personalVolumeInPeriod s.lastPvUpdateDate)
      rw [hs, bind_some, getPv, hpv]
      exact ⟨_, rfl, fun _ => hcond.2⟩
  · exact ⟨false, rfl, by simp⟩

/-- **The referral tree**: the root account exists, and all referrals lead to it. The statistic
period is what volumes are divided by. -/
structure Tree (db : Database) : Prop where
  period : 0 < db.parameters.referralStatisticSeconds
  root : (db.accounts.find db.parameters.rootAccount).isSome
  rooted : db.ReferralRooted

theorem isSome_of_rooted (h : Ascent.Rooted db.referrerOf db.AtRoot a) :
    (db.accounts.find a).isSome := by
  rcases h with ha | ⟨hab, -⟩
  · exact ha.1
  · obtain ⟨account, haccount, -⟩ := map_eq_some_iff.1 hab
    exact isSome_iff_exists.2 ⟨account, haccount⟩

theorem Tree.referrer (h : db.Tree) (ha : db.accounts.find a = some account)
    (hroot : db.parameters.rootAccount < a) : (db.accounts.find account.referrer).isSome := by
  rcases h.rooted a (isSome_iff_exists.2 ⟨account, ha⟩) with hstop | ⟨hab, hb⟩
  · exact absurd hroot (not_lt.2 hstop.2)
  · rw [referrerOf, ha] at hab
    cases hab
    exact isSome_of_rooted hb

theorem isSome_of_climbs (hc : db.AtRoot c) (h : Ascent.Climbs db.referrerOf db.AtRoot k a c) :
    (db.accounts.find a).isSome := by
  rcases h with _ | ⟨-, hab, -⟩
  · exact hc.1
  · obtain ⟨account, haccount, -⟩ := map_eq_some_iff.1 hab
    exact isSome_iff_exists.2 ⟨account, haccount⟩

/-- **The way up to the root account** is shorter than there are accounts. -/
theorem Tree.exists_climbs (h : db.Tree) (ha : (db.accounts.find a).isSome) :
    ∃ k c, db.AtRoot c ∧ Ascent.Climbs db.referrerOf db.AtRoot k a c ∧ k < db.accounts.nextId := by
  obtain ⟨k, c, hc, hclimbs⟩ := (h.rooted a ha).exists_climbs
  obtain ⟨account, haccount⟩ := isSome_iff_exists.1 ha
  have hlt : k < (Finset.range db.accounts.nextId).card := by
    refine Ascent.Climbs.lt_card (fun b d _ hb hbd => ?_) ?_ hc hclimbs
    · obtain ⟨account', hb', rfl⟩ := map_eq_some_iff.1 hbd
      have hlt : db.parameters.rootAccount < b := by
        by_contra hle
        exact hb ⟨isSome_iff_exists.2 ⟨account', hb'⟩, not_lt.1 hle⟩
      obtain ⟨referrer, hreferrer⟩ := isSome_iff_exists.1 (h.referrer hb' hlt)
      exact Finset.mem_range.2 (lt_nextId hreferrer)
    · exact Finset.mem_range.2 (lt_nextId haccount)
  rw [Finset.card_range] at hlt
  exact ⟨k, c, hc, hclimbs, hlt⟩

/-- The loop of `next_rewardable` ends further up, by induction on the way to the root account. -/
theorem climb_climbs (hsolid : db.Solid) (htree : db.Tree) {n : Nat} (count : Nat)
    (hc : db.AtRoot c) (hclimbs : Ascent.Climbs db.referrerOf db.AtRoot k a c) (hk : k ≤ n)
    (ha : db.parameters.rootAccount < a) :
    ∃ ref k', db.climb n count a = some ref ∧ k' < k ∧
    Ascent.Climbs db.referrerOf db.AtRoot k' ref c := by
  induction k generalizing n count a with
  | zero =>
    obtain rfl := Ascent.climbs_zero_iff.1 hclimbs
    exact absurd ha (not_lt.2 hc.2)
  | succ k ih =>
    obtain ⟨n, rfl⟩ := Nat.exists_eq_add_of_lt hk
    obtain ⟨-, b, hab, hbc⟩ := Ascent.climbs_succ_iff.1 hclimbs
    obtain ⟨account, haccount, rfl⟩ := map_eq_some_iff.1 hab
    obtain ⟨referrer, hreferrer⟩ := isSome_iff_exists.1 (htree.referrer haccount ha)
    obtain ⟨again, hagain, hup⟩ :=
      compressed_isSome hsolid htree.period hreferrer ((count + 1) % 256)
    rw [climb, haccount, bind_some, hreferrer, bind_some]
    dsimp only
    rw [hagain, bind_some]
    cases again with
    | true =>
      obtain ⟨ref, k', href, hlt, hclimbs'⟩ := ih _ hbc (le_add_right k n) (hup rfl)
      exact ⟨ref, k', href, lt_succ_of_lt hlt, hclimbs'⟩
    | false => exact ⟨account.referrer, k, rfl, lt_succ_self k, hbc⟩

/-- **The next account to be rewarded** is nearer to the root account. -/
theorem nextRewardable_climbs (hsolid : db.Solid) (htree : db.Tree) (hc : db.AtRoot c)
    (hclimbs : Ascent.Climbs db.referrerOf db.AtRoot k a c)
    (hroot : db.parameters.rootAccount < a) :
    ∃ ref k' c', db.nextRewardable a = some ref ∧ k' < k ∧ db.AtRoot c' ∧
      Ascent.Climbs db.referrerOf db.AtRoot k' ref c' := by
  rw [nextRewardable, if_neg (not_le.2 hroot)]
  have hk : 0 < k := by
    rcases Nat.eq_zero_or_pos k with rfl | hk
    · obtain rfl := Ascent.climbs_zero_iff.1 hclimbs
      exact absurd hroot (not_lt.2 hc.2)
    · exact hk
  split
  · -- two climbs to the root account are equally long
    obtain ⟨k', c', hc', hclimbs', hlt⟩ := htree.exists_climbs (isSome_of_climbs hc hclimbs)
    obtain rfl := Ascent.Climbs.length_eq hc hc' hclimbs hclimbs'
    obtain ⟨ref, k', href, hlt', hclimbs''⟩ :=
      climb_climbs hsolid htree 0 hc hclimbs (hlt.le.trans (le_add_right _ 256)) hroot
    rw [referralFuel, href]
    rcases max_choice ref db.parameters.rootAccount with hmax | hmax
    · exact ⟨ref, k', c, congrArg some hmax, hlt', hc, hclimbs''⟩
    · exact ⟨_, 0, _, congrArg some hmax, hk, ⟨htree.root, le_rfl⟩, .refl _⟩
  · obtain ⟨k, rfl⟩ := exists_eq_succ_of_ne_zero (pos_iff_ne_zero.1 hk)
    obtain ⟨-, b, hab, hbc⟩ := Ascent.climbs_succ_iff.1 hclimbs
    exact ⟨b, k, c, hab, lt_succ_self k, hc, hbc⟩

/-- **There is always a next account to be rewarded.** -/
theorem nextRewardable_isSome (hsolid : db.Solid) (htree : db.Tree)
    (ha : (db.accounts.find a).isSome) :
    ∃ ref, db.nextRewardable a = some ref ∧ (db.accounts.find ref).isSome := by
  rcases lt_or_ge db.parameters.rootAccount a with hlt | hge
  · obtain ⟨k, c, hc, hclimbs, -⟩ := htree.exists_climbs ha
    obtain ⟨ref, k', c', href, -, hc', hclimbs'⟩ :=
      nextRewardable_climbs hsolid htree hc hclimbs hlt
    exact ⟨ref, href, isSome_of_climbs hc' hclimbs'⟩
  · rw [nextRewardable, if_pos hge]
    exact ⟨_, rfl, htree.root⟩

end Database

end CrowdwizChain
