import CrowdwizChain.Chain.FeeDistribution
import CrowdwizChain.Lib.Shares
import Mathlib.Data.List.Sort

/-!
# The dividend of the gold holders

`count_gold` of `db_maint.cpp`: at maintenance forty of forty-two parts of the accumulated fees are
split among the holders of asset one, in proportion to their balances, and deposited as cashback.

The helper that computes a share takes the balance as a `uint16_t`. A balance of 65536 or more loses
all its multiples of 65536 on the way, and the holder is paid for the rest only; the total stays
within what is to be split, since shares only get smaller.
-/

namespace CrowdwizChain

open Option List Balances Int Prod

/-- The conversion to `uint16_t`. -/
def toUInt16 (n : Int) : Nat := (n % 2 ^ 16).toNat

/-- `cut_fee_helper` -/
def cutFeeHelper (a : Int) : Int := a * 40 / 42

/-- `split_fee_helper` -/
def splitFeeHelper (a : Int) (p : Nat) : Int := if a = 0 ∨ p = 0 then 0 else a * p / 21000

/-- `split_fee_helper_dynamic` -/
def splitFeeHelperDynamic (a : Int) (p : Nat) (currentSupply : Int) : Int :=
  if a = 0 ∨ p = 0 ∨ currentSupply = 0 then 0 else a * p / currentSupply

namespace Database

/-- The balances of asset one in the order of the index `by_asset_balance`. -/
def goldHolders (db : Database) : List (AccountId × Int) :=
  ((db.balances.entries.filter fun e => e.1.2 = 1).map fun e => (e.1.1, e.2.balance)).insertionSort
    fun x y => y.2 < x.2 ∨ x.2 = y.2 ∧ x.1 ≤ y.1

/-- `reward_cut` of a balance. -/
def goldCut (db : Database) (splitableFees supply balance : Int) : Int :=
  if hardforkCwd2Time ≤ db.headBlockTime then
    splitFeeHelperDynamic splitableFees (toUInt16 balance) supply
  else splitFeeHelper splitableFees (toUInt16 balance)

/-- The deposit of one share; from the sixth fork on it does not count as income. -/
def depositGold (db : Database) (credit : AccountId × Int) : Option Database :=
  db.depositCashback credit.1 credit.2 false (db.headBlockTime < hardforkCwd6Time)

/-- One round of the loop of `count_gold`, with `payed_fees`. -/
def payGold (splitableFees supply : Int) (st : Database × Int) (holder : AccountId × Int) :
    Option (Database × Int) :=
  if holder.2 = 0 then some st
  else
    let rewardCut := st.1.goldCut splitableFees supply holder.2
    (st.1.accounts.find holder.1).bind fun _ =>
      (st.1.depositGold (holder.1, rewardCut)).map fun db => (db, st.2 + rewardCut)

/-- `current_gcwd_supply` -/
def gcwdSupply (db : Database) : Option Int :=
  if hardforkCwd2Time ≤ db.headBlockTime then (db.assets.find 1).map AssetObject.currentSupply
    else some 0

/-- `count_gold` -/
def countGold (db : Database) : Option Database :=
  (db.assets.find 0).bind fun core =>
    if 0 < core.accumulatedFees then
      db.gcwdSupply.bind fun supply =>
        (db.goldHolders.foldlM (payGold (cutFeeHelper core.accumulatedFees) supply) (db, 0)).bind
          fun (db, payedFees) => db.modifyCore fun c =>
            { c with accumulatedFees := c.accumulatedFees - payedFees }
    else some db

/-! ### The credits -/

/-- What the holders are credited with, in the order of the loop. -/
def creditsOf (db : Database) (splitableFees supply : Int) (holders : List (AccountId × Int)) :
    List (AccountId × Int) :=
  (holders.filter (·.2 ≠ 0)).map fun h => (h.1, db.goldCut splitableFees supply h.2)

/-- The credits of a call of `count_gold`. -/
def goldCredits (db : Database) : List (AccountId × Int) :=
  (db.assets.find 0).elim [] fun core =>
    if 0 < core.accumulatedFees then
      db.creditsOf (cutFeeHelper core.accumulatedFees) (db.gcwdSupply.getD 0) db.goldHolders
    else []

/-- What an account gets of some credits. -/
def creditOf (credits : List (AccountId × Int)) (a : AccountId) : Int :=
  sumOf (credits.filter (·.1 = a))

variable {db : Database} {a : AccountId}

theorem creditOf_cons (c : AccountId × Int) (l : List (AccountId × Int)) (a : AccountId) :
    creditOf (c :: l) a = (if c.1 = a then c.2 else 0) + creditOf l a := by
  unfold creditOf sumOf
  split
  · next h => simp [h]
  · next h => simp [h]

theorem creditOf_of_notMem {l : List (AccountId × Int)} (h : a ∉ l.map fst) : creditOf l a = 0 := by
  induction l with
  | nil => rfl
  | cons c l ih =>
    rw [map_cons, mem_cons, not_or] at h
    rw [creditOf_cons, if_neg (Ne.symm h.1), ih h.2, add_zero]

theorem creditOf_of_mem {l : List (AccountId × Int)} (hl : (l.map fst).Nodup) {c : AccountId × Int}
    (h : c ∈ l) : creditOf l c.1 = c.2 := by
  induction l with
  | nil => cases h
  | cons d l ih =>
    rw [map_cons, nodup_cons] at hl
    rw [creditOf_cons]
    rcases mem_cons.1 h with rfl | h
    · rw [if_pos rfl, creditOf_of_notMem hl.1, add_zero]
    · have hne : d.1 ≠ c.1 := by
        intro heq
        exact hl.1 (heq ▸ mem_map.2 ⟨c, h, rfl⟩)
      rw [if_neg hne, ih hl.2 h, zero_add]

/-! ### The holders -/

theorem mem_goldHolders {x : Int} :
    (a, x) ∈ db.goldHolders ↔ ∃ b, db.balances.lookup (a, 1) = some b ∧ b.balance = x := by
  rw [goldHolders, mem_insertionSort, List.mem_map]
  constructor
  · rintro ⟨⟨⟨a', s⟩, b⟩, he, heq⟩
    cases heq
    obtain ⟨hmem, hs⟩ := mem_filter.1 he
    obtain rfl : s = 1 := of_decide_eq_true hs
    exact ⟨b, AList.mem_lookup_iff.2 hmem, rfl⟩
  · rintro ⟨b, hb, rfl⟩
    exact ⟨⟨(a, 1), b⟩, mem_filter.2 ⟨AList.mem_lookup_iff.1 hb, rfl⟩, rfl⟩

theorem nodup_goldHolders (db : Database) : (db.goldHolders.map fst).Nodup := by
  have hperm := (perm_insertionSort (fun x y : AccountId × Int => y.2 < x.2 ∨ x.2 = y.2 ∧ x.1 ≤ y.1)
    ((db.balances.entries.filter fun e => e.1.2 = 1).map fun e => (e.1.1, e.2.balance))).map fst
  rw [goldHolders, hperm.nodup_iff, List.map_map]
  have hkeys : (db.balances.entries.map Sigma.fst).Nodup := db.balances.nodupKeys
  rw [List.Nodup, List.pairwise_map] at hkeys ⊢
  refine (hkeys.filter _).imp_of_mem fun {e e'} he he' hne heq => hne ?_
  -- of asset one, a balance is found by its owner
  have hs := of_decide_eq_true (mem_filter.1 he).2
  have hs' := of_decide_eq_true (mem_filter.1 he').2
  exact Prod.ext heq (hs.trans hs'.symm)

theorem sum_goldHolders (db : Database) : (db.goldHolders.map snd).sum = total db.balances 1 := by
  have hperm := (perm_insertionSort (fun x y : AccountId × Int => y.2 < x.2 ∨ x.2 = y.2 ∧ x.1 ≤ y.1)
    ((db.balances.entries.filter fun e => e.1.2 = 1).map fun e => (e.1.1, e.2.balance))).map snd
  rw [goldHolders, hperm.sum_eq, List.map_map, total, AList.sumBy]
  induction db.balances.entries with
  | nil => rfl
  | cons e l ih =>
    rw [filter_cons]
    by_cases hs : e.1.2 = 1
    · simp only [hs, decide_true, if_true, map_cons, sum_cons, ih]
      rfl
    · simp only [hs, decide_false, Bool.false_eq_true, if_false, map_cons, sum_cons, zero_add, ih]

theorem amountOf_of_mem {h : AccountId × Int} (hmem : h ∈ db.goldHolders) :
    amountOf db.balances h.1 1 = h.2 := by
  obtain ⟨b, hb, hx⟩ := mem_goldHolders.1 hmem
  rw [amountOf, hb]
  exact hx

theorem amountOf_of_notMem (h : a ∉ db.goldHolders.map fst) : amountOf db.balances a 1 = 0 := by
  rw [amountOf]
  cases hb : db.balances.lookup (a, 1) with
  | none => rfl
  | some b => exact absurd (mem_map.2 ⟨(a, b.balance), mem_goldHolders.2 ⟨b, hb, rfl⟩, rfl⟩) h

theorem creditOf_creditsOf (db : Database) (splitableFees supply : Int) (a : AccountId) :
    creditOf (db.creditsOf splitableFees supply db.goldHolders) a =
      if amountOf db.balances a 1 = 0 then 0
      else db.goldCut splitableFees supply (amountOf db.balances a 1) := by
  have hkeys : (db.creditsOf splitableFees supply db.goldHolders).map fst =
      (db.goldHolders.filter (·.2 ≠ 0)).map fst := by
    rw [creditsOf, List.map_map]
    rfl
  have hnodup : ((db.creditsOf splitableFees supply db.goldHolders).map fst).Nodup := by
    rw [hkeys]
    exact db.nodup_goldHolders.sublist ((filter_sublist).map fst)
  split
  · next hzero =>
    refine creditOf_of_notMem ?_
    rw [hkeys]
    rintro hmem
    obtain ⟨h, hh, rfl⟩ := List.mem_map.1 hmem
    obtain ⟨hh, hne⟩ := mem_filter.1 hh
    exact of_decide_eq_true hne ((amountOf_of_mem hh).symm.trans hzero)
  · next hne =>
    have hmem : a ∈ db.goldHolders.map fst := by
      by_contra hmem
      exact hne (amountOf_of_notMem hmem)
    obtain ⟨h, hh, rfl⟩ := List.mem_map.1 hmem
    rw [amountOf_of_mem hh] at hne ⊢
    refine creditOf_of_mem hnodup (c := (h.1, db.goldCut splitableFees supply h.2)) ?_
    exact List.mem_map.2 ⟨h, mem_filter.2 ⟨hh, decide_eq_true hne⟩, rfl⟩

/-! ### The loop -/

/-- The deposits of some credits, one after the other. -/
def depositAll (db : Database) (credits : List (AccountId × Int)) : Option Database :=
  credits.foldlM depositGold db

theorem rewardFrame_depositGold {db' : Database} {c : AccountId × Int}
    (h : db.depositGold c = some db') :
    db.RewardFrame db' := (depositCashback_steps h).rewardFrame

theorem depositAll_ledger {db' : Database} {credits : List (AccountId × Int)}
    (h : db.depositAll credits = some db') :
    db.DepositFrame db' ∧ db'.imbalance = db.imbalance + sumOf credits := by
  induction credits generalizing db with
  | nil =>
    cases h
    exact ⟨.refl _, (add_zero _).symm⟩
  | cons c credits ih =>
    obtain ⟨db1, h1, h⟩ := bind_eq_some_iff.1 h
    obtain ⟨hframe, himb⟩ := ih h
    refine ⟨(depositFrame_depositCashback h1).trans hframe, ?_⟩
    rw [himb, imbalance_depositCashback h1]
    simp only [sumOf, map_cons, sum_cons]
    omega

/-- **The loop makes the deposits of the credits**, and adds them up. -/
theorem foldlM_payGold (hsolid : db.Solid) (splitableFees supply payed : Int)
    {holders : List (AccountId × Int)} (hholders : ∀ h ∈ holders, (db.accounts.find h.1).isSome) :
    ∃ db', db.depositAll (db.creditsOf splitableFees supply holders) = some db' ∧ db'.Solid ∧
      holders.foldlM (payGold splitableFees supply) (db, payed) =
        some (db', payed + sumOf (db.creditsOf splitableFees supply holders)) := by
  induction holders generalizing db payed with
  | nil => exact ⟨db, rfl, hsolid, by simp [creditsOf, sumOf]⟩
  | cons h holders ih =>
    rw [forall_mem_cons] at hholders
    by_cases hzero : h.2 = 0
    · obtain ⟨db', hall, hsolid', hloop⟩ := ih hsolid payed hholders.2
      have hcredits : db.creditsOf splitableFees supply (h :: holders) =
          db.creditsOf splitableFees supply holders := by simp [creditsOf, hzero]
      rw [hcredits, foldlM_cons, payGold, if_pos hzero]
      exact ⟨db', hall, hsolid', hloop⟩
    · obtain ⟨account, haccount⟩ := isSome_iff_exists.1 hholders.1
      obtain ⟨db1, h1, hsolid1⟩ := hsolid.depositCashback hholders.1
        (db.goldCut splitableFees supply h.2) false (db.headBlockTime < hardforkCwd6Time)
      have hdeposit : db.depositGold (h.1, db.goldCut splitableFees supply h.2) = some db1 := h1
      have hframe := rewardFrame_depositGold hdeposit
      -- the cuts do not depend on what was deposited
      have hcut : db1.goldCut splitableFees supply = db.goldCut splitableFees supply := by
        funext x
        rw [goldCut, goldCut, hframe.headBlockTime]
      have hcredits : db.creditsOf splitableFees supply (h :: holders) =
          (h.1, db.goldCut splitableFees supply h.2) ::
          db1.creditsOf splitableFees supply holders := by
        simp [creditsOf, hzero, hcut]
      obtain ⟨db', hall, hsolid', hloop⟩ := ih hsolid1 (payed + db.goldCut splitableFees supply h.2)
        fun x hx => (hframe.accounts x.1).trans (hholders.2 x hx)
      rw [hcredits, depositAll, foldlM_cons, foldlM_cons, payGold, if_neg hzero]
      rw [haccount, bind_some, hdeposit]
      refine ⟨db', hall, hsolid', ?_⟩
      refine hloop.trans ?_
      simp only [sumOf, map_cons, sum_cons, add_assoc]

/-! ### The shares -/

/-- **Nothing is lost of a balance in a `uint16_t`**: it fits, or what is dropped does not reach the
next unit of the share. -/
def FitsShare (splitableFees supply balance : Int) : Prop :=
  balance < 65536 ∨
    splitableFees * (balance % 65536) % supply + splitableFees * (balance - balance % 65536) <
    supply

theorem add_ediv_eq_iff {x y d : Int} (hd : 0 < d) (hy : 0 ≤ y) :
    (x + y) / d = x / d ↔ x % d + y < d := by
  have hx := emod_nonneg x hd.ne'
  have hsplit : x + y = x % d + y + d * (x / d) := by
    have := mul_ediv_add_emod x d
    omega
  rw [hsplit, add_mul_ediv_left _ _ hd.ne', add_eq_right]
  constructor
  · intro h
    have hlt := lt_ediv_add_one_mul_self (x % d + y) hd
    rw [h, zero_add, one_mul] at hlt
    exact hlt
  · intro h
    exact ediv_eq_zero_of_lt (add_nonneg hx hy) h

theorem splitFeeHelperDynamic_eq (a : Int) (p : Nat) (supply : Int) :
    splitFeeHelperDynamic a p supply = Shares.share a supply p := by
  rw [splitFeeHelperDynamic, Shares.share]
  split
  · next h =>
    rcases h with rfl | rfl | rfl
    · rw [zero_mul, Int.zero_ediv]
    · rw [Nat.cast_zero, mul_zero, Int.zero_ediv]
    · rw [Int.ediv_zero]
  · rfl

theorem toUInt16_eq (n : Int) : (toUInt16 n : Int) = n % 65536 := by
  unfold toUInt16
  omega

theorem share_truncated_eq_iff {splitableFees supply balance : Int} (hfees : 0 ≤ splitableFees)
    (hsupply : 0 < supply) (hbalance : 0 ≤ balance) :
    splitableFees * (balance % 65536) / supply = splitableFees * balance / supply ↔
      FitsShare splitableFees supply balance := by
  have hsplit : splitableFees * balance =
      splitableFees * (balance % 65536) + splitableFees * (balance - balance % 65536) := by ring
  have hrest : 0 ≤ splitableFees * (balance - balance % 65536) := mul_nonneg hfees (by omega)
  rw [hsplit, eq_comm, add_ediv_eq_iff hsupply hrest, FitsShare]
  constructor
  · exact .inr
  · rintro (hlt | h)
    · rw [emod_eq_of_lt hbalance hlt, sub_self, mul_zero, add_zero]
      exact emod_lt_of_pos _ hsupply
    · exact h

/-- **No more is credited than is to be split.** -/
theorem sumOf_creditsOf_le (htime : hardforkCwd2Time ≤ db.headBlockTime)
    {splitableFees supply : Int}
    (hfees : 0 ≤ splitableFees) (hsupply : 0 < supply) {holders : List (AccountId × Int)}
    (hholders : ∀ h ∈ holders, 0 ≤ h.2) (hsum : (holders.map snd).sum ≤ supply) :
    sumOf (db.creditsOf splitableFees supply holders) ≤ splitableFees := by
  have hcuts : (db.creditsOf splitableFees supply holders).map snd =
      ((holders.filter (·.2 ≠ 0)).map fun h => h.2 % 65536).map
      (Shares.share splitableFees supply) := by
    rw [creditsOf, List.map_map, List.map_map]
    refine map_congr_left fun h _ => ?_
    simp only [Function.comp_apply, goldCut, if_pos htime, splitFeeHelperDynamic_eq, toUInt16_eq]
  rw [sumOf, hcuts]
  refine Shares.sum_share_le hfees hsupply (le_trans ?_ hsum)
  clear hcuts hsum
  induction holders with
  | nil => exact le_rfl
  | cons h holders ih =>
    rw [forall_mem_cons] at hholders
    have hrest := ih hholders.2
    rw [filter_cons, map_cons, sum_cons]
    split
    · rw [map_cons, sum_cons]
      omega
    · omega

section Dividend

variable {db : Database} {core gcwd : AssetObject}

theorem gcwdSupply_eq (htime : hardforkCwd2Time ≤ db.headBlockTime)
    (hgcwd : db.assets.find 1 = some gcwd) :
    db.gcwdSupply = some gcwd.currentSupply := by
  rw [gcwdSupply, if_pos htime, hgcwd]
  rfl

/-- What an account is credited with: the share of what is left of the balance. -/
theorem creditOf_goldCredits (htime : hardforkCwd2Time ≤ db.headBlockTime)
    (hcore : db.assets.find 0 = some core) (hgcwd : db.assets.find 1 = some gcwd)
    (hfees : 0 ≤ core.accumulatedFees) (a : AccountId) :
    creditOf db.goldCredits a = core.accumulatedFees * 40 / 42 *
      (amountOf db.balances a 1 % 65536) / gcwd.currentSupply := by
  rw [goldCredits, hcore, elim_some, gcwdSupply_eq htime hgcwd, getD_some]
  rcases hfees.eq_or_lt with hzero | hpos
  · rw [← hzero, if_neg (lt_irrefl _), zero_mul, zero_ediv, zero_mul, zero_ediv]
    rfl
  · rw [if_pos hpos, creditOf_creditsOf]
    split
    · next hamount => rw [hamount, zero_emod, mul_zero, zero_ediv]
    · rw [goldCut, if_pos htime, splitFeeHelperDynamic_eq, toUInt16_eq]
      rfl

theorem supply_pos (hholders : ∀ h ∈ db.goldHolders, 0 ≤ h.2)
    (hsum : total db.balances 1 ≤ gcwd.currentSupply) {h : AccountId × Int}
    (hh : h ∈ db.goldHolders) (hne : h.2 ≠ 0) : 0 < gcwd.currentSupply := by
  have hle : h.2 ≤ (db.goldHolders.map snd).sum := by
    refine single_le_sum (fun x hx => ?_) h.2 (mem_map.2 ⟨h, hh, rfl⟩)
    obtain ⟨h', hh', rfl⟩ := mem_map.1 hx
    exact hholders h' hh'
  rw [sum_goldHolders] at hle
  have hnonneg := hholders h hh
  omega

variable (htime : hardforkCwd2Time ≤ db.headBlockTime) (hcore : db.assets.find 0 = some core)
  (hgcwd : db.assets.find 1 = some gcwd) (hfees : 0 ≤ core.accumulatedFees)
  (hholders : ∀ h ∈ db.goldHolders, 0 ≤ h.2) (hsum : total db.balances 1 ≤ gcwd.currentSupply)

include htime hcore hgcwd hfees hholders hsum

/-- An account gets the exact share exactly if nothing is lost of the balance. -/
theorem creditOf_goldCredits_iff (a : AccountId) : creditOf db.goldCredits a =
        core.accumulatedFees * 40 / 42 * amountOf db.balances a 1 / gcwd.currentSupply ↔
      FitsShare (core.accumulatedFees * 40 / 42) gcwd.currentSupply (amountOf db.balances a 1) := by
  rw [creditOf_goldCredits htime hcore hgcwd hfees]
  by_cases hzero : amountOf db.balances a 1 = 0
  · rw [hzero]
    exact iff_of_true rfl (.inl (by decide))
  · have hmem : a ∈ db.goldHolders.map fst := by
      by_contra hmem
      exact hzero (amountOf_of_notMem hmem)
    obtain ⟨h, hh, rfl⟩ := mem_map.1 hmem
    rw [amountOf_of_mem hh] at hzero ⊢
    exact share_truncated_eq_iff (ediv_nonneg (by omega) (by decide))
      (supply_pos hholders hsum hh hzero) (hholders h hh)

theorem sumOf_goldCredits_le : sumOf db.goldCredits ≤ core.accumulatedFees * 40 / 42 := by
  have hsplitable : 0 ≤ core.accumulatedFees * 40 / 42 := ediv_nonneg (by omega) (by decide)
  rw [goldCredits, hcore, elim_some, gcwdSupply_eq htime hgcwd, getD_some]
  split
  · rcases hcredits :
      db.creditsOf (cutFeeHelper core.accumulatedFees) gcwd.currentSupply db.goldHolders
      with _ | ⟨c, credits⟩
    · exact hsplitable
    · -- there is a holder
      have hc :
          c ∈ db.creditsOf (cutFeeHelper core.accumulatedFees) gcwd.currentSupply
            db.goldHolders := by
        rw [hcredits]
        exact mem_cons_self
      obtain ⟨h, hh, -⟩ := mem_map.1 hc
      obtain ⟨hh, hne⟩ := mem_filter.1 hh
      rw [← hcredits]
      refine sumOf_creditsOf_le htime hsplitable ?_ hholders ?_
      · exact supply_pos hholders hsum hh (of_decide_eq_true hne)
      · rw [sum_goldHolders]
        exact hsum
  · exact hsplitable

end Dividend

/-- **The dividend of the gold holders.** Where the balances of asset one are held by accounts and
are together at most its supply, `count_gold` goes through: it makes the deposits of the credits,
which are together at most what is to be split, and takes exactly their sum from the accumulated
fees; the books of the core asset stay balanced, what is withheld for credits and burned included.
Every account is credited with its share of the balance, rounded down, exactly if nothing is lost of
the balances in a `uint16_t`. -/
theorem gold_dividend_iff {db : Database} (hsolid : db.Solid)
    (htime : hardforkCwd2Time ≤ db.headBlockTime) {core gcwd : AssetObject}
    (hcore : db.assets.find 0 = some core) (hgcwd : db.assets.find 1 = some gcwd)
    (hfees : 0 ≤ core.accumulatedFees)
    (hholders : ∀ h ∈ db.goldHolders, 0 ≤ h.2 ∧ (db.accounts.find h.1).isSome)
    (hsum : Balances.total db.balances 1 ≤ gcwd.currentSupply) :
    ∃ db₁ db', db.countGold = some db' ∧ db.depositAll db.goldCredits = some db₁ ∧
      db' = { db₁ with assets := db'.assets } ∧
      sumOf db.goldCredits ≤ core.accumulatedFees * 40 / 42 ∧
      db'.accumulatedFees = db.accumulatedFees - sumOf db.goldCredits ∧
      db'.imbalance = db.imbalance ∧
      ((∀ a, creditOf db.goldCredits a =
          core.accumulatedFees * 40 / 42 * Balances.amountOf db.balances a 1 / gcwd.currentSupply) ↔
        ∀ a, FitsShare (core.accumulatedFees * 40 / 42) gcwd.currentSupply
          (Balances.amountOf db.balances a 1)) := by
  obtain ⟨hbalances, haccounts⟩ := forall₂_and.1 hholders
  have hle := sumOf_goldCredits_le htime hcore hgcwd hfees hbalances hsum
  have hiff := forall_congr' (creditOf_goldCredits_iff htime hcore hgcwd hfees hbalances hsum)
  rw [countGold, hcore, bind_some]
  split
  · next hpos =>
    have hcredits : db.goldCredits =
        db.creditsOf (cutFeeHelper core.accumulatedFees) gcwd.currentSupply db.goldHolders := by
      rw [goldCredits, hcore, elim_some, if_pos hpos, gcwdSupply_eq htime hgcwd, getD_some]
    obtain ⟨db₁, hall, hsolid1, hloop⟩ := foldlM_payGold hsolid (cutFeeHelper core.accumulatedFees)
      gcwd.currentSupply 0 haccounts
    rw [← hcredits, zero_add] at hloop
    rw [← hcredits] at hall
    obtain ⟨db', h', -⟩ := hsolid1.modifyCore fun c =>
      { c with accumulatedFees := c.accumulatedFees - sumOf db.goldCredits }
    obtain ⟨hframe, himb⟩ := depositAll_ledger hall
    rw [gcwdSupply_eq htime hgcwd, bind_some, hloop, bind_some]
    refine ⟨db₁, db', h', hall, ?_, hle, ?_, ?_, hiff⟩
    · obtain ⟨c, -, rfl⟩ := modifyCore_eq_some h'
      rfl
    · rw [accumulatedFees_modifyCore h' fun _ => Int.sub_eq_add_neg, hframe.fees,
        ← Int.sub_eq_add_neg]
    · obtain ⟨c, hc, -⟩ := modifyCore_eq_some h'
      rw [imbalance_modifyCore hc h', himb]
      dsimp only
      omega
  · next hpos =>
    have hcredits : db.goldCredits = [] := by
      rw [goldCredits, hcore, elim_some, if_neg hpos]
    refine ⟨db, db, rfl, ?_, rfl, hle, ?_, rfl, hiff⟩
    · rw [hcredits]
      rfl
    · rw [hcredits]
      exact (Int.sub_zero _).symm

/-! ### A holder of more than 65535 -/

/-- Two accounts hold all of an asset one of a hundred thousand units, and 4200 of fees
were accumulated. -/
def goldChain (mine : Int) : Database :=
  let db := start hardforkCwd5Time
    [{ referrer := 0 }, { referrer := 0 }, { referrer := 0 }, { referrer := 0 }, { referrer := 0 },
      { referrer := 0 }, { referrer := 5 }] 0
  { db with
    assets := (db.assets.modify 0 fun c => { c with accumulatedFees := 4200 }).create
      { symbol := "GCWD", coreExchangeRate := ⟨⟨1, 0⟩, ⟨1, 1⟩⟩, currentSupply := 100000 }
    balances := (db.balances.insert (5, 1) ⟨mine, false⟩).insert (6, 1) ⟨100000 - mine, false⟩ }

/-- Sixty and forty percent of the asset are sixty and forty percent of the dividend. -/
theorem gold_dividend_iff_fits : ∃ db', (goldChain 60000).countGold = some db' ∧
      creditOf (goldChain 60000).goldCredits 5 = 2400 ∧
      creditOf (goldChain 60000).goldCredits 6 = 1600 := by
  have hsolid : (goldChain 60000).Solid :=
    solid_of_entries (by decide +kernel) (by decide +kernel) (by decide +kernel)
  obtain ⟨_, db', h, -, -, -, -, -, hiff⟩ := gold_dividend_iff hsolid (by decide +kernel)
    (some_get (show ((goldChain 60000).assets.find 0).isSome by decide +kernel)).symm
    (some_get (show ((goldChain 60000).assets.find 1).isSome by decide +kernel)).symm
    (by decide +kernel) (by decide +kernel) (by decide +kernel)
  have hsmall : ∀ h ∈ (goldChain 60000).goldHolders, h.2 < 65536 := by decide +kernel
  have hcredits := hiff.2 fun a => .inl ?_
  · exact ⟨db', h, (hcredits 5).trans (by decide +kernel), (hcredits 6).trans (by decide +kernel)⟩
  · by_cases hmem : a ∈ (goldChain 60000).goldHolders.map fst
    · obtain ⟨h, hh, rfl⟩ := mem_map.1 hmem
      rw [amountOf_of_mem hh]
      exact hsmall h hh
    · rw [amountOf_of_notMem hmem]
      decide

/-- Seventy percent of the asset are 70000 units, and the share is computed for 70000 - 65536 of
them: 178 instead of 2800. -/
theorem gold_balance_truncated :
    ((goldChain 70000).countGold.any fun db' => db'.accumulatedFees = 4200 - (178 + 1200)) ∧
      creditOf (goldChain 70000).goldCredits 5 = 178 ∧
      (4200 * 40 / 42 : Int) * Balances.amountOf (goldChain 70000).balances 5 1 / 100000 =
      2800 := by
  decide +kernel

end Database

end CrowdwizChain
