import CrowdwizChain.Chain.Database
import CrowdwizChain.Lib.MarkSweep

/-!
# Balances

`database::get_balance` and `database::adjust_balance` of `db_balance.cpp`. An account holds an
asset in an `account_balance_object`, which is created by the first credit and never removed; a
debit that the balance does not cover is refused. Nothing here looks at whether the account exists.

`adjust` works on the balances alone, so that everything else in the database is visibly
untouched. Three facts about it are used everywhere: what it does to each balance
(`amountOf_adjust`), to the sum of the balances of an asset (`total_adjust`), and which balances
exist afterwards (`mem_adjust`).
-/

namespace CrowdwizChain

open Option List

namespace Balances

/-- What an account holds of an asset. -/
def amountOf (m : Balances) (a : AccountId) (s : AssetId) : Int :=
  (m.lookup (a, s)).elim 0 AccountBalance.balance

/-- What all accounts together hold of an asset. -/
def total (m : Balances) (s : AssetId) : Int :=
  m.sumBy fun k b => if k.2 = s then b.balance else 0

/-- `database::adjust_balance`, on the balances. -/
def adjust (m : Balances) (account : AccountId) (delta : Asset) : Option Balances :=
  if delta.amount = 0 then some m
  else match m.lookup (account, delta.assetId) with
    | none =>
      if 0 < delta.amount
      then some (m.insert (account, delta.assetId) ⟨delta.amount, delta.assetId == 0⟩)
      else none
    | some b =>
      if delta.amount < 0 ∧ b.balance < -delta.amount then none
      else some (m.insert (account, delta.assetId)
        ⟨b.balance + delta.amount, b.maintenanceFlag || delta.assetId == 0⟩)

variable {m m' : Balances} {a : AccountId} {d : Asset}

variable {l : List (AccountId × Asset)}

theorem adjust_cases (h : adjust m a d = some m') : (d.amount = 0 ∧ m' = m) ∨
      ∃ b : AccountBalance, m' = m.insert (a, d.assetId) b ∧ d.amount ≠ 0 ∧
        b.balance = m.amountOf a d.assetId + d.amount ∧ ((a, d.assetId) ∈ m ∨ 0 < d.amount) ∧
        (d.amount < 0 → 0 ≤ b.balance) := by
  unfold adjust at h
  split at h
  · next h0 =>
    cases h
    exact .inl ⟨h0, rfl⟩
  · next h0 =>
    split at h
    · next hnone =>
      obtain ⟨hpos, h⟩ := ite_none_right_eq_some.1 h
      cases h
      refine .inr ⟨_, rfl, h0, ?_, .inr hpos, fun hneg => absurd hpos (by omega)⟩
      simp [amountOf, hnone]
    · next b hb =>
      obtain ⟨hcover, h⟩ := ite_none_left_eq_some.1 h
      cases h
      refine .inr ⟨_, rfl, h0, ?_, .inl ?_, fun hneg => ?_⟩
      · simp [amountOf, hb]
      · exact AList.lookup_isSome.1 (by simp [hb])
      · simp only
        omega

theorem adjust_isSome (hd : 0 ≤ d.amount) : ∃ m', adjust m a d = some m' := by
  unfold adjust
  split
  · exact ⟨_, rfl⟩
  · next h0 =>
    split
    · rw [if_pos (by omega)]
      exact ⟨_, rfl⟩
    · rw [if_neg (by omega)]
      exact ⟨_, rfl⟩

theorem adjust_isSome_of_le (hd : -d.amount ≤ m.amountOf a d.assetId) :
    ∃ m', adjust m a d = some m' := by
  unfold adjust
  split
  · exact ⟨_, rfl⟩
  · next h0 =>
    unfold amountOf at hd
    split
    · next hnone =>
      rw [hnone] at hd
      simp only [elim_none] at hd
      rw [if_pos (by omega)]
      exact ⟨_, rfl⟩
    · next b hb =>
      rw [hb] at hd
      simp only [elim_some] at hd
      rw [if_neg (by omega)]
      exact ⟨_, rfl⟩

theorem amountOf_insert (m : Balances) (k : AccountId × AssetId) (b : AccountBalance)
    (a : AccountId) (s : AssetId) :
    amountOf (m.insert k b) a s = if (a, s) = k then b.balance else m.amountOf a s := by
  unfold amountOf
  split
  · next h =>
    subst h
    simp
  · next h => rw [AList.lookup_insert_ne h]

/-- **One balance moves**, by the amount given, and no other. -/
theorem amountOf_adjust (h : adjust m a d = some m') (a' : AccountId) (s : AssetId) :
    m'.amountOf a' s = m.amountOf a' s + if a' = a ∧ s = d.assetId then d.amount else 0 := by
  rcases adjust_cases h with ⟨h0, rfl⟩ | ⟨b, rfl, -, hb, -⟩
  · simp [h0]
  · rw [amountOf_insert]
    by_cases heq : a' = a ∧ s = d.assetId
    · obtain ⟨rfl, rfl⟩ := heq
      simpa using hb
    · rw [if_neg heq, if_neg (by simpa using heq), add_zero]

/-- **The sum moves** by the amount given, for its asset only. -/
theorem total_adjust (h : adjust m a d = some m') (s : AssetId) :
    m'.total s = m.total s + if s = d.assetId then d.amount else 0 := by
  rcases adjust_cases h with ⟨h0, rfl⟩ | ⟨b, rfl, -, hb, -⟩
  · simp [h0]
  · unfold total
    rw [AList.sumBy_insert]
    by_cases hs : s = d.assetId
    · subst hs
      have hold : (m.lookup (a, d.assetId)).elim 0
          (fun b => if d.assetId = d.assetId then b.balance else 0) = m.amountOf a d.assetId := by
        simp [amountOf]
      simp only [if_true, hb] at hold ⊢
      omega
    · have hne : d.assetId ≠ s := fun h => hs h.symm
      cases m.lookup (a, d.assetId) <;> simp [hne, hs]

/-! ### Several adjustments -/

/-- Adjustments made one after another. -/
def adjustAll (m : Balances) : List (AccountId × Asset) → Option Balances
  | [] => some m
  | (a, d) :: l => (m.adjust a d).bind fun m' => adjustAll m' l

@[simp] theorem adjustAll_nil (m : Balances) : m.adjustAll [] = some m := rfl

@[simp] theorem adjustAll_cons (m : Balances) (a : AccountId) (d : Asset)
    (l : List (AccountId × Asset)) :
    m.adjustAll ((a, d) :: l) = (m.adjust a d).bind fun m' => m'.adjustAll l := rfl

theorem adjustAll_append (m : Balances) (l1 l2 : List (AccountId × Asset)) :
    m.adjustAll (l1 ++ l2) = (m.adjustAll l1).bind fun m' => m'.adjustAll l2 := by
  induction l1 generalizing m with
  | nil => rfl
  | cons e l ih =>
    rw [cons_append, adjustAll_cons, adjustAll_cons, bind_assoc]
    exact congrArg _ (funext fun m' => ih m')

theorem adjustAll_concat {m1 m2 : Balances} {a : AccountId} {d : Asset}
    (h1 : m.adjustAll l = some m1)
    (h2 : m1.adjust a d = some m2) : m.adjustAll (l ++ [(a, d)]) = some m2 := by
  rw [adjustAll_append, h1, bind_some, adjustAll_cons, h2]
  rfl

theorem adjustAll_pair {m1 m2 : Balances} {a b : AccountId} {d e : Asset}
    (h1 : m.adjust a d = some m1) (h2 : m1.adjust b e = some m2) :
    m.adjustAll [(a, d), (b, e)] = some m2 := by
  rw [adjustAll_cons, h1, bind_some, adjustAll_cons, h2]
  rfl

/-- What the adjustments of a list give to one account in one asset. -/
def given (l : List (AccountId × Asset)) (a : AccountId) (s : AssetId) : Int :=
  (l.map fun e => if a = e.1 ∧ s = e.2.assetId then e.2.amount else 0).sum

/-- What the adjustments of a list give to all accounts in one asset. -/
def givenTotal (l : List (AccountId × Asset)) (s : AssetId) : Int :=
  (l.map fun e => if s = e.2.assetId then e.2.amount else 0).sum

theorem givenTotal_append (l l' : List (AccountId × Asset)) (s : AssetId) :
    givenTotal (l ++ l') s = givenTotal l s + givenTotal l' s := by
  simp [givenTotal]

theorem givenTotal_flatMap {ι : Type*} (l : List ι) (f : ι → List (AccountId × Asset))
    (s : AssetId) : givenTotal (l.flatMap f) s = (l.map fun i => givenTotal (f i) s).sum := by
  induction l with
  | nil => rfl
  | cons i l ih => rw [flatMap_cons, givenTotal_append, ih, map_cons, sum_cons]

theorem amountOf_adjustAll (h : adjustAll m l = some m') (a : AccountId) (s : AssetId) :
    m'.amountOf a s = m.amountOf a s + given l a s := by
  induction l generalizing m with
  | nil =>
    cases h
    simp [given]
  | cons e l ih =>
    obtain ⟨m1, h1, h⟩ := bind_eq_some_iff.1 h
    rw [ih h, amountOf_adjust h1]
    simp only [given, map_cons, sum_cons]
    omega

theorem total_adjustAll (h : adjustAll m l = some m') (s : AssetId) :
    m'.total s = m.total s + givenTotal l s := by
  induction l generalizing m with
  | nil =>
    cases h
    simp [givenTotal]
  | cons e l ih =>
    obtain ⟨m1, h1, h⟩ := bind_eq_some_iff.1 h
    rw [ih h, total_adjust h1]
    simp only [givenTotal, map_cons, sum_cons]
    omega

theorem adjustAll_isSome (hl : ∀ e ∈ l, 0 ≤ e.2.amount) : ∃ m', adjustAll m l = some m' := by
  induction l generalizing m with
  | nil => exact ⟨m, rfl⟩
  | cons e l ih =>
    obtain ⟨a, d⟩ := e
    obtain ⟨m1, h1⟩ := adjust_isSome (m := m) (a := a) (hl (a, d) mem_cons_self)
    obtain ⟨m', h'⟩ := ih (m := m1) fun e he => hl e (mem_cons_of_mem _ he)
    exact ⟨m', by rw [adjustAll_cons, h1]; exact h'⟩

theorem foldlM_adjust {ι : Type*} (owner : ι → AccountId) (delta : ι → Asset) (l : List ι)
    (m : Balances) :
    l.foldlM (fun m e => adjust m (owner e) (delta e)) m =
    m.adjustAll (l.map fun e => (owner e, delta e)) := by
  induction l generalizing m with
  | nil => rfl
  | cons e l ih =>
    exact congrArg _ (funext fun m' => ih m')

/-- **A sweep that pays** what the rows hold that are over, each once, and removes just these rows.
The payments are credits, so it never fails. -/
theorem sweep_pays {ρ : Type*} {key : ρ → Nat} (p out : ρ → Bool) (mark : ρ → ρ)
    (payee : ρ → AccountId)
    (amount : ρ → Asset) (status : ρ → Nat) (now v : Nat) (t : OrderedTable key) (m : Balances)
    (hmark : ∀ r, key (mark r) = 0 ∧ status (mark r) = v)
    (hrow : ∀ id r, t.find id = some r → 1 < now ∧ (key r = 0 ∨ 1 < key r) ∧
      (1 < key r → key r < now → p r) ∧ status r < v)
    (hover : ∀ id r, t.find id = some r → (1 < key r ∧ key r < now ↔ out r) ∧
    0 ≤ (amount r).amount) :
    ∃ (X : List (Σ _ : Nat, ρ)) (t' : OrderedTable key) (m' : Balances),
      (OrderedTable.sweep p mark (fun m _ r => adjust m (payee r) (amount r)) now t m).map
        (fun (t, m) => (OrderedTable.eraseBack status v t.rows.length t, m)) = some (t', m') ∧
      X.NodupKeys ∧ (∀ id r, ⟨id, r⟩ ∈ X ↔ t.find id = some r ∧ out r) ∧
      m.adjustAll (X.map fun e => (payee e.2, amount e.2)) = some m' ∧
      (∀ id, t'.find id = (t.find id).bind fun r => if out r then none else some r) ∧
      t'.nextId = t.nextId := by
  obtain ⟨X, t', hnd, hX, hnext, hfind, hrun⟩ := OrderedTable.sweep_eraseBack p mark
    (fun m _ r => adjust m (payee r) (amount r)) status hmark t hrow
  obtain ⟨m', hm⟩ := adjustAll_isSome (m := m) (l := X.map fun e => (payee e.2, amount e.2)) (by
    intro q hq
    obtain ⟨e, he, rfl⟩ := List.mem_map.1 hq
    exact (hover e.1 e.2 ((hX e.1 e.2).1 he).1).2)
  refine ⟨X, t', m', ?_, hnd, fun id r => ?_, hm, fun id => ?_, hnext⟩
  · rw [hrun, foldlM_adjust (fun e : Σ _ : Nat, ρ => payee e.2) fun e => amount e.2, hm]
    rfl
  · rw [hX, and_congr_right_iff]
    exact fun hr => (hover id r hr).1
  · rw [hfind]
    cases hr : t.find id with
    | none => rfl
    | some r => simp only [bind_some, (hover id r hr).1]

end Balances

namespace Database

/-- `database::get_balance` -/
def getBalance (db : Database) (owner : AccountId) (assetId : AssetId) : Int :=
  Balances.amountOf db.balances owner assetId

/-- `database::adjust_balance` -/
def adjustBalance (db : Database) (account : AccountId) (delta : Asset) : Option Database :=
  (Balances.adjust db.balances account delta).map fun m => { db with balances := m }

theorem adjustBalance_eq_some {db db' : Database} {a : AccountId} {d : Asset}
    (h : db.adjustBalance a d = some db') :
    ∃ m, Balances.adjust db.balances a d = some m ∧ db' = { db with balances := m } := by
  obtain ⟨m, hm, rfl⟩ := map_eq_some_iff.1 h
  exact ⟨m, hm, rfl⟩

/-- Several calls of `adjust_balance`, one after another. -/
def adjustBalances (db : Database) (l : List (AccountId × Asset)) : Option Database :=
  (Balances.adjustAll db.balances l).map fun m => { db with balances := m }

theorem adjustBalances_eq_some {db db' : Database} {l : List (AccountId × Asset)}
    (h : db.adjustBalances l = some db') :
    ∃ m, Balances.adjustAll db.balances l = some m ∧ db' = { db with balances := m } := by
  obtain ⟨m, hm, rfl⟩ := map_eq_some_iff.1 h
  exact ⟨m, hm, rfl⟩

end Database

end CrowdwizChain
