import CrowdwizChain.Chain.Conservation

/-!
# Solvency of the bets

Every bet should pay out of its own stakes: what it pays in an asset should not exceed what was
debited for it in that asset. What it pays is in the journal (the refund, or the prize and the
referral prize); what was debited is noted by the run when the bet is made and when it is called.

The call compares the amounts and not the assets, so that a bet can be called with a worthless asset
and still pays twice its stake.
-/

namespace CrowdwizChain

open Transition Option List Database Table

/-- What an entry of the journal pays for a bet, in an asset. -/
def JournalEntry.paysFor (id : Nat) (s : AssetId) : JournalEntry → Int
  | .flipcoinCancel id' _ bet => if id' = id then bet.amountIn s else 0
  | .flipcoinWin id' _ payout referralPayout =>
    if id' = id then payout.amountIn s + referralPayout.amountIn s else 0
  | _ => 0

/-- What can happen on the chain, as far as bets go. -/
inductive FlipcoinAction
  | bet (op : FlipcoinBetOperation)
  | call (op : FlipcoinCallOperation)
  /-- a block of the given time and id: the head moves on and the bets are settled -/
  | block (time : Nat) (blockId : List Nat)
  /-- anything else: every part of the database may change but the bets and the entries on them -/
  | other (e : Database)

/-- The database, with what was debited for each bet in each asset. -/
structure FlipcoinSystem where
  db : Database
  debited : Nat → AssetId → Int

namespace FlipcoinSystem

/-- What an action does to the database. -/
def dbStep (db : Database) : FlipcoinAction → Option Database
  | .bet op => db.flipcoinBet op
  | .call op => db.flipcoinCall op
  | .block time blockId =>
    if db.headBlockTime < time then
      { db with
        headBlockNum := db.headBlockNum + 1
        headBlockTime := time
        headBlockId := blockId }.proceedBets
    else none
  | .other e => some { e with flipcoins := db.flipcoins, journal := db.journal }

/-- The debits of an action, by the bet that they are for. -/
def debitFor (db : Database) (id : Nat) : FlipcoinAction → AssetId → Int
  | .bet op, s => if id = db.flipcoins.nextId then op.bet.amountIn s else 0
  | .call op, s => if id = op.flipcoin then op.bet.amountIn s else 0
  | _, _ => 0

/-- One action, with the debits noted. -/
def step (s : FlipcoinSystem) (a : FlipcoinAction) : Option FlipcoinSystem :=
  (dbStep s.db a).map fun db =>
    { db, debited := fun id asset => s.debited id asset + debitFor s.db id a asset }

/-- What a bet has paid so far, in an asset. -/
def paid (s : FlipcoinSystem) (id : Nat) (asset : AssetId) : Int :=
  (s.db.journal.map (JournalEntry.paysFor id asset)).sum

/-- The call is in the asset of the bet. -/
def SameAsset (s : FlipcoinSystem) : FlipcoinAction → Prop
  | .call op => ∀ f, s.db.flipcoins.find op.flipcoin = some f → op.bet.assetId = f.bet.assetId
  | _ => True

/-- A chain without bets. -/
def Initial (s : FlipcoinSystem) : Prop :=
  (∀ id, s.db.flipcoins.find id = none) ∧ (∀ id asset, s.paid id asset = 0) ∧
    ∀ id asset, s.debited id asset = 0

/-! ### The invariant -/

/-- The stakes of a bet, counted in an asset. -/
def stakesIn (f : Flipcoin) (asset : AssetId) : Int :=
  if f.status = 0 then f.bet.amountIn asset else 2 * f.bet.amountIn asset

/-- A bet that is open has paid nothing and its stakes were debited; a bet that is gone has paid no
more than was debited. -/
structure Inv (s : FlipcoinSystem) : Prop where
  pos : ∀ id f, s.db.flipcoins.find id = some f → 0 < f.bet.amount
  open_ : ∀ id f asset, s.db.flipcoins.find id = some f →
    s.paid id asset = 0 ∧ s.debited id asset = stakesIn f asset
  solvent : ∀ id asset, s.paid id asset ≤ s.debited id asset
  fresh : ∀ id asset, s.db.flipcoins.nextId ≤ id → s.paid id asset = 0 ∧ s.debited id asset = 0

variable {s s' : FlipcoinSystem} {db : Database}

theorem Initial.inv (h : s.Initial) : s.Inv := by
  obtain ⟨hnone, hpaid, hdebited⟩ := h
  refine ⟨?_, ?_, ?_, fun id asset _ => ⟨hpaid id asset, hdebited id asset⟩⟩
  · intro id f hf
    rw [hnone] at hf
    cases hf
  · intro id f asset hf
    rw [hnone] at hf
    cases hf
  · intro id asset
    rw [hpaid, hdebited]

theorem amountIn_nonneg {a : Asset} (h : 0 ≤ a.amount) (s : AssetId) : 0 ≤ a.amountIn s := by
  rw [Asset.amountIn]
  split
  · exact h
  · exact le_rfl

/-- The invariant is kept if it holds at the one number that a step touches. -/
theorem Inv.update (h : s.Inv) (id : Nat) (hnext : s.db.flipcoins.nextId ≤ s'.db.flipcoins.nextId)
    (hlt : id < s'.db.flipcoins.nextId)
      (hother : ∀ i ≠ id, s'.db.flipcoins.find i = s.db.flipcoins.find i ∧
      s'.paid i = s.paid i ∧ s'.debited i = s.debited i)
    (hopen : ∀ f, s'.db.flipcoins.find id = some f → 0 < f.bet.amount ∧
      ∀ asset, s'.paid id asset = 0 ∧ s'.debited id asset = stakesIn f asset)
    (hsolvent : ∀ asset, s'.paid id asset ≤ s'.debited id asset) : s'.Inv := by
  refine ⟨fun i f hf => ?_, fun i f asset hf => ?_, fun i asset => ?_, fun i asset hi => ?_⟩
  · rcases eq_or_ne i id with rfl | hne
    · exact (hopen f hf).1
    · exact h.pos i f ((hother i hne).1 ▸ hf)
  · rcases eq_or_ne i id with rfl | hne
    · exact (hopen f hf).2 asset
    · obtain ⟨hfind, hpaid, hdebited⟩ := hother i hne
      rw [hpaid, hdebited]
      exact h.open_ i f asset (hfind ▸ hf)
  · rcases eq_or_ne i id with rfl | hne
    · exact hsolvent asset
    · rw [(hother i hne).2.1, (hother i hne).2.2]
      exact h.solvent i asset
  · have hne : i ≠ id := by omega
    rw [(hother i hne).2.1, (hother i hne).2.2]
    exact h.fresh i asset (hnext.trans hi)

/-- A bet starts with its stake debited and nothing paid. -/
theorem Inv.bet {op : FlipcoinBetOperation} (h : s.Inv) (hs : s.step (.bet op) = some s') :
    s'.Inv := by
  obtain ⟨db, hdb, rfl⟩ := map_eq_some_iff.1 hs
  obtain ⟨hpos, -, -, htable, hjournal⟩ := flipcoinBet_eq_some hdb
  refine h.update s.db.flipcoins.nextId (by simp [htable]) (by simp [htable]) (fun i hne => ?_)
    (fun f hf => ?_) fun asset => ?_
  · exact ⟨by simp only [htable, find_create_ne _ hne],
      funext fun _ => by simp only [paid, hjournal], by simp [debitFor, hne]⟩
  · simp only [htable, find_create_self] at hf
    cases hf
    refine ⟨hpos, fun asset => ?_⟩
    obtain ⟨h1, h2⟩ := h.fresh _ asset le_rfl
    exact ⟨by simpa only [paid, hjournal] using h1, by simp [h2, debitFor, stakesIn]⟩
  · have hbet := amountIn_nonneg (le_of_lt hpos) asset
    obtain ⟨h1, h2⟩ := h.fresh _ asset le_rfl
    simpa [paid, hjournal, debitFor, h2] using h1.trans_le hbet

/-- A call in the same asset doubles the stakes. -/
theorem Inv.call {op : FlipcoinCallOperation} (h : s.Inv) (hasset : s.SameAsset (.call op))
    (hs : s.step (.call op) = some s') : s'.Inv := by
  obtain ⟨db, hdb, rfl⟩ := map_eq_some_iff.1 hs
  obtain ⟨f, hf, hstatus, hamount, -, htable, hjournal⟩ := flipcoinCall_eq_some hdb
  -- the stake of the caller is the same as that of the bettor, asset included
  have hbet : ∀ asset, op.bet.amountIn asset = f.bet.amountIn asset := by
    intro asset
    simp only [Asset.amountIn, hasset f hf, hamount]
  refine h.update op.flipcoin (by simp [htable]) (by simpa [htable] using lt_nextId hf)
    (fun i hne => ?_) (fun f' hf' => ?_) fun asset => ?_
  · exact ⟨by simp only [htable, find_modify_ne _ hne],
      funext fun _ => by simp only [paid, hjournal], by simp [debitFor, hne]⟩
  · simp only [htable, find_modify_self, hf, map_some] at hf'
    cases hf'
    refine ⟨h.pos _ f hf, fun asset => ?_⟩
    obtain ⟨h1, h2⟩ := h.open_ _ f asset hf
    refine ⟨by simpa only [paid, hjournal] using h1, ?_⟩
    simp only [h2, debitFor, if_true, hbet, stakesIn, hstatus]
    omega
  · have hsolvent := h.solvent op.flipcoin asset
    have hnonneg := amountIn_nonneg (le_of_lt (h.pos _ f hf)) asset
    simp only [paid, hjournal, debitFor, hbet, if_true] at hsolvent ⊢
    omega

/-! ### Settlement -/

theorem sum_paysFor_filter (l : List JournalEntry) (id : Nat) (asset : AssetId) :
    (l.map (JournalEntry.paysFor id asset)).sum =
      ((l.filter JournalEntry.isFlipcoin).map (JournalEntry.paysFor id asset)).sum := by
  induction l with
  | nil => rfl
  | cons e l ih =>
    cases e <;> simp [filter_cons, JournalEntry.isFlipcoin, JournalEntry.paysFor, ih]

/-- The entries that settle a bet pay no more than its stakes, and nothing for any other bet. -/
theorem sum_paysFor_settles {id : Nat} {f : Flipcoin} {es : List JournalEntry}
    (h : Settles id f es) (i : Nat) (asset : AssetId) :
    (es.map (JournalEntry.paysFor i asset)).sum ≤ (if i = id then stakesIn f asset else 0) ∧
      (i ≠ id → (es.map (JournalEntry.paysFor i asset)).sum = 0) := by
  cases h with
  | cancel hstatus =>
    rcases eq_or_ne i id with rfl | hne
    · simp [JournalEntry.paysFor, stakesIn, hstatus]
    · simp [JournalEntry.paysFor, hne, hne.symm]
  | flip winner looser hstatus =>
    rcases eq_or_ne i id with rfl | hne
    · have hle := countPrize_add_countReferralPrize_le f.bet.amount
      refine ⟨?_, fun h => absurd rfl h⟩
      simp only [map_cons, map_nil, sum_cons, sum_nil, JournalEntry.paysFor,
        if_true, stakesIn, hstatus, if_false, flipPrize, flipReferralPrize,
        Asset.amountIn]
      split <;> omega
    · simp [JournalEntry.paysFor, hne, hne.symm]

/-- A settlement pays no more than the stakes, once. -/
theorem Inv.settle (h : s.Inv) {id : Nat} {f : Flipcoin} (hf : s.db.flipcoins.find id = some f)
    (hs : s.db.settleFlipcoin id f = some db) : Inv ⟨db, s.debited⟩ := by
  obtain ⟨htable, -, es, hes, hjournal⟩ := settleFlipcoin_eq_some hs
  have hpaid : ∀ i asset, paid ⟨db, s.debited⟩ i asset =
      (es.map (JournalEntry.paysFor i asset)).sum + s.paid i asset := by
    intro i asset
    rw [paid, paid, sum_paysFor_filter, hjournal, map_append, sum_append, ← sum_paysFor_filter]
  refine h.update id (by simp [htable]) (by simpa [htable] using lt_nextId hf) (fun i hne => ?_)
    (fun f' hf' => ?_) fun asset => ?_
  · refine ⟨by simp only [htable, find_remove_ne hne], funext fun asset => ?_, rfl⟩
    rw [hpaid, (sum_paysFor_settles hes i asset).2 hne, zero_add]
  · simp [htable] at hf'
  · -- the bet had paid nothing before
    obtain ⟨hzero, hdebited⟩ := h.open_ id f asset hf
    have hle := (sum_paysFor_settles hes id asset).1
    rw [hpaid, hzero]
    simp only [hdebited]
    omega

theorem find_firstFlipcoin {e : Σ _ : Nat, Flipcoin} (h : db.firstFlipcoin = some e) :
    db.flipcoins.find e.1 = some e.2 :=
  AList.mem_lookup_iff.2 (List.argmin_mem h)

/-- **What every settlement keeps is kept by those of a block**, by induction over the rounds. -/
theorem proceedBetsLoop_invariant {P : Database → Prop}
    (hsettle : ∀ {db db' id f}, P db → db.flipcoins.find id = some f →
      db.settleFlipcoin id f = some db' → P db')
    {n : Nat} {db' : Database} (h : P db) (hs : proceedBetsLoop n db = some db') : P db' := by
  induction n generalizing db with
  | zero =>
    cases hs
    exact h
  | succ n ih =>
    rw [proceedBetsLoop] at hs
    split at hs
    · cases hs
      exact h
    · next e he =>
      split at hs
      · obtain ⟨db1, h1, hs⟩ := bind_eq_some_iff.1 hs
        exact ih (hsettle h (find_firstFlipcoin he) h1) hs
      · cases hs
        exact h

/-- The settlements of a block pay from the stakes: the holdings less the supply change by what
the journal notes. -/
theorem proceedBets_ledger {db' : Database} (hpending : db.PendingNonneg) (hbets : db.BetsInCore)
    (h : db.proceedBets = some db') : db'.imbalance = db.imbalance := by
  have hkept := proceedBetsLoop_invariant
    (P := fun d => (d.PendingNonneg ∧ d.BetsInCore) ∧ d.imbalance = db.imbalance) ?_
    ⟨⟨hpending, hbets⟩, rfl⟩ h
  · exact hkept.2
  · rintro d d' id f ⟨⟨hpending, hbets⟩, heq⟩ hf hs
    obtain ⟨hpending', heq'⟩ := settleFlipcoin_ledger hpending hbets hf hs
    refine ⟨⟨hpending', fun i f' hf' => ?_⟩, heq'.trans heq⟩
    rw [(settleFlipcoin_eq_some hs).1] at hf'
    exact hbets i f' (find_of_remove hf')

/-- **Every step that calls in the asset of the bet keeps the bets solvent.** -/
theorem Inv.step {a : FlipcoinAction} (h : s.Inv) (ha : s.SameAsset a) (hs : s.step a = some s') :
    s'.Inv := by
  cases a with
  | bet op => exact h.bet hs
  | call op => exact h.call ha hs
  | block time blockId =>
    obtain ⟨db, hdb, rfl⟩ := map_eq_some_iff.1 hs
    obtain ⟨-, hdb⟩ := ite_none_right_eq_some.1 hdb
    simp only [debitFor, add_zero]
    refine proceedBetsLoop_invariant (P := fun d => Inv ⟨d, s.debited⟩)
      (fun h hf hs => h.settle hf hs) ?_ hdb
    exact ⟨h.pos, h.open_, h.solvent, h.fresh⟩
  | other e =>
    obtain ⟨db, hdb, rfl⟩ := map_eq_some_iff.1 hs
    cases hdb
    simp only [debitFor, add_zero]
    exact ⟨h.pos, h.open_, h.solvent, h.fresh⟩

/-- **The bets are solvent where every call is in the asset of its bet.** In every run whose calls
all are, no bet has ever paid more in an asset than was debited for it in that asset; the debits
that are noted are those that the code makes, and so are the payments: where all bets are in the
core asset, its books change in a block by nothing but what the journal notes. -/
theorem flipcoin_solvent {s s' : FlipcoinSystem} {acts : List FlipcoinAction} (h0 : s.Initial)
    (hasset : Along step SameAsset s acts) (hrun : run step s acts = some s') :
    (∀ id asset, s'.paid id asset ≤ s'.debited id asset) ∧
      (∀ op s'', s'.step (.bet op) = some s'' → s'.db.balances.adjustAll
        [(op.bettor, -op.bet), (op.bettor, -op.fee)] = some s''.db.balances) ∧
      (∀ op s'', s'.step (.call op) = some s'' → s'.db.balances.adjustAll
        [(op.caller, -op.bet), (op.caller, -op.fee)] = some s''.db.balances) ∧
      ∀ time blockId s'', s'.step (.block time blockId) = some s'' → s'.db.PendingNonneg →
        s'.db.BetsInCore → s''.db.imbalance = s'.db.imbalance := by
  have hinv : s'.Inv := invariant_of_along (fun h ha hs => Inv.step h ha hs) h0.inv hasset hrun
  refine ⟨hinv.solvent, ?_, ?_, ?_⟩
  · intro op s'' hs
    obtain ⟨db, hdb, rfl⟩ := map_eq_some_iff.1 hs
    exact (flipcoinBet_eq_some hdb).2.2.1
  · intro op s'' hs
    obtain ⟨db, hdb, rfl⟩ := map_eq_some_iff.1 hs
    obtain ⟨f, -, -, -, hbal, -⟩ := flipcoinCall_eq_some hdb
    exact hbal
  · intro time blockId s'' hs hpending hbets
    obtain ⟨db, hdb, rfl⟩ := map_eq_some_iff.1 hs
    obtain ⟨-, hdb⟩ := ite_none_right_eq_some.1 hdb
    refine (proceedBets_ledger ?_ ?_ hdb).trans rfl
    · exact hpending
    · exact hbets

/-! ### A bet and a call -/

/-- A chain with three accounts that hold ten thousand each, and an asset that only account two
holds. -/
def threePlayers : FlipcoinSystem where
  db :=
    let db := Database.start hardforkCwd5Time [{ referrer := 0 }, { referrer := 0 },
      { referrer := 0 }] 10000
    { db with
      parameters := { rootAccount := 0 }
      assets := db.assets.create { symbol := "JUNK", coreExchangeRate := ⟨⟨1, 1⟩, ⟨1, 0⟩⟩ }
      balances := db.balances.insert (2, 1) ⟨1000, false⟩ }
  debited := fun _ _ => 0

/-- Account one bets a thousand, account two calls in the given asset, and the coin is flipped. -/
def betAndCall (asset : AssetId) : List FlipcoinAction :=
  [.bet ⟨⟨1, 0⟩, 1, ⟨1000, 0⟩, 0⟩, .call ⟨⟨1, 0⟩, 0, 2, ⟨1000, asset⟩⟩,
    .block (hardforkCwd5Time + 20) (List.replicate 40 0)]

theorem flipcoin_solvent_core_call : ∃ s', run step threePlayers (betAndCall 0) = some s' ∧
      s'.paid 0 0 = 2000 ∧ s'.paid 0 0 ≤ s'.debited 0 0 := by
  refine ⟨_, (some_get (by decide +kernel)).symm, by decide +kernel, ?_⟩
  refine (flipcoin_solvent ⟨fun _ => rfl, fun _ _ => rfl, fun _ _ => rfl⟩
    ?_ (some_get (by decide +kernel)).symm).1 0 0
  refine ⟨trivial, fun s1 h1 => ⟨?_, fun s2 h2 => ⟨trivial, fun s3 h3 => trivial⟩⟩⟩
  intro f hf
  -- the bet is in the core asset
  obtain ⟨db, hdb, rfl⟩ := map_eq_some_iff.1 h1
  obtain ⟨-, -, -, htable, -⟩ := flipcoinBet_eq_some hdb
  rw [htable] at hf
  cases hf
  rfl

/-- Account two calls the bet of a thousand coins with a thousand of the worthless asset. A thousand
coins were debited, and two thousand are paid. -/
theorem flipcoin_call_in_other_asset : ∃ s', run step threePlayers (betAndCall 1) = some s' ∧
      s'.debited 0 0 = 1000 ∧ s'.paid 0 0 = 2000 := by
  exact ⟨_, (some_get (by decide +kernel)).symm, by decide +kernel, by decide +kernel⟩

end FlipcoinSystem

end CrowdwizChain
