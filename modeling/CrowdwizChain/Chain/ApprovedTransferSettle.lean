import CrowdwizChain.Chain.ApprovedTransfer

/-!
# An approved transfer settles once

The life of an approved transfer in every run of the chain. A run interleaves the four operations
with blocks, each of which ends with the sweep, and with anything else the chain does, which may
change the whole database except the transfers and the time of the head block.

Beside the database a run carries what an observer would write down: each transfer as it was
created, whether a dispute was opened on it, and the ways in which it has left escrow so far.
`Effect` ties these notes to the code: an accepted step adjusts the balances by what it takes into
escrow, by the payments of the exits that it makes, and by its fee, and by nothing else.
-/

namespace CrowdwizChain

open Transition Option List OrderedTable Database

/-! ### The rows of the table -/

namespace ApprovedTransfer

/-- A transfer in the table is open with an expiration, or disputed without one, and its amount
is positive. -/
structure Ok (o : ApprovedTransfer) : Prop where
  status : (o.status = 0 ∧ 1 < o.expiration) ∨ (o.status = 1 ∧ o.expiration = 0)
  pos : 0 < o.amount.amount

/-- The transfer is cancelled by a block of the given time. -/
def ExpiresAt (o : ApprovedTransfer) (t : Nat) : Prop := o.status = 0 ∧ o.expiration < t

instance (o : ApprovedTransfer) (t : Nat) : Decidable (o.ExpiresAt t) :=
  inferInstanceAs (Decidable (_ ∧ _))

theorem Ok.expiresAt_iff {o : ApprovedTransfer} (h : o.Ok) (t : Nat) :
    (1 < o.expiration ∧ o.expiration < t) ↔ o.ExpiresAt t := by
  rcases h.status with ⟨hs, he⟩ | ⟨hs, he⟩ <;> simp [ExpiresAt, hs, he]

/-- The ways in which a transfer leaves escrow. -/
inductive Exit
  /-- the sender approved it -/
  | approved
  /-- a block cancelled it -/
  | expired
  /-- the arbiter decided for one side -/
  | resolved (winner : AccountId)
deriving DecidableEq

/-- What is paid on an exit: the whole amount to the recipient or back to the sender, or the amount
without five percent, rounded down, to the winner and the five percent to the arbiter. -/
def payments (o : ApprovedTransfer) : Exit → List (AccountId × Asset)
  | .approved => [(o.toAccount, o.amount)]
  | .expired => [(o.fromAccount, o.amount)]
  | .resolved w =>
    [(w, ⟨o.amount.amount - o.amount.amount * 5 / 100, o.amount.assetId⟩),
      (o.arbitr, ⟨o.amount.amount * 5 / 100, o.amount.assetId⟩)]

theorem givenTotal_payments (o : ApprovedTransfer) (e : Exit) :
    Balances.givenTotal (o.payments e) o.amount.assetId = o.amount.amount := by
  cases e <;> simp [payments, Balances.givenTotal]

/-- Only one of the two sides can win a dispute. -/
def Permits (o : ApprovedTransfer) : Exit → Prop
  | .resolved w => w = o.fromAccount ∨ w = o.toAccount
  | _ => True

/-- The same transfer at another point of its life. -/
def SameTerms (o o' : ApprovedTransfer) : Prop :=
  o.fromAccount = o'.fromAccount ∧ o.toAccount = o'.toAccount ∧ o.arbitr = o'.arbitr ∧
    o.amount = o'.amount

end ApprovedTransfer

/-- The five percent of the code are five percent, rounded down. -/
theorem arbitrReward_approvedTransfer (a : Int) :
    arbitrReward a approvedTransferArbitrComission = a * 5 / 100 := by
  rw [arbitrReward, cutFee_eq]
  change a * 500 / 10000 = a * 5 / 100
  omega

/-! ### Runs -/

/-- What can happen on the chain, as far as approved transfers go. -/
inductive ApprovedTransferAction
  | create (op : ApprovedTransferCreateOperation)
  | approve (op : ApprovedTransferOperation)
  | openDispute (op : ApprovedTransferOperation)
  | resolveDispute (op : ApprovedTransferResolveDisputeOperation)
  /-- a block of the given time: the head moves on and the sweep runs -/
  | block (time : Nat)
  /-- anything else: every part of the database may change but the transfers and the time -/
  | other (e : Database)

/-- The database, with the notes of an observer. -/
structure ApprovedTransferSystem where
  db : Database
  /-- the transfers as they were created -/
  created : Nat → Option ApprovedTransfer
  /-- the transfers on which a dispute was opened -/
  disputed : Nat → Bool
  /-- the ways in which each transfer has left escrow -/
  exits : Nat → List ApprovedTransfer.Exit

namespace ApprovedTransferSystem

open ApprovedTransfer

/-- What an action does to the database. -/
def dbStep (db : Database) : ApprovedTransferAction → Option Database
  | .create op => db.approvedTransferCreate op
  | .approve op => db.approvedTransferApprove op
  | .openDispute op => db.approvedTransferOpenDispute op
  | .resolveDispute op => db.approvedTransferResolveDispute op
  | .block time =>
    if db.headBlockTime < time then
      { db with headBlockNum := db.headBlockNum + 1, headBlockTime := time }.proceedApprovedTransfer
    else none
  | .other e =>
    some { e with approvedTransfers := db.approvedTransfers, headBlockTime := db.headBlockTime }

/-- The exit that an accepted action gives a transfer, if any. -/
def exitOf (db : Database) (a : ApprovedTransferAction) (id : Nat) : Option Exit :=
  match a with
  | .approve op => if id = op.ato then some .approved else none
  | .resolveDispute op => if id = op.ato then some (.resolved op.winner) else none
  | .block time =>
    if (db.approvedTransfers.find id).any (fun o => o.ExpiresAt time) then some .expired else none
  | _ => none

/-- One action, with the notes kept. -/
def step (s : ApprovedTransferSystem) (a : ApprovedTransferAction) :
    Option ApprovedTransferSystem :=
  (dbStep s.db a).map fun db =>
    { db
      created := match a with
        | .create _ => fun id =>
          if id = s.db.approvedTransfers.nextId then db.approvedTransfers.find id else s.created id
        | _ => s.created
      disputed := match a with
        | .openDispute op => fun id => id == op.ato || s.disputed id
        | _ => s.disputed
      exits := fun id => s.exits id ++ (exitOf s.db a id).toList }

/-- A chain without approved transfers. -/
def Initial (s : ApprovedTransferSystem) : Prop :=
  s.db.approvedTransfers.rows = [] ∧ (∀ id, s.created id = none) ∧
    (∀ id, s.disputed id = false) ∧ ∀ id, s.exits id = []

/-! ### The adjustments of one step -/

/-- What an action takes into escrow. -/
def deposits : ApprovedTransferAction → List (AccountId × Asset)
  | .create op => [(op.fromAccount, -op.amount)]
  | _ => []

/-- The fee of an action. -/
def fees : ApprovedTransferAction → List (AccountId × Asset)
  | .create op => [(op.fromAccount, -op.fee)]
  | .approve op => [(op.fromAccount, -op.fee)]
  | .openDispute op => [(op.toAccount, -op.fee)]
  | .resolveDispute op => [(op.arbitr, -op.fee)]
  | _ => []

/-- What an action pays out of the escrow of a transfer. -/
def payouts (db : Database) (a : ApprovedTransferAction) (id : Nat) : List (AccountId × Asset) :=
  match db.approvedTransfers.find id, exitOf db a id with
  | some o, some e => o.payments e
  | _, _ => []

/-- **The effect of a step on the balances**: its deposit, the payments of the exits that it makes,
one transfer after another, and its fee. -/
def Effect (s s' : ApprovedTransferSystem) (a : ApprovedTransferAction) : Prop :=
  ∃ ids : List Nat, ids.Nodup ∧ (∀ id, id ∈ ids ↔ (exitOf s.db a id).isSome) ∧
    s.db.balances.adjustAll (deposits a ++ ids.flatMap (payouts s.db a) ++ fees a) =
      some s'.db.balances

/-! ### The invariant -/

/-- What the notes say about a transfer. -/
structure InvAt (s : ApprovedTransferSystem) (id : Nat) : Prop where
  fresh : s.db.approvedTransfers.nextId ≤ id → s.created id = none ∧ s.exits id = [] ∧
    s.disputed id = false
  /-- in the table, it has not left escrow, and its status says whether it is disputed -/
  live : ∀ o, s.db.approvedTransfers.find id = some o →
    (o.Ok ∧ hardforkCwd6Time ≤ s.db.headBlockTime) ∧ s.exits id = [] ∧
      (s.disputed id = true ↔ o.status = 1) ∧
      ∃ c, s.created id = some c ∧ c.SameTerms o ∧ (o.status = 0 → o.expiration = c.expiration)
  /-- no longer in the table, it has left escrow in one way -/
  gone : ∀ c, s.created id = some c → s.db.approvedTransfers.find id = none →
    ∃ e, s.exits id = [e] ∧ c.Permits e ∧ (e = .expired → s.disputed id = false)

/-- What holds in every state that is reached. -/
def Inv (s : ApprovedTransferSystem) : Prop := ∀ id, s.InvAt id

variable {s s' : ApprovedTransferSystem} {id t : Nat} {db : Database} {a : ApprovedTransferAction}
  {o : ApprovedTransfer} {e : Exit}

theorem Initial.inv (h : s.Initial) : s.Inv := by
  obtain ⟨hrows, hcreated, hdisputed, hexits⟩ := h
  have hfind : ∀ id, s.db.approvedTransfers.find id = none := fun id => by
    simp [find, hrows]
  exact fun id => ⟨fun _ => ⟨hcreated id, hexits id, hdisputed id⟩, by simp [hfind id],
    by simp [hcreated id]⟩

/-- The invariant is kept if it holds at the numbers that a step touches. -/
theorem Inv.update (h : s.Inv) (T : Nat → Prop) (htime : s.db.headBlockTime ≤ s'.db.headBlockTime)
    (hnext : s.db.approvedTransfers.nextId ≤ s'.db.approvedTransfers.nextId)
    (hother : ∀ id, ¬T id → s'.db.approvedTransfers.find id = s.db.approvedTransfers.find id ∧
      s'.created id = s.created id ∧ s'.exits id = s.exits id ∧ s'.disputed id = s.disputed id)
    (htouched : ∀ id, T id → s'.InvAt id) : s'.Inv := by
  intro id
  by_cases hT : T id
  · exact htouched id hT
  · obtain ⟨hfind, hc, hx, hd⟩ := hother id hT
    obtain ⟨hfresh, hlive, hgone⟩ := h id
    refine ⟨fun hid => ?_, fun o ho => ?_, ?_⟩
    · rw [hc, hx, hd]
      exact hfresh (hnext.trans hid)
    · rw [hc, hx, hd]
      obtain ⟨⟨hok, hCwd6⟩, hnotes⟩ := hlive o (hfind ▸ ho)
      exact ⟨⟨hok, hCwd6.trans htime⟩, hnotes⟩
    · rw [hfind, hc, hx, hd]
      exact hgone

/-- A creation notes the transfer that it makes. -/
theorem Inv.create {op : ApprovedTransferCreateOperation} (h : s.Inv)
    (hs : s.step (.create op) = some s') : s'.Inv := by
  obtain ⟨db, hdb, rfl⟩ := map_eq_some_iff.1 hs
  obtain ⟨hv, hev, -, htable, htime⟩ := approvedTransferCreate_eq_some hdb
  simp only [ApprovedTransferCreateOperation.validate, decide_eq_true_eq] at hv
  simp only [approvedTransferCreateEvaluate, decide_eq_true_eq] at hev
  have hCwd6 : 1 < hardforkCwd6Time := by decide
  refine h.update (· = s.db.approvedTransfers.nextId) htime.ge (by simp [htable])
    (fun id hid => ?_) ?_
  · simp [htable, find_create, hid, exitOf]
  rintro _ rfl
  refine ⟨by simp [htable], fun o ho => ?_, fun c _ hnone => ?_⟩
  · obtain ⟨-, hex, hdis⟩ := (h _).fresh le_rfl
    simp only [htable, find_create_self] at ho
    cases ho
    refine ⟨⟨⟨.inl ⟨rfl, by simp only; omega⟩, hv.2.2.2.1⟩, htime ▸ hev.1⟩, by simp [hex, exitOf],
      by simp [hdis], _, by simp [htable], ⟨rfl, rfl, rfl, rfl⟩, fun _ => rfl⟩
  · simp [htable] at hnone

/-- A transfer that is paid leaves escrow, and the way it does is noted. -/
theorem Inv.pay (h : s.Inv) {ato : Nat} (ho : s.db.approvedTransfers.find ato = some o)
    (hperm : o.Permits e) (he : e ≠ .expired)
    (htable : db.approvedTransfers = s.db.approvedTransfers.remove ato)
    (htime : db.headBlockTime = s.db.headBlockTime) :
    Inv { s with
      db
      exits := fun id => s.exits id ++ (if id = ato then some e else none).toList } := by
  refine h.update (· = ato) htime.ge (by simp [htable]) (fun id hid => ?_) ?_
  · simp [htable, find_remove, hid]
  rintro id rfl
  refine ⟨fun hid => absurd (lt_nextId ho) (by simpa [htable] using hid),
    by simp [htable, find_remove],
    fun c hc _ => ?_⟩
  · obtain ⟨-, hex, -, c', hc', hterms, -⟩ := (h id).live o ho
    cases hc.symm.trans hc'
    refine ⟨e, by simp [hex], ?_, fun heq => absurd heq he⟩
    obtain ⟨h1, h2, -, -⟩ := hterms
    cases e with
    | resolved w => exact hperm.imp (fun hw => hw.trans h1.symm) (fun hw => hw.trans h2.symm)
    | approved => trivial
    | expired => trivial

/-- A dispute is noted, and takes the expiration away. -/
theorem Inv.openDispute {op : ApprovedTransferOperation} (h : s.Inv)
    (hs : s.step (.openDispute op) = some s') : s'.Inv := by
  obtain ⟨db, hdb, rfl⟩ := map_eq_some_iff.1 hs
  obtain ⟨o, ho, hmatch, hstatus, -, htable, htime⟩ :=
    approvedTransferOpenDispute_eq_some hdb
  refine h.update (· = op.ato) htime.ge (by simp [htable]) (fun id hid => ?_) ?_
  · simp [htable, find_modify, hid, exitOf]
  rintro id rfl
  refine ⟨fun hid => absurd (lt_nextId ho) (by simpa [htable] using hid), fun o' ho' => ?_,
    fun c _ hnone => ?_⟩
  · simp only [htable, find_modify_self, ho, map_some] at ho'
    cases ho'
    obtain ⟨⟨hok, hCwd6⟩, hex, -, c, hc, hterms, -⟩ := (h _).live o ho
    exact ⟨⟨⟨.inr ⟨rfl, rfl⟩, hok.pos⟩, htime ▸ hCwd6⟩, by simp [hex, exitOf], by simp,
      c, hc, hterms, fun h0 => absurd h0 (by simp)⟩
  · simp [htable, ho] at hnone

theorem Inv.approve {op : ApprovedTransferOperation} (h : s.Inv)
    (hs : s.step (.approve op) = some s') :
    s'.Inv := by
  obtain ⟨db, hdb, rfl⟩ := map_eq_some_iff.1 hs
  obtain ⟨o, ho, -, -, htable, htime⟩ := approvedTransferApprove_eq_some hdb
  exact h.pay (e := .approved) ho trivial (by simp) htable htime

theorem Inv.resolveDispute {op : ApprovedTransferResolveDisputeOperation} (h : s.Inv)
    (hs : s.step (.resolveDispute op) = some s') : s'.Inv := by
  obtain ⟨db, hdb, rfl⟩ := map_eq_some_iff.1 hs
  obtain ⟨o, ho, hmatch, -, hwin, -, htable, htime⟩ :=
    approvedTransferResolveDispute_eq_some hdb
  simp only [ApprovedTransferOperation.Matches, decide_eq_true_eq] at hmatch
  obtain ⟨hfrom, hto, -, -⟩ := hmatch
  have hperm : o.Permits (.resolved op.winner) :=
    hwin.imp (fun hw => hw.trans hfrom.symm) (fun hw => hw.trans hto.symm)
  exact h.pay ho hperm (by simp) htable htime

/-- **A block is always accepted**; the sweep refunds what expires, each transfer once, and nothing
else happens to the table. -/
theorem Inv.dbStep_block (h : s.Inv) (ht : s.db.headBlockTime < t) :
    ∃ (X : List (Σ _ : Nat, ApprovedTransfer)) (db : Database),
      dbStep s.db (.block t) = some db ∧ X.NodupKeys ∧
      (∀ id o, ⟨id, o⟩ ∈ X ↔ s.db.approvedTransfers.find id = some o ∧ o.ExpiresAt t) ∧
      s.db.balances.adjustAll (X.map fun e => (e.2.fromAccount, e.2.amount)) = some db.balances ∧
      (∀ id, db.approvedTransfers.find id = (s.db.approvedTransfers.find id).bind fun o =>
        if o.ExpiresAt t then none else some o) ∧
      db.approvedTransfers.nextId = s.db.approvedTransfers.nextId ∧ db.headBlockTime = t := by
  obtain ⟨X, t', m, hsweep, hnd, hX, hm, hfind, hnext⟩ := Balances.sweep_pays
    (approvedTransferExpired t) (fun o => o.ExpiresAt t)
    (fun o => { o with status := 2, expiration := 0 })
    fromAccount amount status t 2 s.db.approvedTransfers s.db.balances (fun _ => ⟨rfl, rfl⟩)
    (fun id o ho => by
      -- there is a row, so transfers are enabled and the time is far past the sentinels
      have hCwd6 : 1 < hardforkCwd6Time := by decide
      obtain ⟨⟨hok, htime⟩, -⟩ := (h id).live o ho
      rcases hok.status with ⟨hs, he⟩ | ⟨hs, he⟩ <;>
        simp [approvedTransferExpired, hs, he] <;> omega)
    (fun id o ho => by
      obtain ⟨⟨hok, -⟩, -⟩ := (h id).live o ho
      simpa using ⟨hok.expiresAt_iff t, hok.pos.le⟩)
  obtain ⟨⟨t1, m1⟩, hsweep, heq⟩ := map_eq_some_iff.1 hsweep
  cases heq
  refine ⟨X, { s.db with
    headBlockNum := s.db.headBlockNum + 1
    headBlockTime := t
    balances := m
    approvedTransfers := _ }, ?_, hnd, ?_, hm, ?_, hnext, rfl⟩
  · rw [dbStep, if_pos ht, proceedApprovedTransfer, hsweep]
    rfl
  · simpa using hX
  · simpa using hfind

theorem lt_of_dbStep_block {db' : Database} (h : dbStep db (.block t) = some db') :
    db.headBlockTime < t := by
  obtain ⟨ht, h⟩ := ite_none_right_eq_some.1 h
  exact ht

theorem exitOf_block_of_find (ho : db.approvedTransfers.find id = some o) :
    exitOf db (.block t) id = if o.ExpiresAt t then some .expired else none := by
  simp [exitOf, ho]

theorem exitOf_block_of_none (ho : db.approvedTransfers.find id = none) :
    exitOf db (.block t) id = none := by
  simp [exitOf, ho]

/-- A block notes the expiry of the transfers that its sweep removes. -/
theorem Inv.block (h : s.Inv) (hs : s.step (.block t) = some s') : s'.Inv := by
  obtain ⟨db, hdb, rfl⟩ := map_eq_some_iff.1 hs
  obtain ⟨X, db', hdb', -, -, -, hfind, hnext, htime⟩ := h.dbStep_block (lt_of_dbStep_block hdb)
  have ht := lt_of_dbStep_block hdb
  cases hdb.symm.trans hdb'
  refine h.update (fun id => ∃ o, s.db.approvedTransfers.find id = some o ∧ o.ExpiresAt t)
    (ht.le.trans_eq htime.symm) hnext.ge (fun id hid => ?_) ?_
  · have hkeeps : db.approvedTransfers.find id = s.db.approvedTransfers.find id ∧
        exitOf s.db (.block t) id = none := by
      rcases ho : s.db.approvedTransfers.find id with _ | o
      · simp [hfind, ho, exitOf]
      · have hexp : ¬o.ExpiresAt t := fun hexp => hid ⟨o, ho, hexp⟩
        simp [hfind, ho, hexp, exitOf]
    simp [hkeeps]
  · rintro id ⟨o, ho, hexp⟩
    refine ⟨fun hid => absurd (lt_nextId ho) (not_lt.2 (hnext.ge.trans hid)),
      by simp [hfind, ho, hexp],
      fun c _ _ => ?_⟩
    obtain ⟨-, hex, hdis, -⟩ := (h id).live o ho
    refine ⟨.expired, by simp [hex, exitOf, ho, hexp], trivial, fun _ => ?_⟩
    rw [← Bool.not_eq_true]
    intro hd
    have hzero := hexp.1
    have hone := hdis.1 hd
    omega

/-- **Every step keeps the notes right.** -/
theorem Inv.step (h : s.Inv) (hs : s.step a = some s') : s'.Inv := by
  cases a with
  | create op => exact h.create hs
  | approve op => exact h.approve hs
  | openDispute op => exact h.openDispute hs
  | resolveDispute op => exact h.resolveDispute hs
  | block t => exact h.block hs
  | other e =>
    obtain ⟨db, hdb, rfl⟩ := map_eq_some_iff.1 hs
    cases hdb
    refine h.update (fun _ => False) le_rfl le_rfl ?_ (by simp)
    simp [exitOf]

/-! ### The effect of every step -/

theorem payouts_of_find (ho : db.approvedTransfers.find id = some o)
    (he : exitOf db a id = some e) : payouts db a id = o.payments e := by
  simp [payouts, ho, he]

theorem effect_of_pay {ato : Nat} (ho : s.db.approvedTransfers.find ato = some o)
    (hexit : ∀ id, exitOf s.db a id = if id = ato then some e else none)
    (hbal : s.db.balances.adjustAll (deposits a ++ o.payments e ++ fees a) =
      some s'.db.balances) : Effect s s' a := by
  refine ⟨[ato], nodup_singleton ato, fun id => ?_, ?_⟩
  · rw [hexit, mem_singleton]
    split <;> simp_all
  · rw [List.flatMap_singleton, payouts_of_find ho (by rw [hexit, if_pos rfl])]
    exact hbal

theorem effect_of_none (hexit : ∀ id, exitOf s.db a id = none)
    (hbal : s.db.balances.adjustAll (deposits a ++ fees a) = some s'.db.balances) :
    Effect s s' a := by
  refine ⟨[], nodup_nil, fun id => ?_, ?_⟩
  · simp [hexit]
  · simpa using hbal

/-- **Every step but those of the rest of the chain has its effect**: the exits that are noted are
paid out of escrow, in full, and nothing else is paid. -/
theorem Inv.effect (h : s.Inv) (ha : ∀ e, a ≠ .other e) (hs : s.step a = some s') :
    Effect s s' a := by
  obtain ⟨db, hdb, rfl⟩ := map_eq_some_iff.1 hs
  cases a with
  | create op =>
    obtain ⟨-, -, hbal, -⟩ := approvedTransferCreate_eq_some hdb
    exact effect_of_none (fun _ => rfl) hbal
  | approve op =>
    obtain ⟨o, ho, -, hbal, -⟩ := approvedTransferApprove_eq_some hdb
    exact effect_of_pay (e := .approved) ho (fun _ => rfl) hbal
  | openDispute op =>
    obtain ⟨o, -, -, -, hbal, -⟩ := approvedTransferOpenDispute_eq_some hdb
    exact effect_of_none (fun _ => rfl) hbal
  | resolveDispute op =>
    obtain ⟨o, ho, -, -, -, hbal, -⟩ := approvedTransferResolveDispute_eq_some hdb
    rw [arbitrReward_approvedTransfer] at hbal
    exact effect_of_pay (e := .resolved op.winner) ho (fun _ => rfl) hbal
  | block t =>
    obtain ⟨X, db', hdb', hX, hmem, hbal, -⟩ := h.dbStep_block (lt_of_dbStep_block hdb)
    cases hdb.symm.trans hdb'
    have hpay : X.keys.flatMap (payouts s.db (.block t)) = X.map fun e =>
        (e.2.fromAccount, e.2.amount) := by
      rw [List.keys, List.flatMap_map, map_eq_flatMap]
      refine flatMap_congr fun e he => ?_
      obtain ⟨ho, hexp⟩ := (hmem e.1 e.2).1 he
      rw [payouts_of_find ho (by rw [exitOf_block_of_find ho, if_pos hexp])]
      rfl
    refine ⟨X.keys, hX, fun id => ?_, ?_⟩
    · rw [List.mem_keys]
      constructor
      · rintro ⟨o, ho⟩
        obtain ⟨ho, hexp⟩ := (hmem id o).1 ho
        simp [exitOf_block_of_find ho, hexp]
      · intro hsome
        rcases ho : s.db.approvedTransfers.find id with _ | o
        · simp [exitOf_block_of_none ho] at hsome
        · by_cases hexp : o.ExpiresAt t
          · exact ⟨o, (hmem id o).2 ⟨ho, hexp⟩⟩
          · simp [exitOf_block_of_find ho, hexp] at hsome
    · simpa [hpay, deposits, fees] using hbal
  | other e => exact absurd rfl (ha e)

/-! ### The life of a transfer -/

/-- A block of a later time cancels an undisputed transfer if its expiration has passed, and leaves
every other transfer as it is. -/
theorem Inv.exits_block (h : s.Inv) (ht : s.db.headBlockTime < t) :
    ∃ s', s.step (.block t) = some s' ∧
      ∀ id o c, s.db.approvedTransfers.find id = some o → s.created id = some c →
        if s.disputed id = false ∧ c.expiration < t then
          s'.exits id = [.expired] ∧ s'.db.approvedTransfers.find id = none
        else s'.exits id = [] ∧ s'.db.approvedTransfers.find id = some o := by
  obtain ⟨X, db, hdb, -, -, -, hfind, -, -⟩ := h.dbStep_block ht
  refine ⟨_, map_eq_some_iff.2 ⟨db, hdb, rfl⟩, ?_⟩
  intro id o c ho hc
  obtain ⟨⟨hok, -⟩, hex, hdis, c', hc', -, hexp⟩ := (h id).live o ho
  cases hc.symm.trans hc'
  -- the expiration that the sweep looks at is the one of the creation, until a dispute is opened
  have hiff : o.ExpiresAt t ↔ s.disputed id = false ∧ c.expiration < t := by
    rcases hok.status with ⟨hzero, -⟩ | ⟨hone, -⟩
    · have hd : s.disputed id = false := by
        rw [← Bool.not_eq_true]
        intro hd
        have := hdis.1 hd
        omega
      simp [ExpiresAt, hzero, hd, hexp hzero]
    · simp [ExpiresAt, hone, hdis.2 hone]
  by_cases hexp : o.ExpiresAt t
  · rw [if_pos (hiff.1 hexp)]
    simp [hex, exitOf_block_of_find ho, hexp, hfind, ho]
  · rw [if_neg fun hcond => hexp (hiff.2 hcond)]
    simp [hex, exitOf_block_of_find ho, hexp, hfind, ho]

/-- **An approved transfer settles once.** In every state that a run reaches, a transfer that was
created is either in escrow or has left it in exactly one way, which is not the expiry if a dispute
was opened on it. Every further step adjusts the balances by the payments of the exits that it
makes, next to its deposit and its fee; these payments add up to the amount, and those of a decision
are the amount less five percent, rounded down, and the five percent. A block is always accepted,
and cancels the undisputed transfers in escrow whose expiration is past, and no others. A creation
takes into escrow the amount of the transfer that it makes, from the sender of that transfer. -/
theorem approved_transfer_settles_once {s s' : ApprovedTransferSystem}
    {acts : List ApprovedTransferAction} (h0 : s.Initial) (hrun : run step s acts = some s') :
    (∀ id c, s'.created id = some c →
      (∃ o, s'.db.approvedTransfers.find id = some o ∧ c.SameTerms o ∧ s'.exits id = []) ∨
      (s'.db.approvedTransfers.find id = none ∧ ∃ e, s'.exits id = [e] ∧ c.Permits e ∧
        (s'.disputed id = true → e ≠ .expired) ∧
        Balances.givenTotal (c.payments e) c.amount.assetId = c.amount.amount)) ∧
    (∀ a s'', (∀ e, a ≠ .other e) → s'.step a = some s'' → Effect s' s'' a) ∧
    (∀ t, s'.db.headBlockTime < t → ∃ s'', s'.step (.block t) = some s'' ∧
      ∀ id o c, s'.db.approvedTransfers.find id = some o → s'.created id = some c →
        if s'.disputed id = false ∧ c.expiration < t then
          s''.exits id = [.expired] ∧ s''.db.approvedTransfers.find id = none
        else s''.exits id = [] ∧ s''.db.approvedTransfers.find id = some o) ∧
    ∀ op s'', s'.step (.create op) = some s'' →
      ∃ o, s''.created s'.db.approvedTransfers.nextId = some o ∧
        deposits (.create op) = [(o.fromAccount, -o.amount)] := by
  have h : s'.Inv := invariant (fun hinv hs => Inv.step hinv hs) h0.inv hrun
  refine ⟨?_, fun a s'' ha hs => h.effect ha hs, fun t ht => h.exits_block ht, ?_⟩
  · intro id c hc
    rcases ho : s'.db.approvedTransfers.find id with _ | o
    · obtain ⟨e, hex, hperm, hdis⟩ := (h id).gone c hc ho
      refine .inr ⟨rfl, e, hex, hperm, ?_, givenTotal_payments c e⟩
      rintro hd rfl
      simp [hdis rfl] at hd
    · obtain ⟨-, hex, -, c', hc', hterms, -⟩ := (h id).live o ho
      cases hc.symm.trans hc'
      exact .inl ⟨o, rfl, hterms, hex⟩
  · intro op s'' hs
    obtain ⟨db, hdb, rfl⟩ := map_eq_some_iff.1 hs
    obtain ⟨-, -, -, htable, -⟩ := approvedTransferCreate_eq_some hdb
    refine ⟨⟨op.fromAccount, op.toAccount, op.arbitr, op.amount, op.expiration, 0⟩,
      (if_pos rfl).trans ?_, rfl⟩
    rw [htable, find_create_self]

/-- A disputed transfer outlives its expiration and is then decided for its recipient. -/
theorem approved_transfer_settles_once_disputed : ∃ s', run step
        ⟨.start hardforkCwd6Time [{ referrer := 0 }, { referrer := 0 }, { referrer := 0 }] 1000,
          fun _ => none, fun _ => false, fun _ => []⟩
        [.create ⟨⟨1, 0⟩, 0, 1, 2, ⟨500, 0⟩, hardforkCwd6Time + 10⟩,
          .openDispute ⟨⟨1, 0⟩, 0, 1, 2, ⟨500, 0⟩, 0⟩, .block (hardforkCwd6Time + 20),
          .resolveDispute ⟨⟨⟨1, 0⟩, 0, 1, 2, ⟨500, 0⟩, 0⟩, 1⟩] = some s' ∧
      s'.exits 0 = [.resolved 1] ∧ s'.disputed 0 = true ∧
      ∀ a s'', (∀ e, a ≠ .other e) → s'.step a = some s'' → Effect s' s'' a := by
  refine ⟨_, (some_get (by decide)).symm, by decide, by decide, ?_⟩
  exact (approved_transfer_settles_once ⟨by decide, fun _ => rfl, fun _ => rfl, fun _ => rfl⟩
    (some_get _).symm).2.1

end ApprovedTransferSystem

end CrowdwizChain
