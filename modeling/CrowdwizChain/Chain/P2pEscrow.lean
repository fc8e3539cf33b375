import CrowdwizChain.Chain.P2pOrder

/-!
# The escrow of P2P orders

The life of a P2P order in every run of the chain. A run interleaves the eight operations on orders
with blocks, each of which ends with the sweep, and with anything else the chain does, which may
change the whole database except the orders and the time of the head block. It may create assets,
but the symbol of the core asset stays its own.

Beside the database a run carries the notes of an observer: each order as it was made, whether its
seller has been debited for it, and the ways in which it has ended. `Effect` ties these notes to the
code: an accepted step adjusts the balances by the debit of a seller, by the payments of the orders
that it ends, and by its fee, and by nothing else.
-/

namespace CrowdwizChain

open Transition Option List Balances Table Database

/-! ### Orders -/

namespace P2pOrder

/-- An order in the table. -/
structure Ok (o : P2pOrder) : Prop where
  status : 1 ≤ o.status ∧ o.status ≤ 5
  /-- only an order of a gateway that sells can be waiting for the call -/
  type : o.status = 1 → o.orderType = true
  core : o.amount.assetId = 0

/-- The ways in which an order ends. -/
inductive Exit
  /-- the gateway cancelled it -/
  | cancelled
  /-- the seller released the amount -/
  | released
  /-- an arbiter decided for one side -/
  | resolved (arbitr winner : AccountId)
  /-- a block ended it -/
  | timedOut
deriving DecidableEq

/-- What an order holds of an asset: its amount, once the seller was debited. -/
def escrow (o : P2pOrder) (s : AssetId) : Int :=
  if 2 ≤ o.status ∧ s = o.amount.assetId then o.amount.amount else 0

/-- What is paid when an order ends: nothing before the seller was debited; then all of it back to
the seller, or all of it to the buyer, or one percent, rounded down, to the arbiter and the rest to
the winner. -/
def payments (o : P2pOrder) (e : Exit) : List (AccountId × Asset) :=
  if 2 ≤ o.status then
    match e with
    | .cancelled => [(o.seller, o.amount)]
    | .timedOut => [(o.seller, o.amount)]
    | .released => [(o.buyer, o.amount)]
    | .resolved arbitr winner =>
      [(arbitr, ⟨o.amount.amount / 100, o.amount.assetId⟩),
        (winner, ⟨o.amount.amount - o.amount.amount / 100, o.amount.assetId⟩)]
  else []

theorem givenTotal_payments (o : P2pOrder) (e : Exit) (s : AssetId) :
    givenTotal (o.payments e) s = o.escrow s := by
  unfold payments escrow
  by_cases hstatus : 2 ≤ o.status
  · by_cases hs : s = o.amount.assetId
    · cases e <;> simp [hstatus, hs, givenTotal]
    · cases e <;> simp [hstatus, hs, givenTotal]
  · simp [hstatus, givenTotal]

/-- The same order at another point of its life. -/
def SameTerms (o o' : P2pOrder) : Prop :=
  o.orderType = o'.orderType ∧ o.amount = o'.amount ∧ o.p2pGateway = o'.p2pGateway ∧
    o.p2pClient = o'.p2pClient

theorem SameTerms.refl (o : P2pOrder) : o.SameTerms o := ⟨rfl, rfl, rfl, rfl⟩

theorem TimesOut.refund_eq {o : P2pOrder} {t : Nat} (ht : o.TimesOut t) :
    o.refund = o.payments .timedOut := by
  unfold refund payments
  rcases ht with ⟨hone, -⟩ | ⟨htwo, -⟩
  · simp [hone]
  · simp [htwo]

end P2pOrder

/-- The one percent of the code is one percent, rounded down. -/
theorem p2pArbitrComission_eq (a : Int) : p2pArbitrComission a = a / 100 := by
  rw [p2pArbitrComission, cutFee_eq]
  change a * 100 / 10000 = a / 100
  omega

/-! ### Runs -/

/-- Only the core asset has its symbol. -/
def Database.CoreIsCwd (db : Database) : Prop := ∀ id, db.assetSymbols id = some "CWD" → id = 0

/-- What can happen on the chain, as far as P2P orders go. -/
inductive P2pAction
  | create (op : CreateP2pOrderOperation)
  | cancel (op : CancelP2pOrderOperation)
  | call (op : CallP2pOrderOperation)
  | payment (op : PaymentP2pOrderOperation)
  | release (op : ReleaseP2pOrderOperation)
  | openDispute (op : P2pDisputeOperation)
  | replyDispute (op : P2pDisputeOperation)
  | resolveDispute (op : ResolveP2pDisputeOperation)
  /-- a block of the given time: the head moves on and the sweep runs -/
  | block (time : Nat)
  /-- anything else: every part of the database may change but the orders and the time -/
  | other (e : Database) (h : e.CoreIsCwd)

/-- The database, with the notes of an observer. -/
structure P2pSystem where
  db : Database
  /-- the orders as they were made -/
  created : Nat → Option P2pOrder
  /-- the orders whose seller has been debited -/
  funded : Nat → Bool
  /-- the ways in which each order has ended -/
  exits : Nat → List P2pOrder.Exit

namespace P2pSystem

open P2pOrder

/-- What an action does to the database. -/
def dbStep (db : Database) : P2pAction → Option Database
  | .create op => db.createP2pOrder op
  | .cancel op => db.cancelP2pOrder op
  | .call op => db.callP2pOrder op
  | .payment op => db.paymentP2pOrder op
  | .release op => db.releaseP2pOrder op
  | .openDispute op => db.openP2pDispute op
  | .replyDispute op => db.replyP2pDispute op
  | .resolveDispute op => db.resolveP2pDispute op
  | .block time =>
    if db.headBlockTime < time then
      { db with headBlockNum := db.headBlockNum + 1, headBlockTime := time }.autoCancelP2pOrders
    else none
  | .other e _ => some { e with p2pOrders := db.p2pOrders, headBlockTime := db.headBlockTime }

/-- The debit of a seller: of a client that sells when it makes the order, of a gateway when it
calls it. -/
def deposits (db : Database) : P2pAction → List (AccountId × Asset)
  | .create op =>
    if (db.p2pAdvs.find op.p2pAdv).any (fun adv => !adv.advType) then [(op.p2pClient, -op.amount)]
    else []
  | .call op => ((db.p2pOrders.find op.p2pOrder).map fun o => (op.p2pGateway, -o.amount)).toList
  | _ => []

/-- The order whose seller an accepted action debits. -/
def funds (db : Database) (a : P2pAction) (id : Nat) : Bool :=
  match a with
  | .create op =>
    id = db.p2pOrders.nextId ∧ (db.p2pAdvs.find op.p2pAdv).any fun adv => !adv.advType
  | .call op => id = op.p2pOrder
  | _ => false

/-- The end that an accepted action gives an order, if any. -/
def exitOf (db : Database) (a : P2pAction) (id : Nat) : Option Exit :=
  match a with
  | .cancel op => if id = op.p2pOrder then some .cancelled else none
  | .release op => if id = op.p2pOrder then some .released else none
  | .resolveDispute op => if id = op.p2pOrder then some (.resolved op.arbitr op.winner) else none
  | .block time =>
    if (db.p2pOrders.find id).any (fun o => o.TimesOut time) then some .timedOut else none
  | _ => none

/-- One action, with the notes kept. -/
def step (s : P2pSystem) (a : P2pAction) : Option P2pSystem :=
  (dbStep s.db a).map fun db =>
    { db
      created := match a with
        | .create _ => fun id =>
          if id = s.db.p2pOrders.nextId then db.p2pOrders.find id else s.created id
        | _ => s.created
      funded := fun id => s.funded id || funds s.db a id
      exits := fun id => s.exits id ++ (exitOf s.db a id).toList }

/-- A chain without P2P orders. -/
def Initial (s : P2pSystem) : Prop :=
  s.db.p2pOrders.rows = ∅ ∧ s.db.CoreIsCwd ∧ (∀ id, s.created id = none) ∧
    (∀ id, s.funded id = false) ∧ ∀ id, s.exits id = []

/-! ### The effect of one step -/

/-- The account that signs an operation, which pays the fee. -/
def authoriser : P2pAction → Option AccountId
  | .create op => some op.p2pClient
  | .cancel op => some op.p2pGateway
  | .call op => some op.p2pGateway
  | .payment op => some op.payingAccount
  | .release op => some op.recievingAccount
  | .openDispute op => some op.account
  | .replyDispute op => some op.account
  | .resolveDispute op => some op.arbitr
  | .block _ => none
  | .other _ _ => none

/-- The fee of an action. -/
def fees : P2pAction → List (AccountId × Asset)
  | .create op => [(op.p2pClient, -op.fee)]
  | .cancel op => [(op.p2pGateway, -op.fee)]
  | .call op => [(op.p2pGateway, -op.fee)]
  | .payment op => [(op.payingAccount, -op.fee)]
  | .release op => [(op.recievingAccount, -op.fee)]
  | .openDispute op => [(op.account, -op.fee)]
  | .replyDispute op => [(op.account, -op.fee)]
  | .resolveDispute op => [(op.arbitr, -op.fee)]
  | .block _ => []
  | .other _ _ => []

/-- What an action pays out of the escrow of an order. -/
def payouts (db : Database) (a : P2pAction) (id : Nat) : List (AccountId × Asset) :=
  match db.p2pOrders.find id, exitOf db a id with
  | some o, some e => o.payments e
  | _, _ => []

/-- **The effect of a step on the balances**: the debit of a seller, the payments of the orders that
it ends, one after another, and its fee. -/
def Effect (s s' : P2pSystem) (a : P2pAction) : Prop :=
  ∃ ids : List Nat, ids.Nodup ∧ (∀ id, id ∈ ids ↔ (exitOf s.db a id).isSome) ∧
    s.db.balances.adjustAll (deposits s.db a ++ ids.flatMap (payouts s.db a) ++ fees a) =
      some s'.db.balances

/-- Who must have agreed to the end of an order: the seller to a release, an arbiter on the white
list to a decision, which is for one of the two sides. -/
def Authorised (db : Database) (a : P2pAction) (o : P2pOrder) : Exit → Prop
  | .released => authoriser a = some o.seller
  | .resolved arbitr winner =>
    authoriser a = some arbitr ∧ db.isArbitr arbitr = true ∧ (winner = o.seller ∨ winner = o.buyer)
  | .cancelled => True
  | .timedOut => True

/-- What the accounts have of an asset, and the orders hold of it. -/
def pool (db : Database) (s : AssetId) : Int :=
  Balances.total db.balances s + db.p2pOrders.sumBy fun _ o => o.escrow s

/-! ### Three kinds of steps -/

/-- What an accepted action does: it makes an order, or moves one on, or ends some. -/
inductive Change (db : Database) (a : P2pAction) (db' : Database) : Prop
  | make (o : P2pOrder) (hok : o.Ok) (ha : ∃ op, a = .create op)
    (hsymbols : db'.assetSymbols = db.assetSymbols)
    (horders : db'.p2pOrders = db.p2pOrders.create o)
    (hfunds : ∀ id, funds db a id = decide (id = db.p2pOrders.nextId ∧ 2 ≤ o.status))
    (hdeposits : ∀ s, Balances.givenTotal (deposits db a) s = -o.escrow s)
    (hbalances : db.balances.adjustAll (deposits db a ++ fees a) = some db'.balances)
  | turn (id : Nat) (o : P2pOrder) (f : P2pOrder → P2pOrder) (ho : db.p2pOrders.find id = some o)
    (hok : (f o).Ok) (hterms : o.SameTerms (f o)) (ha : ∀ op, a ≠ .create op)
    (hsymbols : db'.assetSymbols = db.assetSymbols)
    (horders : db'.p2pOrders = db.p2pOrders.modify id f)
    (hfunds : ∀ i, funds db a i = decide (i = id ∧ o.status < 2 ∧ 2 ≤ (f o).status))
    (hle : o.status ≤ (f o).status) (hexits : ∀ i, exitOf db a i = none)
    (hdeposits : ∀ s, Balances.givenTotal (deposits db a) s = o.escrow s - (f o).escrow s)
    (hbalances : db.balances.adjustAll (deposits db a ++ fees a) = some db'.balances)
  | finish (l : List (Nat × P2pOrder)) (hl : (l.map Prod.fst).Nodup)
    (hfind : ∀ e ∈ l, db.p2pOrders.find e.1 = some e.2) (ha : ∀ op, a ≠ .create op)
    (hsymbols : db'.assetSymbols = db.assetSymbols)
    (horders : db'.p2pOrders = db.p2pOrders.removeAll (l.map Prod.fst))
    (hfunds : ∀ id, funds db a id = false)
    (hexits : ∀ id, (exitOf db a id).isSome ↔ id ∈ l.map Prod.fst)
    (hauthorised : ∀ e ∈ l, ∀ x, exitOf db a e.1 = some x → Authorised db a e.2 x)
    (hdeposits : deposits db a = [])
    (hbalances : db.balances.adjustAll ((l.map Prod.fst).flatMap (payouts db a) ++ fees a) =
      some db'.balances)

variable {s s' : P2pSystem} {db db' : Database} {a : P2pAction} {id : Nat} {o : P2pOrder}

section

variable (ho : db.p2pOrders.find id = some o)

include ho

theorem payouts_of_find {e : Exit} (he : exitOf db a id = some e) :
    payouts db a id = o.payments e := by
  simp [payouts, ho, he]

theorem Change.finish_one {x : Exit} (ha : ∀ op, a ≠ .create op)
    (hfunds : ∀ i, funds db a i = false) (hdeposits : deposits db a = [])
    (hexit : ∀ i, exitOf db a i = if i = id then some x else none)
    (hauthorised : Authorised db a o x)
    (hstep : db.OrderStep db' (db.p2pOrders.remove id) (o.payments x ++ fees a)) :
    Change db a db' := by
  refine .finish [(id, o)] (nodup_singleton id) ?_ ha hstep.symbols hstep.orders hfunds ?_
    ?_ hdeposits ?_
  · rintro e he
    obtain rfl := mem_singleton.1 he
    exact ho
  · intro i
    rw [hexit, map_singleton, mem_singleton]
    split <;> simp_all
  · rintro e he x' hx'
    obtain rfl := mem_singleton.1 he
    rw [hexit, if_pos rfl] at hx'
    cases hx'
    exact hauthorised
  · rw [map_singleton, flatMap_singleton, payouts_of_find ho (by rw [hexit, if_pos rfl])]
    exact hstep.balances

/-- An operation that moves an order on whose seller was debited. -/
theorem Change.turn_funded {f : P2pOrder → P2pOrder}
    (hok : o.Ok) (hterms : o.SameTerms (f o)) (ha : ∀ op, a ≠ .create op) (hstatus : 2 ≤ o.status)
    (hle : o.status ≤ (f o).status ∧ (f o).status ≤ 5) (hfunds : ∀ i, funds db a i = false)
    (hexits : ∀ i, exitOf db a i = none) (hdeposits : deposits db a = [])
    (hstep : db.OrderStep db' (db.p2pOrders.modify id f) ([] ++ fees a)) : Change db a db' := by
  have hamount : (f o).amount = o.amount := hterms.2.1.symm
  refine .turn id o f ho ⟨⟨by omega, hle.2⟩, by omega, hamount ▸ hok.core⟩ hterms ha
    hstep.symbols hstep.orders ?_ hle.1 hexits ?_ ?_
  · intro i
    rw [hfunds, eq_comm, decide_eq_false_iff_not]
    omega
  · intro s
    rw [hdeposits, P2pOrder.escrow, P2pOrder.escrow, hamount]
    simp [hstatus, hstatus.trans hle.1, givenTotal]
  · rw [hdeposits]
    exact hstep.balances

/-! ### The invariant -/

end

/-- What the notes say about an order. -/
structure InvAt (s : P2pSystem) (id : Nat) : Prop where
  fresh : s.db.p2pOrders.nextId ≤ id → s.created id = none ∧ s.exits id = [] ∧ s.funded id = false
  /-- in the table, it has not ended, and its status says whether its seller was debited -/
  live : ∀ o, s.db.p2pOrders.find id = some o → o.Ok ∧ s.exits id = [] ∧
    s.funded id = decide (2 ≤ o.status) ∧ ∃ c, s.created id = some c ∧ c.SameTerms o
  /-- no longer in the table, it has ended in one way -/
  gone : ∀ c, s.created id = some c → s.db.p2pOrders.find id = none → ∃ e, s.exits id = [e]

/-- What holds in every state that is reached. -/
structure Inv (s : P2pSystem) : Prop where
  core : s.db.CoreIsCwd
  orders : ∀ id, s.InvAt id

theorem Inv.ok (h : s.Inv) (ho : s.db.p2pOrders.find id = some o) : o.Ok :=
  ((h.orders id).live o ho).1

theorem Initial.inv (h : s.Initial) : s.Inv := by
  obtain ⟨hrows, hcore, hcreated, hfunded, hexits⟩ := h
  have hfind : ∀ id, s.db.p2pOrders.find id = none := fun id => by
    simp [find, hrows]
  exact ⟨hcore, fun id => ⟨fun _ => ⟨hcreated id, hexits id, hfunded id⟩, by simp [hfind id],
    by simp [hcreated id]⟩⟩

/-- Every accepted action is of one of the three kinds. -/
theorem Inv.change (h : s.Inv) (ha : ∀ e he, a ≠ .other e he) (hs : dbStep s.db a = some db) :
    Change s.db a db := by
  cases a with
  | create op =>
    obtain ⟨adv, hadv, -, hsymbol, hstep⟩ := createP2pOrder_eq_some hs
    have hcore : op.amount.assetId = 0 := h.core _ hsymbol
    have hdep : deposits s.db (.create op) =
        if adv.advType then [] else [(op.p2pClient, -op.amount)] := by
      simp only [deposits, hadv, any_some]
      cases adv.advType <;> rfl
    refine .make (s.db.newP2pOrder op adv) ⟨?_, ?_, hcore⟩ ⟨op, rfl⟩ hstep.symbols
      hstep.orders ?_ ?_ ?_
    · simp only [newP2pOrder]
      split <;> omega
    · simp only [newP2pOrder]
      split
      · next htype => exact fun _ => htype
      · intro hone
        omega
    · intro id
      rcases htype : adv.advType <;>
        simp [funds, hadv, newP2pOrder, htype]
    · intro A
      rw [hdep, P2pOrder.escrow]
      rcases htype : adv.advType
      · by_cases hA : A = op.amount.assetId <;>
          simp [givenTotal, newP2pOrder, htype, hA]
      · simp [givenTotal, newP2pOrder, htype]
    · rw [hdep]
      exact hstep.balances
  | cancel op =>
    obtain ⟨o, ho, hstatus, hstep⟩ := cancelP2pOrder_eq_some hs
    have hpay :
        (if o.orderType then [] else [(o.p2pClient, o.amount)]) = o.payments .cancelled := by
      unfold payments seller
      split at hstatus
      · next htype => simp [htype, hstatus]
      · next htype => simp [htype, hstatus]
    rw [hpay] at hstep
    exact Change.finish_one ho (by simp) (fun _ => rfl) rfl (fun _ => rfl) trivial hstep
  | call op =>
    obtain ⟨o, adv, ho, -, hstatus, -, hstep⟩ := callP2pOrder_eq_some hs
    have hdep : deposits s.db (.call op) = [(op.p2pGateway, -o.amount)] := by
      simp only [deposits, ho, map_some, Option.toList_some]
    refine .turn op.p2pOrder o _ ho ⟨⟨by simp, by simp⟩, by simp, (h.ok ho).core⟩
      ⟨rfl, rfl, rfl, rfl⟩ (by simp) hstep.symbols hstep.orders ?_ (by simp [hstatus])
      (fun _ => rfl) ?_ ?_
    · intro i
      simp [funds, hstatus]
    · intro A
      rw [hdep, P2pOrder.escrow, P2pOrder.escrow]
      by_cases hA : A = o.amount.assetId <;> simp [givenTotal, hA, hstatus]
    · rw [hdep]
      exact hstep.balances
  | payment op =>
    obtain ⟨o, ho, hstatus, hstep⟩ := paymentP2pOrder_eq_some hs
    exact Change.turn_funded ho (h.ok ho) ⟨rfl, rfl, rfl, rfl⟩ (by simp) (by omega)
      (by simp [hstatus]) (fun _ => rfl) (fun _ => rfl) rfl hstep
  | release op =>
    obtain ⟨o, ho, hstatus, hseller, hstep⟩ := releaseP2pOrder_eq_some hs
    have hpay : [(o.buyer, o.amount)] = o.payments .released := by
      rw [payments, if_pos hstatus]
    rw [hpay] at hstep
    exact Change.finish_one ho (by simp) (fun _ => rfl) rfl (fun _ => rfl)
      (congrArg some hseller) hstep
  | openDispute op =>
    obtain ⟨o, ho, hstatus, hstep⟩ := openP2pDispute_eq_some hs
    exact Change.turn_funded ho (h.ok ho) ⟨rfl, rfl, rfl, rfl⟩ (by simp) (by omega)
      (by simp [hstatus]) (fun _ => rfl) (fun _ => rfl) rfl hstep
  | replyDispute op =>
    obtain ⟨o, ho, hstatus, hstep⟩ := replyP2pDispute_eq_some hs
    exact Change.turn_funded ho (h.ok ho) ⟨rfl, rfl, rfl, rfl⟩ (by simp) (by omega)
      (by simp [hstatus]) (fun _ => rfl) (fun _ => rfl) rfl hstep
  | resolveDispute op =>
    obtain ⟨o, ho, hstatus, hwinner, harbitr, hstep⟩ := resolveP2pDispute_eq_some hs
    have hcore := (h.ok ho).core
    have hpay : [(op.arbitr, Asset.core (p2pArbitrComission o.amount.amount)),
        (op.winner, .core (o.amount.amount - p2pArbitrComission o.amount.amount))] =
        o.payments (.resolved op.arbitr op.winner) := by
      rw [payments, if_pos (by omega), p2pArbitrComission_eq, hcore]
      rfl
    rw [hpay] at hstep
    refine Change.finish_one ho (by simp) (fun _ => rfl) rfl (fun _ => rfl) ⟨rfl, harbitr, ?_⟩ hstep
    unfold seller buyer
    rcases hwinner with hw | hw <;> cases o.orderType <;> simp [hw]
  | block t =>
    obtain ⟨-, hs⟩ := ite_none_right_eq_some.1 hs
    obtain ⟨l, hl, hmem, hstep⟩ := autoCancelP2pOrders_eq_some hs
    have hexit : ∀ e ∈ l, exitOf s.db (.block t) e.1 = some .timedOut := by
      intro e he
      obtain ⟨hfind, hout⟩ := (hmem e).1 he
      have hfind' : s.db.p2pOrders.find e.1 = some e.2 := hfind
      simp only [exitOf, hfind', any_some]
      exact if_pos (by simpa using hout)
    refine .finish l hl (fun e he => ((hmem e).1 he).1) (by simp) hstep.symbols hstep.orders
      (fun _ => rfl) ?_ ?_ rfl ?_
    · intro id
      constructor
      · intro hsome
        rcases ho : s.db.p2pOrders.find id with _ | o
        · simp [exitOf, ho] at hsome
        · have hout : o.TimesOut t := by
            by_contra hout
            simp [exitOf, ho, hout] at hsome
          exact mem_map.2 ⟨(id, o), (hmem (id, o)).2 ⟨ho, hout⟩, rfl⟩
      · intro hin
        obtain ⟨e, he, rfl⟩ := mem_map.1 hin
        rw [hexit e he]
        rfl
    · intro e he x hx
      rw [hexit e he] at hx
      cases hx
      trivial
    · have hpay : (l.map Prod.fst).flatMap (payouts s.db (.block t)) = l.flatMap fun e =>
          e.2.refund := by
        rw [flatMap_map]
        refine flatMap_congr fun e he => ?_
        obtain ⟨hfind, hout⟩ := (hmem e).1 he
        have hfind' : s.db.p2pOrders.find e.1 = some e.2 := hfind
        rw [payouts_of_find hfind' (hexit e he), hout.refund_eq]
      rw [hpay]
      simpa [fees] using hstep.balances
  | other e he => exact absurd rfl (ha e he)

theorem coreIsCwd_of_symbols (h : db.CoreIsCwd) (hsymbols : db'.assetSymbols = db.assetSymbols) :
    db'.CoreIsCwd := by
  intro id hid
  rw [hsymbols] at hid
  exact h id hid

/-- The invariant is kept if it holds at the numbers that a step touches. -/
theorem Inv.update (h : s.Inv) (T : Nat → Prop) (hcore : s'.db.CoreIsCwd)
    (hnext : s.db.p2pOrders.nextId ≤ s'.db.p2pOrders.nextId)
    (hother : ∀ id, ¬T id → s'.db.p2pOrders.find id = s.db.p2pOrders.find id ∧
      s'.created id = s.created id ∧ s'.exits id = s.exits id ∧ s'.funded id = s.funded id)
    (htouched : ∀ id, T id → s'.InvAt id) : s'.Inv := by
  refine ⟨hcore, fun id => ?_⟩
  by_cases hT : T id
  · exact htouched id hT
  · obtain ⟨hfind, hc, hx, hf⟩ := hother id hT
    obtain ⟨hfresh, hlive, hgone⟩ := h.orders id
    refine ⟨fun hid => ?_, ?_, ?_⟩
    · rw [hc, hx, hf]
      exact hfresh (hnext.trans hid)
    · rw [hfind, hc, hx, hf]
      exact hlive
    · rw [hfind, hc, hx]
      exact hgone

/-- **Every step keeps the notes on the orders right**, one case per action. -/
theorem Inv.step (h : s.Inv) (hs : s.step a = some s') : s'.Inv := by
  obtain ⟨db, hdb, rfl⟩ := map_eq_some_iff.1 hs
  by_cases hother : ∃ e he, a = .other e he
  · obtain ⟨e, he, rfl⟩ := hother
    cases hdb
    refine h.update (fun _ => False) he le_rfl ?_ (by simp)
    simp [exitOf, funds]
  push Not at hother
  rcases h.change hother hdb with
    ⟨o, hok, ⟨op, rfl⟩, hsymbols, horders, hfunds, -, -⟩ |
    ⟨id0, o, f, ho, hok, hterms, ha, hsymbols, horders, hfunds, hle, hexits, -, -⟩ |
    ⟨l, -, hfind, ha, hsymbols, horders, hfunds, hexits, -, -, -⟩
  · -- a new order
    refine h.update (· = s.db.p2pOrders.nextId) (coreIsCwd_of_symbols h.core hsymbols)
      (by simp [horders]) (fun id hid => ?_) ?_
    · simp [horders, find_create, hid, hfunds, exitOf]
    rintro _ rfl
    refine ⟨by simp [horders], fun o' ho' => ?_, fun c _ hnone => ?_⟩
    · obtain ⟨-, hx, hf⟩ := (h.orders _).fresh le_rfl
      simp only [horders, find_create_self] at ho'
      cases ho'
      simp [horders, hok, hx, hf, hfunds, exitOf, SameTerms.refl]
    · simp [horders] at hnone
  · -- an order moves on
    refine h.update (· = id0) (coreIsCwd_of_symbols h.core hsymbols) (by simp [horders])
      (fun id hid => ?_) ?_
    · simp [horders, find_modify, hid, hfunds, hexits]
    rintro id rfl
    refine ⟨fun hid => absurd (lt_nextId ho) (by simpa [horders] using hid), fun o' ho' => ?_,
      fun c _ hnone => ?_⟩
    · simp only [horders, find_modify_self, ho, map_some] at ho'
      cases ho'
      obtain ⟨-, hx, hf, c, hc, hct⟩ := (h.orders id).live o ho
      refine ⟨hok, by simp [hx, hexits], ?_, c, by simp only [hc], ?_⟩
      · simp only [hf, hfunds]
        by_cases h2 : 2 ≤ o.status
        · simp [h2, h2.trans hle]
        · simp [h2, show o.status < 2 by omega]
      · obtain ⟨h1, h₂, h3, h4⟩ := hct
        obtain ⟨k1, k2, k3, k4⟩ := hterms
        exact ⟨h1.trans k1, h₂.trans k2, h3.trans k3, h4.trans k4⟩
    · simp [horders, ho] at hnone
  · -- some orders end
    refine h.update (· ∈ l.map Prod.fst) (coreIsCwd_of_symbols h.core hsymbols) (by simp [horders])
      (fun id hid => ?_) (fun id hid => ⟨fun hle => ?_, fun o' ho' => ?_, fun c hc hnone => ?_⟩)
    · have hkeep : exitOf s.db a id = none := not_isSome_iff_eq_none.1 fun hx =>
        hid ((hexits id).1 hx)
      simp only [horders, find_removeAll, if_neg hid, hfunds, hkeep]
      simp
    · obtain ⟨e, he, rfl⟩ := mem_map.1 hid
      exact absurd (lt_nextId (hfind e he)) (by simpa [horders] using hle)
    · simp only [horders, find_removeAll, if_pos hid] at ho'
      cases ho'
    · obtain ⟨x, hx⟩ := isSome_iff_exists.1 ((hexits id).2 hid)
      obtain ⟨e, he, rfl⟩ := mem_map.1 hid
      obtain ⟨-, hnil, -⟩ := (h.orders e.1).live e.2 (hfind e he)
      exact ⟨x, by simp [hnil, hx]⟩

/-! ### The effect of every step -/

section

variable (h : s.Inv) (ha : ∀ e he, a ≠ .other e he) (hs : s.step a = some s')

include h ha hs

/-- **Every step but those of the rest of the chain has its effect.** -/
theorem Inv.effect : Effect s s' a := by
  obtain ⟨db, hdb, rfl⟩ := map_eq_some_iff.1 hs
  rcases h.change ha hdb with
    ⟨o, -, ⟨op, rfl⟩, -, -, -, -, hbalances⟩ |
    ⟨id0, o, f, -, -, -, -, -, -, -, -, hexits, -, hbalances⟩ |
    ⟨l, hl, -, -, -, -, -, hexits, -, hdeposits, hbalances⟩
  · refine ⟨[], nodup_nil, fun id => by simp [exitOf], ?_⟩
    simpa using hbalances
  · refine ⟨[], nodup_nil, fun id => by simp [hexits], ?_⟩
    simpa using hbalances
  · refine ⟨l.map Prod.fst, hl, fun id => (hexits id).symm, ?_⟩
    rw [hdeposits]
    exact hbalances

/-- **Nothing is lost and nothing is made**: what the accounts have and the orders hold together
changes by the fee. -/
theorem Inv.pool_eq (A : AssetId) : pool s'.db A = pool s.db A + givenTotal (fees a) A := by
  obtain ⟨db, hdb, rfl⟩ := map_eq_some_iff.1 hs
  simp only [pool]
  rcases h.change ha hdb with
    ⟨o, -, -, -, horders, -, hdeposits, hbalances⟩ |
    ⟨id0, o, f, ho, -, -, -, -, horders, -, -, -, hdeposits, hbalances⟩ |
    ⟨l, hl, hfind, -, -, horders, -, hexits, -, -, hbalances⟩
  · rw [total_adjustAll hbalances, givenTotal_append, hdeposits, horders, sumBy_create]
    omega
  · rw [total_adjustAll hbalances, givenTotal_append, hdeposits, horders,
      sumBy_modify (fun _ o => o.escrow A) f ho]
    omega
  · have hpay : ((l.map Prod.fst).map fun id => givenTotal (payouts s.db a id) A).sum =
        (l.map fun e => e.2.escrow A).sum := by
      rw [List.map_map]
      refine congrArg List.sum (map_congr_left fun e he => ?_)
      obtain ⟨x, hx⟩ :=
        isSome_iff_exists.1 ((hexits e.1).2 (List.mem_map_of_mem he))
      rw [Function.comp_apply, payouts_of_find (hfind e he) hx, givenTotal_payments]
    rw [total_adjustAll hbalances, givenTotal_append, givenTotal_flatMap, hpay, horders,
      sumBy_removeAll (fun _ o => o.escrow A) hl hfind]
    omega

theorem Inv.authorised {x : Exit} (ho : s.db.p2pOrders.find id = some o)
    (hx : exitOf s.db a id = some x) :
    Authorised s.db a o x := by
  obtain ⟨db, hdb, rfl⟩ := map_eq_some_iff.1 hs
  rcases h.change ha hdb with
    ⟨o', -, ⟨op, rfl⟩, -⟩ | ⟨id0, o', f, -, -, -, -, -, -, -, -, hexits, -⟩ |
    ⟨l, -, hfind, -, -, -, -, hexits, hauthorised, -⟩
  · cases hx
  · rw [hexits] at hx
    cases hx
  · obtain ⟨e, he, rfl⟩ := mem_map.1 ((hexits id).1 (by rw [hx]; rfl))
    cases ho.symm.trans (hfind e he)
    exact hauthorised e he x hx

end

/-- **It is the seller of the order that is debited**, by the amount of the order. -/
theorem deposits_of_funds (hdb : dbStep db a = some db') (hfunds : funds db a id = true) :
    ∃ o, db'.p2pOrders.find id = some o ∧ deposits db a = [(o.seller, -o.amount)] := by
  cases a with
  | create op =>
    obtain ⟨adv, hadv, -, -, hstep⟩ := createP2pOrder_eq_some hdb
    simp only [funds, hadv, Option.any_some, decide_eq_true_eq, Bool.not_eq_true'] at hfunds
    obtain ⟨rfl, htype⟩ := hfunds
    refine ⟨newP2pOrder db op adv, by rw [hstep.orders, find_create_self], ?_⟩
    simp [deposits, hadv, P2pOrder.seller, newP2pOrder, htype]
  | call op =>
    obtain ⟨o, adv, ho, -, -, hseller, hstep⟩ := callP2pOrder_eq_some hdb
    cases of_decide_eq_true hfunds
    rw [hstep.orders, find_modify, if_pos rfl, ho, deposits, ho, ← hseller]
    exact ⟨_, rfl, rfl⟩
  | _ => cases hfunds

/-- **The escrow of a P2P order.** In every state that a run reaches, an order that was made is
either in the table or has ended in exactly one way. While it is in the table its seller has been
debited for it exactly when its status is two or more, which for an order of a client that sells is
from the beginning. Every further step adjusts the balances by the debit of a seller, by the
payments of the orders that it ends and by its fee; the debit is of the seller of the order that it
funds, by the amount of it; these payments add up to what the order holds, the seller has agreed to
a release and an arbiter of the white list to a decision, and what the accounts have and the orders
hold changes by the fee only. -/
theorem p2p_order_escrow {s s' : P2pSystem} {acts : List P2pAction} (h0 : s.Initial)
    (hrun : run step s acts = some s') :
    (∀ id c, s'.created id = some c →
      (∃ o, s'.db.p2pOrders.find id = some o ∧ c.SameTerms o ∧ s'.exits id = [] ∧
        (s'.funded id = true ↔ 2 ≤ o.status) ∧ (c.orderType = false → s'.funded id = true)) ∨
      (s'.db.p2pOrders.find id = none ∧ ∃ e, s'.exits id = [e])) ∧
    ∀ a s'', (∀ e he, a ≠ .other e he) → s'.step a = some s'' → Effect s' s'' a ∧
      (∀ id, funds s'.db a id = true → ∃ o, s''.db.p2pOrders.find id = some o ∧
        deposits s'.db a = [(o.seller, -o.amount)]) ∧
      (∀ id o e, s'.db.p2pOrders.find id = some o → exitOf s'.db a id = some e →
        Authorised s'.db a o e ∧ ∀ A, Balances.givenTotal (o.payments e) A = o.escrow A) ∧
      ∀ A, pool s''.db A = pool s'.db A + Balances.givenTotal (fees a) A := by
  have h : s'.Inv := invariant (fun hinv hs => Inv.step hinv hs) h0.inv hrun
  refine ⟨?_, ?_⟩
  · intro id c hc
    rcases ho : s'.db.p2pOrders.find id with _ | o
    · exact .inr ⟨rfl, (h.orders id).gone c hc ho⟩
    · obtain ⟨hok, hx, hf, c', hc', hterms⟩ := (h.orders id).live o ho
      cases hc.symm.trans hc'
      refine .inl ⟨o, rfl, hterms, hx, by rw [hf, decide_eq_true_eq], ?_⟩
      intro htype
      have hne : o.status ≠ 1 := fun hone => by
        have := hok.type hone
        rw [← hterms.1, htype] at this
        cases this
      have hstatus := hok.status.1
      rw [hf, decide_eq_true_eq]
      omega
  · intro a s'' ha hs
    refine ⟨h.effect ha hs, fun id hfunds => ?_, ?_, h.pool_eq ha hs⟩
    · obtain ⟨db, hdb, rfl⟩ := map_eq_some_iff.1 hs
      exact deposits_of_funds hdb hfunds
    intro id o e ho he
    exact ⟨h.authorised ha hs ho he, givenTotal_payments o e⟩

/-! ### A deal -/

/-- A chain with two accounts that hold a thousand each, where account one is a gateway that buys up
to five hundred. -/
def twoTraders : P2pSystem where
  db :=
    { start hardforkCwd3Time [{ referrer := 0 }, { referrer := 0 }] 1000 with
      p2pAdvs := Table.empty.create
        { p2pGateway := 1, advType := false, maxCwd := 500, minCwd := 1, price := 7 } }
  created := fun _ => none
  funded := fun _ => false
  exits := fun _ => []

/-- Account zero sells four hundred; the gateway pays for it, and account zero releases it. -/
def sellAndRelease : List P2pAction :=
  [.create ⟨⟨1, 0⟩, 0, ⟨400, 0⟩, 7, 1, 0, some 20⟩, .payment ⟨⟨1, 0⟩, 0, 1, none⟩,
    .release ⟨⟨1, 0⟩, 0, 1, 0⟩]

theorem twoTraders_initial : twoTraders.Initial := by
  refine ⟨rfl, ?_, fun _ => rfl, fun _ => rfl, fun _ => rfl⟩
  rintro (_ | id) hid
  · rfl
  · cases hid

theorem p2p_order_escrow_released :
    ∃ s', run step twoTraders sellAndRelease = some s' ∧ s'.exits 0 = [.released] ∧
      s'.db.getBalance 1 0 = 1399 ∧ s'.db.p2pOrders.find 0 = none ∧ ∃ e, s'.exits 0 = [e] := by
  refine ⟨_, (some_get (by decide +kernel)).symm, by decide +kernel, by decide +kernel,
    by decide +kernel, ?_⟩
  obtain ⟨c, hc⟩ := isSome_iff_exists.1 (show Option.isSome
    (((run step twoTraders sellAndRelease).get (by decide +kernel)).created 0) = true by
      decide +kernel)
  rcases (p2p_order_escrow twoTraders_initial
    (some_get (by decide +kernel)).symm).1 0 c hc with ⟨o, ho, -⟩ | ⟨-, he⟩
  · exact absurd (ho.symm.trans (by decide +kernel)) (some_ne_none o)
  · exact he

end P2pSystem

end CrowdwizChain
