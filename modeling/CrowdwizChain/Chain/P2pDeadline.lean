import Mathlib.Data.UInt
import CrowdwizChain.Chain.P2pEscrow

/-!
# The deadlines of P2P orders

The operations that make and edit the advertisements of a gateway, and the two times at which the
sweep ends an order. An advertisement gives a number of seconds for the call and a number of seconds
for the payment, at least an hour each and otherwise any word of 32 bits; the deadline is the sum of
one of them and the time of the head, in 32 bits again.

`P2pDeadlines` keeps beside the database the deadline of each order as a natural number.
`P2pDeadlines.p2p_deadlines_honoured` says that the sweep goes by it exactly if the sum fits. Where
it does not, the order is swept at once.
-/

namespace CrowdwizChain

open Transition Option Database Table

/-! ### Advertisements -/

/-- `create_p2p_adv_operation`; the texts are known by their packed sizes -/
structure CreateP2pAdvOperation where
  fee : Asset
  p2pGateway : AccountId
  advType : Bool := true
  advDescription : Nat
  maxCwd : Int
  minCwd : Int
  price : Int
  currency : Nat
  minP2pCompleteDeals : Nat := 0
  minAccountStatus : Nat := 0
  timelimitForReply : UInt32 := 3600
  timelimitForApprove : UInt32 := 3600
  geo : Nat

/-- `edit_p2p_adv_operation` -/
structure EditP2pAdvOperation extends CreateP2pAdvOperation where
  p2pAdv : Nat
  status : Nat

/-- `create_p2p_adv_operation::validate` -/
def CreateP2pAdvOperation.validate (op : CreateP2pAdvOperation) : Bool :=
  0 ≤ op.fee.amount ∧ 3600 ≤ op.timelimitForApprove ∧ 3600 ≤ op.timelimitForReply ∧
    10 ≤ op.advDescription ∧ op.advDescription < 257 ∧ op.geo < 65 ∧ op.currency < 20 ∧
    0 < op.maxCwd ∧ 0 < op.minCwd ∧ op.minCwd ≤ op.maxCwd ∧ 0 < op.price ∧ op.minAccountStatus ≤ 4

/-- `edit_p2p_adv_operation::validate` -/
def EditP2pAdvOperation.validate (op : EditP2pAdvOperation) : Bool :=
  op.toCreateP2pAdvOperation.validate ∧ op.status ≤ 1

/-- What both operations write into the advertisement. -/
def CreateP2pAdvOperation.write (op : CreateP2pAdvOperation) (status : Nat) (adv : P2pAdv) :
    P2pAdv :=
  { adv with
    p2pGateway := op.p2pGateway
    advType := op.advType
    maxCwd := op.maxCwd
    minCwd := op.minCwd
    price := op.price
    status
    minP2pCompleteDeals := op.minP2pCompleteDeals
    minAccountStatus := op.minAccountStatus
    timelimitForApprove := op.timelimitForApprove.toNat
    timelimitForReply := op.timelimitForReply.toNat }

namespace Database

/-- `create_p2p_adv_evaluator::do_evaluate` -/
def createP2pAdvEvaluate (op : CreateP2pAdvOperation) (db : Database) : Bool :=
  (db.accounts.find op.p2pGateway).any fun account =>
    account.referralStatusType = 4 ∧ db.headBlockTime ≤ account.referralStatusExpirationDate

/-- The operation that makes an advertisement, with `create_p2p_adv_evaluator::do_apply`. -/
def createP2pAdv (db : Database) (op : CreateP2pAdvOperation) : Option Database :=
  if op.validate then
    db.applyOperation op.p2pGateway op.fee (createP2pAdvEvaluate op) fun db =>
      some { db with
        p2pAdvs := db.p2pAdvs.create
          (op.write 1 { p2pGateway := 0, advType := false, maxCwd := 0, minCwd := 0, price := 0 }) }
  else none

/-- `edit_p2p_adv_evaluator::do_evaluate` -/
def editP2pAdvEvaluate (op : EditP2pAdvOperation) (db : Database) : Bool :=
  (db.p2pAdvs.find op.p2pAdv).any fun adv => adv.p2pGateway = op.p2pGateway

/-- The operation that edits an advertisement, with `edit_p2p_adv_evaluator::do_apply`. -/
def editP2pAdv (db : Database) (op : EditP2pAdvOperation) : Option Database :=
  if op.validate then
    db.applyOperation op.p2pGateway op.fee (editP2pAdvEvaluate op) fun db =>
      some { db with
        p2pAdvs := db.p2pAdvs.modify op.p2pAdv (op.toCreateP2pAdvOperation.write op.status) }
  else none

end Database

/-! ### Runs -/

/-- What can happen to advertisements and orders. -/
inductive ExchangeAction
  | createAdv (op : CreateP2pAdvOperation)
  | editAdv (op : EditP2pAdvOperation)
  | p2p (a : P2pAction)

/-- The database, and for each order the end of the time in which it is to be called or paid. -/
structure P2pDeadlines where
  db : Database
  deadline : Nat → Nat

namespace P2pDeadlines

open P2pSystem

/-- The seconds that an accepted action gives to an order: a new one is to be called or, if its
client is the seller, to be paid; one that is called is to be paid. -/
def timeLimit (db : Database) (a : P2pAction) (id : Nat) : Option Nat :=
  match a with
  | .create op =>
    if id = db.p2pOrders.nextId then
      (db.p2pAdvs.find op.p2pAdv).map fun adv =>
        if adv.advType then adv.timelimitForApprove else adv.timelimitForReply
    else none
  | .call op =>
    if id = op.p2pOrder then
      (db.p2pOrders.find id).bind fun o => (db.p2pAdvs.find o.p2pAdv).map (·.timelimitForReply)
    else none
  | _ => none

/-- One action. -/
def step (s : P2pDeadlines) : ExchangeAction → Option P2pDeadlines
  | .createAdv op => (s.db.createP2pAdv op).map ({ s with db := · })
  | .editAdv op => (s.db.editP2pAdv op).map ({ s with db := · })
  | .p2p a => (dbStep s.db a).map fun db =>
    { db
      deadline := fun id =>
        (timeLimit s.db a id).elim (s.deadline id) (s.db.headBlockTime + ·) }

/-- The sweep of a block of the given time ends the order. -/
def Sweeps (s : P2pDeadlines) (time id : Nat) : Prop :=
  ∃ o, s.db.p2pOrders.find id = some o ∧ o.TimesOut time

/-- The time that the action gives ends before the clock does. -/
def Fits (s : P2pDeadlines) : ExchangeAction → Prop
  | .p2p a => ∀ id n, timeLimit s.db a id = some n → s.db.headBlockTime + n < 2 ^ 32
  | _ => True

/-- Every order that waits is swept when its time is over. -/
def Timed (s : P2pDeadlines) : Prop :=
  ∀ id o, s.db.p2pOrders.find id = some o →
    3 ≤ o.status ∨ o.status ≤ 2 ∧ ∀ time, o.TimesOut time ↔ s.deadline id < time

variable {db db' : Database} {s s' : P2pDeadlines} {a : P2pAction} {id n : Nat}

theorem timesOut_of_timeLimit (h : dbStep db a = some db') (hn : timeLimit db a id = some n) :
    ∃ o, db'.p2pOrders.find id = some o ∧ o.status ≤ 2 ∧
      ∀ time, o.TimesOut time ↔ timePointSec db.headBlockTime n < time := by
  cases a with
  | create op =>
    obtain ⟨rfl, hlimit⟩ := ite_none_right_eq_some.1 hn
    obtain ⟨adv, hadv, -, -, hstep⟩ := createP2pOrder_eq_some h
    rw [hadv, map_some, some.injEq] at hlimit
    refine ⟨db.newP2pOrder op adv, ?_, ?_⟩
    · rw [hstep.orders, find_create, if_pos rfl]
    · subst hlimit
      rcases htype : adv.advType <;> simp [newP2pOrder, P2pOrder.TimesOut, htype]
  | call op =>
    obtain ⟨rfl, hlimit⟩ := ite_none_right_eq_some.1 hn
    obtain ⟨o, adv, ho, hadv, -, -, hstep⟩ := callP2pOrder_eq_some h
    rw [ho, bind_some, hadv, map_some, some.injEq] at hlimit
    subst hlimit
    rw [hstep.orders, find_modify, if_pos rfl, ho, map_some]
    exact ⟨_, rfl, by simp [P2pOrder.TimesOut]⟩
  | _ => cases hn

/-- An order that is given no time has been there before, and is unchanged or no longer waits. -/
theorem find_of_timeLimit (h : dbStep db a = some db') (hn : timeLimit db a id = none)
    {o' : P2pOrder}
    (ho' : db'.p2pOrders.find id = some o') : 3 ≤ o'.status ∨ db.p2pOrders.find id = some o' := by
  have hmoves : ∀ {i f}, (∀ o, 3 ≤ P2pOrder.status (f o)) →
      db'.p2pOrders = db.p2pOrders.modify i f → 3 ≤ o'.status ∨ db.p2pOrders.find id = some o' := by
    intro i f hf horders
    rw [horders, find_modify] at ho'
    split at ho'
    · obtain ⟨o, -, rfl⟩ := map_eq_some_iff.1 ho'
      exact .inl (hf o)
    · exact .inr ho'
  have hends : ∀ {l}, db'.p2pOrders = db.p2pOrders.removeAll l → 3 ≤ o'.status ∨
      db.p2pOrders.find id = some o' := by
    intro l horders
    rw [horders, find_removeAll] at ho'
    exact .inr (ite_none_left_eq_some.1 ho').2
  cases a with
  | create op =>
    obtain ⟨adv, hadv, -, -, hstep⟩ := createP2pOrder_eq_some h
    rw [timeLimit, hadv] at hn
    rw [hstep.orders, find_create] at ho'
    split at ho'
    · next heq => simp [heq] at hn
    · exact .inr ho'
  | call op =>
    obtain ⟨o, adv, ho, hadv, -, -, hstep⟩ := callP2pOrder_eq_some h
    rw [hstep.orders, find_modify] at ho'
    split at ho'
    · next heq => simp [timeLimit, heq, ho, hadv] at hn
    · exact .inr ho'
  | payment op =>
    obtain ⟨o, -, -, hstep⟩ := paymentP2pOrder_eq_some h
    exact hmoves (fun _ => le_rfl) hstep.orders
  | openDispute op =>
    obtain ⟨o, -, -, hstep⟩ := openP2pDispute_eq_some h
    exact hmoves (fun _ => by simp) hstep.orders
  | replyDispute op =>
    obtain ⟨o, -, -, hstep⟩ := replyP2pDispute_eq_some h
    exact hmoves (fun _ => by simp) hstep.orders
  | cancel op =>
    obtain ⟨o, -, -, hstep⟩ := cancelP2pOrder_eq_some h
    exact hends (l := [op.p2pOrder]) hstep.orders
  | release op =>
    obtain ⟨o, -, -, -, hstep⟩ := releaseP2pOrder_eq_some h
    exact hends (l := [op.p2pOrder]) hstep.orders
  | resolveDispute op =>
    obtain ⟨o, -, -, -, -, hstep⟩ := resolveP2pDispute_eq_some h
    exact hends (l := [op.p2pOrder]) hstep.orders
  | block time =>
    obtain ⟨-, h⟩ := ite_none_right_eq_some.1 h
    obtain ⟨l, -, -, hstep⟩ := autoCancelP2pOrders_eq_some h
    exact hends hstep.orders
  | other e he =>
    cases h
    exact .inr ho'

theorem orders_of_adv {c : Bool} {payer : AccountId} {fee : Asset} {ev : Database → Bool}
    {f : Database → Table P2pAdv}
    (h : (if c then db.applyOperation payer fee ev fun db => some { db with p2pAdvs := f db }
      else none) = some db') : db'.p2pOrders = db.p2pOrders := by
  obtain ⟨-, coreFee, db1, m, -, -, hap, -, rfl⟩ := operation_eq_some h
  cases hap
  rfl

theorem sweeps_iff {o : P2pOrder} (ho : s.db.p2pOrders.find id = some o) (time : Nat) :
    s.Sweeps time id ↔ o.TimesOut time := by
  constructor
  · rintro ⟨o', ho', htime⟩
    cases ho.symm.trans ho'
    exact htime
  · exact fun htime => ⟨o, ho, htime⟩

/-- **Every step keeps the deadlines**: an order expires when it is due. -/
theorem Timed.step {b : ExchangeAction} (h : s.Timed) (hfits : s.Fits b) (hs : s.step b = some s') :
    s'.Timed := by
  have hsame : ∀ {db}, db.p2pOrders = s.db.p2pOrders → Timed { s with db := db } := by
    intro db horders id o ho
    exact h id o (horders ▸ ho)
  cases b with
  | createAdv op =>
    obtain ⟨db, hdb, rfl⟩ := map_eq_some_iff.1 hs
    exact hsame (orders_of_adv hdb)
  | editAdv op =>
    obtain ⟨db, hdb, rfl⟩ := map_eq_some_iff.1 hs
    exact hsame (orders_of_adv hdb)
  | p2p a =>
    obtain ⟨db, hdb, rfl⟩ := map_eq_some_iff.1 hs
    intro id o ho
    rcases hn : timeLimit s.db a id with _ | n
    · rcases find_of_timeLimit hdb hn ho with hlate | hold
      · exact .inl hlate
      · simpa only [hn, elim_none] using h id o hold
    · obtain ⟨o', ho', hstatus, htimes⟩ := timesOut_of_timeLimit hdb hn
      cases ho.symm.trans ho'
      refine .inr ⟨hstatus, fun time => ?_⟩
      rw [htimes, timePointSec, Nat.mod_eq_of_lt (hfits id n hn)]
      simp only [hn, elim_some]

/-- **The deadlines of P2P orders.** An order that is made, or called, with a time limit of 32
bits is swept by the later blocks according to its deadline exactly if the sum of the time of
the head and the limit fits. A block removes the orders that it sweeps, and no others. Along a
run in which every such sum fits, the orders that wait are swept by the blocks after their
deadline, and by no others. -/
theorem p2p_deadlines_honoured {acts : List ExchangeAction}
    (h0 : ∀ id, s.db.p2pOrders.find id = none) (hrun : run step s acts = some s') :
    (∀ {a s'' id n}, s'.step (.p2p a) = some s'' → timeLimit s'.db a id = some n → n < 2 ^ 32 →
      s'.db.headBlockTime + 1 < 2 ^ 32 →
      ((∀ time, s'.db.headBlockTime < time → time < 2 ^ 32 →
        (s''.Sweeps time id ↔ s''.deadline id < time)) ↔ s'.db.headBlockTime + n < 2 ^ 32)) ∧
    (∀ {time db}, dbStep s'.db (.block time) = some db → ∀ id o, s'.db.p2pOrders.find id = some o →
      (db.p2pOrders.find id = none ↔ s'.Sweeps time id)) ∧
    (Along step Fits s acts → ∀ id o, s'.db.p2pOrders.find id = some o →
      ∀ time, s'.Sweeps time id ↔ o.status ≤ 2 ∧ s'.deadline id < time) := by
  refine ⟨fun {a s'' id n} hs hn hword hhead => ?_, fun {time db} hdb id o ho => ?_,
    fun hfits id o ho time => ?_⟩
  · obtain ⟨hdb, hdeadline⟩ : dbStep s'.db a = some s''.db ∧
        s''.deadline id = s'.db.headBlockTime + n := by
      obtain ⟨db, hdb, rfl⟩ := map_eq_some_iff.1 hs
      exact ⟨hdb, by simp only [hn, elim_some]⟩
    obtain ⟨o, ho, -, htimes⟩ := timesOut_of_timeLimit hdb hn
    simp only [sweeps_iff ho, htimes, hdeadline, timePointSec]
    constructor
    · -- a sum that does not fit is a time before the head
      intro hall
      have hnext := hall (s'.db.headBlockTime + 1) (Nat.lt_succ_self _) hhead
      omega
    · intro hfits time _ _
      rw [Nat.mod_eq_of_lt hfits]
  · obtain ⟨-, hdb⟩ := ite_none_right_eq_some.1 hdb
    obtain ⟨l, -, hmem, hstep⟩ := autoCancelP2pOrders_eq_some hdb
    rw [hstep.orders, find_removeAll, sweeps_iff ho, ite_eq_left_iff]
    constructor
    · intro hnone
      by_contra hkept
      have hout : id ∉ l.map Prod.fst := by
        intro hin
        obtain ⟨e, he, rfl⟩ := List.mem_map.1 hin
        obtain ⟨hfind, htime⟩ := (hmem e).1 he
        cases ho.symm.trans hfind
        exact hkept htime
      cases ho.symm.trans (hnone hout)
    · exact fun htime hout =>
        absurd (List.mem_map.2 ⟨(id, o), (hmem (id, o)).2 ⟨ho, htime⟩, rfl⟩) hout
  · have htimed : s'.Timed := by
      refine invariant_of_along (fun h hfits hs => Timed.step h hfits hs) ?_ hfits hrun
      intro id o ho
      cases (h0 id).symm.trans ho
    rw [sweeps_iff ho]
    rcases htimed id o ho with hlate | ⟨hwaits, htimes⟩
    · simp only [P2pOrder.TimesOut]
      omega
    · rw [htimes]
      exact (and_iff_right hwaits).symm

/-! ### A gateway that gives its clients all the time there is -/

/-- Account one is a gateway with a contract of the highest status. -/
def oneGateway : P2pDeadlines where
  db := Database.start hardforkCwd3Time
    [{ referrer := 0 },
      { referrer := 0, referralStatusType := 4, referralStatusExpirationDate := 2 ^ 31 }] 1000
  deadline := fun _ => 0

/-- The gateway sells; its orders are to be called within the given time. -/
def makesAdv (limit : UInt32) : ExchangeAction :=
  .createAdv ⟨⟨1, 0⟩, 1, true, 20, 500, 1, 7, 3, 0, 0, 3600, limit, 3⟩

/-- Account zero makes an order. -/
def makesOrder : P2pAction := .create ⟨⟨1, 0⟩, 0, ⟨400, 0⟩, 7, 1, 0, none⟩

/-- An hour is kept. -/
theorem p2p_deadlines_honoured_hour :
    ∃ s, run step oneGateway [makesAdv 3600, .p2p makesOrder] = some s ∧
    ∀ time, hardforkCwd3Time < time → time < 2 ^ 32 →
    (s.Sweeps time 0 ↔ hardforkCwd3Time + 3600 < time) := by
  have hadv : (run step oneGateway [makesAdv 3600]).map
      (fun s => (timeLimit s.db makesOrder 0, s.db.headBlockTime)) = some
      (some 3600, hardforkCwd3Time) := by
    decide +kernel
  have horder :
      ((run step oneGateway [makesAdv 3600]).bind (step · (.p2p makesOrder))).map (·.deadline 0) =
      some (hardforkCwd3Time + 3600) := by
    decide +kernel
  obtain ⟨s, hs, hadv⟩ := map_eq_some_iff.1 hadv
  obtain ⟨hlimit, hhead⟩ := Prod.mk.inj hadv
  obtain ⟨s', hs', hdeadline⟩ := map_eq_some_iff.1 horder
  rw [hs, bind_some] at hs'
  refine ⟨s', ?_, ?_⟩
  · have hrun : run step oneGateway ([makesAdv 3600] ++ [.p2p makesOrder]) = some s' := by
      rw [run_append, hs, bind_some]
      exact bind_eq_some_iff.2 ⟨s', hs', rfl⟩
    exact hrun
  · have hiff :=
      (p2p_deadlines_honoured (fun _ => rfl) hs).1 hs' hlimit (by decide) (by rw [hhead]; decide)
    rw [hdeadline, hhead] at hiff
    exact hiff.2 (by decide)

/-- The longest limit there is: the next block ends the order. -/
theorem longest_limit_swept_at_once :
    ∃ s db, run step oneGateway [makesAdv (2 ^ 32 - 1), .p2p makesOrder] = some s ∧
    s.deadline 0 = hardforkCwd3Time + (2 ^ 32 - 1) ∧ (s.db.p2pOrders.find 0).isSome ∧
    dbStep s.db (.block (hardforkCwd3Time + 3)) = some db ∧ db.p2pOrders.find 0 = none := by
  have hview : (run step oneGateway [makesAdv (2 ^ 32 - 1), .p2p makesOrder]).map
      (fun s => (s.deadline 0, (s.db.p2pOrders.find 0).isSome,
        (dbStep s.db (.block (hardforkCwd3Time + 3))).map fun db => db.p2pOrders.find 0)) =
      some (hardforkCwd3Time + (2 ^ 32 - 1), true, some none) := by
    decide +kernel
  obtain ⟨s, hs, hview⟩ := map_eq_some_iff.1 hview
  simp only [Prod.mk.injEq, map_eq_some_iff] at hview
  obtain ⟨hdeadline, hthere, db, hdb, hgone⟩ := hview
  exact ⟨s, db, hs, hdeadline, hthere, hdb, hgone⟩

end P2pDeadlines

end CrowdwizChain
