import CrowdwizChain.Chain.Cashback
import CrowdwizChain.Chain.VolumeDecay
import Mathlib.Data.List.Sort

/-!
# The budget of witnesses and workers

`database::process_budget` of `db_maint.cpp`, with `initialize_budget_record` and `pay_workers`.
Once in a maintenance interval a part of the reserve is set aside: first for the witnesses, then for
the workers, who are paid in the order of their votes until the budget is used up. The fees of the
core asset and what is left of the last budget go back to the reserve.

What is asked for is converted to `int64_t`, both for the witnesses and for each worker,
and no check keeps the products below `2 ^ 63`. `budget_never_overspends` says that
nothing else can go wrong.
-/

namespace CrowdwizChain

open Option List Database Table

/-! ### Workers -/

/-- `worker_type` -/
inductive WorkerType
  | refund (totalBurned : Int)
  | vestingBalance (balance : Nat)
  | burn (totalBurned : Int)

/-- What of a pay goes back to the reserve. -/
def WorkerType.refunded (pay : Int) : WorkerType → Int
  | .refund _ => pay
  | _ => 0

/-- `worker_object`, with what `worker_create_operation::validate` asks of the pay. -/
structure Worker where
  workBeginDate : Nat
  workEndDate : Nat
  dailyPay : Nat
  worker : WorkerType
  totalVotesFor : Nat
  totalVotesAgainst : Nat := 0
  dailyPay_pos : 0 < dailyPay
  dailyPay_lt : dailyPay < grapheneMaxShareSupply

namespace Worker

/-- `worker_object::is_active` -/
def isActive (w : Worker) (now : Nat) : Bool := w.workBeginDate ≤ now ∧ now ≤ w.workEndDate

/-- `worker_object::approving_stake` -/
def approvingStake (w : Worker) : Int := toInt64 w.totalVotesFor - toInt64 w.totalVotesAgainst

/-- The pay for some seconds, which the source counts in microseconds. -/
def earned (w : Worker) (passed : Nat) : Nat :=
  w.dailyPay * (passed * 1000000) / (secondsPerDay * 1000000)

/-- The pay as a `share_type`: `to_uint64` throws from `2 ^ 64` on. -/
def requestedPay (w : Worker) (passed : Nat) : Option Int :=
  if w.earned passed < 2 ^ 64 then some (toInt64 (w.earned passed)) else none

end Worker

/-- `budget_record` -/
structure BudgetRecord where
  timeSinceLastBudget : Nat := 0
  fromInitialReserve : Int := 0
  fromAccumulatedFees : Int := 0
  fromUnusedWitnessBudget : Int := 0
  requestedWitnessBudget : Int := 0
  totalBudget : Int := 0
  witnessBudget : Int := 0
  workerBudget : Int := 0
  leftoverWorkerFunds : Int := 0
  supplyDelta : Int := 0

/-- The database, the workers, and what the dynamic properties say about the budget. -/
structure Treasury where
  db : Database
  workers : Table Worker
  witnessBudget : Int
  lastBudgetTime : Nat
  nextMaintenanceTime : Nat

/-- `vesting_balance_object::deposit`, of the core asset; a linear policy takes no notice of it. -/
def VestingBalance.deposit (v : VestingBalance) (now : Nat) (amount : Int) : VestingBalance :=
  match v.policy with
  | .cdd p => v.depositCore p now amount true
  | .linear _ => { v with balance := ⟨v.balance.amount + amount, v.balance.assetId⟩ }

theorem VestingBalance.balance_deposit (v : VestingBalance) (now : Nat) (amount : Int) :
    (v.deposit now amount).balance = ⟨v.balance.amount + amount, v.balance.assetId⟩ := by
  unfold deposit
  split <;> rfl

/-- `pay_worker` of the three kinds of workers. -/
def Database.payWorker (db : Database) (pay : Int) : WorkerType → Option (Database × WorkerType)
  | .refund totalBurned =>
    (db.modifyCore fun c => { c with currentSupply := c.currentSupply - pay }).map
      (·, .refund (totalBurned + pay))
  | .vestingBalance id =>
    (db.vestingBalances.find id).bind fun v =>
      -- the sum of two assets throws unless they are the same
      if v.balance.assetId = 0 then
        some ({ db with
          vestingBalances := db.vestingBalances.modify id (·.deposit db.headBlockTime pay) },
          .vestingBalance id)
      else none
  | .burn totalBurned =>
    (db.adjustBalance grapheneNullAccount (.core pay)).map (·, .burn (totalBurned + pay))

/-- The loop of `database::pay_workers`, which gives what is left of the budget; and the pays. -/
def payWorkers (passed : Nat) : List (Nat × Worker) → Int → Database → Table Worker →
    Option (Database × Table Worker × Int × List (WorkerType × Int))
  | [], budget, db, workers => some (db, workers, budget, [])
  | (id, w) :: l, budget, db, workers =>
    if 0 < budget then
      (w.requestedPay passed).bind fun requested =>
        let pay := min budget requested
        (db.payWorker pay w.worker).bind fun (db, worker) =>
          (payWorkers passed l (budget - pay) db
            (workers.modify id fun w => { w with worker := worker })).map
            fun (db, workers, budget, pays) => (db, workers, budget, (w.worker, pay) :: pays)
    else some (db, workers, budget, [])

namespace Treasury

/-- `GRAPHENE_CORE_ASSET_CYCLE_RATE` -/
def grapheneCoreAssetCycleRate : Int := 17

/-- The workers that `database::pay_workers` pays, in its order. -/
def activeWorkers (st : Treasury) : List (Nat × Worker) :=
  (st.workers.inOrder.filter fun e => e.2.isActive st.db.headBlockTime ∧
    0 < e.2.approvingStake).insertionSort
    fun a b => b.2.approvingStake < a.2.approvingStake ∨ a.2.approvingStake = b.2.approvingStake ∧
      a.1 ≤ b.1

/-- The seconds since the last budget. -/
def passed (st : Treasury) : Nat := st.db.headBlockTime - st.lastBudgetTime

/-- The reserve, with the fees and with what is left of the last budget. -/
def reserve (st : Treasury) (core : AssetObject) : Int :=
  core.maxSupply - core.currentSupply + core.accumulatedFees + st.witnessBudget

/-- `database::initialize_budget_record` -/
def initializeBudgetRecord (st : Treasury) (core : AssetObject) : BudgetRecord :=
  let record : BudgetRecord :=
    { fromInitialReserve := core.maxSupply - core.currentSupply
      fromAccumulatedFees := core.accumulatedFees
      fromUnusedWitnessBudget := st.witnessBudget }
  if st.lastBudgetTime = 0 ∨ st.db.headBlockTime ≤ st.lastBudgetTime then record
  else
    let budget := (st.reserve core * st.passed * grapheneCoreAssetCycleRate + (2 ^ 32 - 1)) / 2 ^ 32
    { record with
      timeSinceLastBudget := st.passed
      totalBudget := if budget < st.reserve core then budget else st.reserve core }

/-- The blocks up to the next maintenance. -/
def blocksToMaint (st : Treasury) : Nat :=
  (st.nextMaintenanceTime - st.db.headBlockTime + st.db.parameters.blockInterval - 1) /
    st.db.parameters.blockInterval

/-- What the witnesses are to get; the product of an `int64_t` and a `uint64_t` is
taken modulo `2 ^ 64`. -/
def requestedWitnessBudget (st : Treasury) : Int :=
  toInt64 (st.db.parameters.witnessPayPerBlock * st.blocksToMaint)

/-- What is set aside for the workers, out of what the witnesses leave. -/
def workerBudget (st : Treasury) (available : Int) : Int :=
  let budget : Nat := toUInt128 st.db.parameters.workerBudgetPerDay *
    (st.nextMaintenanceTime - st.db.headBlockTime) % 2 ^ 128 / secondsPerDay
  if available ≤ budget then available else budget

/-- `database::process_budget`, with the record that it creates and the pays of the workers. -/
def processBudget (st : Treasury) : Option (Treasury × BudgetRecord × List (WorkerType × Int)) :=
  (st.db.assets.find 0).bind fun core =>
    if st.db.headBlockTime < st.nextMaintenanceTime ∧ 0 < st.db.parameters.blockInterval then
      let record := st.initializeBudgetRecord core
      let witnessBudget := min st.requestedWitnessBudget record.totalBudget
      let workerBudget := st.workerBudget (record.totalBudget - witnessBudget)
      (payWorkers st.passed st.activeWorkers workerBudget st.db st.workers).bind
        fun (db, workers, leftover, pays) =>
          let supplyDelta := witnessBudget + workerBudget - leftover - record.fromAccumulatedFees -
            record.fromUnusedWitnessBudget
          (db.modifyCore fun c =>
            { c with currentSupply := c.currentSupply + supplyDelta, accumulatedFees := 0 }).map
              fun db =>
            ({ st with
                db := db
                workers := workers
                witnessBudget := witnessBudget
                lastBudgetTime := db.headBlockTime },
              { record with
                requestedWitnessBudget := st.requestedWitnessBudget
                witnessBudget := witnessBudget
                workerBudget := workerBudget
                leftoverWorkerFunds := leftover
                supplyDelta := supplyDelta },
              pays)
    else none

end Treasury

/-! ### Paying the workers -/

/-- The balance that a worker is paid to is one of the core asset. -/
def Database.PaidTo (db : Database) (w : WorkerType) : Prop :=
  ∀ id, w = .vestingBalance id → ∃ v, db.vestingBalances.find id = some v ∧ v.balance.assetId = 0

/-- The sum of all pays. -/
def totalPay (pays : List (WorkerType × Int)) : Int := (pays.map Prod.snd).sum

/-- The part of them that goes back to the reserve. -/
def totalRefunded (pays : List (WorkerType × Int)) : Int := (pays.map fun p => p.1.refunded p.2).sum

theorem totalRefunded_mem {pays : List (WorkerType × Int)} (h : ∀ p ∈ pays, 0 ≤ p.2) :
    0 ≤ totalRefunded pays ∧ totalRefunded pays ≤ totalPay pays := by
  have hmem : ∀ p ∈ pays, 0 ≤ p.1.refunded p.2 ∧ p.1.refunded p.2 ≤ p.2 := by
    rintro ⟨w, pay⟩ hp
    have hpay : 0 ≤ pay := h _ hp
    cases w <;> simp [WorkerType.refunded, hpay]
  refine ⟨sum_nonneg fun x hx => ?_, List.sum_le_sum fun p hp => (hmem p hp).2⟩
  obtain ⟨p, hp, rfl⟩ := List.mem_map.1 hx
  exact (hmem p hp).1

section

variable {db db' : Database} {w w' : WorkerType} {pay : Int}

/-- Where a pay goes: it is somewhere afterwards, or it is taken off the supply. -/
theorem Database.payWorker_eq_some {core : AssetObject} (hcore : db.assets.find 0 = some core)
    (h : db.payWorker pay w = some (db', w')) : db'.imbalance = db.imbalance + pay ∧
      db'.assets.find 0 = some { core with currentSupply := core.currentSupply - w.refunded pay } ∧
      ∀ w, db.PaidTo w → db'.PaidTo w := by
  cases w with
  | refund total =>
    obtain ⟨db1, h1, hpair⟩ := map_eq_some_iff.1 h
    cases hpair
    refine ⟨?_, ?_, ?_⟩
    · rw [imbalance_modifyCore hcore h1]
      ring
    · obtain ⟨c, -, rfl⟩ := modifyCore_eq_some h1
      rw [find_modify_self, hcore]
      rfl
    · obtain ⟨c, -, rfl⟩ := modifyCore_eq_some h1
      exact fun _ hw => hw
  | vestingBalance id =>
    obtain ⟨v, hv, h⟩ := bind_eq_some_iff.1 h
    obtain ⟨hasset, h⟩ := ite_none_right_eq_some.1 h
    cases h
    refine ⟨?_, hcore.trans (by rw [show WorkerType.refunded pay _ = 0 from rfl, sub_zero]), ?_⟩
    · have hsum := sumBy_modify (fun _ (v : VestingBalance) => v.balance.coreAmount)
        (·.deposit db.headBlockTime pay) hv
      have hrow :
          (v.deposit db.headBlockTime pay).balance.coreAmount = v.balance.coreAmount + pay := by
        simp [VestingBalance.balance_deposit, Asset.coreAmount, hasset]
      simp only [imbalance, holdings, vesting, held, escrow, pools, supply, minted, hsum]
      omega
    · rintro w hw i rfl
      obtain ⟨v', hv', hasset'⟩ := hw i rfl
      rw [find_modify]
      split
      · next hi =>
        refine ⟨_, by rw [← hi, hv']; rfl, ?_⟩
        rw [VestingBalance.balance_deposit]
        exact hasset'
      · exact ⟨v', hv', hasset'⟩
  | burn total =>
    obtain ⟨db1, h1, hpair⟩ := map_eq_some_iff.1 h
    cases hpair
    refine ⟨imbalance_adjustBalance h1, ?_, ?_⟩
    · obtain ⟨m, -, rfl⟩ := adjustBalance_eq_some h1
      exact hcore.trans (by rw [show WorkerType.refunded pay _ = 0 from rfl, sub_zero])
    · obtain ⟨m, -, rfl⟩ := adjustBalance_eq_some h1
      exact fun _ hw => hw

theorem Database.payWorker_isSome {core : AssetObject} (hcore : db.assets.find 0 = some core)
    (hw : db.PaidTo w) (hpay : 0 ≤ pay) : ∃ r, db.payWorker pay w = some r := by
  cases w with
  | refund total => simp [payWorker, modifyCore, hcore]
  | vestingBalance id =>
    obtain ⟨v, hv, hasset⟩ := hw id rfl
    simp [payWorker, hv, hasset]
  | burn total =>
    obtain ⟨m, hm⟩ := Balances.adjust_isSome (m := db.balances) (a := grapheneNullAccount)
      (d := .core pay) hpay
    simp [payWorker, adjustBalance, hm]

end

section

variable {passed : Nat} {l : List (Nat × Worker)} {budget left : Int} {db db' : Database}
  {workers workers' : Table Worker} {pays : List (WorkerType × Int)} {core : AssetObject}

/-- **What the loop does**: the pays come out of the budget, which they do not exceed, and each goes
where the worker has it go. -/
theorem payWorkers_spec (hcore : db.assets.find 0 = some core) (hbudget : 0 ≤ budget)
    (h : payWorkers passed l budget db workers = some (db', workers', left, pays)) :
    left = budget - totalPay pays ∧ 0 ≤ left ∧ db'.imbalance = db.imbalance + totalPay pays ∧
      db'.assets.find 0 =
        some { core with currentSupply := core.currentSupply - totalRefunded pays } := by
  induction l generalizing budget db workers core pays with
  | nil =>
    cases h
    simp [totalPay, totalRefunded, hbudget, hcore]
  | cons e l ih =>
    rw [payWorkers] at h
    split at h
    · obtain ⟨requested, -, h⟩ := bind_eq_some_iff.1 h
      obtain ⟨⟨db1, w1⟩, h1, h⟩ := bind_eq_some_iff.1 h
      obtain ⟨⟨db2, workers2, left2, pays2⟩, h2, hr⟩ := map_eq_some_iff.1 h
      cases hr
      obtain ⟨himb, hcore1, -⟩ := payWorker_eq_some hcore h1
      obtain ⟨hleft, hnonneg, himb2, hcore2⟩ := ih hcore1 (sub_nonneg.2 (min_le_left ..)) h2
      simp only [totalPay, totalRefunded, map_cons, sum_cons] at hleft himb2 hcore2 ⊢
      refine ⟨by omega, hnonneg, by omega, ?_⟩
      rw [hcore2, sub_sub]
    · cases h
      simp [totalPay, totalRefunded, hbudget, hcore]

/-- The workers whose turn comes before the budget is used up are to get less than `2 ^ 63`. -/
def Affordable (passed : Nat) (l : List (Nat × Worker)) (budget : Int) : Prop :=
  ∀ l₁ e l₂, l = l₁ ++ e :: l₂ → (l₁.map fun e => (e.2.earned passed : Int)).sum < budget →
    e.2.earned passed < 2 ^ 63

theorem affordable_of_nonpos (h : budget ≤ 0) : Affordable passed l budget := by
  intro l1 e l2 _ hlt
  have hsum : 0 ≤ (l1.map fun e => (e.2.earned passed : Int)).sum := by
    refine sum_nonneg fun x hx => ?_
    obtain ⟨e, -, rfl⟩ := List.mem_map.1 hx
    exact Int.natCast_nonneg _
  omega

theorem affordable_cons {e : Nat × Worker} : Affordable passed (e :: l) budget ↔
    (0 < budget → e.2.earned passed < 2 ^ 63) ∧
    Affordable passed l (budget - e.2.earned passed) := by
  constructor
  · intro h
    refine ⟨fun hpos => h [] e l rfl hpos, fun l1 e' l2 hl hlt => h (e :: l1) e' l2 ?_ ?_⟩
    · rw [hl, cons_append]
    · rw [map_cons, sum_cons]
      omega
  · rintro ⟨hhead, htail⟩ l1 e' l2 hl hlt
    cases l1 with
    | nil =>
      cases hl
      exact hhead hlt
    | cons e1 l1 =>
      cases hl
      rw [map_cons, sum_cons] at hlt
      exact htail l1 e' l2 rfl (by omega)

/-- For 25 years the daily pays that are accepted stay in the range. -/
theorem affordable_of_passed_le (h : passed ≤ 9223 * secondsPerDay) :
    Affordable passed l budget := by
  intro l1 e l2 _ _
  have hday : 0 < secondsPerDay := by decide
  calc e.2.earned passed = e.2.dailyPay * passed / secondsPerDay := by
        rw [Worker.earned, ← mul_assoc, Nat.mul_div_mul_right _ _ (by decide)]
    _ ≤ grapheneMaxShareSupply * (9223 * secondsPerDay) / secondsPerDay :=
      Nat.div_le_div_right (Nat.mul_le_mul e.2.dailyPay_lt.le h)
    _ = grapheneMaxShareSupply * 9223 := by rw [← mul_assoc, Nat.mul_div_cancel _ hday]
    _ < 2 ^ 63 := by decide

theorem affordable_sub_min {r : Int} :
    Affordable passed l (budget - min budget r) ↔ Affordable passed l (budget - r) := by
  rcases le_total budget r with hle | hle
  · exact iff_of_true (affordable_of_nonpos (by omega)) (affordable_of_nonpos (by omega))
  · rw [min_eq_right hle]

/-- **When the loop goes through**, with pays that are not negative. -/
theorem payWorkers_iff (passed : Nat) (budget : Int) (workers : Table Worker)
    (hcore : db.assets.find 0 = some core) (hpaid : ∀ e ∈ l, db.PaidTo e.2.worker) :
    (∃ db' workers' left pays, payWorkers passed l budget db workers = some (db', workers',
      left, pays) ∧ ∀ p ∈ pays, 0 ≤ p.2) ↔ Affordable passed l budget := by
  induction l generalizing budget db workers core with
  | nil => exact ⟨fun _ l1 e l2 hl => by simp at hl, fun _ => ⟨_, _, _, _, rfl, by simp⟩⟩
  | cons e l ih =>
    obtain ⟨id, w⟩ := e
    by_cases hpos : 0 < budget
    · rw [affordable_cons, payWorkers, if_pos hpos, Worker.requestedPay]
      constructor
      · rintro ⟨db', workers', left, pays, h, hnonneg⟩
        obtain ⟨requested, hreq, h⟩ := bind_eq_some_iff.1 h
        obtain ⟨⟨db1, w1⟩, h1, h⟩ := bind_eq_some_iff.1 h
        obtain ⟨⟨db2, workers2, left2, pays2⟩, h2, hr⟩ := map_eq_some_iff.1 h
        cases hr
        -- a pay that wraps is negative
        have hpay : 0 ≤ min budget requested := hnonneg _ mem_cons_self
        obtain ⟨hlt, rfl⟩ : w.earned passed < 2 ^ 63 ∧ requested = w.earned passed := by
          split at hreq
          · have hreq := some.inj hreq
            unfold toInt64 at hreq
            omega
          · cases hreq
        obtain ⟨-, hcore1, hpaid1⟩ := payWorker_eq_some hcore h1
        refine ⟨fun _ => hlt, affordable_sub_min.1 ((ih _ _ hcore1 fun e he => ?_).1
          ⟨_, _, _, _, h2, fun p hp => hnonneg p (mem_cons_of_mem _ hp)⟩)⟩
        exact hpaid1 _ (hpaid e (mem_cons_of_mem _ he))
      · rintro ⟨hlt, htail⟩
        have hlt : w.earned passed < 2 ^ 63 := hlt hpos
        have hpay : 0 ≤ min budget (w.earned passed : Int) := le_min hpos.le (Int.natCast_nonneg _)
        obtain ⟨⟨db1, w1⟩, h1⟩ :=
          payWorker_isSome (w := w.worker) hcore (hpaid _ mem_cons_self) hpay
        obtain ⟨-, hcore1, hpaid1⟩ := payWorker_eq_some hcore h1
        obtain ⟨db2, workers2, left2, pays2, h2, hnonneg⟩ := (ih _ _ hcore1 fun e he =>
          hpaid1 _ (hpaid e (mem_cons_of_mem _ he))).2 (affordable_sub_min.2 htail)
        rw [if_pos (by omega), bind_some, toInt64_of_lt hlt]
        dsimp only
        rw [h1, bind_some, h2]
        exact ⟨_, _, _, _, rfl, forall_mem_cons.2 ⟨hpay, hnonneg⟩⟩
    · rw [payWorkers, if_neg hpos]
      exact iff_of_true ⟨_, _, _, _, rfl, by simp⟩ (affordable_of_nonpos (not_lt.1 hpos))

end

/-! ### The budget -/

namespace Treasury

variable {st : Treasury} {core : AssetObject}

/-- The books before: the supply counts all of the core asset, so also the fees and what is left of
the last budget, and the workers have the balances that were made for them. -/
structure Books (st : Treasury) (core : AssetObject) : Prop where
  core_eq : st.db.assets.find 0 = some core
  supply_le : core.currentSupply ≤ core.maxSupply
  fees_nonneg : 0 ≤ core.accumulatedFees
  budget_nonneg : 0 ≤ st.witnessBudget
  counted : core.accumulatedFees + st.witnessBudget ≤ core.currentSupply
  workers : ∀ id w, st.workers.find id = some w → st.db.PaidTo w.worker

/-- Nothing is overspent, and the supply follows what is spent. -/
structure Spends (st st' : Treasury) (core core' : AssetObject) (record : BudgetRecord)
    (pays : List (WorkerType × Int)) : Prop where
  budget_nonneg : 0 ≤ st'.witnessBudget
  pays_nonneg : ∀ p ∈ pays, 0 ≤ p.2
  pay_le : totalPay pays ≤ record.workerBudget
  spent_le : st'.witnessBudget + totalPay pays ≤ record.totalBudget
  total_le : record.totalBudget ≤ st.reserve core
  supply_nonneg : 0 ≤ core'.currentSupply
  supply_le : core'.currentSupply ≤ core'.maxSupply
  supply_eq : core'.currentSupply = core.currentSupply +
    (st'.witnessBudget + (totalPay pays - totalRefunded pays)) -
    (core.accumulatedFees + st.witnessBudget)
  /-- the core asset that is anywhere, the budget of the witnesses with it -/
  held_eq : st'.db.imbalance + st'.witnessBudget = st.db.imbalance + st.witnessBudget

/-- The part of the reserve that may be spent on workers. -/
def workerFunds (st : Treasury) (core : AssetObject) : Int :=
  let total := (st.initializeBudgetRecord core).totalBudget
  st.workerBudget (total - min st.requestedWitnessBudget total)

/-- The products that are converted to `int64_t` fit, and the assertions at the beginning hold. -/
structure Fits (st : Treasury) (core : AssetObject) : Prop where
  maintenance : st.db.headBlockTime < st.nextMaintenanceTime
  interval : 0 < st.db.parameters.blockInterval
  witnesses : st.db.parameters.witnessPayPerBlock * st.blocksToMaint % 2 ^ 64 < 2 ^ 63
  workers : Affordable st.passed st.activeWorkers (st.workerFunds core)

theorem reserve_nonneg (h : st.Books core) : 0 ≤ st.reserve core := by
  have hsupply := h.supply_le
  have hfees := h.fees_nonneg
  have hbudget := h.budget_nonneg
  unfold reserve
  omega

theorem totalBudget_mem (h : 0 ≤ st.reserve core) :
    0 ≤ (st.initializeBudgetRecord core).totalBudget ∧
      (st.initializeBudgetRecord core).totalBudget ≤ st.reserve core := by
  unfold initializeBudgetRecord
  split
  · exact ⟨le_rfl, h⟩
  · have hprod : 0 ≤ st.reserve core * st.passed * grapheneCoreAssetCycleRate :=
      mul_nonneg (mul_nonneg h (Int.natCast_nonneg _)) (by decide)
    dsimp only
    split <;> omega

theorem workerBudget_mem (st : Treasury) {available : Int} (h : 0 ≤ available) :
    0 ≤ st.workerBudget available ∧ st.workerBudget available ≤ available := by
  unfold workerBudget
  dsimp only
  split
  · exact ⟨h, le_rfl⟩
  · next hle => exact ⟨Int.natCast_nonneg _, (not_le.1 hle).le⟩

theorem requestedWitnessBudget_nonneg : 0 ≤ st.requestedWitnessBudget ↔
    st.db.parameters.witnessPayPerBlock * st.blocksToMaint % 2 ^ 64 < 2 ^ 63 := by
  unfold requestedWitnessBudget toInt64
  omega

theorem fromRecord (st : Treasury) (core : AssetObject) :
    (st.initializeBudgetRecord core).fromAccumulatedFees = core.accumulatedFees ∧
      (st.initializeBudgetRecord core).fromUnusedWitnessBudget = st.witnessBudget := by
  unfold initializeBudgetRecord
  split <;> exact ⟨rfl, rfl⟩

theorem mem_activeWorkers {e : Nat × Worker} (he : e ∈ st.activeWorkers) :
    st.workers.find e.1 = some e.2 :=
  mem_inOrder.1 (mem_of_mem_filter ((mem_insertionSort _).1 he))

/-- **The budget does not overspend**: `process_budget` goes through, without a negative budget or
pay, within the funds that there are and with the supply at what is held, exactly when the products
that it converts to `int64_t` fit: the pay of the witnesses up to the next maintenance, and the pays
of those workers whose turn comes before the funds are used up. -/
theorem budget_never_overspends (h : st.Books core) :
    (∃ st' core' record pays, st.processBudget = some (st', record, pays) ∧
      st'.db.assets.find 0 = some core' ∧ st.Spends st' core core' record pays) ↔ st.Fits core := by
  obtain ⟨htotal0, htotal⟩ := totalBudget_mem (reserve_nonneg h)
  have hpaid : ∀ e ∈ st.activeWorkers, st.db.PaidTo e.2.worker :=
    fun e he => h.workers e.1 e.2 (mem_activeWorkers he)
  obtain ⟨hfees, hunused⟩ := st.fromRecord core
  have hiff := payWorkers_iff st.passed (st.workerFunds core) st.workers h.core_eq hpaid
  rw [processBudget, h.core_eq, bind_some]
  constructor
  · rintro ⟨st', core', record, pays, hrun, -, hspends⟩
    obtain ⟨hassert, hrun⟩ := ite_none_right_eq_some.1 hrun
    obtain ⟨⟨db1, workers1, left, pays1⟩, h1, hrun⟩ := bind_eq_some_iff.1 hrun
    obtain ⟨db2, h2, hr⟩ := map_eq_some_iff.1 hrun
    cases hr
    have hnonneg : 0 ≤ min st.requestedWitnessBudget _ := hspends.budget_nonneg
    exact ⟨hassert.1, hassert.2, requestedWitnessBudget_nonneg.1 (le_min_iff.1 hnonneg).1,
      hiff.1 ⟨_, _, _, _, h1, hspends.pays_nonneg⟩⟩
  · intro hfits
    have hwitness := le_min (requestedWitnessBudget_nonneg.2 hfits.witnesses) htotal0
    have hwitness' :=
      min_le_right st.requestedWitnessBudget (st.initializeBudgetRecord core).totalBudget
    obtain ⟨hfunds0, hfunds⟩ := workerBudget_mem st (sub_nonneg.2 hwitness')
    obtain ⟨db1, workers1, left, pays, h1, hnonneg⟩ := hiff.2 hfits.workers
    obtain ⟨hleft, hleft0, himb, hcore1⟩ := payWorkers_spec h.core_eq hfunds0 h1
    obtain ⟨hrefunded0, hrefunded⟩ := totalRefunded_mem hnonneg
    have hcounted := h.counted
    have hmodify : ∀ f, db1.modifyCore f = some { db1 with assets := db1.assets.modify 0 f } := by
      intro f
      rw [modifyCore, hcore1]
      rfl
    dsimp only [workerFunds] at h1 hleft ⊢
    rw [if_pos ⟨hfits.maintenance, hfits.interval⟩, h1, bind_some]
    rw [hmodify, map_some]
    refine ⟨_, _, _, _, rfl, by rw [find_modify_self, hcore1]; rfl, ?_⟩
    refine ⟨hwitness, hnonneg, ?_, ?_, htotal, ?_, ?_, ?_, ?_⟩ <;> dsimp only
    case mpr.refine_6 =>
      rw [imbalance_modifyCore hcore1 (hmodify _)]
      dsimp only
      omega
    all_goals
      unfold reserve at htotal
      omega

/-- A treasury with one worker, some time after the last budget. -/
def burning (witnessPay : Int) (passed : Nat) : Treasury where
  db := { Database.start 1000000000 [] 0 with parameters := { witnessPayPerBlock := witnessPay } }
  workers := empty.create
    { workBeginDate := 0
      workEndDate := 2000000000
      dailyPay := 999999999999999
      worker := .burn 0
      totalVotesFor := 1
      dailyPay_pos := by decide
      dailyPay_lt := by decide }
  witnessBudget := 0
  lastBudgetTime := 1000000000 - passed
  nextMaintenanceTime := 1000003600

theorem budget_never_overspends_burning : ∃ core st' core' record pays,
    (burning 1000000 3600).processBudget = some (st', record, pays) ∧
      st'.db.assets.find 0 = some core' ∧
      (burning 1000000 3600).Spends st' core core' record pays := by
  refine ⟨_, (budget_never_overspends ⟨rfl, by decide, le_rfl, le_rfl, le_rfl, ?_⟩).2
    ⟨by decide, by decide, by decide, affordable_of_passed_le (by decide)⟩⟩
  intro id w hw i hi
  rw [burning, find_create, find_empty] at hw
  split at hw <;> cases hw
  cases hi

/-- A pay of the witnesses that is negative is accepted as a parameter, and a worker with a large
pay stops the maintenance after 9224 days. -/
theorem budget_negative : (burning (-1) 3600).processBudget.map (·.1.witnessBudget) = some (-720) ∧
    (burning 0 (9224 * secondsPerDay)).processBudget.isNone = true := by
  decide +kernel

end Treasury

end CrowdwizChain
