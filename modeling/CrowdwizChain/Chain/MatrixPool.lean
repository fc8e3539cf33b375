import CrowdwizChain.Chain.Matrix

/-!
# The pool of a matrix

Where the payments into a matrix go, in every run of the chain. A run interleaves room operations
with blocks, each of which ends with `proceed_matrix`, and with anything else the chain does, which
may change the whole database except the matrices and the number of the head block.

An operation sees the number of the block before, and a matrix that the block with its finish number
has closed still takes payments in the next block. Where all rooms are opened before that, what was
debited for a matrix is what it has paid as prizes, what it still has, and what went to the
accumulated fees when it was closed.
-/

namespace CrowdwizChain

open Transition Option Table Database

namespace Matrix

/-- What a matrix has: its amount, until it is closed. -/
def pool (m : Matrix) : Int := if m.status = 0 then m.amount else 0

/-- What `proceed_matrix` may do to a matrix: nothing to a closed one; an open one is extended, or
closed once its finish block is reached. The amount is left alone. -/
def Evolves (head : Nat) (m m' : Matrix) : Prop :=
  m'.amount = m.amount ∧
    (m' = m ∨ m.status = 0 ∧ (m'.status = 0 ∨ m'.status = 1 ∧ m'.finishBlockNumber ≤ head))

theorem Evolves.refl (head : Nat) (m : Matrix) : m.Evolves head m := ⟨rfl, .inl rfl⟩

theorem Evolves.trans {head : Nat} {m m' m'' : Matrix} (h : m.Evolves head m')
    (h' : m'.Evolves head m'') : m.Evolves head m'' := by
  refine ⟨h'.1.trans h.1, ?_⟩
  rcases h.2 with rfl | ⟨hzero, hm'⟩
  · exact h'.2
  · rcases h'.2 with rfl | ⟨-, hm''⟩
    · exact .inr ⟨hzero, hm'⟩
    · exact .inr ⟨hzero, hm''⟩

end Matrix

namespace Database

/-! ### The end of a block -/

/-- The accumulated fees of the core asset. -/
def coreFees (db : Database) : Int :=
  db.assets.sumBy fun id a => if id = 0 then a.accumulatedFees else 0

/-- What all matrices have. -/
def matrixPools (db : Database) : Int := db.matrices.sumBy fun _ m => m.pool

/-- **What `proceed_matrix` does**: matrices evolve, new ones are empty, and what is taken out of
the matrices is added to the accumulated fees. -/
structure MatrixSweep (db db' : Database) : Prop where
  rows : ∀ id m', db'.matrices.find id = some m' → ∃ m, m.Evolves db.headBlockNum m' ∧
    (db.matrices.find id = some m ∨ db.matrices.find id = none ∧ m.status = 0 ∧ m.amount = 0)
  kept : ∀ id, db'.matrices.find id = none → db.matrices.find id = none
  pools : db'.coreFees + db'.matrixPools = db.coreFees + db.matrixPools
  balances : db'.balances = db.balances
  head : db'.headBlockNum = db.headBlockNum

variable {db db' : Database} {m : Matrix} {id : Nat} {terms : MatrixTerms}

theorem MatrixSweep.refl (db : Database) : db.MatrixSweep db where
  rows _ m hm := ⟨m, .refl _ m, .inl hm⟩
  kept _ h := h
  pools := rfl
  balances := rfl
  head := rfl

theorem MatrixSweep.trans {db'' : Database} (h : db.MatrixSweep db') (h' : db'.MatrixSweep db'') :
    db.MatrixSweep db'' where
  rows id m'' hm'' := by
    obtain ⟨m', hevolves', hm' | ⟨hnone, hstatus, hamount⟩⟩ := h'.rows id m'' hm''
    · obtain ⟨m, hevolves, hm⟩ := h.rows id m' hm'
      exact ⟨m, hevolves.trans (h.head ▸ hevolves'), hm⟩
    · exact ⟨m', h.head ▸ hevolves', .inr ⟨h.kept id hnone, hstatus, hamount⟩⟩
  kept id hnone := h.kept id (h'.kept id hnone)
  pools := h'.pools.trans h.pools
  balances := h'.balances.trans h.balances
  head := h'.head.trans h.head

theorem matrixSweep_create (db : Database) (hstatus : m.status = 0) (hamount : m.amount = 0) :
    db.MatrixSweep { db with matrices := db.matrices.create m } where
  rows id m' hm' := by
    rw [find_create] at hm'
    split at hm'
    · next heq =>
      cases hm'
      subst heq
      exact ⟨m, .refl _ m, .inr ⟨find_nextId, hstatus, hamount⟩⟩
    · exact ⟨m', .refl _ m', .inl hm'⟩
  kept id hnone := by
    rw [find_create] at hnone
    split at hnone
    · cases hnone
    · exact hnone
  pools := by simp [coreFees, matrixPools, Matrix.pool, hamount]
  balances := rfl
  head := rfl

/-- One matrix is rewritten, and what it loses is added to the accumulated fees. -/
theorem matrixSweep_modify {f : Matrix → Matrix} {assets : Table AssetObject}
    (hm : db.matrices.find id = some m) (hf : m.Evolves db.headBlockNum (f m))
    (hassets : ({ db with assets } : Database).coreFees = db.coreFees + (m.pool - (f m).pool)) :
    db.MatrixSweep { db with assets, matrices := db.matrices.modify id f } where
  rows i m' hm' := by
    rcases find_modify_cases hm' hm with ⟨rfl, rfl⟩ | hm'
    · exact ⟨m, hf, .inl hm⟩
    · exact ⟨m', .refl _ m', .inl hm'⟩
  kept i hnone := by
    rw [find_modify, hm] at hnone
    split at hnone
    · cases hnone
    · exact hnone
  pools := by
    have hsum := sumBy_modify (fun _ m => Matrix.pool m) f hm
    change ({ db with assets } : Database).coreFees + sumBy _ _ = _
    rw [hassets, hsum, matrixPools]
    omega
  balances := rfl
  head := rfl

theorem matrixSweep_extendMatrix (terms : MatrixTerms) (hm : db.matrices.find id = some m)
    (hstatus : m.status = 0) : db.MatrixSweep (db.extendMatrix id terms) := by
  refine matrixSweep_modify hm ⟨rfl, .inr ⟨hstatus, .inl hstatus⟩⟩ ?_
  simp [coreFees, Matrix.pool, hstatus]

section

variable (hm : db.matrices.find id = some m)
  (hstatus : m.status = 0)
  (hfinish : m.finishBlockNumber ≤ db.headBlockNum)

include hm hstatus hfinish

theorem matrixSweep_closeMatrix (h : db.closeMatrix id m terms = some db') :
    db.MatrixSweep db' := by
  obtain ⟨db1, h1, rfl⟩ := map_eq_some_iff.1 h
  obtain ⟨c, hc, rfl⟩ := modifyCore_eq_some h1
  have hclosed : db.MatrixSweep { db with
      assets :=
        db.assets.modify 0 fun c => { c with accumulatedFees := c.accumulatedFees + m.amount }
      matrices := db.matrices.modify id fun m => { m with status := 1 } } := by
    refine matrixSweep_modify hm ⟨rfl, .inr ⟨hstatus, .inr ⟨rfl, hfinish⟩⟩⟩ ?_
    have hsum := sumBy_modify (fun id (a : AssetObject) => if id = 0 then a.accumulatedFees else 0)
      (fun c => { c with accumulatedFees := c.accumulatedFees + m.amount }) hc
    simp only [coreFees, hsum, Matrix.pool, hstatus, if_true]
    omega
  exact hclosed.trans (matrixSweep_create _ rfl rfl)

theorem matrixSweep_matrixRound {r : Database × MatrixTerms}
    (h : db.matrixRound id m terms = some r) : db.MatrixSweep r.1 := by
  obtain ⟨-, h⟩ := ite_none_left_eq_some.1 h
  split at h
  · cases h
    exact matrixSweep_extendMatrix terms hm hstatus
  · obtain ⟨db1, h1, rfl⟩ := map_eq_some_iff.1 h
    exact matrixSweep_closeMatrix hm hstatus hfinish h1

end

theorem matrixSweep_proceedMatrixLoop {n : Nat} (h : proceedMatrixLoop n db terms = some db') :
    db.MatrixSweep db' := by
  induction n generalizing db terms with
  | zero => cases h
  | succ n ih =>
    rw [proceedMatrixLoop] at h
    split at h
    · obtain rfl := some.inj h
      exact .refl db
    · next id m hlast =>
      split at h
      · next hcond =>
        obtain ⟨r, hr, h⟩ := bind_eq_some_iff.1 h
        have hm : db.matrices.find id = some m := find_of_lastBy hlast
        exact (matrixSweep_matrixRound hm hcond.2 hcond.1 hr).trans (ih h)
      · obtain rfl := some.inj h
        exact .refl db

theorem matrixSweep_proceedMatrix {rounds : Nat} (h : db.proceedMatrix rounds = some db') :
    db.MatrixSweep db' := by
  obtain ⟨db1, h1, rfl⟩ := map_eq_some_iff.1 h
  have hloop := matrixSweep_proceedMatrixLoop h1
  split
  · exact hloop.trans (matrixSweep_create db1 rfl rfl)
  · exact hloop

end Database

/-! ### Runs -/

/-- What can happen on the chain, as far as matrices go. -/
inductive MatrixAction
  | openRoom (op : MatrixOpenRoomOperation)
  /-- a block of the given time: the head moves on and `proceed_matrix` runs -/
  | block (time rounds : Nat)
  /-- anything else: every part of the database may change but the matrices and the head -/
  | other (e : Database)

/-- The database, with what each matrix took, and where it went. -/
structure MatrixSystem where
  db : Database
  /-- what players were debited -/
  debited : Nat → Int
  /-- what was paid out as prizes -/
  prizes : Nat → Int
  /-- what was left when the matrix was closed -/
  fees : Nat → Int

namespace MatrixSystem

/-- What an action does to the database. -/
def dbStep (db : Database) : MatrixAction → Option Database
  | .openRoom op => db.matrixOpenRoom op
  | .block time rounds =>
    if db.headBlockTime < time then
      { db with headBlockNum := db.headBlockNum + 1, headBlockTime := time }.proceedMatrix rounds
    else none
  | .other e => some { e with
      matrices := db.matrices, headBlockNum := db.headBlockNum, headBlockTime := db.headBlockTime }

/-- What a matrix had when a step closed it. -/
def closedAmount (db db' : Database) (id : Nat) : Int :=
  match db.matrices.find id, db'.matrices.find id with
  | some m, some m' => if m.status = 0 ∧ m'.status ≠ 0 then m.amount else 0
  | _, _ => 0

/-- One action, with the notes kept. -/
def step (s : MatrixSystem) (a : MatrixAction) : Option MatrixSystem :=
  (dbStep s.db a).map fun db =>
    match a with
    | .openRoom op =>
      { s with
        db
        debited := fun id =>
          if id = op.matrixId then s.debited id + op.levelPrice.amount else s.debited id
        prizes := fun id =>
          if id = op.matrixId then s.prizes id + (db.levelRewards - s.db.levelRewards)
          else s.prizes id }
    | .block _ _ => { s with db, fees := fun id => s.fees id + closedAmount s.db db id }
    | .other _ => { s with db }

/-- A chain whose matrices are open and empty, if it has any. -/
def Initial (s : MatrixSystem) : Prop :=
  (∀ id m, s.db.matrices.find id = some m → m.status = 0 ∧ m.amount = 0) ∧
    ∀ id, s.debited id = 0 ∧ s.prizes id = 0 ∧ s.fees id = 0

/-- A room is opened while the head is before the finish block of the matrix. -/
def BeforeFinish (s : MatrixSystem) : MatrixAction → Prop
  | .openRoom op => ∀ m, s.db.matrices.find op.matrixId = some m →
      s.db.headBlockNum < m.finishBlockNumber
  | _ => True

instance (s : MatrixSystem) : (a : MatrixAction) → Decidable (s.BeforeFinish a)
  | .openRoom op => inferInstanceAs (Decidable (∀ m ∈ s.db.matrices.find op.matrixId, _))
  | .block _ _ => .isTrue trivial
  | .other _ => .isTrue trivial

/-- What the notes say, in every state that is reached. -/
structure Inv (s : MatrixSystem) : Prop where
  books : ∀ id m, s.db.matrices.find id = some m → s.debited id = s.prizes id + m.pool + s.fees id
  /-- a closed matrix is past its finish block -/
  closed : ∀ id m, s.db.matrices.find id = some m → m.status ≠ 0 →
    m.finishBlockNumber ≤ s.db.headBlockNum
  fresh : ∀ id, s.db.matrices.find id = none → s.debited id = 0 ∧ s.prizes id = 0 ∧ s.fees id = 0

variable {s s' : MatrixSystem} {m : Matrix}

theorem Initial.inv (h : s.Initial) : s.Inv where
  books id m hm := by
    obtain ⟨hd, hp, hf⟩ := h.2 id
    simp [hd, hp, hf, Matrix.pool, (h.1 id m hm).2]
  closed id m hm hclosed := absurd (h.1 id m hm).1 hclosed
  fresh id _ := h.2 id

/-! ### One step -/

/-- A room that is opened in time is opened in a matrix that is not closed. -/
theorem Inv.status_eq_zero (h : s.Inv) {op : MatrixOpenRoomOperation}
    (hbefore : s.BeforeFinish (.openRoom op)) (hm : s.db.matrices.find op.matrixId = some m) :
    m.status = 0 := by
  by_contra hclosed
  have hlt := hbefore m hm
  have hle := h.closed op.matrixId m hm hclosed
  omega

/-- What is debited for a room is in the pool, or it is a prize or a fee. -/
theorem Inv.openRoom {op : MatrixOpenRoomOperation} (h : s.Inv)
    (hbefore : s.BeforeFinish (.openRoom op)) (hs : s.step (.openRoom op) = some s') : s'.Inv := by
  obtain ⟨db, hdb, rfl⟩ := map_eq_some_iff.1 hs
  obtain ⟨m, level, winner, hroom⟩ := matrixOpenRoom_eq_some hdb
  have hstatus := h.status_eq_zero hbefore hroom.find
  have hamount : op.levelPrice.amount = level.price := by rw [hroom.atPrice]; rfl
  constructor
  · intro id m' hm'
    rw [hroom.matrices] at hm'
    by_cases hid : id = op.matrixId
    · subst hid
      rw [if_pos rfl] at hm'
      cases hm'
      have hbooks := h.books op.matrixId m hroom.find
      simp only [Matrix.pool, hstatus, Matrix.receive, if_true, hroom.rewards, hamount] at hbooks ⊢
      omega
    · rw [if_neg hid] at hm'
      simp only [hid, if_false]
      exact h.books id m' hm'
  · intro id m' hm' hclosed
    rw [hroom.matrices] at hm'
    rw [hroom.head]
    split at hm'
    · cases hm'
      exact absurd hstatus hclosed
    · exact h.closed id m' hm' hclosed
  · intro id hnone
    rw [hroom.matrices] at hnone
    by_cases hid : id = op.matrixId
    · rw [if_pos hid] at hnone
      cases hnone
    · rw [if_neg hid] at hnone
      simp only [hid, if_false]
      exact h.fresh id hnone

/-- What a block notes for a matrix is what it takes out of it. -/
theorem pool_add_closedAmount {db db' : Database} {id head : Nat} {m' : Matrix}
    (hm : db.matrices.find id = some m) (hm' : db'.matrices.find id = some m')
    (hevolves : m.Evolves head m') : m'.pool + closedAmount db db' id = m.pool := by
  simp only [closedAmount, hm, hm', Matrix.pool, hevolves.1]
  rcases hevolves.2 with rfl | ⟨hzero, hzero' | ⟨hone, -⟩⟩
  · by_cases hzero : m'.status = 0 <;> simp [hzero]
  · simp [hzero, hzero']
  · simp [hzero, hone]

theorem block_eq_some {time rounds : Nat} (hs : s.step (.block time rounds) = some s') :
    s' = { s with db := s'.db, fees := fun id => s.fees id + closedAmount s.db s'.db id } ∧
      { s.db with headBlockNum := s.db.headBlockNum + 1, headBlockTime := time }.MatrixSweep s'.db
      := by
  obtain ⟨db, hdb, rfl⟩ := map_eq_some_iff.1 hs
  simp only [dbStep] at hdb
  split at hdb
  · exact ⟨rfl, matrixSweep_proceedMatrix hdb⟩
  · cases hdb

/-- A block closes the matrices that are over, and the books still add up. -/
theorem Inv.block {time rounds : Nat} (h : s.Inv) (hs : s.step (.block time rounds) = some s') :
    s'.Inv := by
  obtain ⟨hs', hsweep⟩ := block_eq_some hs
  have hd : s'.debited = s.debited := by rw [hs']
  have hp : s'.prizes = s.prizes := by rw [hs']
  have hf : ∀ id, s'.fees id = s.fees id + closedAmount s.db s'.db id := by
    intro id
    exact congrFun (congrArg MatrixSystem.fees hs') id
  constructor
  · intro id m' hm'
    rw [hd, hp, hf]
    obtain ⟨m, hevolves, hm | ⟨hnone, hstatus, hamount⟩⟩ := hsweep.rows id m' hm'
    · have hbooks := h.books id m hm
      have hpool : m'.pool + closedAmount s.db s'.db id = m.pool :=
        pool_add_closedAmount hm hm' hevolves
      omega
    · obtain ⟨hzero1, hzero2, hzero3⟩ := h.fresh id hnone
      have hclosed : closedAmount s.db s'.db id = 0 := by
        have hnone' : s.db.matrices.find id = none := hnone
        simp only [closedAmount, hnone']
      have hpool : m'.pool = 0 := by
        rw [Matrix.pool, hevolves.1, hamount, ite_self]
      omega
  · intro id m' hm' hclosed
    rw [hsweep.head]
    obtain ⟨m, ⟨-, rfl | ⟨-, hzero | ⟨-, hfinish⟩⟩⟩, hm⟩ := hsweep.rows id m' hm'
    · rcases hm with hm | ⟨-, hstatus, -⟩
      · exact (h.closed id m' hm hclosed).trans (Nat.le_succ _)
      · exact absurd hstatus hclosed
    · exact absurd hzero hclosed
    · exact hfinish
  · intro id hnone
    rw [hd, hp, hf]
    have hnone0 : s.db.matrices.find id = none := hsweep.kept id hnone
    have hclosed : closedAmount s.db s'.db id = 0 := by simp only [closedAmount, hnone0]
    obtain ⟨hzero1, hzero2, hzero3⟩ := h.fresh id hnone0
    exact ⟨hzero1, hzero2, by omega⟩

/-- **Every step keeps the books of the matrices.** -/
theorem Inv.step {a : MatrixAction} (h : s.Inv) (hbefore : s.BeforeFinish a)
    (hs : s.step a = some s') : s'.Inv := by
  cases a with
  | openRoom op => exact h.openRoom hbefore hs
  | block time rounds => exact h.block hs
  | other e =>
    obtain ⟨db, hdb, rfl⟩ := map_eq_some_iff.1 hs
    cases hdb
    exact ⟨h.books, h.closed, h.fresh⟩

/-- A closed matrix stays as it is: nothing is paid into it or out of it. -/
theorem Inv.closed_unchanged {a : MatrixAction} (h : s.Inv) (hbefore : s.BeforeFinish a)
    (hs : s.step a = some s') {id : Nat} (hm : s.db.matrices.find id = some m)
    (hclosed : m.status ≠ 0) :
    s'.db.matrices.find id = some m ∧ s'.debited id = s.debited id ∧ s'.prizes id = s.prizes id ∧
      s'.fees id = s.fees id := by
  cases a with
  | openRoom op =>
    obtain ⟨db, hdb, rfl⟩ := map_eq_some_iff.1 hs
    obtain ⟨m', level, winner, hroom⟩ := matrixOpenRoom_eq_some hdb
    have hne : id ≠ op.matrixId := by
      rintro rfl
      exact hclosed (h.status_eq_zero hbefore hm)
    simp [hroom.matrices, hne, hm]
  | block time rounds =>
    obtain ⟨hs', hsweep⟩ := block_eq_some hs
    have hrow : s'.db.matrices.find id = some m := by
      rcases hm' : s'.db.matrices.find id with _ | m'
      · exact absurd (hm.symm.trans (hsweep.kept id hm')) (some_ne_none m)
      · obtain ⟨m0, ⟨-, hevolves⟩, hm0 | ⟨hnone, -⟩⟩ := hsweep.rows id m' hm'
        · cases hm.symm.trans hm0
          rcases hevolves with rfl | ⟨hzero, -⟩
          · rfl
          · exact absurd hzero hclosed
        · exact absurd (hm.symm.trans hnone) (some_ne_none m)
    have hnote : closedAmount s.db s'.db id = 0 := by simp [closedAmount, hm, hrow, hclosed]
    refine ⟨hrow, by rw [hs'], by rw [hs'], ?_⟩
    have hfees := congrFun (congrArg MatrixSystem.fees hs') id
    dsimp only at hfees
    omega
  | other e =>
    obtain ⟨db, hdb, rfl⟩ := map_eq_some_iff.1 hs
    cases hdb
    exact ⟨hm, rfl, rfl, rfl⟩

/-- **The pool of a matrix.** In a run in which every room is opened before the finish block of its
matrix, what was debited for a matrix is what was paid out as prizes, what an open matrix still has,
and what was left when it was closed. Every further room is paid for by its player, in a matrix that
is open, and the prize, if there is one, is of that matrix; a block adds to the accumulated fees of
the core asset what it takes out of the matrices; and nothing more happens to a closed matrix. -/
theorem matrix_pool_conserved {s s' : MatrixSystem} {acts : List MatrixAction} (h0 : s.Initial)
    (hbefore : Along step BeforeFinish s acts) (hrun : run step s acts = some s') :
    (∀ id m, s'.db.matrices.find id = some m →
      s'.debited id = s'.prizes id + (if m.status = 0 then m.amount else 0) + s'.fees id) ∧
    (∀ op s'', s'.BeforeFinish (.openRoom op) → s'.step (.openRoom op) = some s'' →
      ∃ m level winner, s'.db.OpensRoom op s''.db m level winner ∧ m.status = 0) ∧
    (∀ time rounds s'', s'.step (.block time rounds) = some s'' → s''.db.balances = s'.db.balances ∧
      s''.db.coreFees + s''.db.matrixPools = s'.db.coreFees + s'.db.matrixPools) ∧
    ∀ a s'', s'.BeforeFinish a → s'.step a = some s'' → ∀ id m,
      s'.db.matrices.find id = some m → m.status ≠ 0 →
      s''.db.matrices.find id = some m ∧ s''.debited id = s'.debited id ∧
        s''.prizes id = s'.prizes id ∧ s''.fees id = s'.fees id := by
  have h : s'.Inv := invariant_of_along (fun h ha hs => Inv.step h ha hs) h0.inv hbefore hrun
  refine ⟨h.books, ?_, ?_, fun a s'' ha hs id m hm hclosed => h.closed_unchanged ha hs hm hclosed⟩
  · intro op s'' hop hs
    obtain ⟨db, hdb, rfl⟩ := map_eq_some_iff.1 hs
    obtain ⟨m, level, winner, hroom⟩ := matrixOpenRoom_eq_some hdb
    exact ⟨m, level, winner, hroom, h.status_eq_zero hop hroom.find⟩
  · intro time rounds s'' hs
    obtain ⟨-, hsweep⟩ := block_eq_some hs
    exact ⟨hsweep.balances, hsweep.pools⟩

/-! ### Around the finish block -/

/-- A chain with a root account and three players, two of whom the first one has referred, that hold
ten thousand each, one block before the last of a matrix with rooms of two cells. -/
def threePlayers : MatrixSystem where
  db :=
    { start hardforkCwd6Time
        [{ referrer := 0 }, { referrer := 0 }, { referrer := 1 }, { referrer := 1 }] 10000 with
      headBlockNum := 9
      matrices := Table.empty.create
        { startBlockNumber := 1, finishBlockNumber := 10, levels := [⟨1000, 1800, 2⟩] } }
  debited := fun _ => 0
  prizes := fun _ => 0
  fees := fun _ => 0

theorem threePlayers_initial : threePlayers.Initial := by
  refine ⟨?_, fun _ => ⟨rfl, rfl, rfl⟩⟩
  rintro (_ | id) m hm
  · cases hm
    exact ⟨rfl, rfl⟩
  · cases hm

/-- A room of the first level. -/
def firstLevelRoom (player : AccountId) : MatrixAction :=
  .openRoom ⟨⟨1, 0⟩, 0, player, 1, ⟨1000, 0⟩⟩

/-- The last block of the matrix. -/
def finishBlock : MatrixAction := .block (hardforkCwd6Time + 5) 2

/-- Three rooms in time: the first player gets a prize, and the rest goes to the
accumulated fees. -/
theorem matrix_pool_conserved_three_rooms : ∃ s', run step threePlayers
        [firstLevelRoom 1, firstLevelRoom 2, firstLevelRoom 3, finishBlock] = some s' ∧
      s'.debited 0 = 3000 ∧ s'.prizes 0 = 1800 ∧ s'.fees 0 = 1200 ∧
        ∀ m, s'.db.matrices.find 0 = some m →
        s'.debited 0 = s'.prizes 0 + (if m.status = 0 then m.amount else 0) + s'.fees 0 := by
  refine ⟨_, (some_get (by decide +kernel)).symm, by decide +kernel, by decide +kernel,
    by decide +kernel, ?_⟩
  exact (matrix_pool_conserved threePlayers_initial (by decide +kernel)
    (some_get (by decide +kernel)).symm).1 0

/-- The block with the finish number closes the matrix, and a room is opened in the next block. The
payment is neither paid out, nor in an open matrix, nor in the accumulated fees. -/
theorem matrix_room_after_finish :
    ∃ s' m, run step threePlayers [finishBlock, firstLevelRoom 1] = some s' ∧
      s'.db.matrices.find 0 = some m ∧ m.status = 1 ∧ m.amount = 1000 ∧
      s'.debited 0 = 1000 ∧ s'.prizes 0 = 0 ∧ s'.fees 0 = 0 ∧ s'.db.coreFees = 0 := by
  refine ⟨_, _, (some_get (by decide +kernel)).symm, (some_get (by decide +kernel)).symm, ?_⟩
  decide +kernel

end MatrixSystem

end CrowdwizChain
