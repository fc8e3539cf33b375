import CrowdwizChain.Chain.Evaluator
import CrowdwizChain.Chain.Referral

/-!
# The matrix

`matrix_open_room_evaluator` of `gamezone_evaluator.cpp` and `database::proceed_matrix` of
`db_update.cpp`.

A player pays the price of a level into a matrix and gets a room with some cells. The payment takes
a cell in a room of somebody else, and a room whose cells are all taken is closed: its player gets
the prize of the level out of the matrix. At the end of a block `proceed_matrix` looks at the matrix
with the last finish block. Once that block is reached the matrix is extended, if it was busy lately
and the block is before `HARDFORK_CWD5_TIME`, or else closed: what is left in it is added to the
accumulated fees of the core asset, and the next matrix is created.

Block numbers are `uint32_t` and wrap. The loop of `proceed_matrix` gets a number of rounds, which a
block brings along; with too few of them the block is not applied.
-/

namespace CrowdwizChain

open Option Balances Transition

/-- `matrix_open_room_operation` -/
structure MatrixOpenRoomOperation where
  fee : Asset
  matrixId : Nat
  player : AccountId
  matrixLevel : Nat
  levelPrice : Asset

/-- `matrix_open_room_operation::validate` -/
def MatrixOpenRoomOperation.validate (op : MatrixOpenRoomOperation) : Bool :=
  0 ≤ op.fee.amount ∧ 0 ≤ op.levelPrice.amount ∧ 1 ≤ op.matrixLevel ∧ op.matrixLevel ≤ 8

/-- Price, prize and cells of a level; the levels count from one. -/
def Matrix.level (m : Matrix) (n : Nat) : Option MatrixLevel := m.levels[n - 1]?

/-- The given level, or that of the status of the account if it is higher, in a `uint8_t`. -/
def Account.matrixLevelFrom (a : Account) (level : Nat) : Nat :=
  if level < a.referralStatusType * 2 then a.referralStatusType * 2 % 256 else level

/-- A block number, in a `uint32_t`. -/
def blockNumber (n : Nat) : Nat := n % 2 ^ 32

/-- The difference of two block numbers, in a `uint32_t`. -/
def blockNumberSub (m n : Nat) : Nat := blockNumber (m + (2 ^ 32 - blockNumber n))

/-- The payment is entered into the matrix. -/
def Matrix.receive (m : Matrix) (headBlockNum : Nat) (price : Int) : Matrix :=
  { m with
    amount := m.amount + price
    totalAmount := m.totalAmount + price
    last120kAmount :=
      if blockNumberSub m.finishBlockNumber 120000 < headBlockNum then m.last120kAmount + price
      else m.last120kAmount }

namespace Database

/-! ### Opening a room: the checks -/

/-- The first room, in the order of the ids, with a property. -/
def findRoom (db : Database) (p : MatrixRoom → Bool) : Option (Nat × MatrixRoom) :=
  db.matrixRooms.inOrder.find? fun e => p e.2

/-- The player may open a room at this level. -/
def levelAllowed (op : MatrixOpenRoomOperation) (player : Account) (stats : AccountStatistics) :
    Bool :=
  let currentLevel := player.matrixLevelFrom stats.matrixActiveLevels
  if stats.matrix = op.matrixId ∧ 0 < stats.matrixRoomsOpened then op.matrixLevel ≤ currentLevel
  else op.matrixLevel ≤ currentLevel ∨ op.matrixLevel = 1

/-- The status that the open rooms of a player have. -/
def playerRoomStatus (op : MatrixOpenRoomOperation) (stats : AccountStatistics) : Nat :=
  if stats.matrix = op.matrixId ∧ 2 ≤ stats.matrixCellsOpened then 1 else 0

/-- The player has no open room at this level, and without a status no open room at all. -/
def noOpenRoom (db : Database) (op : MatrixOpenRoomOperation) (player : Account)
    (stats : AccountStatistics) : Bool :=
  (db.findRoom fun r => r.matrix = op.matrixId ∧ r.matrixPlayer = op.player ∧
      r.matrixLevel = op.matrixLevel ∧ r.status = playerRoomStatus op stats).isNone ∧
    (player.referralStatusType = 0 → (db.findRoom fun r => r.matrix = op.matrixId ∧
      r.matrixPlayer = op.player ∧ r.status = playerRoomStatus op stats).isNone)

/-- `matrix_open_room_evaluator::do_evaluate`. Whether the matrix is active is told by the number of
the head block, which is that of the block before. -/
def matrixOpenRoomEvaluate (op : MatrixOpenRoomOperation) (db : Database) : Bool :=
  (db.matrices.find op.matrixId).any fun m =>
    (db.accounts.find op.player).any fun player =>
      (db.statistics.lookup op.player).any fun stats =>
        m.startBlockNumber ≤ db.headBlockNum ∧ db.headBlockNum ≤ m.finishBlockNumber ∧
          levelAllowed op player stats ∧ db.noOpenRoom op player stats ∧
          op.levelPrice.assetId = 0 ∧
          (m.level op.matrixLevel).any (fun l => l.price = op.levelPrice.amount) ∧
          op.levelPrice.amount ≤ db.getBalance op.player 0

/-! ### Opening a room: the effect -/

/-- From this fork on, the rooms of later matrices are open from the start, and are filled in the
order of their ids. -/
def openRooms (db : Database) (op : MatrixOpenRoomOperation) : Bool :=
  hardforkCwd4Time ≤ db.headBlockTime ∧ 2 < op.matrixId

/-- The statistics of the player are reset with the first room in a matrix. -/
def enterMatrix (db : Database) (op : MatrixOpenRoomOperation) (player : Account) :
    Option Database :=
  (db.statistics.lookup op.player).bind fun stats =>
    if stats.matrix ≠ op.matrixId ∨ stats.matrixRoomsOpened = 0 then
      db.modifyStatistics op.player fun s =>
        { s with
          matrix := op.matrixId
          matrixActiveLevels := player.matrixLevelFrom 1
          matrixCellsOpened := if db.openRooms op then 2 else 0
          matrixRoomsOpened := 0 }
    else some db

/-- Another cell of an account is opened. -/
def openCell (db : Database) (a : AccountId) : Option Database :=
  db.modifyStatistics a fun s => { s with matrixCellsOpened := s.matrixCellsOpened + 1 }

/-- The closed rooms of an account are opened. -/
def openClosedRooms (db : Database) (matrixId : Nat) (a : AccountId) : Database :=
  let rooms := db.matrixRooms.inOrder.filter fun e =>
    e.2.matrix = matrixId ∧ e.2.matrixPlayer = a ∧ e.2.status = 0
  { db with
    matrixRooms := rooms.foldl (fun t e => t.modify e.1 fun r => { r with status := 1 })
      db.matrixRooms }

/-- The second cell of the referrer is opened, and its rooms with it. -/
def openSecondCell (db : Database) (matrixId : Nat) (ref : AccountId) : Option Database :=
  (db.statistics.lookup ref).bind fun s =>
    if s.matrix = matrixId ∧ s.matrixCellsOpened = 1 then
      (db.openCell ref).map fun db => db.openClosedRooms matrixId ref
    else some db

/-- The first cell of the referrer is opened. -/
def openFirstCell (db : Database) (matrixId : Nat) (ref : AccountId) : Option Database :=
  (db.statistics.lookup ref).bind fun s =>
    if s.matrix = matrixId ∧ 0 < s.matrixRoomsOpened ∧ s.matrixCellsOpened = 0 then db.openCell ref
    else some db

/-- The room in which the payment takes a cell: one of the referrer, before the fork, else the first
with open cells at this level. -/
def roomToFill (db : Database) (op : MatrixOpenRoomOperation) (ref : AccountId) :
    Option (Nat × MatrixRoom) :=
  let others := db.findRoom fun r =>
    r.matrix = op.matrixId ∧ r.matrixLevel = op.matrixLevel ∧ r.status = 1
  if db.openRooms op then others
  else
    let roomStatus :=
      if (db.statistics.lookup ref).any (fun s => 2 ≤ s.matrixCellsOpened) then 1 else 0
    (db.findRoom fun r => r.matrix = op.matrixId ∧ r.matrixPlayer = ref ∧
      r.matrixLevel = op.matrixLevel ∧ r.status = roomStatus) <|> others

/-- The next level is open for a player who has filled a room. -/
def raiseLevel (db : Database) (a : AccountId) (matrixLevel : Nat) : Option Database :=
  (db.accounts.find a).bind fun _ =>
    (db.statistics.lookup a).bind fun s =>
      if s.matrixActiveLevels < min (matrixLevel + 1) 8 then
        db.modifyStatistics a fun s => { s with matrixActiveLevels := min (matrixLevel + 1) 8 }
      else some db

/-- A full room: its player gets the prize, out of the matrix. -/
def closeRoom (db : Database) (op : MatrixOpenRoomOperation) (room : Nat) (player : AccountId)
    (prize : Int) : Option Database :=
  (db.adjustBalance player (.core prize)).bind fun db =>
    { db.log (.matrixRoomClosed player room op.matrixLevel prize) with
      matrices := db.matrices.modify op.matrixId fun m =>
        { m with amount := m.amount - prize } }.raiseLevel player op.matrixLevel

/-- The payment takes a cell of a room. -/
def fillRoom (db : Database) (op : MatrixOpenRoomOperation) (prize : Int) (e : Nat × MatrixRoom) :
    Option Database :=
  let cells := e.2.cells ++ [op.player]
  if e.2.totalCells ≤ cells.length then
    { db with
      matrixRooms := db.matrixRooms.modify e.1 fun r =>
        { r with cells, status := 2 } }.closeRoom op e.1 e.2.matrixPlayer prize
  else
    some { db with matrixRooms := db.matrixRooms.modify e.1 fun r => { r with cells } }

/-- The new room of the player. -/
def openRoom (db : Database) (op : MatrixOpenRoomOperation) (cells : Nat) : Option Database :=
  (db.statistics.lookup op.player).bind fun stats =>
    { db with
      matrixRooms := db.matrixRooms.create
        { matrix := op.matrixId
          matrixPlayer := op.player
          matrixLevel := op.matrixLevel
          totalCells := cells
          status := if 2 ≤ stats.matrixCellsOpened then 1 else 0 } }.modifyStatistics op.player
      fun s => { s with matrixRoomsOpened := (s.matrixRoomsOpened + 1) % 2 ^ 16 }

/-- `matrix_open_room_evaluator::do_apply` -/
def matrixOpenRoomApply (op : MatrixOpenRoomOperation) (db : Database) : Option Database :=
  (db.matrices.find op.matrixId).bind fun m =>
    (m.level op.matrixLevel).bind fun level =>
      (db.adjustBalance op.player (.core (-op.levelPrice.amount))).bind fun db =>
        (if hardforkCwd2Time ≤ db.headBlockTime then db.updatePv op.levelPrice.amount op.player
          else some db).bind fun db =>
          let db := { db with
            matrices := db.matrices.modify op.matrixId
              (·.receive db.headBlockNum op.levelPrice.amount) }
          (db.accounts.find op.player).bind fun player =>
            (db.accounts.find player.referrer).bind fun _ =>
              (db.enterMatrix op player).bind fun db =>
                (db.openSecondCell op.matrixId player.referrer).bind fun db =>
                  (db.openFirstCell op.matrixId player.referrer).bind fun db =>
                    (match db.roomToFill op player.referrer with
                      | some e => db.fillRoom op level.prize e
                      | none => some db).bind fun db =>
                      db.openRoom op level.cells

/-- The room operation. -/
def matrixOpenRoom (db : Database) (op : MatrixOpenRoomOperation) : Option Database :=
  if op.validate then
    db.applyOperation op.player op.fee (matrixOpenRoomEvaluate op) (matrixOpenRoomApply op)
  else none

/-! ### The end of a block -/

/-- The levels of the first matrix. -/
def firstMatrixLevels : List MatrixLevel :=
  [.ofCoins 45 90 2, .ofCoins 80 240 3, .ofCoins 218 872 4, .ofCoins 790 3160 4,
   .ofCoins 2870 8610 3, .ofCoins 7820 15640 2, .ofCoins 14200 28400 2, .ofCoins 25800 51600 2]

/-- The levels of the matrices after it. -/
def newMatrixLevels : List MatrixLevel :=
  [.ofCoins 45 90 2, .ofCoins 80 160 2, .ofCoins 145 290 2, .ofCoins 260 520 2,
   .ofCoins 460 920 2, .ofCoins 830 1660 2, .ofCoins 1500 3000 2, .ofCoins 2700 5400 2]

/-- The levels of a mini matrix. -/
def miniMatrixLevels : List MatrixLevel :=
  [.ofCoins 9 18 2, .ofCoins 16 32 2, .ofCoins 29 58 2, .ofCoins 52 104 2,
   .ofCoins 94 188 2, .ofCoins 170 340 2, .ofCoins 309 618 2, .ofCoins 555 1110 2]

/-- The block from which on there is a first matrix. -/
def matrixFirstStartBlock : Nat := 3491491

/-- How many blocks a matrix lasts, and how many blocks are between two matrices: two variables of
`proceed_matrix` that its loop rewrites. -/
structure MatrixTerms where
  lastsBlocks : Nat := 1000000
  idleBlocks : Nat := 120000

/-- The terms after a matrix was closed. -/
def nextTerms (db : Database) (id : Nat) (terms : MatrixTerms) : MatrixTerms :=
  let terms := if hardforkCwd4Time ≤ db.headBlockTime then { terms with lastsBlocks := 240000 }
    else terms
  let terms := if hardforkCwd5Time ≤ db.headBlockTime then
    { lastsBlocks := 177, idleBlocks := 16671 }
    else terms
  let terms := if id = 13 then { terms with idleBlocks := 15851 } else terms
  if hardforkCwd6Time ≤ db.headBlockTime then
    { lastsBlocks := db.gamezoneParameters.matrixLastsBlocks
      idleBlocks := db.gamezoneParameters.matrixIdleBlocks }
  else terms

/-- The levels of the matrix after the given one. -/
def nextLevels (db : Database) (m : Matrix) : List MatrixLevel :=
  if hardforkCwd6Time ≤ db.headBlockTime then db.gamezoneParameters.matrixLevels
  else if 8243772 ≤ m.finishBlockNumber then miniMatrixLevels
  else newMatrixLevels

/-- The matrix after the given one. -/
def nextMatrix (db : Database) (id : Nat) (m : Matrix) (terms : MatrixTerms) : Matrix where
  startBlockNumber := blockNumber (db.headBlockNum + terms.idleBlocks)
  finishBlockNumber :=
    if id = 3 then 8092140
    else blockNumber (db.headBlockNum + terms.idleBlocks + terms.lastsBlocks)
  levels := db.nextLevels m

/-- A matrix is closed, and the next one is created. -/
def closeMatrix (db : Database) (id : Nat) (m : Matrix) (terms : MatrixTerms) : Option Database :=
  (db.modifyCore fun c => { c with accumulatedFees := c.accumulatedFees + m.amount }).map fun db =>
    { db with
      matrices := (db.matrices.modify id fun m => { m with status := 1 }).create
        (db.nextMatrix id m terms) }

/-- A matrix is extended. -/
def extendMatrix (db : Database) (id : Nat) (terms : MatrixTerms) : Database :=
  { db with
    matrices := db.matrices.modify id fun m =>
      { m with
        finishBlockNumber := blockNumber (m.finishBlockNumber + terms.idleBlocks)
        last120kAmount := 0 } }

/-- The matrix with the last finish block; of several the one with the greatest id. -/
def lastMatrix (db : Database) : Option (Nat × Matrix) :=
  db.matrices.lastBy Matrix.finishBlockNumber

/-- One round of the loop of `proceed_matrix`, for the last matrix. Both divisions of the source are
checked, and throw for a divisor of zero. -/
def matrixRound (db : Database) (id : Nat) (m : Matrix) (terms : MatrixTerms) :
    Option (Database × MatrixTerms) :=
  let matrixLasts := blockNumberSub m.finishBlockNumber m.startBlockNumber
  if matrixLasts = 0 ∨ terms.idleBlocks = 0 then none
  else
    let average := ((m.amount.tdiv matrixLasts) * 70).tdiv 100
    let average120k := m.last120kAmount.tdiv terms.idleBlocks
    if average ≤ average120k ∧ db.headBlockTime < hardforkCwd5Time then
      some (db.extendMatrix id terms, terms)
    else
      let terms := db.nextTerms id terms
      (db.closeMatrix id m terms).map (·, terms)

/-- The loop of `proceed_matrix`. -/
def proceedMatrixLoop : Nat → Database → MatrixTerms → Option Database
  | 0, _, _ => none
  | n + 1, db, terms =>
    match db.lastMatrix with
    | none => some db
    | some (id, m) =>
      if m.finishBlockNumber ≤ db.headBlockNum ∧ m.status = 0 then
        (db.matrixRound id m terms).bind fun r => proceedMatrixLoop n r.1 r.2
      else some db

/-- The first matrix of the chain. -/
def firstMatrix (db : Database) : Matrix where
  startBlockNumber := blockNumber db.headBlockNum
  finishBlockNumber := blockNumber (db.headBlockNum + 1000000)
  levels := firstMatrixLevels

/-- `database::proceed_matrix`, with the given number of rounds for its loop. -/
def proceedMatrix (db : Database) (rounds : Nat) : Option Database :=
  (proceedMatrixLoop rounds db {}).map fun db =>
    if db.lastMatrix.isNone ∧ matrixFirstStartBlock ≤ db.headBlockNum then
      { db with matrices := db.matrices.create db.firstMatrix }
    else db

/-! ### What opening a room does -/

/-- Only statistics and rooms change, and the same accounts have statistics. -/
def RoomsStep (db db' : Database) : Prop :=
  ∃ s r, db' = { db with statistics := s, matrixRooms := r } ∧
    ∀ a, (s.lookup a).isSome = (db.statistics.lookup a).isSome

variable {db db' : Database} {op : MatrixOpenRoomOperation} {a : AccountId}

theorem RoomsStep.refl (db : Database) : db.RoomsStep db :=
  ⟨db.statistics, db.matrixRooms, rfl, fun _ => rfl⟩

theorem RoomsStep.trans {db'' : Database} (h : db.RoomsStep db') (h' : db'.RoomsStep db'') :
    db.RoomsStep db'' := by
  obtain ⟨s, r, rfl, hs⟩ := h
  obtain ⟨s', r', rfl, hs'⟩ := h'
  exact ⟨s', r', rfl, fun a => (hs' a).trans (hs a)⟩

theorem roomsStep_rooms (db : Database) (r : Table MatrixRoom) :
    db.RoomsStep { db with matrixRooms := r } :=
  ⟨db.statistics, r, rfl, fun _ => rfl⟩

theorem roomsStep_modifyStatistics {f : AccountStatistics → AccountStatistics}
    (h : db.modifyStatistics a f = some db') : db.RoomsStep db' := by
  have hstats := (frame_modifyStatistics h).statistics
  obtain ⟨s, -, rfl⟩ := modifyStatistics_eq_some h
  exact ⟨_, db.matrixRooms, rfl, hstats⟩

theorem roomsStep_enterMatrix {player : Account} (h : db.enterMatrix op player = some db') :
    db.RoomsStep db' := by
  obtain ⟨stats, -, h⟩ := bind_eq_some_iff.1 h
  exact optional_step h (fun _ => roomsStep_modifyStatistics) (.refl db)

theorem roomsStep_openSecondCell {matrixId : Nat} {ref : AccountId}
    (h : db.openSecondCell matrixId ref = some db') : db.RoomsStep db' := by
  obtain ⟨stats, -, h⟩ := bind_eq_some_iff.1 h
  split at h
  · obtain ⟨db1, h1, rfl⟩ := map_eq_some_iff.1 h
    exact (roomsStep_modifyStatistics h1).trans (roomsStep_rooms db1 _)
  · cases h
    exact .refl db

theorem roomsStep_openFirstCell {matrixId : Nat} {ref : AccountId}
    (h : db.openFirstCell matrixId ref = some db') : db.RoomsStep db' := by
  obtain ⟨stats, -, h⟩ := bind_eq_some_iff.1 h
  exact optional_step h (fun _ => roomsStep_modifyStatistics) (.refl db)

theorem roomsStep_updatePv {volume : Int} (h : db.updatePv volume a = some db') :
    db.RoomsStep db' := by
  obtain ⟨s, pv, -, h⟩ := updatePv_eq_some h
  exact roomsStep_modifyStatistics h

theorem roomsStep_openRoom {cells : Nat} (h : db.openRoom op cells = some db') :
    db.RoomsStep db' := by
  obtain ⟨stats, -, h⟩ := bind_eq_some_iff.1 h
  exact (roomsStep_rooms db _).trans (roomsStep_modifyStatistics h)

theorem raiseLevel_eq_some {level : Nat} (h : db.raiseLevel a level = some db') :
    (db.accounts.find a).isSome ∧ (db.statistics.lookup a).isSome ∧ db.RoomsStep db' := by
  obtain ⟨account, haccount, h⟩ := bind_eq_some_iff.1 h
  obtain ⟨stats, hstats, h⟩ := bind_eq_some_iff.1 h
  refine ⟨by rw [haccount]; rfl, by rw [hstats]; rfl, ?_⟩
  exact optional_step h (fun _ => roomsStep_modifyStatistics) (.refl db)

/-- What is paid out of a matrix, as it is entered into the books. -/
def payPrizes (db : Database) (matrixId : Nat) (m : Balances) (prize : Int)
    (entry : JournalEntry) : Database :=
  { db with
    balances := m
    matrices := db.matrices.modify matrixId fun m => { m with amount := m.amount - prize }
    journal := entry :: db.journal }

/-- A cell is taken, and either nothing else happens, or the player of the room gets the prize. -/
theorem fillRoom_eq_some {prize : Int} {e : Nat × MatrixRoom}
    (h : db.fillRoom op prize e = some db') :
    db.RoomsStep db' ∨ ∃ m, adjust db.balances e.2.matrixPlayer (.core prize) = some m ∧
        (db.accounts.find e.2.matrixPlayer).isSome ∧
        (db.statistics.lookup e.2.matrixPlayer).isSome ∧ (db.payPrizes op.matrixId m prize
          (.matrixRoomClosed e.2.matrixPlayer e.1 op.matrixLevel prize)).RoomsStep db' := by
  rw [fillRoom] at h
  split at h
  · right
    obtain ⟨db1, h1, h⟩ := bind_eq_some_iff.1 h
    obtain ⟨m, hm, rfl⟩ := adjustBalance_eq_some h1
    obtain ⟨haccount, hstats, hstep⟩ := raiseLevel_eq_some h
    refine ⟨m, hm, haccount, hstats, ?_⟩
    exact (roomsStep_rooms _ _).trans hstep
  · cases h
    exact .inl (roomsStep_rooms db _)

/-- The prizes that the journal has. -/
def levelRewards (db : Database) : Int :=
  (db.journal.map fun
    | .matrixRoomClosed _ _ _ levelReward => levelReward
    | _ => 0).sum

/-- **An accepted room**: the matrix is between its first and its last block, the price
goes from the player to the matrix, and the prize, if there is one, from the matrix to the
player of a full room. -/
structure OpensRoom (db : Database) (op : MatrixOpenRoomOperation) (db' : Database) (m : Matrix)
    (level : MatrixLevel) (winner : Option AccountId) : Prop where
  find : db.matrices.find op.matrixId = some m
  started : m.startBlockNumber ≤ db.headBlockNum
  finishes : db.headBlockNum ≤ m.finishBlockNumber
  atLevel : m.level op.matrixLevel = some level
  atPrice : op.levelPrice = .core level.price
  player : (db.accounts.find op.player).isSome ∧ (db.statistics.lookup op.player).isSome
  exists_winner : ∀ a ∈ winner, (db.accounts.find a).isSome ∧ (db.statistics.lookup a).isSome
  balances : db.balances.adjustAll ([(op.player, -op.levelPrice)] ++
    winner.toList.map (·, .core level.prize) ++ [(op.player, -op.fee)]) = some db'.balances
  matrices : ∀ i, db'.matrices.find i =
    if i = op.matrixId then
      some { m.receive db.headBlockNum level.price with
        amount := m.amount + level.price - winner.elim 0 fun _ => level.prize }
    else db.matrices.find i
  nextId : db'.matrices.nextId = db.matrices.nextId
  rewards : db'.levelRewards = db.levelRewards + winner.elim 0 fun _ => level.prize
  head : db'.headBlockNum = db.headBlockNum
  accounts : db'.accounts = db.accounts
  statistics : ∀ a, (db'.statistics.lookup a).isSome = (db.statistics.lookup a).isSome

theorem matrixOpenRoomEvaluate_eq_true (h : matrixOpenRoomEvaluate op db = true) :
    ∃ m level, db.matrices.find op.matrixId = some m ∧ m.startBlockNumber ≤ db.headBlockNum ∧
      db.headBlockNum ≤ m.finishBlockNumber ∧ m.level op.matrixLevel = some level ∧
      op.levelPrice = .core level.price := by
  simp only [matrixOpenRoomEvaluate, any_eq_true, decide_eq_true_eq] at h
  obtain ⟨m, hm, player, -, stats, -, hstart, hfinish, -, -, hasset, ⟨level, hlevel, hprice⟩, -⟩ :=
    h
  refine ⟨m, level, hm, hstart, hfinish, hlevel, ?_⟩
  rw [Asset.core, hprice, ← hasset]

/-- The matrix has received a payment. -/
def receivePayment (db : Database) (op : MatrixOpenRoomOperation) (b : Balances) : Database :=
  { db with
    balances := b
    matrices := db.matrices.modify op.matrixId (·.receive db.headBlockNum op.levelPrice.amount) }

/-- The effect of `do_apply`, up to statistics and rooms: the payment, and the prize of a full room
if there is one. -/
theorem matrixOpenRoomApply_eq_some (h : matrixOpenRoomApply op db = some db') :
    ∃ m level b, db.matrices.find op.matrixId = some m ∧ m.level op.matrixLevel = some level ∧
      adjust db.balances op.player (.core (-op.levelPrice.amount)) = some b ∧
      ((db.receivePayment op b).RoomsStep db' ∨
          ∃ a room b', adjust b a (.core level.prize) = some b' ∧
          (db.accounts.find a).isSome ∧ (db.statistics.lookup a).isSome ∧
          ((db.receivePayment op b).payPrizes op.matrixId b' level.prize
            (.matrixRoomClosed a room op.matrixLevel level.prize)).RoomsStep db') := by
  obtain ⟨m, hm, h⟩ := bind_eq_some_iff.1 h
  obtain ⟨level, hlevel, h⟩ := bind_eq_some_iff.1 h
  obtain ⟨dbPaid, hpaid, h⟩ := bind_eq_some_iff.1 h
  obtain ⟨b, hb, rfl⟩ := adjustBalance_eq_some hpaid
  obtain ⟨dbPv, hpv, h⟩ := bind_eq_some_iff.1 h
  have hstepPv : ({ db with balances := b } : Database).RoomsStep dbPv :=
    optional_step hpv (fun _ => roomsStep_updatePv) (.refl _)
  obtain ⟨s, r, rfl, hs⟩ := hstepPv
  obtain ⟨player, -, h⟩ := bind_eq_some_iff.1 h
  obtain ⟨_, -, h⟩ := bind_eq_some_iff.1 h
  obtain ⟨dbEnter, henter, h⟩ := bind_eq_some_iff.1 h
  obtain ⟨dbSecond, hsecond, h⟩ := bind_eq_some_iff.1 h
  obtain ⟨dbFirst, hfirst, h⟩ := bind_eq_some_iff.1 h
  obtain ⟨dbFill, hfill, h⟩ := bind_eq_some_iff.1 h
  have hlast := roomsStep_openRoom h
  have hstep : (db.receivePayment op b).RoomsStep dbFirst := by
    refine .trans ⟨s, r, rfl, hs⟩ ((roomsStep_enterMatrix henter).trans ?_)
    exact (roomsStep_openSecondCell hsecond).trans (roomsStep_openFirstCell hfirst)
  refine ⟨m, level, b, hm, hlevel, hb, ?_⟩
  split at hfill
  · next e _ =>
    rcases fillRoom_eq_some hfill with hcell | ⟨b', hb', haccount, hstats, hprize⟩
    · exact .inl ((hstep.trans hcell).trans hlast)
    · -- the prize does not look at statistics and rooms
      obtain ⟨s1, r1, rfl, hs1⟩ := hstep
      refine .inr ⟨e.2.matrixPlayer, e.1, b', hb', haccount, (hs1 _).symm.trans hstats, ?_⟩
      exact .trans ⟨s1, r1, rfl, hs1⟩ (hprize.trans hlast)
  · cases hfill
    exact .inl (hstep.trans hlast)

theorem matrixOpenRoom_eq_some (h : db.matrixOpenRoom op = some db') :
    ∃ m level winner, db.OpensRoom op db' m level winner := by
  obtain ⟨-, coreFee, db1, b2, hfee, hev, hap, hb2, rfl⟩ := operation_eq_some h
  obtain ⟨m, level, hm, hstart, hfinish, hlevel, hprice⟩ := matrixOpenRoomEvaluate_eq_true hev
  obtain ⟨m', level', b, hm', hlevel', hb, hstep⟩ := matrixOpenRoomApply_eq_some hap
  obtain rfl : m = m' := some.inj (hm.symm.trans hm')
  obtain rfl : level = level' := some.inj (hlevel.symm.trans hlevel')
  obtain ⟨-, haccount, hstat, -⟩ := prepareFee_eq_some hfee
  have hstats : ∀ a, ((db.convertAndPayFee op.player op.fee coreFee).statistics.lookup a).isSome =
      (db.statistics.lookup a).isSome := fun a => AList.isSome_lookup_modify _ _ a _
  have hamount : op.levelPrice.amount = level.price := by rw [hprice]; rfl
  have hpay : -op.levelPrice = .core (-op.levelPrice.amount) := by rw [hprice]; rfl
  rcases hstep with ⟨s, r, rfl, hs⟩ | ⟨a, room, b', hb', hacc, hst, s, r, rfl, hs⟩
  · refine ⟨m, level, none, hm, hstart, hfinish, hlevel, hprice, ⟨haccount, hstat⟩, by simp, ?_,
      fun i => ?_, rfl, ?_, rfl, rfl, fun a => (hs a).trans (hstats a)⟩
    · rw [hpay]
      exact adjustAll_pair hb hb2
    · simp [receivePayment, convertAndPayFee, Table.find_modify, hm, Matrix.receive, hamount]
    · exact (Int.add_zero _).symm
  · refine ⟨m, level, some a, hm, hstart, hfinish, hlevel, hprice, ⟨haccount, hstat⟩, ?_, ?_,
      fun i => ?_, rfl, ?_, rfl, rfl, fun a => (hs a).trans (hstats a)⟩
    · rintro a' ha'
      cases ha'
      exact ⟨hacc, (hstats a).symm.trans hst⟩
    · rw [hpay]
      exact adjustAll_concat (adjustAll_pair hb hb') hb2
    · simp only [receivePayment, payPrizes, convertAndPayFee, Table.find_modify, hm]
      split <;> simp [Matrix.receive, hamount]
    · exact Int.add_comm _ _

end Database

end CrowdwizChain
