import Mathlib.Data.List.AList

/-!
# The object database and its undo history

The model of `libraries/db`: indices of objects that are identified by an id, and the
`undo_database` that records, session by session, what has to be put back.

An object id is a space, a type and an instance number; the space and the type name the index, and
an index hands out instance numbers from its `next_id`. The contents of an object are an arbitrary
type `α`: the undo history clones and restores them and never looks inside.

The stack of undo states is a `std::deque` whose back is the innermost session; here it is a list
whose *head* is the innermost session. The unordered maps and the unordered set of the source are
association lists without duplicate keys; nothing below depends on the order of their entries.

The functions return `none` where the source throws (`FC_ASSERT`, an object that does not exist)
or where its behaviour is undefined (`_stack.back()` on an empty deque).
-/

namespace CrowdwizChain

universe u

/-! ### Objects and indices -/

/-- An index, named by the space and the type of the objects that it holds. -/
structure IndexId where
  space : UInt8
  type : UInt8
deriving DecidableEq

/-- An object id: the index, and the instance number in it. -/
structure ObjectId where
  index : IndexId
  inst : Nat
deriving DecidableEq

/-- The object database: the object stored under each id, and each index's next instance number. -/
@[ext]
structure ObjectDatabase (α : Type u) where
  find : ObjectId → Option α
  nextId : IndexId → Nat

namespace ObjectDatabase

variable {α : Type u}

/-- The id that `create` uses next in the index. -/
def getNextId (db : ObjectDatabase α) (idx : IndexId) : ObjectId :=
  ⟨idx, db.nextId idx⟩

/-- `index::set_next_id`. -/
def setNextId (db : ObjectDatabase α) (idx : IndexId) (n : Nat) : ObjectDatabase α :=
  { db with nextId := Function.update db.nextId idx n }

/-- The contents stored under one id are replaced. -/
def put (db : ObjectDatabase α) (id : ObjectId) (v : Option α) : ObjectDatabase α :=
  { db with find := Function.update db.find id v }

/-- `index::insert`: the object goes in under its own id, which must be free. -/
def insert (db : ObjectDatabase α) (id : ObjectId) (v : α) : Option (ObjectDatabase α) :=
  match db.find id with
  | some _ => none
  | none => some (db.put id (some v))

/-- `generic_index::create`: insert under the next id, then use that id up. -/
def create (db : ObjectDatabase α) (idx : IndexId) (v : α) : Option (ObjectDatabase α) :=
  (db.insert (db.getNextId idx) v).map fun db' => db'.setNextId idx (db.nextId idx + 1)

/-- `index::modify` on the object with the given id. -/
def modify (db : ObjectDatabase α) (id : ObjectId) (f : α → α) : Option (ObjectDatabase α) :=
  (db.find id).map fun v => db.put id (some (f v))

/-- `index::remove` on the object with the given id. -/
def remove (db : ObjectDatabase α) (id : ObjectId) : Option (ObjectDatabase α) :=
  (db.find id).map fun _ => db.put id none

end ObjectDatabase

/-! ### Undo states -/

/-- An `undo_state`: what one session has to put back. -/
structure UndoState (α : Type u) where
  /-- objects that were modified, with their contents when the session started -/
  oldValues : AList (fun _ : ObjectId => α)
  /-- the next id of every index in which an object was created -/
  oldIndexNextIds : AList (fun _ : IndexId => Nat)
  /-- objects that were created -/
  newIds : AList (fun _ : ObjectId => Unit)
  /-- objects that were removed, with their contents when the session started -/
  removed : AList (fun _ : ObjectId => α)

namespace UndoState

variable {α : Type u}

/-- The state of a session that has done nothing. -/
def empty : UndoState α := ⟨∅, ∅, ∅, ∅⟩

/-- `undo_database::on_create`, on the state at the back of the stack. -/
def onCreate (st : UndoState α) (id : ObjectId) : UndoState α :=
  { st with
    oldIndexNextIds :=
      if id.index ∈ st.oldIndexNextIds then st.oldIndexNextIds
      else st.oldIndexNextIds.insert id.index id.inst
    newIds := st.newIds.insert id () }

/-- `undo_database::on_modify`: the contents before the modification are saved the first time. -/
def onModify (st : UndoState α) (id : ObjectId) (v : α) : UndoState α :=
  if id ∈ st.newIds then st
  else if id ∈ st.oldValues then st
  else { st with oldValues := st.oldValues.insert id v }

/-- `undo_database::on_remove`: an object created in the session is forgotten, a modified one is
remembered with the contents saved earlier, any other with its present contents. -/
def onRemove (st : UndoState α) (id : ObjectId) (v : α) : UndoState α :=
  if id ∈ st.newIds then { st with newIds := st.newIds.erase id }
  else match st.oldValues.lookup id with
    | some w => { st with removed := st.removed.insert id w, oldValues := st.oldValues.erase id }
    | none =>
      if id ∈ st.removed then st
      else { st with removed := st.removed.insert id v }

/-! The four loops of `undo_database::undo`. -/

/-- Put back the saved contents of the objects that were modified. -/
def restoreOldValues (l : List (Σ _ : ObjectId, α)) (db : ObjectDatabase α) :
    Option (ObjectDatabase α) :=
  l.foldlM (fun db e => db.modify e.1 fun _ => e.2) db

/-- Remove the objects that were created. -/
def removeNewIds (l : List ObjectId) (db : ObjectDatabase α) : Option (ObjectDatabase α) :=
  l.foldlM (fun db id => db.remove id) db

/-- Set the next ids back. -/
def restoreNextIds (l : List (Σ _ : IndexId, Nat)) (db : ObjectDatabase α) : ObjectDatabase α :=
  l.foldl (fun db e => db.setNextId e.1 e.2) db

/-- Insert the objects that were removed. -/
def insertRemoved (l : List (Σ _ : ObjectId, α)) (db : ObjectDatabase α) :
    Option (ObjectDatabase α) :=
  l.foldlM (fun db e => db.insert e.1 e.2) db

/-- The body of `undo_database::undo`: the loops run in the order of the source. -/
def revert (st : UndoState α) (db : ObjectDatabase α) : Option (ObjectDatabase α) := do
  let db ← restoreOldValues st.oldValues.entries db
  let db ← removeNewIds st.newIds.keys db
  let db := restoreNextIds st.oldIndexNextIds.entries db
  insertRemoved st.removed.entries db

/-! The four loops of `undo_database::merge`, each into the state of the outer session. -/

/-- One pass of the `*+upd` loop. -/
def mergeUpd (prev : UndoState α) (e : Σ _ : ObjectId, α) : UndoState α :=
  if e.1 ∈ prev.newIds then prev
  else if e.1 ∈ prev.oldValues then prev
  else { prev with oldValues := prev.oldValues.insert e.1 e.2 }

/-- One pass of the `*+new` loop. -/
def mergeNew (prev : UndoState α) (id : ObjectId) : UndoState α :=
  { prev with newIds := prev.newIds.insert id () }

/-- One pass of the loop over the next ids. -/
def mergeNextId (prev : UndoState α) (e : Σ _ : IndexId, Nat) : UndoState α :=
  if e.1 ∈ prev.oldIndexNextIds then prev
  else { prev with oldIndexNextIds := prev.oldIndexNextIds.insert e.1 e.2 }

/-- One pass of the `*+del` loop. -/
def mergeDel (prev : UndoState α) (e : Σ _ : ObjectId, α) : UndoState α :=
  if e.1 ∈ prev.newIds then { prev with newIds := prev.newIds.erase e.1 }
  else match prev.oldValues.lookup e.1 with
    | some w =>
      { prev with removed := prev.removed.insert e.1 w, oldValues := prev.oldValues.erase e.1 }
    | none => { prev with removed := prev.removed.insert e.1 e.2 }

/-- `undo_database::merge` on the two innermost states: `st` goes into `prev`. -/
def merge (prev st : UndoState α) : UndoState α :=
  let prev := st.oldValues.entries.foldl mergeUpd prev
  let prev := st.newIds.keys.foldl mergeNew prev
  let prev := st.oldIndexNextIds.entries.foldl mergeNextId prev
  st.removed.entries.foldl mergeDel prev

end UndoState

/-! ### The undo database -/

/-- The object database together with its `undo_database`. -/
structure UndoDatabase (α : Type u) where
  db : ObjectDatabase α
  /-- the undo states, innermost first -/
  stack : List (UndoState α)
  activeSessions : Nat
  disabled : Bool
  maxSize : Nat

namespace UndoDatabase

variable {α : Type u}

/-- The state at the back of the stack is rewritten, an empty stack being given a state first.
Nothing is recorded while the history is disabled. -/
def record (d : UndoDatabase α) (f : UndoState α → UndoState α) : UndoDatabase α :=
  if d.disabled then d
  else match d.stack with
    | [] => { d with stack := [f .empty] }
    | st :: rest => { d with stack := f st :: rest }

/-- `undo_database::start_undo_session`: the oldest states are dropped while there are more than
`max_size` of them, and an empty state is pushed. -/
def startUndoSession (d : UndoDatabase α) (forceEnable : Bool) : UndoDatabase α :=
  if d.disabled && !forceEnable then d
  else
    { d with
      disabled := if forceEnable then false else d.disabled
      stack := .empty :: d.stack.take d.maxSize
      activeSessions := d.activeSessions + 1 }

/-- `primary_index::create`. -/
def create (d : UndoDatabase α) (idx : IndexId) (v : α) : Option (UndoDatabase α) :=
  (d.db.create idx v).map fun db => { d with db }.record (·.onCreate (d.db.getNextId idx))

/-- `primary_index::modify`: `save_undo` comes before the modification. -/
def modify (d : UndoDatabase α) (id : ObjectId) (f : α → α) : Option (UndoDatabase α) :=
  (d.db.find id).bind fun v =>
    (d.db.modify id f).map fun db => { d with db }.record (·.onModify id v)

/-- `primary_index::remove`: `on_remove` comes before the removal. -/
def remove (d : UndoDatabase α) (id : ObjectId) : Option (UndoDatabase α) :=
  (d.db.find id).bind fun v =>
    (d.db.remove id).map fun db => { d with db }.record (·.onRemove id v)

/-- `undo_database::undo`. -/
def undo (d : UndoDatabase α) : Option (UndoDatabase α) :=
  if d.disabled || d.activeSessions == 0 then none
  else match d.stack with
    | [] => none
    | st :: rest =>
      (st.revert d.db).map fun db =>
        { d with db, stack := rest, disabled := false, activeSessions := d.activeSessions - 1 }

/-- `undo_database::merge`. -/
def merge (d : UndoDatabase α) : Option (UndoDatabase α) :=
  if d.activeSessions == 0 then none
  else if d.activeSessions == 1 && d.stack.length == 1 then
    some { d with stack := d.stack.tail, activeSessions := d.activeSessions - 1 }
  else match d.stack with
    | st :: prev :: rest =>
      some { d with stack := prev.merge st :: rest, activeSessions := d.activeSessions - 1 }
    | _ => none

end UndoDatabase

end CrowdwizChain
