import CrowdwizChain.Lib.ByteFile

/-!
# The block database

`block_database` keeps blocks in two files: one of packed blocks, to which is only appended, and one
of index entries, by block number. The entry of a number says where the block is, how long it is and
what its id is. A block is removed by setting the size in its entry to zero; the id is left.

The abstract map is the last event of each number (`Slot`). The files refine it
(`BlockDatabase.Refines`): an entry that was never written is zero, whether the file ends before it
or not. The four readers agree with the map, with one exception: `fetch_block_id` looks at the id
alone, and goes on returning that of a block that was removed.
-/

namespace CrowdwizChain

open ByteFile Option Function List Nat

/-- `block_id_type`: 20 bytes, of which the first four are the number of the block -/
abbrev BlockId := Fin 20 → UInt8

/-- `block_header::num_from_id` -/
def numFromId (id : BlockId) : Nat :=
  (((id 0).toNat * 256 + (id 1).toNat) * 256 + (id 2).toNat) * 256 + (id 3).toNat

/-- `block_id_type()` -/
def noId : BlockId := fun _ => 0

/-- How blocks are packed. There is at least a header in a packed block. -/
structure Packing (Block : Type) where
  pack : Block → List UInt8
  unpack : List UInt8 → Option Block
  id : Block → BlockId
  unpack_pack : ∀ b, unpack (pack b) = some b
  pack_unpack : ∀ data b, unpack data = some b → pack b = data
  pack_pos : ∀ b, 0 < (pack b).length

theorem Packing.unpack_nil {Block : Type} (L : Packing Block) : L.unpack [] = none := by
  by_contra hsome
  obtain ⟨b, hb⟩ := ne_none_iff_exists'.1 hsome
  have hpos := L.pack_pos b
  rw [L.pack_unpack [] b hb] at hpos
  cases hpos

/-! ### Index entries -/

/-- `index_entry` -/
structure IndexEntry where
  blockPos : Nat
  blockSize : Nat
  blockId : BlockId

namespace IndexEntry

/-- A byte of an entry in memory -/
def byte (e : IndexEntry) (i : Nat) : UInt8 :=
  if i < 8 then digit e.blockPos i
  else if i < 12 then digit e.blockSize (i - 8)
  else if h : i - 12 < 20 then e.blockId ⟨i - 12, h⟩ else 0

/-- `(char*)&e`, `sizeof(e)` bytes of it -/
def bytes (e : IndexEntry) : List UInt8 := (range 32).map e.byte

/-- The entry that some bytes in memory are -/
def ofBytes (g : Nat → UInt8) : IndexEntry where
  blockPos := number 8 g
  blockSize := number 4 fun i => g (8 + i)
  blockId i := g (12 + i)

/-- The entry of a number in the index file -/
def entryAt (index : List UInt8) (n : Nat) : IndexEntry :=
  ofBytes fun i => index.getD (32 * n + i) 0

variable {e : IndexEntry} {index : List UInt8} {m n : Nat}

theorem length_bytes (e : IndexEntry) : e.bytes.length = 32 := by
  rw [bytes, length_map, length_range]

theorem getD_bytes (e : IndexEntry) {i : Nat} (hi : i < 32) : e.bytes.getD i 0 = e.byte i := by
  rw [getD_eq_getElem _ _ (e.length_bytes.symm ▸ hi)]
  simp only [bytes, getElem_map, getElem_range]

theorem ofBytes_congr {g g' : Nat → UInt8} (h : ∀ i < 32, g i = g' i) : ofBytes g = ofBytes g' := by
  simp only [ofBytes, mk.injEq]
  refine ⟨number_congr fun i hi => h i (by omega), number_congr fun i hi => h (8 + i) (by omega),
    ?_⟩
  funext i
  exact h (12 + i) (by omega)

theorem ofBytes_byte (e : IndexEntry) :
    ofBytes e.byte = ⟨e.blockPos % 256 ^ 8, e.blockSize % 256 ^ 4, e.blockId⟩ := by
  have hfirst : number 8 e.byte = number 8 (digit e.blockPos) := number_congr fun i hi => if_pos hi
  have hsecond : number 4 (fun i => e.byte (8 + i)) = number 4 (digit e.blockSize) := by
    refine number_congr fun i hi => ?_
    rw [byte, if_neg (by omega), if_pos (by omega), Nat.add_sub_cancel_left]
  have hid : (fun i : Fin 20 => e.byte (12 + i)) = e.blockId := by
    funext i
    rw [byte, if_neg (by omega), if_neg (by omega), dif_pos (by omega)]
    exact congrArg e.blockId (Fin.ext (Nat.add_sub_cancel_left _ _))
  rw [ofBytes, hfirst, hsecond, hid, number_digit, number_digit]

theorem byte_ofBytes {g : Nat → UInt8} {i : Nat} (hi : i < 32) : (ofBytes g).byte i = g i := by
  rw [byte]
  split
  · next hlt => exact digit_number hlt
  split
  · next hge hlt =>
    have hdigit : digit (ofBytes g).blockSize (i - 8) = g (8 + (i - 8)) := digit_number (by omega)
    rwa [Nat.add_sub_cancel' (Nat.not_lt.1 hge)] at hdigit
  · next hge hge' =>
    rw [dif_pos (by omega)]
    exact congrArg g (Nat.add_sub_cancel' (by omega))

theorem entryAt_write_self : entryAt (write index (32 * n) e.bytes) n =
    ⟨e.blockPos % 256 ^ 8, e.blockSize % 256 ^ 4, e.blockId⟩ := by
  refine (ofBytes_congr fun i hi => ?_).trans (ofBytes_byte e)
  rw [getD_write, length_bytes, if_pos (by omega), Nat.add_sub_cancel_left, getD_bytes e hi]

theorem entryAt_write_ne (h : m ≠ n) :
    entryAt (write index (32 * n) e.bytes) m = entryAt index m := by
  refine ofBytes_congr fun i hi => ?_
  rw [getD_write, length_bytes, if_neg (by omega)]

theorem entryAt_of_length_le (h : index.length ≤ 32 * n) : entryAt index n = ⟨0, 0, noId⟩ := by
  have hzero : ofBytes (fun _ => 0) = ⟨0, 0, noId⟩ := rfl
  exact (ofBytes_congr fun i _ => getD_eq_default _ _ (by omega)).trans hzero

theorem write_entryAt (h : 32 * n + 32 ≤ index.length) :
    write index (32 * n) (entryAt index n).bytes = index := by
  refine write_eq_self (by rwa [length_bytes]) fun i hi => ?_
  rw [length_bytes] at hi
  rw [getD_bytes _ hi, entryAt, byte_ofBytes hi]

end IndexEntry

open IndexEntry

/-! ### The files -/

/-- The two files of `block_database` -/
structure BlockDatabase where
  index : List UInt8 := []
  blocks : List UInt8 := []

/-- The largest position in a file -/
def maxFilePos : Nat := 2 ^ 63 - 1

namespace BlockDatabase

variable {Block : Type} (L : Packing Block) (d : BlockDatabase)

/-- `_block_num_to_pos.read`, of the entry of a number -/
def readEntry (n : Nat) : Option IndexEntry :=
  if 32 * n + 32 ≤ d.index.length then some (entryAt d.index n) else none

/-- `block_database::store` -/
def store (id : BlockId) (b : Block) : Option BlockDatabase :=
  let id := if id = noId then L.id b else id
  let data := L.pack b
  if maxFilePos < d.blocks.length + data.length then none
  else some
    { index := write d.index (32 * numFromId id) (bytes ⟨d.blocks.length, data.length, id⟩)
      blocks := d.blocks ++ data }

/-- `block_database::remove` -/
def remove (id : BlockId) : Option BlockDatabase :=
  if d.index.length ≤ 32 * numFromId id then none
  else (d.readEntry (numFromId id)).map fun e =>
    if e.blockId = id then
      { d with index := write d.index (32 * numFromId id) (bytes { e with blockSize := 0 }) }
    else d

/-- `block_database::contains` -/
def contains (id : BlockId) : Bool :=
  if id = noId then false
  else if d.index.length < 32 * numFromId id + 32 then false
  else (d.readEntry (numFromId id)).any fun e => e.blockId = id ∧ 0 < e.blockSize

/-- `block_database::fetch_block_id` -/
def fetchBlockId (n : Nat) : Option BlockId :=
  if d.index.length ≤ 32 * n then none
  else (d.readEntry n).bind fun e => if e.blockId = noId then none else some e.blockId

/-- A block that is read is unpacked, and has to have the id of its entry. -/
def unpackAs (e : IndexEntry) (data : List UInt8) : Option Block :=
  (L.unpack data).bind fun b => if L.id b = e.blockId then some b else none

/-- `block_database::fetch_optional` -/
def fetchOptional (id : BlockId) : Option Block :=
  if d.index.length ≤ 32 * numFromId id then none
  else (d.readEntry (numFromId id)).bind fun e =>
    if e.blockId ≠ id then none
    else (if e.blockSize ≠ 0 then read d.blocks e.blockPos e.blockSize else some []).bind
      (unpackAs L e)

/-- `block_database::fetch_by_number` -/
def fetchByNumber (n : Nat) : Option Block :=
  if d.index.length ≤ 32 * n then none
  else (d.readEntry n).bind fun e => (read d.blocks e.blockPos e.blockSize).bind (unpackAs L e)

end BlockDatabase

/-! ### Calls -/

/-- Calls of the block database. A block is stored with its id, or without one. -/
inductive BlockDatabase.Call (Block : Type)
  | store (b : Block) (withId : Bool)
  | remove (id : BlockId)

/-- The last event of a number -/
inductive Slot (Block : Type)
  | never
  | stored (b : Block)
  | removed (b : Block)
deriving DecidableEq

namespace BlockDatabase

variable {Block : Type} (L : Packing Block)

def Call.apply (d : BlockDatabase) : Call Block → Option BlockDatabase
  | .store b withId => d.store L (if withId then L.id b else noId) b
  | .remove id => d.remove id

/-- What the removal of an id is to the map: an event only if the block is there -/
def removed (id : BlockId) : Slot Block → Slot Block
  | .stored b => if L.id b = id then .removed b else .stored b
  | s => s

/-- What a call is to the map -/
def Call.record (slots : Nat → Slot Block) : Call Block → Nat → Slot Block
  | .store b _ => update slots (numFromId (L.id b)) (.stored b)
  | .remove id => update slots (numFromId id) (removed L id (slots (numFromId id)))

/-- A call that throws leaves everything as it is. -/
def step (s : BlockDatabase × (Nat → Slot Block)) (c : Call Block) :
    BlockDatabase × (Nat → Slot Block) :=
  match c.apply L s.1 with
  | none => s
  | some d => (d, c.record L s.2)

/-- The files, and the map, after some calls on an empty database -/
def run (calls : List (Call Block)) : BlockDatabase × (Nat → Slot Block) :=
  calls.foldl (step L) ({}, fun _ => .never)

variable {L} {d d' : BlockDatabase} {n : Nat} {id : BlockId} {slots : Nat → Slot Block}

/-! ### The files refine the map -/

/-- What the files say of a number -/
def Agrees (L : Packing Block) (d : BlockDatabase) (n : Nat) : Slot Block → Prop
  | .never => entryAt d.index n = ⟨0, 0, noId⟩
  | .stored b => numFromId (L.id b) = n ∧
      ∃ pos, d.readEntry n = some ⟨pos, (L.pack b).length % 256 ^ 4, L.id b⟩ ∧
      read d.blocks pos (L.pack b).length = some (L.pack b)
  | .removed b => numFromId (L.id b) = n ∧ ∃ pos, d.readEntry n = some ⟨pos, 0, L.id b⟩

/-- **The files refine the map.** -/
def Refines (L : Packing Block) (d : BlockDatabase) (slots : Nat → Slot Block) : Prop :=
  ∀ n, Agrees L d n (slots n)

theorem readEntry_eq_some {e : IndexEntry} :
    d.readEntry n = some e ↔ 32 * n + 32 ≤ d.index.length ∧ entryAt d.index n = e := by
  rw [readEntry, ite_none_right_eq_some, some_inj]

section Write

variable (d n) (e : IndexEntry) (blocks : List UInt8)

theorem readEntry_write_self : readEntry ⟨write d.index (32 * n) e.bytes, blocks⟩ n =
    some ⟨e.blockPos % 256 ^ 8, e.blockSize % 256 ^ 4, e.blockId⟩ := by
  refine readEntry_eq_some.2 ⟨?_, entryAt_write_self⟩
  rw [length_write, length_bytes]
  exact le_max_right _ _

variable {d n e blocks}

theorem Agrees.write {s : Slot Block} {m : Nat} (h : Agrees L d m s) (hne : m ≠ n)
    (hblocks : ∀ pos k data, read d.blocks pos k = some data → read blocks pos k = some data) :
    Agrees L ⟨write d.index (32 * n) e.bytes, blocks⟩ m s := by
  have hentry : entryAt (ByteFile.write d.index (32 * n) e.bytes) m = _ :=
    entryAt_write_ne hne
  have hkeep : ∀ e', d.readEntry m = some e' →
      readEntry ⟨ByteFile.write d.index (32 * n) e.bytes, blocks⟩ m = some e' := by
    intro e' he'
    obtain ⟨hle, he'⟩ := readEntry_eq_some.1 he'
    refine readEntry_eq_some.2 ⟨hle.trans ?_, hentry.trans he'⟩
    rw [length_write]
    exact le_max_left _ _
  cases s with
  | never => exact hentry.trans h
  | stored b =>
    obtain ⟨hnum, pos, hpos, hread⟩ := h
    exact ⟨hnum, pos, hkeep _ hpos, hblocks _ _ _ hread⟩
  | removed b =>
    obtain ⟨hnum, pos, hpos⟩ := h
    exact ⟨hnum, pos, hkeep _ hpos⟩

end Write

theorem Refines.store {b : Block} (h : Refines L d slots) (hid : id = noId ∨ id = L.id b)
    (hstore : d.store L id b = some d') :
    Refines L d' (update slots (numFromId (L.id b)) (.stored b)) := by
  have hown : (if id = noId then L.id b else id) = L.id b := by
    split
    · rfl
    · next hne => exact hid.resolve_left hne
  simp only [BlockDatabase.store, hown] at hstore
  obtain ⟨hfits, hstore⟩ := ite_none_left_eq_some.1 hstore
  cases hstore
  intro m
  by_cases hm : m = numFromId (L.id b)
  · subst hm
    rw [update_self]
    refine ⟨rfl, d.blocks.length, ?_, read_append_self _ _⟩
    have hpos : d.blocks.length % 256 ^ 8 = d.blocks.length := by
      rw [maxFilePos] at hfits
      exact mod_eq_of_lt (by omega)
    rw [readEntry_write_self]
    dsimp only
    rw [hpos]
  · rw [update_of_ne hm]
    exact (h m).write hm fun _ _ _ => read_append

theorem remove_eq_some (hremove : d.remove id = some d') :
    ∃ e, d.readEntry (numFromId id) = some e ∧ d' = if e.blockId = id then
      { d with index := write d.index (32 * numFromId id) (bytes { e with blockSize := 0 }) }
    else d := by
  obtain ⟨-, hremove⟩ := ite_none_left_eq_some.1 hremove
  obtain ⟨e, he, rfl⟩ := map_eq_some_iff.1 hremove
  exact ⟨e, he, rfl⟩

theorem Agrees.never_readEntry {e : IndexEntry} (h : Agrees L d n .never)
    (he : d.readEntry n = some e) :
    e = ⟨0, 0, noId⟩ := (readEntry_eq_some.1 he).2.symm.trans h

theorem Refines.remove (h : Refines L d slots) (hremove : d.remove id = some d') :
    Refines L d' ((Call.remove id).record L slots) := by
  obtain ⟨e, he, rfl⟩ := remove_eq_some hremove
  intro m
  by_cases hm : m = numFromId id
  · subst hm
    have hslot := h (numFromId id)
    have hself := readEntry_write_self d (numFromId id) { e with blockSize := 0 } d.blocks
    rw [Call.record, update_self]
    generalize slots (numFromId id) = s at hslot ⊢
    cases s with
    | never =>
      rw [hslot.never_readEntry he] at hself ⊢
      split
      · exact (readEntry_eq_some.1 hself).2
      · exact hslot
    | stored b =>
      have ⟨hnum, pos, hpos, _⟩ := hslot
      cases he.symm.trans hpos
      rw [removed]
      by_cases heq : L.id b = id
      · rw [if_pos heq, if_pos heq]
        exact ⟨hnum, _, hself⟩
      · rwa [if_neg heq, if_neg heq]
    | removed b =>
      have ⟨hnum, pos, hpos⟩ := hslot
      cases he.symm.trans hpos
      split
      · exact ⟨hnum, _, hself⟩
      · exact hslot
  · rw [Call.record, update_of_ne hm]
    split
    · exact (h m).write hm fun _ _ _ hread => hread
    · exact h m

/-- A call keeps the refinement, whether it throws or not. -/
theorem step_refines {s : BlockDatabase × (Nat → Slot Block)} (c : Call Block)
    (h : Refines L s.1 s.2) :
    Refines L (step L s c).1 (step L s c).2 := by
  rw [step]
  split
  · exact h
  next d hd =>
  cases c with
  | store b withId =>
    refine h.store ?_ hd
    split
    · exact .inr rfl
    · exact .inl rfl
  | remove id => exact h.remove hd

/-- **The files refine the map after any calls.** -/
theorem run_refines (calls : List (Call Block)) : Refines L (run L calls).1 (run L calls).2 := by
  induction calls using reverseRecOn with
  | nil => exact fun n => entryAt_of_length_le (zero_le _)
  | append_singleton calls c ih =>
    rw [run, foldl_concat]
    exact step_refines c ih

/-! ### The readers -/

/-- What the readers are to return for a number, by its last event -/
def ReadsAs (L : Packing Block) (d : BlockDatabase) (n : Nat) : Slot Block → Prop
  | .stored b => d.contains (L.id b) = true ∧ d.fetchOptional L (L.id b) = some b ∧
      d.fetchByNumber L n = some b ∧ d.fetchBlockId n = some (L.id b)
  | _ => (∀ id, numFromId id = n → d.contains id = false ∧ d.fetchOptional L id = none) ∧
      d.fetchByNumber L n = none ∧ d.fetchBlockId n = none

theorem ne_noId (hn : 1 ≤ numFromId id) : id ≠ noId := by
  rintro rfl
  exact absurd hn (by decide)

theorem unpackAs_nil (L : Packing Block) (e : IndexEntry) : unpackAs L e [] = none := by
  rw [unpackAs, L.unpack_nil]
  rfl

theorem Agrees.never_readsAs (h : Agrees L d n .never) (hn : 1 ≤ n) : ReadsAs L d n .never := by
  refine ⟨?_, ?_, ?_⟩
  · rintro id rfl
    have hne := ne_noId hn
    rw [contains, fetchOptional, if_neg hne]
    cases hread : d.readEntry (numFromId id) with
    | none => exact ⟨ite_self _, ite_self _⟩
    | some e =>
      rw [h.never_readEntry hread, any_some, bind_some, if_pos hne.symm, decide_eq_false fun h =>
        hne.symm h.1]
      exact ⟨ite_self _, ite_self _⟩
  · rw [fetchByNumber]
    cases hread : d.readEntry n with
    | none => exact ite_self _
    | some e =>
      have hempty : ByteFile.read d.blocks 0 0 = some [] := by simp [ByteFile.read]
      rw [h.never_readEntry hread, bind_some, hempty, bind_some, unpackAs_nil]
      exact ite_self _
  · rw [fetchBlockId]
    cases hread : d.readEntry n with
    | none => exact ite_self _
    | some e =>
      rw [h.never_readEntry hread, bind_some, if_pos rfl]
      exact ite_self _

theorem fetchBlockId_eq {e : IndexEntry} (hread : d.readEntry n = some e) (hne : e.blockId ≠ noId) :
    d.fetchBlockId n = some e.blockId := by
  have hle := (readEntry_eq_some.1 hread).1
  rw [fetchBlockId, if_neg (by omega), hread, bind_some, if_neg hne]

theorem Agrees.stored_readsAs {b : Block} (h : Agrees L d n (.stored b)) (hn : 1 ≤ n)
    (hsize : (L.pack b).length < 2 ^ 32) : ReadsAs L d n (.stored b) := by
  obtain ⟨rfl, pos, hpos, hread⟩ := h
  have hmod : (L.pack b).length % 256 ^ 4 = (L.pack b).length := mod_eq_of_lt hsize
  rw [hmod] at hpos
  have hne := ne_noId hn
  have hle := (readEntry_eq_some.1 hpos).1
  have hpack := L.pack_pos b
  have hunpack : ∀ e : IndexEntry, e.blockId = L.id b → unpackAs L e (L.pack b) = some b := by
    intro e he
    rw [unpackAs, L.unpack_pack, bind_some, if_pos he.symm]
  refine ⟨?_, ?_, ?_, fetchBlockId_eq hpos hne⟩
  · rw [contains, if_neg hne, if_neg (by omega), hpos, any_some, decide_eq_true ⟨rfl, hpack⟩]
  · rw [fetchOptional, if_neg (by omega), hpos, bind_some, if_neg (not_not.2 rfl), if_pos hpack.ne',
      hread, bind_some, hunpack _ rfl]
  · rw [fetchByNumber, if_neg (by omega), hpos, bind_some, hread, bind_some, hunpack _ rfl]

/-- The last event of a number is not a removal, nor the store of a block whose size is
no `uint32_t`. -/
def Readable (L : Packing Block) : Slot Block → Prop
  | .never => True
  | .stored b => (L.pack b).length < 2 ^ 32
  | .removed _ => False

theorem Agrees.lt_of_readsAs {b : Block} (h : Agrees L d n (.stored b))
    (hreads : ReadsAs L d n (.stored b)) :
    (L.pack b).length < 2 ^ 32 := by
  obtain ⟨-, pos, hpos, -⟩ := h
  obtain ⟨-, hfetch⟩ := ite_none_left_eq_some.1 hreads.2.2.1
  rw [hpos, bind_some] at hfetch
  obtain ⟨data, hdata, hfetch⟩ := bind_eq_some_iff.1 hfetch
  obtain ⟨b', hb', hfetch⟩ := bind_eq_some_iff.1 hfetch
  cases (ite_none_right_eq_some.1 hfetch).2
  rw [L.pack_unpack data b hb', length_of_read hdata]
  exact mod_lt _ (by decide)

theorem Refines.readsAs_iff (h : Refines L d slots) (hn : 1 ≤ n) :
    ReadsAs L d n (slots n) ↔ Readable L (slots n) := by
  have hslot := h n
  generalize slots n = s at hslot ⊢
  cases s with
  | never => exact iff_of_true (hslot.never_readsAs hn) trivial
  | stored b => exact ⟨hslot.lt_of_readsAs, hslot.stored_readsAs hn⟩
  | removed b =>
    obtain ⟨rfl, pos, hpos⟩ := hslot
    -- the id is still in the entry
    refine iff_of_false (fun hreads => ?_) id
    cases (fetchBlockId_eq hpos (ne_noId hn)).symm.trans hreads.2.2

theorem Refines.remove_other (h : Refines L d slots)
    (hother : ∀ b, slots (numFromId id) = .stored b → L.id b ≠ id) :
    d.remove id = none ∨ d.remove id = some d := by
  cases hremove : d.remove id with
  | none => exact .inl rfl
  | some d' =>
    obtain ⟨e, he, rfl⟩ := remove_eq_some hremove
    refine .inr (congrArg some ?_)
    split
    swap
    · rfl
    next heq =>
    have hsize : e.blockSize = 0 := by
      have hslot := h (numFromId id)
      generalize slots (numFromId id) = s at hslot hother
      cases s with
      | never => rw [hslot.never_readEntry he]
      | stored b =>
        obtain ⟨-, pos, hpos, -⟩ := hslot
        cases he.symm.trans hpos
        exact absurd heq (hother b rfl)
      | removed b =>
        obtain ⟨-, pos, hpos⟩ := hslot
        cases he.symm.trans hpos
        rfl
    obtain ⟨hle, rfl⟩ := readEntry_eq_some.1 he
    rw [← hsize, write_entryAt hle]

/-- **The block database is a map, but for removed blocks.** After any calls, the readers return for
a number what its last event says, and an id other than the stored one is removed without any
change, exactly if the last event is not the removal of the block, of which the id is still
returned, nor the store of a block of 2^32 bytes or more. -/
theorem block_database_map_iff (L : Packing Block) (calls : List (Call Block)) (hn : 1 ≤ n) :
    (ReadsAs L (run L calls).1 n ((run L calls).2 n) ∧
      ∀ id, numFromId id = n → (∀ b, (run L calls).2 n = .stored b → L.id b ≠ id) →
        (run L calls).1.remove id = none ∨ (run L calls).1.remove id = some (run L calls).1) ↔
      Readable L ((run L calls).2 n) := by
  rw [← (run_refines calls).readsAs_iff hn, and_iff_left_iff_imp]
  rintro - id rfl hother
  exact (run_refines calls).remove_other hother

/-- Two blocks, with numbers 1 and 3 -/
def twoBlocks : Packing Bool where
  pack b := [if b then 3 else 1]
  unpack data := if data = [3] then some true else if data = [1] then some false else none
  id b i := if i = 3 then if b then 3 else 1 else 0
  unpack_pack b := by cases b <;> rfl
  pack_unpack data b h := by
    split at h
    · next heq => rw [← some.inj h, heq]; rfl
    · obtain ⟨rfl, h⟩ := ite_none_right_eq_some.1 h
      rw [← some.inj h]
      rfl
  pack_pos _ := Nat.one_pos

/-- Both blocks are stored, and another id of number 3 is removed. -/
def gapCalls : List (Call Bool) :=
  [.store false true, .store true true, .remove fun i => if i = 3 then 3 else 1]

theorem block_database_map_gap : ReadsAs twoBlocks (run twoBlocks gapCalls).1 2 .never ∧
    ReadsAs twoBlocks (run twoBlocks gapCalls).1 3 (.stored true) := by
  have hgap : (run twoBlocks gapCalls).2 2 = .never := by decide +kernel
  have hstored : (run twoBlocks gapCalls).2 3 = .stored true := by decide +kernel
  have hnever := block_database_map_iff (n := 2) twoBlocks gapCalls (by decide)
  have hthird := block_database_map_iff (n := 3) twoBlocks gapCalls (by decide)
  rw [hgap] at hnever
  rw [hstored] at hthird
  exact ⟨(hnever.2 trivial).1, (hthird.2 (show 1 < 2 ^ 32 by decide)).1⟩

/-- A single block, with number 1 -/
def oneBlock : Packing Unit where
  pack _ := [1]
  unpack data := if data = [1] then some () else none
  id _ i := if i = 3 then 1 else 0
  unpack_pack _ := rfl
  pack_unpack _ _ h := (Option.ite_none_right_eq_some.1 h).1.symm
  pack_pos _ := by decide

/-- The id of a removed block is returned. -/
theorem fetchBlockId_removed :
    (run oneBlock [.store () true, .remove (oneBlock.id ())]).2 1 = .removed () ∧
      (run oneBlock [.store () true, .remove (oneBlock.id ())]).1.fetchBlockId 1 = some
      (oneBlock.id ()) := by
  decide +kernel

end BlockDatabase

end CrowdwizChain
