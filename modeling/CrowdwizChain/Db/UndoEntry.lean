import CrowdwizChain.Db.UndoDatabase

/-!
# What an undo state records about one object

The comment over `undo_database::merge` reads the three containers of an undo state as one of four
relations between an object and a session: the object is *new*, it was *updated*, it was *deleted*,
or nothing happened to it. This file takes that reading as the abstract model:

* `Entry` is one of the four relations, `Entry.Relates` what it says about the contents of the
  object at the start of the session and now, and `Entry.comp` the 4×4 table of the comment;
* `UndoState.entry` reads the relation off the containers, and `UndoState.Records` says that a
  state records the whole difference between two databases, next ids included.
-/

namespace CrowdwizChain

open Option List AList

universe u

variable {α : Type u}

/-! ### Entries -/

/-- The relation of an object to a session. -/
inductive Entry (α : Type u)
  /-- created in the session -/
  | new
  /-- modified in the session, with the contents it had before -/
  | upd (was : α)
  /-- removed in the session, with the contents it had before -/
  | del (was : α)
  /-- none of these -/
  | nop

namespace Entry

/-- What the entry says about the object at the start of the session and after it. -/
def Relates : Entry α → Option α → Option α → Prop
  | new, old, cur => old = none ∧ cur.isSome
  | upd w, old, cur => old = some w ∧ cur.isSome
  | del w, old, cur => old = some w ∧ cur = none
  | nop, old, cur => cur = old

/-- The entries of an outer and an inner session that do not violate causality. -/
def Composable : Entry α → Entry α → Prop
  | nop, _ => True
  | _, nop => True
  | new, upd _ => True
  | new, del _ => True
  | upd _, upd _ => True
  | upd _, del _ => True
  | _, _ => False

/-- The table of the source: the entry of the outer session, then the entry of the inner one. -/
def comp : Entry α → Entry α → Entry α
  | nop, b => b
  | new, del _ => nop
  | upd w, del _ => del w
  | a, _ => a

@[simp] theorem comp_nop (a : Entry α) : a.comp nop = a := by
  cases a <;> rfl

/-- Successive sessions have composable entries, as long as an id that the inner session creates
was not in use when the outer one started. -/
theorem composable_of_relates {a b : Entry α} {s t r : Option α}
    (ha : a.Relates s t) (hb : b.Relates t r) (hfresh : b = new → s = none) : a.Composable b := by
  cases a <;> cases b <;> simp_all [Relates, Composable]

/-- **The table is right**: the composed entry relates the outer start to the inner end. -/
theorem comp_relates {a b : Entry α} {s t r : Option α}
    (ha : a.Relates s t) (hb : b.Relates t r) (hfresh : b = new → s = none) :
    (a.comp b).Relates s r := by
  cases a <;> cases b <;> simp_all [Relates, comp]

end Entry

namespace UndoState

variable {st : UndoState α}

/-- No object stands in two of the three containers. -/
structure Separate (st : UndoState α) : Prop where
  new_old : ∀ id ∈ st.newIds, id ∉ st.oldValues
  new_removed : ∀ id ∈ st.newIds, id ∉ st.removed
  old_removed : ∀ id ∈ st.oldValues, id ∉ st.removed

/-- The entry of an object, read off the containers. -/
def entry (st : UndoState α) (id : ObjectId) : Entry α :=
  if id ∈ st.newIds then .new
  else match st.oldValues.lookup id with
    | some w => .upd w
    | none => match st.removed.lookup id with
      | some w => .del w
      | none => .nop

variable {id : ObjectId}

theorem separate_empty : (empty : UndoState α).Separate :=
  ⟨fun _ _ => notMem_empty _, fun _ _ => notMem_empty _, fun _ _ => notMem_empty _⟩

@[simp] theorem entry_empty (id : ObjectId) : (empty : UndoState α).entry id = .nop := by
  simp [entry, empty]

theorem entry_of_mem_new (h : id ∈ st.newIds) : st.entry id = .new := by
  simp [entry, h]

theorem entry_of_mem_old (hs : st.Separate) {w : α} (h : st.oldValues.lookup id = some w) :
    st.entry id = .upd w := by
  have hmem : id ∈ st.oldValues := lookup_isSome.1 (by simp [h])
  have hnew : id ∉ st.newIds := fun hn => hs.new_old id hn hmem
  simp [entry, hnew, h]

theorem entry_of_mem_removed (hs : st.Separate) {w : α} (h : st.removed.lookup id = some w) :
    st.entry id = .del w := by
  have hmem : id ∈ st.removed := lookup_isSome.1 (by simp [h])
  have hnew : id ∉ st.newIds := fun hn => hs.new_removed id hn hmem
  have hold : st.oldValues.lookup id = none :=
    lookup_eq_none.2 fun ho => hs.old_removed id ho hmem
  simp [entry, hnew, hold, h]

/-- An entry is `nop` exactly when the object stands in none of the containers. -/
theorem entry_eq_nop : st.entry id = .nop ↔ id ∉ st.newIds ∧ id ∉ st.oldValues ∧
    id ∉ st.removed := by
  unfold entry
  by_cases hn : id ∈ st.newIds
  · simp [hn]
  · rw [← lookup_eq_none (s := st.oldValues), ← lookup_eq_none (s := st.removed)]
    cases ho : st.oldValues.lookup id with
    | some w => simp [hn]
    | none => cases hr : st.removed.lookup id <;> simp [hn]

/-- Which container an entry other than `nop` comes from. -/
theorem entry_cases (st : UndoState α) (id : ObjectId) : (id ∈ st.newIds ∧ st.entry id = .new) ∨
      (∃ w, st.oldValues.lookup id = some w ∧ st.entry id = .upd w) ∨
      (∃ w, st.removed.lookup id = some w ∧ st.entry id = .del w) ∨ st.entry id = .nop := by
  by_cases hn : id ∈ st.newIds
  · exact .inl ⟨hn, entry_of_mem_new hn⟩
  · cases ho : st.oldValues.lookup id with
    | some w => exact .inr (.inl ⟨w, rfl, by simp [entry, hn, ho]⟩)
    | none =>
      cases hr : st.removed.lookup id with
      | some w => exact .inr (.inr (.inl ⟨w, rfl, by simp [entry, hn, ho, hr]⟩))
      | none => exact .inr (.inr (.inr (by simp [entry, hn, ho, hr])))

/-- Only a removed object has a `del` entry. -/
theorem not_mem_removed_of_composable (hs : st.Separate) {v : α}
    (h : (st.entry id).Composable (.upd v)) :
    id ∉ st.removed := by
  intro hr
  obtain ⟨w, hw⟩ := isSome_iff_exists.1 (lookup_isSome.2 hr)
  rw [entry_of_mem_removed hs hw] at h
  exact h

/-! ### The hooks and the merge loops on entries

Each of them changes the entry of one object and keeps the containers separate. -/

/-- The entry `e` is composed with what is recorded about `id`, and nothing else is touched. -/
structure Adds (st st' : UndoState α) (id : ObjectId) (e : Entry α) : Prop where
  separate : st'.Separate
  entry_self : st'.entry id = (st.entry id).comp e
  entry_ne : ∀ id' ≠ id, st'.entry id' = st.entry id'
  nextIds : st'.oldIndexNextIds = st.oldIndexNextIds

theorem mergeUpd_adds (hs : st.Separate) {e : Σ _ : ObjectId, α}
    (hc : (st.entry e.1).Composable (.upd e.2)) : Adds st (st.mergeUpd e) e.1 (.upd e.2) := by
  obtain ⟨id, v⟩ := e
  have hrem := not_mem_removed_of_composable hs hc
  by_cases hn : id ∈ st.newIds
  · have h : st.mergeUpd ⟨id, v⟩ = st := by simp [mergeUpd, hn]
    rw [h]
    exact ⟨hs, by rw [entry_of_mem_new hn]; rfl, fun _ _ => rfl, rfl⟩
  · by_cases ho : id ∈ st.oldValues
    · have h : st.mergeUpd ⟨id, v⟩ = st := by simp [mergeUpd, hn, ho]
      obtain ⟨w, hw⟩ := isSome_iff_exists.1 (lookup_isSome.2 ho)
      rw [h]
      exact ⟨hs, by rw [entry_of_mem_old hs hw]; rfl, fun _ _ => rfl, rfl⟩
    · have h : st.mergeUpd ⟨id, v⟩ = { st with oldValues := st.oldValues.insert id v } := by
        simp [mergeUpd, hn, ho]
      rw [h]
      refine ⟨⟨fun i hi => ?_, hs.new_removed, fun i hi => ?_⟩, ?_, fun i hi => ?_, rfl⟩
      · rw [mem_insert, not_or]
        exact ⟨fun h => hn (h ▸ hi), hs.new_old i hi⟩
      · rcases (mem_insert _).1 hi with rfl | hi
        · exact hrem
        · exact hs.old_removed i hi
      · rw [entry_eq_nop.2 ⟨hn, ho, hrem⟩]
        simp [entry, hn, Entry.comp]
      · simp [entry, lookup_insert_ne hi]

theorem mergeNew_adds (hs : st.Separate) (hc : (st.entry id).Composable .new) :
    Adds st (st.mergeNew id) id .new := by
  have hnop : st.entry id = .nop := by
    cases he : st.entry id <;> simp_all [Entry.Composable]
  obtain ⟨-, ho, hr⟩ := entry_eq_nop.1 hnop
  refine ⟨⟨fun i hi => ?_, fun i hi => ?_, hs.old_removed⟩, ?_, fun i hi => ?_, rfl⟩
  · rcases (mem_insert _).1 hi with rfl | hi
    · exact ho
    · exact hs.new_old i hi
  · rcases (mem_insert _).1 hi with rfl | hi
    · exact hr
    · exact hs.new_removed i hi
  · rw [hnop, entry_of_mem_new (by simp [mergeNew])]
    rfl
  · simp [entry, mergeNew, hi]

theorem mergeDel_adds (hs : st.Separate) {e : Σ _ : ObjectId, α}
    (hc : (st.entry e.1).Composable (.del e.2)) : Adds st (st.mergeDel e) e.1 (.del e.2) := by
  obtain ⟨id, v⟩ := e
  have hrem : id ∉ st.removed := by
    intro hr
    obtain ⟨w, hw⟩ := isSome_iff_exists.1 (lookup_isSome.2 hr)
    rw [entry_of_mem_removed hs hw] at hc
    exact hc
  by_cases hn : id ∈ st.newIds
  · have ho := hs.new_old id hn
    have h : st.mergeDel ⟨id, v⟩ = { st with newIds := st.newIds.erase id } := by
      simp [mergeDel, hn]
    rw [h]
    refine ⟨⟨fun i hi => ?_, fun i hi => ?_, hs.old_removed⟩, ?_, fun i hi => ?_, rfl⟩
    · exact hs.new_old i (mem_erase.1 hi).2
    · exact hs.new_removed i (mem_erase.1 hi).2
    · rw [entry_of_mem_new hn]
      exact entry_eq_nop.2 ⟨by simp, ho, hrem⟩
    · simp [entry, mem_erase, hi]
  · cases ho : st.oldValues.lookup id with
    | some w =>
      have h : st.mergeDel ⟨id, v⟩ =
          { st with removed := st.removed.insert id w, oldValues := st.oldValues.erase id } := by
        simp [mergeDel, hn, ho]
      rw [h]
      refine ⟨⟨fun i hi => ?_, fun i hi => ?_, fun i hi => ?_⟩, ?_, fun i hi => ?_, rfl⟩
      · rw [mem_erase, not_and]
        exact fun _ => hs.new_old i hi
      · rw [mem_insert, not_or]
        exact ⟨fun h => hn (h ▸ hi), hs.new_removed i hi⟩
      · obtain ⟨hne, hi⟩ := mem_erase.1 hi
        rw [mem_insert, not_or]
        exact ⟨hne, hs.old_removed i hi⟩
      · rw [entry_of_mem_old hs ho]
        simp [entry, hn, Entry.comp]
      · simp [entry, lookup_insert_ne hi, lookup_erase_ne hi]
    | none =>
      have h : st.mergeDel ⟨id, v⟩ = { st with removed := st.removed.insert id v } := by
        simp [mergeDel, hn, ho]
      have ho' : id ∉ st.oldValues := lookup_eq_none.1 ho
      rw [h]
      refine ⟨⟨hs.new_old, fun i hi => ?_, fun i hi => ?_⟩, ?_, fun i hi => ?_, rfl⟩
      · rw [mem_insert, not_or]
        exact ⟨fun h => hn (h ▸ hi), hs.new_removed i hi⟩
      · rw [mem_insert, not_or]
        exact ⟨fun h => ho' (h ▸ hi), hs.old_removed i hi⟩
      · rw [entry_eq_nop.2 ⟨hn, ho', hrem⟩]
        simp [entry, hn, ho, Entry.comp]
      · simp [entry, lookup_insert_ne hi]

/-- Saving a next id changes no entry. -/
@[simp] theorem entry_mergeNextId (st : UndoState α) (e : Σ _ : IndexId, Nat) (id : ObjectId) :
    (st.mergeNextId e).entry id = st.entry id := by
  unfold mergeNextId
  split <;> rfl

theorem Separate.mergeNextId (hs : st.Separate) (e : Σ _ : IndexId, Nat) :
    (st.mergeNextId e).Separate := by
  unfold UndoState.mergeNextId
  split
  · exact hs
  · exact ⟨hs.new_old, hs.new_removed, hs.old_removed⟩

/-- The next id that was saved first stays. -/
theorem lookup_mergeNextId (st : UndoState α) (e : Σ _ : IndexId, Nat) (idx : IndexId) :
    (st.mergeNextId e).oldIndexNextIds.lookup idx =
      (st.oldIndexNextIds.lookup idx).or (if idx = e.1 then some e.2 else none) := by
  unfold mergeNextId
  by_cases hidx : idx = e.1
  · subst hidx
    split
    · next hmem =>
      obtain ⟨n, hn⟩ := isSome_iff_exists.1 (lookup_isSome.2 hmem)
      simp [hn]
    · next hmem => simp [lookup_eq_none.2 hmem]
  · split
    · simp
    · simp [lookup_insert_ne hidx]

/-- `on_create` is one pass of the `*+new` loop and one of the loop over the next ids. -/
theorem onCreate_eq (st : UndoState α) (id : ObjectId) :
    st.onCreate id = (st.mergeNew id).mergeNextId ⟨id.index, id.inst⟩ := by
  by_cases h : id.index ∈ st.oldIndexNextIds <;> simp [onCreate, mergeNew, mergeNextId, h]

/-- `on_remove` of an object that is there is one pass of the `*+del` loop. -/
theorem onRemove_eq (h : id ∉ st.removed) (v : α) : st.onRemove id v = st.mergeDel ⟨id, v⟩ := by
  simp [onRemove, mergeDel, h]

/-! ### Whole loops -/

section Loops

variable {ι : Type*} {k : ι → ObjectId} {g : ι → Entry α} {f : UndoState α → ι → UndoState α}

/-- A loop whose passes each add one entry, no object being met twice, adds all these entries. -/
theorem foldl_adds (hf : ∀ {st : UndoState α} {e}, st.Separate → (st.entry (k e)).Composable (g e) →
      Adds st (f st e) (k e) (g e)) {l : List ι} (hnd : (l.map k).Nodup) (hs : st.Separate)
    (hc : ∀ e ∈ l, (st.entry (k e)).Composable (g e)) :
    (l.foldl f st).Separate ∧ (∀ e ∈ l, (l.foldl f st).entry (k e) = (st.entry (k e)).comp (g e)) ∧
      (∀ id ∉ l.map k, (l.foldl f st).entry id = st.entry id) ∧
      (l.foldl f st).oldIndexNextIds = st.oldIndexNextIds := by
  induction l generalizing st with
  | nil => exact ⟨hs, by simp, fun _ _ => rfl, rfl⟩
  | cons e l ih =>
    obtain ⟨hnotin, hnd⟩ := nodup_cons.1 hnd
    have hadd := hf hs (hc e mem_cons_self)
    -- the first pass leaves the entries of the objects still to come as they were
    have hkeep : ∀ e' ∈ l, (f st e).entry (k e') = st.entry (k e') := fun e' he' =>
      hadd.entry_ne _ fun heq => hnotin (heq ▸ List.mem_map_of_mem he')
    obtain ⟨hs', hin, hout, hnext⟩ := ih hnd hadd.separate fun e' he' => by
      rw [hkeep e' he']
      exact hc e' (mem_cons_of_mem _ he')
    refine ⟨hs', fun e' he' => ?_, fun id hid => ?_, hnext.trans hadd.nextIds⟩
    · rcases mem_cons.1 he' with rfl | he'
      · exact (hout _ hnotin).trans hadd.entry_self
      · rw [foldl_cons, hin e' he', hkeep e' he']
    · rw [map_cons, mem_cons, not_or] at hid
      exact (hout id hid.2).trans (hadd.entry_ne id hid.1)

/-- The loop over the next ids changes no entry and keeps what was saved first. -/
theorem foldl_mergeNextId (hs : st.Separate) (l : List (Σ _ : IndexId, Nat)) :
    (l.foldl mergeNextId st).Separate ∧ (∀ id, (l.foldl mergeNextId st).entry id = st.entry id) ∧
      ∀ idx, (l.foldl mergeNextId st).oldIndexNextIds.lookup idx =
        (st.oldIndexNextIds.lookup idx).or (l.dlookup idx) := by
  induction l generalizing st with
  | nil => exact ⟨hs, fun _ => rfl, fun idx => by simp⟩
  | cons e l ih =>
    obtain ⟨hs', hent, hlk⟩ := ih (hs.mergeNextId e)
    refine ⟨hs', fun id => (hent id).trans (entry_mergeNextId st e id), fun idx => ?_⟩
    rw [foldl_cons, hlk idx, lookup_mergeNextId, Option.or_assoc]
    congr 1
    obtain ⟨i, n⟩ := e
    by_cases hidx : idx = i
    · subst hidx
      simp
    · simp [hidx]

end Loops

end UndoState

end CrowdwizChain
