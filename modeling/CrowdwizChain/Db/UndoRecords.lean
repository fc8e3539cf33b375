import CrowdwizChain.Db.UndoEntry

/-!
# An undo state records the difference between two databases

`UndoState.Records st old cur` says that `st` is the exact difference between the database `old` in
which a session started and the database `cur` in which it stands. Three facts carry everything
that is proved about sessions:

* the empty state records no difference, and creating, modifying and removing an object in a
  session keep the difference recorded (`records_create`, `records_modify`, `records_remove`);
* `undo` on a state that records the difference gives back the old database (`revert_eq`);
* `merge` composes differences (`records_merge`).
-/

namespace CrowdwizChain

open Option List AList

universe u

variable {α : Type u}

namespace ObjectDatabase

variable {db : ObjectDatabase α} {id : ObjectId} {idx : IndexId}

@[simp] theorem find_put_self (db : ObjectDatabase α) (id : ObjectId) (v : Option α) :
    (db.put id v).find id = v := by
  simp [put]

@[simp] theorem find_put_ne (db : ObjectDatabase α) {id' : ObjectId} (h : id' ≠ id) (v : Option α) :
    (db.put id v).find id' = db.find id' := by
  simp [put, h]

@[simp] theorem nextId_put (db : ObjectDatabase α) (id : ObjectId) (v : Option α) :
    (db.put id v).nextId = db.nextId := rfl

@[simp] theorem find_setNextId (db : ObjectDatabase α) (idx : IndexId) (n : Nat) :
    (db.setNextId idx n).find = db.find := rfl

@[simp] theorem nextId_setNextId_self (db : ObjectDatabase α) (idx : IndexId) (n : Nat) :
    (db.setNextId idx n).nextId idx = n := by
  simp [setNextId]

@[simp] theorem nextId_setNextId_ne (db : ObjectDatabase α) {idx' : IndexId} (h : idx' ≠ idx)
    (n : Nat) :
    (db.setNextId idx n).nextId idx' = db.nextId idx' := by
  simp [setNextId, h]

/-- Every stored object got its id from the index that holds it: its instance number has been
used up. The class promises this, since objects enter through `create` only. -/
def WF (db : ObjectDatabase α) : Prop :=
  ∀ id, (db.find id).isSome → id.inst < db.nextId id.index

theorem WF.find_eq_none (h : db.WF) (hid : db.nextId id.index ≤ id.inst) : db.find id = none := by
  by_contra hne
  have := h id (isSome_iff_ne_none.2 hne)
  omega

theorem create_eq_some {db' : ObjectDatabase α} {v : α} (h : db.create idx v = some db') :
    db.find (db.getNextId idx) = none ∧
      db' = (db.put (db.getNextId idx) (some v)).setNextId idx (db.nextId idx + 1) := by
  unfold create insert at h
  cases hf : db.find (db.getNextId idx) with
  | some w => simp [hf] at h
  | none =>
    simp only [hf, map_some, some.injEq] at h
    exact ⟨rfl, h.symm⟩

theorem WF.create {db' : ObjectDatabase α} (hwf : db.WF) {v : α} (h : db.create idx v = some db') :
    db'.WF := by
  obtain ⟨-, rfl⟩ := create_eq_some h
  intro id hid
  by_cases hself : id = db.getNextId idx
  · subst hself
    simp [getNextId]
  · have hlt := hwf id (by simpa [hself] using hid)
    by_cases hidx : id.index = idx
    · subst hidx
      simp only [nextId_setNextId_self]
      omega
    · simpa [hidx] using hlt

theorem WF.put_some (hwf : db.WF) (v : Option α) (h : (db.find id).isSome) : (db.put id v).WF := by
  intro id' hid'
  by_cases hself : id' = id
  · subst hself
    exact hwf id' h
  · exact hwf id' (by simpa [hself] using hid')

end ObjectDatabase

/-! ### Differences -/

/-- **The difference between two databases**: an entry for every object, and for every index the
next id it had, if one was saved. -/
structure Difference (old cur : ObjectDatabase α) (e : ObjectId → Entry α)
    (saved : IndexId → Option Nat) : Prop where
  relates : ∀ id, (e id).Relates (old.find id) (cur.find id)
  /-- an id in use at the start is not handed out again -/
  fresh : ∀ id, e id = .new → old.nextId id.index ≤ id.inst
  nextId_saved : ∀ idx n, saved idx = some n → old.nextId idx = n
  nextId_same : ∀ idx, saved idx = none → cur.nextId idx = old.nextId idx
  nextId_mono : ∀ idx, old.nextId idx ≤ cur.nextId idx

namespace Difference

variable {old mid cur : ObjectDatabase α} {a b : ObjectId → Entry α}
  {na nb : IndexId → Option Nat}

variable (hwf : old.WF) (ha : Difference old mid a na) (hb : Difference mid cur b nb)

include hwf ha hb

/-- An object created after `mid` was not in the database `old` before it. -/
theorem find_eq_none {id : ObjectId} (h : b id = .new) : old.find id = none :=
  hwf.find_eq_none (Nat.le_trans (ha.nextId_mono _) (hb.fresh id h))

theorem composable (id : ObjectId) : (a id).Composable (b id) :=
  Entry.composable_of_relates (ha.relates id) (hb.relates id) (ha.find_eq_none hwf hb)

/-- **Differences compose**, entry by entry and next id by next id. -/
theorem comp :
    Difference old cur (fun id => (a id).comp (b id)) (fun idx => (na idx).or (nb idx)) where
  relates id := Entry.comp_relates (ha.relates id) (hb.relates id) (ha.find_eq_none hwf hb)
  fresh id h := by
    cases hA : a id with
    | new => exact ha.fresh id hA
    | nop =>
      rw [hA] at h
      exact Nat.le_trans (ha.nextId_mono _) (hb.fresh id h)
    | upd w => cases hB : b id <;> simp [hA, hB, Entry.comp] at h
    | del w => cases hB : b id <;> simp [hA, hB, Entry.comp] at h
  nextId_saved idx n h := by
    cases hA : na idx with
    | some m => exact ha.nextId_saved idx n (by simpa [hA] using h)
    | none =>
      rw [← ha.nextId_same idx hA]
      exact hb.nextId_saved idx n (by simpa [hA] using h)
  nextId_same idx h := by
    obtain ⟨hA, hB⟩ := Option.or_eq_none_iff.1 h
    exact (hb.nextId_same idx hB).trans (ha.nextId_same idx hA)
  nextId_mono idx := Nat.le_trans (ha.nextId_mono idx) (hb.nextId_mono idx)

end Difference

/-- The entries of a session that did one thing to one object. -/
def single (id : ObjectId) (e : Entry α) : ObjectId → Entry α :=
  fun i => if i = id then e else .nop

/-- Creating an object is a `new` entry, and uses an id up. -/
theorem difference_create {db db' : ObjectDatabase α} {idx : IndexId} {v : α}
    (h : db.create idx v = some db') : Difference db db' (single (db.getNextId idx) .new)
      (fun i => if i = idx then some (db.nextId idx) else none) := by
  obtain ⟨hnone, rfl⟩ := ObjectDatabase.create_eq_some h
  refine ⟨fun id => ?_, fun id hid => ?_, fun i n hn => ?_, fun i hi => ?_, fun i => ?_⟩
  · by_cases hid : id = db.getNextId idx
    · subst hid
      simp [single, Entry.Relates, hnone]
    · simp [single, hid, Entry.Relates]
  · by_cases hid' : id = db.getNextId idx
    · subst hid'
      exact le_rfl
    · simp [single, hid'] at hid
  · by_cases hi : i = idx
    · subst hi
      simpa using hn
    · simp [hi] at hn
  · by_cases hi' : i = idx
    · simp [hi'] at hi
    · simp [hi']
  · by_cases hi : i = idx
    · subst hi
      simp
    · simp [hi]

/-- Writing under an id in use is the entry that relates the contents before and after. -/
theorem difference_put {db : ObjectDatabase α} {id : ObjectId} {e : Entry α} {v : Option α}
    (he : e.Relates (db.find id) v) (hnew : e ≠ .new) :
    Difference db (db.put id v) (single id e) (fun _ => none) := by
  refine ⟨fun i => ?_, fun i hi => ?_, fun _ _ h => ?_, fun _ _ => rfl, fun _ => le_rfl⟩
  · by_cases hi : i = id
    · subst hi
      simpa [single] using he
    · simp [single, hi, Entry.Relates]
  · by_cases hi' : i = id
    · simp only [single, hi', if_true] at hi
      exact absurd hi hnew
    · simp [single, hi'] at hi
  · cases h

namespace UndoState

open ObjectDatabase

/-- **The state records the difference** between the database in which the session started and the
database in which it stands. -/
structure Records (st : UndoState α) (old cur : ObjectDatabase α) : Prop where
  separate : st.Separate
  difference : Difference old cur st.entry st.oldIndexNextIds.lookup

variable {st st' : UndoState α} {old mid cur : ObjectDatabase α}

variable {id : ObjectId} {v : α}

theorem records_empty (db : ObjectDatabase α) : (empty : UndoState α).Records db db where
  separate := separate_empty
  difference :=
    { relates := fun id => by simp [Entry.Relates]
      fresh := fun id h => by simp at h
      nextId_saved := fun idx n h => by simp [empty] at h
      nextId_same := fun _ _ => rfl
      nextId_mono := fun _ => le_rfl }

/-- A state that composes the entries of a further difference with its own records the composed
difference. -/
theorem Records.extend (h : st.Records old mid) (hwf : old.WF) {e : ObjectId → Entry α}
    {saved : IndexId → Option Nat} (hd : Difference mid cur e saved) (hs : st'.Separate)
    (hent : ∀ id, st'.entry id = (st.entry id).comp (e id))
      (hnext : ∀ idx, st'.oldIndexNextIds.lookup idx =
      (st.oldIndexNextIds.lookup idx).or (saved idx)) : st'.Records old cur where
  separate := hs
  difference := by
    have hcomp := h.difference.comp hwf hd
    rw [← funext hent, ← funext hnext] at hcomp
    exact hcomp

/-- The entries after one is added, in the form that `Records.extend` asks for. -/
theorem Adds.entry_single {e : Entry α} (h : Adds st st' id e) (i : ObjectId) :
    st'.entry i = (st.entry i).comp (single id e i) := by
  by_cases hi : i = id
  · subst hi
    simpa [single] using h.entry_self
  · simpa [single, hi] using h.entry_ne i hi

section

variable (h : st.Records old mid) (hwf : old.WF)

include h hwf

theorem composable_single {e : Entry α} {saved : IndexId → Option Nat}
    (hd : Difference mid cur (single id e) saved) : (st.entry id).Composable e := by
  simpa [single] using h.difference.composable hwf hd id

/-! ### The hooks keep the difference recorded -/

theorem records_create {idx : IndexId}
    (hc : mid.create idx v = some cur) : (st.onCreate (mid.getNextId idx)).Records old cur := by
  have hd := difference_create hc
  have hadd := mergeNew_adds h.separate (composable_single h hwf hd)
  rw [onCreate_eq]
  refine h.extend hwf hd (hadd.separate.mergeNextId _) (fun i => ?_) fun i => ?_
  · rw [entry_mergeNextId, hadd.entry_single]
  · rw [lookup_mergeNextId, hadd.nextIds]
    rfl

theorem records_modify {w : α} (hv : mid.find id = some v) :
    (st.onModify id v).Records old (mid.put id (some w)) := by
  have hd : Difference mid (mid.put id (some w)) (single id (.upd v)) fun _ => none :=
    difference_put (by simp [Entry.Relates, hv]) (by simp)
  have hadd : Adds st (st.onModify id v) id (.upd v) := by
    exact mergeUpd_adds h.separate (e := ⟨id, v⟩) (composable_single h hwf hd)
  refine h.extend hwf hd hadd.separate hadd.entry_single fun i => ?_
  rw [hadd.nextIds, Option.or_none]

theorem records_remove (hv : mid.find id = some v) :
    (st.onRemove id v).Records old (mid.put id none) := by
  have hd : Difference mid (mid.put id none) (single id (.del v)) fun _ => none :=
    difference_put (by simp [Entry.Relates, hv]) (by simp)
  -- an object that is there is not among the removed ones
  have hrem : id ∉ st.removed := by
    intro hr
    obtain ⟨w, hw⟩ := isSome_iff_exists.1 (lookup_isSome.2 hr)
    have hrel := h.difference.relates id
    rw [entry_of_mem_removed h.separate hw] at hrel
    exact absurd (hv.symm.trans hrel.2) (by simp)
  have hadd : Adds st (st.onRemove id v) id (.del v) := by
    rw [onRemove_eq hrem]
    exact mergeDel_adds h.separate (e := ⟨id, v⟩) (composable_single h hwf hd)
  refine h.extend hwf hd hadd.separate hadd.entry_single fun i => ?_
  rw [hadd.nextIds, Option.or_none]

/-! ### `merge` composes differences -/

end

theorem entry_merge {prev st : UndoState α} (hp : prev.Separate) (hs : st.Separate)
    (hc : ∀ id, (prev.entry id).Composable (st.entry id)) :
    (prev.merge st).Separate ∧
      (∀ id, (prev.merge st).entry id = (prev.entry id).comp (st.entry id)) ∧
      ∀ idx, (prev.merge st).oldIndexNextIds.lookup idx =
        (prev.oldIndexNextIds.lookup idx).or (st.oldIndexNextIds.lookup idx) := by
  -- the keys of the three containers, and the entries that their objects have
  have hold : ∀ e ∈ st.oldValues.entries, st.entry e.1 = .upd e.2 := fun e he =>
    entry_of_mem_old hs (mem_lookup_iff.2 he)
  have hrem : ∀ e ∈ st.removed.entries, st.entry e.1 = .del e.2 := fun e he =>
    entry_of_mem_removed hs (mem_lookup_iff.2 he)
  have hnew : ∀ id ∈ st.newIds.keys, st.entry id = .new := fun id hid => entry_of_mem_new hid
  -- the `*+upd` loop
  obtain ⟨s1, in1, out1, n1⟩ := foldl_adds (k := Sigma.fst) (g := fun e => .upd e.2) (f := mergeUpd)
    (fun hs hc => mergeUpd_adds hs hc) st.oldValues.nodupKeys hp fun e he => by
      rw [← hold e he]
      exact hc e.1
  generalize h1 : st.oldValues.entries.foldl mergeUpd prev = p1 at s1 in1 out1 n1
  -- the `*+new` loop: an object created in the inner session was not updated in it
  have hnotold : ∀ id ∈ st.newIds.keys, id ∉ st.oldValues.entries.map Sigma.fst :=
    fun id hid => hs.new_old id hid
  obtain ⟨s2, in2, out2, n2⟩ := foldl_adds (k := id) (g := fun _ => .new) (f := mergeNew)
    (fun hs hc => mergeNew_adds hs hc) (by simpa using st.newIds.keys_nodup) s1 fun id hid => by
      rw [id_eq, out1 id (hnotold id hid), ← hnew id hid]
      exact hc id
  rw [List.map_id] at out2
  generalize h2 : st.newIds.keys.foldl mergeNew p1 = p2 at s2 in2 out2 n2
  -- the loop over the next ids
  obtain ⟨s3, same3, n3⟩ := foldl_mergeNextId s2 st.oldIndexNextIds.entries
  generalize h3 : st.oldIndexNextIds.entries.foldl mergeNextId p2 = p3 at s3 same3 n3
  -- the `*+del` loop: an object removed in the inner session was neither updated nor created
  have hremold : ∀ e ∈ st.removed.entries, e.1 ∉ st.oldValues.entries.map Sigma.fst :=
    fun e he ho => hs.old_removed e.1 ho (List.mem_map_of_mem he)
  have hremnew : ∀ e ∈ st.removed.entries, e.1 ∉ st.newIds.keys :=
    fun e he hn => hs.new_removed e.1 hn (List.mem_map_of_mem he)
  have hp3 : ∀ e ∈ st.removed.entries, p3.entry e.1 = prev.entry e.1 := fun e he => by
    rw [same3, out2 _ (hremnew e he), out1 _ (hremold e he)]
  obtain ⟨s4, in4, out4, n4⟩ := foldl_adds (k := Sigma.fst) (g := fun e => .del e.2) (f := mergeDel)
    (fun hs hc => mergeDel_adds hs hc) st.removed.nodupKeys s3 fun e he => by
      rw [hp3 e he, ← hrem e he]
      exact hc e.1
  have hmerge : prev.merge st = st.removed.entries.foldl mergeDel p3 := by
    simp only [merge, h1, h2, h3]
  rw [hmerge]
  refine ⟨s4, fun id => ?_, fun idx => ?_⟩
  · rcases st.entry_cases id with ⟨hn, he⟩ | ⟨w, hw, he⟩ | ⟨w, hw, he⟩ | he
    · have hr := hs.new_removed id hn
      rw [he, out4 id hr, same3]
      exact (in2 id hn).trans (by rw [id_eq, out1 id (hnotold id hn)])
    · have hmem : ⟨id, w⟩ ∈ st.oldValues.entries := mem_lookup_iff.1 hw
      have ho : id ∈ st.oldValues := List.mem_map_of_mem (f := Sigma.fst) hmem
      have hn : id ∉ st.newIds := fun hn => hs.new_old id hn ho
      rw [he, out4 id (hs.old_removed id ho), same3, out2 id hn]
      exact in1 ⟨id, w⟩ hmem
    · have hmem : ⟨id, w⟩ ∈ st.removed.entries := mem_lookup_iff.1 hw
      rw [he]
      exact (in4 ⟨id, w⟩ hmem).trans (by rw [hp3 ⟨id, w⟩ hmem])
    · obtain ⟨hn, ho, hr⟩ := entry_eq_nop.1 he
      rw [he, out4 id hr, same3, out2 id hn, out1 id ho, Entry.comp_nop]
  · rw [n4, n3, n2, n1]
    rfl

/-- **`merge` is exact**: merged, two successive states record the difference from the start of
the outer session. -/
theorem records_merge {prev st : UndoState α} (hwf : old.WF) (hp : prev.Records old mid)
    (hs : st.Records mid cur) : (prev.merge st).Records old cur := by
  obtain ⟨hsep, hent, hnext⟩ :=
    entry_merge hp.separate hs.separate (hp.difference.composable hwf hs.difference)
  exact hp.extend hwf hs.difference hsep hent hnext

/-! ### `undo` gives the old database back -/

/-- A loop that writes one object in each pass, no object being met twice, writes them all: every
pass finds its object as it was before the loop. -/
theorem foldlM_put {ι : Type*} {k : ι → ObjectId} {w : ι → Option α} {p : Option α → Prop}
    {f : ObjectDatabase α → ι → Option (ObjectDatabase α)}
    (hf : ∀ {d e}, p (d.find (k e)) → f d e = some (d.put (k e) (w e)))
    {l : List ι} (hnd : (l.map k).Nodup) {d : ObjectDatabase α} (hp : ∀ e ∈ l, p (d.find (k e))) :
    ∃ d', l.foldlM f d = some d' ∧ d'.nextId = d.nextId ∧
      (∀ e ∈ l, d'.find (k e) = w e) ∧ ∀ id ∉ l.map k, d'.find id = d.find id := by
  induction l generalizing d with
  | nil => exact ⟨d, rfl, rfl, by simp, fun _ _ => rfl⟩
  | cons e l ih =>
    obtain ⟨hnotin, hnd⟩ := nodup_cons.1 hnd
    have hkeep : ∀ e' ∈ l, k e' ≠ k e := fun e' he' heq =>
      hnotin (heq ▸ List.mem_map_of_mem he')
    obtain ⟨d', hrun, hnext, hin, hout⟩ := ih hnd (d := d.put (k e) (w e)) fun e' he' => by
      rw [find_put_ne _ (hkeep e' he')]
      exact hp e' (mem_cons_of_mem _ he')
    refine ⟨d', ?_, hnext, fun e' he' => ?_, fun id hid => ?_⟩
    · rw [foldlM_cons, hf (hp e mem_cons_self)]
      exact hrun
    · rcases mem_cons.1 he' with rfl | he'
      · rw [hout _ hnotin, find_put_self]
      · exact hin e' he'
    · rw [map_cons, mem_cons, not_or] at hid
      rw [hout id hid.2, find_put_ne _ hid.1]

/-- The loop over the next ids touches no object and sets each saved next id. -/
theorem restoreNextIds_spec (l : List (Σ _ : IndexId, Nat)) (hnd : l.NodupKeys)
    (db : ObjectDatabase α) :
    (restoreNextIds l db).find = db.find ∧
      ∀ idx, (restoreNextIds l db).nextId idx = (l.dlookup idx).getD (db.nextId idx) := by
  induction l generalizing db with
  | nil => exact ⟨rfl, fun idx => by simp [restoreNextIds]⟩
  | cons e l ih =>
    obtain ⟨i, n⟩ := e
    obtain ⟨hnotin, hnd⟩ := nodupKeys_cons.1 hnd
    obtain ⟨hfind, hnext⟩ := ih hnd (db.setNextId i n)
    refine ⟨hfind, fun idx => (hnext idx).trans ?_⟩
    by_cases hidx : idx = i
    · subst hidx
      rw [dlookup_eq_none.2 hnotin, dlookup_cons_eq]
      simp
    · rw [dlookup_cons_ne _ _ hidx, nextId_setNextId_ne _ hidx]

/-- **`undo` is exact**: on a state that records the difference, its loops succeed and give back
the database in which the session started. -/
theorem revert_eq (h : st.Records old cur) : st.revert cur = some old := by
  have hs := h.separate
  have hrel := h.difference.relates
  -- modified objects are there, and get their contents back
  obtain ⟨d1, run1, n1, in1, out1⟩ := foldlM_put (k := Sigma.fst) (w := fun e => some e.2)
    (p := fun o => o.isSome) (f := fun db e => db.modify e.1 fun _ => e.2)
    (l := st.oldValues.entries) (d := cur)
    (fun {d e} hp => by
      obtain ⟨v, hv⟩ := isSome_iff_exists.1 hp
      simp [ObjectDatabase.modify, hv])
    st.oldValues.nodupKeys fun e he => by
      have := hrel e.1
      rw [entry_of_mem_old hs (mem_lookup_iff.2 he)] at this
      exact this.2
  -- created objects are there, and go
  obtain ⟨d2, run2, n2, in2, out2⟩ := foldlM_put (k := id) (w := fun _ => none)
    (p := fun o => o.isSome) (f := fun db id => db.remove id) (l := st.newIds.keys) (d := d1)
    (fun {d e} hp => by
      obtain ⟨v, hv⟩ := isSome_iff_exists.1 hp
      rw [id_eq] at hv
      simp [ObjectDatabase.remove, hv])
    (by simpa using st.newIds.keys_nodup) fun id hid => by
      have := hrel id
      rw [entry_of_mem_new hid] at this
      rw [id_eq, out1 id (hs.new_old id hid)]
      exact this.2
  rw [List.map_id] at out2
  obtain ⟨f3, n3⟩ := restoreNextIds_spec st.oldIndexNextIds.entries st.oldIndexNextIds.nodupKeys d2
  -- removed objects are not there, and come back
  obtain ⟨d4, run4, n4, in4, out4⟩ := foldlM_put (k := Sigma.fst) (w := fun e => some e.2)
    (p := fun o => o = none) (f := fun db e => db.insert e.1 e.2) (l := st.removed.entries)
    (d := restoreNextIds st.oldIndexNextIds.entries d2)
    (fun {d e} hp => by simp [ObjectDatabase.insert, hp])
    st.removed.nodupKeys fun e he => by
      have hmem : e.1 ∈ st.removed := List.mem_map_of_mem he
      have := hrel e.1
      rw [entry_of_mem_removed hs (mem_lookup_iff.2 he)] at this
      rw [f3, out2 _ fun hn => hs.new_removed _ hn hmem, out1 _ fun ho => hs.old_removed _ ho hmem]
      exact this.2
  have hrun : st.revert cur = some d4 := by
    simp only [revert, restoreOldValues, removeNewIds, insertRemoved, run1, run2,
      Option.bind_eq_bind, bind_some]
    exact run4
  rw [hrun, some.injEq]
  refine ObjectDatabase.ext (funext fun id => ?_) (funext fun idx => ?_)
  · have hid := hrel id
    rcases st.entry_cases id with ⟨hn, he⟩ | ⟨w, hw, he⟩ | ⟨w, hw, he⟩ | he
    · rw [he] at hid
      rw [out4 id (hs.new_removed id hn), f3, hid.1]
      exact in2 id hn
    · have hmem : ⟨id, w⟩ ∈ st.oldValues.entries := mem_lookup_iff.1 hw
      have ho : id ∈ st.oldValues := List.mem_map_of_mem (f := Sigma.fst) hmem
      rw [he] at hid
      rw [out4 id (hs.old_removed id ho), f3, out2 id fun hn => hs.new_old id hn ho, hid.1]
      exact in1 ⟨id, w⟩ hmem
    · rw [he] at hid
      rw [hid.1]
      exact in4 ⟨id, w⟩ (mem_lookup_iff.1 hw)
    · obtain ⟨hn, ho, hr⟩ := entry_eq_nop.1 he
      rw [he] at hid
      rw [out4 id hr, f3, out2 id hn, out1 id ho, hid]
  · rw [n4, n3, n2, n1]
    change (st.oldIndexNextIds.lookup idx).getD (cur.nextId idx) = _
    cases hl : st.oldIndexNextIds.lookup idx with
    | some n => exact (h.difference.nextId_saved idx n hl).symm
    | none => exact h.difference.nextId_same idx hl

end UndoState

end CrowdwizChain
