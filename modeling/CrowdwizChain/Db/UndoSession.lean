import CrowdwizChain.Db.UndoRecords
import CrowdwizChain.Lib.Run

/-!
# Nested undo sessions

A run of the undo database is a list of commands: sessions are started, objects are created,
modified and removed, and the innermost session ends by `undo` or by `merge`. Beside the database
the run carries, for every session that it has opened and not ended, the object database in which
that session started; the code keeps no such copy, and the results below say that `undo` behaves as
if it did.

`start_undo_session` drops the oldest states while more than `max_size` of them are on the stack.
A session whose own state has been dropped cannot be undone, so the results are about runs that do
not open a session while more than `max_size` sessions of the run are open; the state of every open
session is then still on the stack (`Nested`). The last section shows what happens beyond that.
-/

namespace CrowdwizChain

universe u

variable {α : Type u}

open Transition ObjectDatabase Option

/-! ### Runs of commands -/

/-- What a caller can do between the start and the end of its sessions. -/
inductive UndoCommand (α : Type u)
  /-- `start_undo_session` -/
  | start (forceEnable : Bool)
  | create (idx : IndexId) (v : α)
  | modify (id : ObjectId) (f : α → α)
  | remove (id : ObjectId)
  /-- `undo` on the innermost session -/
  | undo
  /-- `merge` of the innermost session into the one around it -/
  | merge

/-- The database, with the object database at the start of each open session, innermost first. -/
structure UndoSessions (α : Type u) where
  d : UndoDatabase α
  opened : List (ObjectDatabase α)

namespace UndoSessions

/-- One command. A run ends only sessions that it has opened itself. -/
def step (s : UndoSessions α) : UndoCommand α → Option (UndoSessions α)
  | .start force => some ⟨s.d.startUndoSession force, s.d.db :: s.opened⟩
  | .create idx v => (s.d.create idx v).map (⟨·, s.opened⟩)
  | .modify id f => (s.d.modify id f).map (⟨·, s.opened⟩)
  | .remove id => (s.d.remove id).map (⟨·, s.opened⟩)
  | .undo => match s.opened with
    | [] => none | _ :: olds => s.d.undo.map (⟨·, olds⟩)
  | .merge => match s.opened with
    | [] => none | _ :: olds => s.d.merge.map (⟨·, olds⟩)

/-- A session is opened only while at most `max_size` sessions are open. -/
def WithinDepth (s : UndoSessions α) : UndoCommand α → Prop
  | .start _ => s.opened.length ≤ s.d.maxSize
  | _ => True

/-! ### The invariant -/

/-- The states at the top of the stack record, session by session, the differences between the
databases in which the open sessions started and the database after them. -/
def Nested : List (UndoState α) → List (ObjectDatabase α) → ObjectDatabase α → Prop
  | _, [], _ => True
  | [], _ :: _, _ => False
  | st :: rest, old :: olds, cur => st.Records old cur ∧ old.WF ∧ Nested rest olds old

variable {s : UndoSessions α} {d : UndoDatabase α} {olds : List (ObjectDatabase α)}

@[simp] theorem nested_nil (stack : List (UndoState α)) (cur : ObjectDatabase α) :
    Nested stack [] cur := by
  cases stack <;> trivial

/-- The invariant of runs. -/
structure Inv (s : UndoSessions α) : Prop where
  enabled : s.d.disabled = false
  wf : s.d.db.WF
  nested : Nested s.d.stack s.opened s.d.db
  active : s.opened.length ≤ s.d.activeSessions

/-- Dropping states below those of the open sessions changes nothing. -/
theorem Nested.take {stack : List (UndoState α)} {cur : ObjectDatabase α}
    (h : Nested stack olds cur)
    {n : Nat} (hn : olds.length ≤ n) : Nested (stack.take n) olds cur := by
  induction olds generalizing stack cur n with
  | nil => exact nested_nil _ _
  | cons old olds ih =>
    obtain _ | ⟨st, rest⟩ := stack
    · exact h.elim
    · obtain _ | n := n
      · simp at hn
      · obtain ⟨hrec, hwf, hrest⟩ := h
        exact ⟨hrec, hwf, ih hrest (by simpa using hn)⟩

/-- **Recording keeps the invariant**: whatever rewrites the innermost state so that it records
the present difference. -/
theorem Inv.record (h : s.Inv) {db : ObjectDatabase α} (hwf : db.WF) {f : UndoState α → UndoState α}
    (hf : ∀ {st old}, old.WF → UndoState.Records st old s.d.db → (f st).Records old db) :
    Inv ⟨({ s.d with db } : UndoDatabase α).record f, s.opened⟩ := by
  obtain ⟨⟨db0, stack, act, dis, max⟩, opened⟩ := s
  obtain ⟨hen, -, hnest, hact⟩ := h
  subst hen
  cases stack with
  | nil =>
    refine ⟨rfl, hwf, ?_, hact⟩
    obtain _ | ⟨old, olds⟩ := opened
    · trivial
    · exact hnest.elim
  | cons st rest =>
    refine ⟨rfl, hwf, ?_, hact⟩
    obtain _ | ⟨old, olds⟩ := opened
    · trivial
    · obtain ⟨hrec, hold, hrest⟩ := hnest
      exact ⟨hf hold hrec, hold, hrest⟩

theorem Inv.start (h : s.Inv) (force : Bool) (hdepth : s.opened.length ≤ s.d.maxSize) :
    Inv ⟨s.d.startUndoSession force, s.d.db :: s.opened⟩ := by
  have hstart : s.d.startUndoSession force = { s.d with
        stack := .empty :: s.d.stack.take s.d.maxSize
        activeSessions := s.d.activeSessions + 1 } := by
    simp [UndoDatabase.startUndoSession, h.enabled]
  rw [hstart]
  refine ⟨h.enabled, h.wf, ⟨UndoState.records_empty _, h.wf, h.nested.take hdepth⟩, ?_⟩
  simpa using h.active

theorem Inv.create (h : s.Inv) {idx : IndexId} {v : α} (hs : s.d.create idx v = some d) :
    Inv ⟨d, s.opened⟩ := by
  obtain ⟨db, hdb, rfl⟩ := map_eq_some_iff.1 hs
  exact h.record (h.wf.create hdb) fun hold hrec => UndoState.records_create hrec hold hdb

theorem Inv.modify (h : s.Inv) {id : ObjectId} {f : α → α} (hs : s.d.modify id f = some d) :
    Inv ⟨d, s.opened⟩ := by
  obtain ⟨v, hv, hs⟩ := bind_eq_some_iff.1 hs
  obtain ⟨db, hdb, rfl⟩ := map_eq_some_iff.1 hs
  obtain rfl : s.d.db.put id (some (f v)) = db := by
    simpa [ObjectDatabase.modify, hv] using hdb
  exact h.record (h.wf.put_some _ (by simp [hv])) fun hold hrec =>
    UndoState.records_modify hrec hold hv

theorem Inv.remove (h : s.Inv) {id : ObjectId} (hs : s.d.remove id = some d) :
    Inv ⟨d, s.opened⟩ := by
  obtain ⟨v, hv, hs⟩ := bind_eq_some_iff.1 hs
  obtain ⟨db, hdb, rfl⟩ := map_eq_some_iff.1 hs
  obtain rfl : s.d.db.put id none = db := by
    simpa [ObjectDatabase.remove, hv] using hdb
  exact h.record (h.wf.put_some _ (by simp [hv])) fun hold hrec =>
    UndoState.records_remove hrec hold hv

/-- **Undoing the innermost session** succeeds, gives back the database in which it started, and
keeps the invariant of the sessions around it. -/
theorem Inv.undo {old : ObjectDatabase α} (h : Inv ⟨d, old :: olds⟩) : d.undo = some
        { d with db := old, stack := d.stack.tail, activeSessions := d.activeSessions - 1 } ∧
      Inv ⟨{ d with
        db := old, stack := d.stack.tail, activeSessions := d.activeSessions - 1 }, olds⟩ := by
  obtain ⟨db, stack, act, dis, max⟩ := d
  obtain ⟨hen, hwf, hnest, hact⟩ := h
  simp only [List.length_cons] at hen hwf hnest hact
  subst hen
  obtain _ | ⟨st, rest⟩ := stack
  · exact hnest.elim
  · obtain ⟨hrec, hold, hrest⟩ := hnest
    have hact0 : act ≠ 0 := by omega
    refine ⟨?_, rfl, hold, hrest, ?_⟩
    · simp [UndoDatabase.undo, hact0, UndoState.revert_eq hrec]
    · simp only
      omega

/-- **Merging the innermost session** into the one around it keeps the invariant: the outer
session now stands for both. -/
theorem Inv.merge {d' : UndoDatabase α} {old : ObjectDatabase α} (h : Inv ⟨d, old :: olds⟩)
    (hm : d.merge = some d') : Inv ⟨d', olds⟩ := by
  obtain ⟨db, stack, act, dis, max⟩ := d
  obtain ⟨hen, hwf, hnest, hact⟩ := h
  simp only [List.length_cons] at hen hwf hnest hact
  unfold UndoDatabase.merge at hm
  split at hm
  · cases hm
  split at hm
  · next hone =>
    -- the only session of the stack is given up: no session of the run is left
    cases hm
    have hact1 : act = 1 := by simp_all
    have holds : olds = [] := List.eq_nil_of_length_eq_zero (by omega)
    subst holds
    exact ⟨hen, hwf, nested_nil _ _, by simp⟩
  · obtain _ | ⟨st, _ | ⟨prev, rest⟩⟩ := stack
    · cases hm
    · cases hm
    · cases hm
      refine ⟨hen, hwf, ?_, by simp only; omega⟩
      obtain ⟨hst, hold, hrest⟩ := hnest
      obtain _ | ⟨old', olds⟩ := olds
      · trivial
      · obtain ⟨hprev, hold', hrest⟩ := hrest
        exact ⟨UndoState.records_merge hold' hprev hst, hold', hrest⟩

/-- **Every action keeps the sessions exact.** -/
theorem Inv.step {s' : UndoSessions α} {c : UndoCommand α} (h : s.Inv) (hd : s.WithinDepth c)
    (hs : s.step c = some s') : s'.Inv := by
  cases c with
  | start force =>
    cases hs
    exact h.start force hd
  | create idx v =>
    obtain ⟨d, hd', rfl⟩ := map_eq_some_iff.1 hs
    exact h.create hd'
  | modify id f =>
    obtain ⟨d, hd', rfl⟩ := map_eq_some_iff.1 hs
    exact h.modify hd'
  | remove id =>
    obtain ⟨d, hd', rfl⟩ := map_eq_some_iff.1 hs
    exact h.remove hd'
  | undo =>
    obtain ⟨d, _ | ⟨old, olds⟩⟩ := s
    · cases hs
    · obtain ⟨d', hd', rfl⟩ := map_eq_some_iff.1 hs
      obtain ⟨hundo, hinv⟩ := h.undo
      cases hundo.symm.trans hd'
      exact hinv
  | merge =>
    obtain ⟨d, _ | ⟨old, olds⟩⟩ := s
    · cases hs
    · obtain ⟨d', hd', rfl⟩ := map_eq_some_iff.1 hs
      exact h.merge hd'

/-- Every run within the depth, from a database with no open session, keeps the invariant. -/
theorem inv_of_run (hen : d.disabled = false) (hwf : d.db.WF) {cs : List (UndoCommand α)}
    (hdepth : Along step WithinDepth ⟨d, []⟩ cs) (hrun : run step ⟨d, []⟩ cs = some s) : s.Inv :=
  invariant_of_along Inv.step ⟨hen, hwf, nested_nil _ _, Nat.zero_le _⟩ hdepth hrun

/-! ### Exactness -/

/-- **Undo and merge are exact.** After every run of nested sessions within the depth, `undo` ends
the innermost session in the object database in which it started: every object, the set of ids and
every next id. And where two sessions are open, merging the inner one and undoing the outer one
ends as undoing both does, in the same objects and the same undo history. -/
theorem undo_and_merge_exact {d : UndoDatabase α} (hen : d.disabled = false) (hwf : d.db.WF)
    {cs : List (UndoCommand α)} {s : UndoSessions α} (hdepth : Along step WithinDepth ⟨d, []⟩ cs)
    (hrun : run step ⟨d, []⟩ cs = some s) :
    (∀ S olds, s.opened = S :: olds → ∃ d', s.d.undo = some d' ∧ d'.db = S) ∧
      ∀ SB SA olds, s.opened = SB :: SA :: olds → ∃ m u d', s.d.merge = some m ∧ s.d.undo = some u ∧
          m.undo = some d' ∧ u.undo = some d' ∧ d'.db = SA := by
  have hinv := inv_of_run hen hwf hdepth hrun
  obtain ⟨d1, opened⟩ := s
  refine ⟨?_, ?_⟩
  · rintro S olds rfl
    exact ⟨_, hinv.undo.1, rfl⟩
  · rintro SB SA olds rfl
    obtain ⟨hundo, hinv'⟩ := hinv.undo
    -- two open sessions have their states on top of the stack, so the merge goes through
    obtain ⟨m, hm, hmm⟩ : ∃ m, d1.merge = some m ∧
        { m with db := SA, stack := m.stack.tail, activeSessions := m.activeSessions - 1 } =
          { d1 with
            db := SA
            stack := d1.stack.tail.tail
            activeSessions := d1.activeSessions - 1 - 1 } := by
      have hact := hinv.active
      have hnest := hinv.nested
      obtain ⟨db, _ | ⟨st, _ | ⟨prev, rest⟩⟩, act, dis, max⟩ := d1
      · exact hnest.elim
      · exact hnest.2.2.elim
      · simp only [List.length_cons] at hact
        have h0 : act ≠ 0 := by omega
        simp [UndoDatabase.merge, h0]
    refine ⟨m, _, _, hm, hundo, ?_, hinv'.undo.1, rfl⟩
    rw [(hinv.merge hm).undo.1, hmm]

/-- A database of numbers with no object in it. -/
def emptyDb (maxSize : Nat) : UndoDatabase Nat :=
  ⟨⟨fun _ => none, fun _ => 0⟩, [], 0, false, maxSize⟩

/-- The theorem at two nested sessions that create, modify and remove an object. -/
theorem undo_and_merge_exact_two_sessions : ∃ s : UndoSessions Nat, run step ⟨emptyDb 1, []⟩
        [.start false, .create ⟨1, 2⟩ 7, .start false, .modify ⟨⟨1, 2⟩, 0⟩ (· + 1),
          .remove ⟨⟨1, 2⟩, 0⟩] = some s ∧
          (∃ d', s.d.undo = some d' ∧ d'.db.find ⟨⟨1, 2⟩, 0⟩ = some 7) ∧
      ∃ m d', s.d.merge = some m ∧ m.undo = some d' ∧ d'.db = (emptyDb 1).db := by
  obtain ⟨s, hs⟩ : ∃ s, run step ⟨emptyDb 1, []⟩
      [.start false, .create ⟨1, 2⟩ 7, .start false, .modify ⟨⟨1, 2⟩, 0⟩ (· + 1),
        .remove ⟨⟨1, 2⟩, 0⟩] = some s := ⟨_, rfl⟩
  have hdepth : Along step WithinDepth ⟨emptyDb 1, []⟩
      [.start false, .create ⟨1, 2⟩ 7, .start false, .modify ⟨⟨1, 2⟩, 0⟩ (· + 1),
        .remove ⟨⟨1, 2⟩, 0⟩] := by
    refine ⟨Nat.zero_le _, ?_⟩
    rintro _ ⟨⟩
    refine ⟨trivial, ?_⟩
    rintro _ ⟨⟩
    refine ⟨le_rfl, ?_⟩
    rintro _ ⟨⟩
    refine ⟨trivial, ?_⟩
    rintro _ ⟨⟩
    exact ⟨trivial, fun _ _ => trivial⟩
  have hwf : (emptyDb 1).db.WF := fun id hid => by cases hid
  obtain ⟨hundo, hmerge⟩ := undo_and_merge_exact rfl hwf hdepth hs
  cases hs
  refine ⟨_, rfl, ?_, ?_⟩
  · obtain ⟨d', hd', hdb⟩ := hundo _ _ rfl
    exact ⟨d', hd', by rw [hdb]; rfl⟩
  · obtain ⟨m, u, d', hm, -, hd', -, hdb⟩ := hmerge _ _ _ rfl
    exact ⟨m, d', hm, hd', hdb⟩

/-! ### Beyond the depth -/

/-- With `max_size = 1`, three nested sessions drop the state of the outermost one. Once the two
inner ones are undone, the stack is empty; the next object created in the outer session gets a
fresh state, and undoing that session leaves the object it had created first. -/
theorem undo_not_exact_beyond_max_size :
    ∃ (s : UndoSessions Nat) (S : ObjectDatabase Nat) (d' : UndoDatabase Nat),
        run step ⟨emptyDb 1, []⟩
        [.start false, .create ⟨1, 2⟩ 7, .start false, .start false, .undo, .undo,
          .create ⟨1, 2⟩ 8] = some s ∧ s.opened = [S] ∧ s.d.undo = some d' ∧
      S.find ⟨⟨1, 2⟩, 0⟩ = none ∧ d'.db.find ⟨⟨1, 2⟩, 0⟩ = some 7 :=
  ⟨_, _, _, rfl, rfl, rfl, rfl, rfl⟩

end UndoSessions

end CrowdwizChain
