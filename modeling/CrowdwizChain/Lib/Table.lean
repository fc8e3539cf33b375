import Mathlib.Algebra.Order.Ring.Int
import Mathlib.Data.List.AList
import Mathlib.Algebra.Order.BigOperators.Group.List

/-!
# Sums over finite maps, and tables of numbered rows

The quantities that a ledger conserves are sums over a finite map: a weight is given to every
entry, and the sum changes by the weight of what an update puts in and takes out. A `Table` is a
finite map from numbers to rows in which every new row gets the next number; a number is never
handed out twice, also after its row is gone, which is the invariant the structure carries.
-/

universe u v

/-! ### Sums over finite maps -/

namespace AList

open List Option AList Function

variable {κ : Type u} {β : Type v} (m : AList (fun _ : κ => β)) (w : κ → β → Int)

/-- The weights of the entries, added up. -/
def sumBy : Int :=
  (m.entries.map fun e => w e.1 e.2).sum

variable [DecidableEq κ]

theorem sum_kerase (l : List (Σ _ : κ, β)) (k : κ) :
    ((l.kerase k).map fun e => w e.1 e.2).sum = (l.map fun e => w e.1 e.2).sum -
    (l.dlookup k).elim 0 (w k) := by
  induction l with
  | nil => simp
  | cons e l ih =>
    obtain ⟨i, r⟩ := e
    by_cases h : k = i
    · subst h
      simp
    · rw [kerase_cons_ne h, dlookup_cons_ne _ _ h, map_cons, sum_cons, ih, map_cons, sum_cons]
      omega

theorem sumBy_insert (k : κ) (v : β) :
    (m.insert k v).sumBy w = m.sumBy w + w k v - (m.lookup k).elim 0 (w k) := by
  have h := sum_kerase w m.entries k
  unfold sumBy lookup
  rw [entries_insert, map_cons, sum_cons, h]
  dsimp only
  omega

theorem sumBy_erase (k : κ) :
    (m.erase k).sumBy w = m.sumBy w - (m.lookup k).elim 0 (w k) :=
  sum_kerase w m.entries k

variable {m w}

theorem sumBy_congr {w' : κ → β → Int}
    (h : ∀ k v, m.lookup k = some v → w k v = w' k v) : m.sumBy w = m.sumBy w' := by
  unfold sumBy
  congr 1
  exact map_congr_left fun e he => h e.1 e.2 (mem_lookup_iff.2 he)

theorem sumBy_nonneg (h : ∀ k v, m.lookup k = some v → 0 ≤ w k v) : 0 ≤ m.sumBy w := by
  refine sum_nonneg fun x hx => ?_
  obtain ⟨e, he, rfl⟩ := mem_map.1 hx
  exact h e.1 e.2 (mem_lookup_iff.2 he)

theorem sumBy_eq_zero (h : ∀ k v, m.lookup k = some v → w k v = 0) : m.sumBy w = 0 := by
  rw [sumBy_congr h]
  simp [sumBy]

variable {k : κ}

theorem le_sumBy (h : ∀ k v, m.lookup k = some v → 0 ≤ w k v) {v : β} (hv : m.lookup k = some v) :
    w k v ≤ m.sumBy w := by
  refine single_le_sum (fun x hx => ?_) _ ?_
  · obtain ⟨e, he, rfl⟩ := mem_map.1 hx
    exact h e.1 e.2 (mem_lookup_iff.2 he)
  · exact mem_map.2 ⟨⟨k, v⟩, mem_lookup_iff.1 hv, rfl⟩

/-- What is found after entering one value under several keys. -/
theorem lookup_foldl_insert {γ : Type*} (f : γ → κ) (v : β) (l : List γ) :
    (l.foldl (fun m c => m.insert (f c) v) m).lookup k = if k ∈ l.map f then some v
      else m.lookup k := by
  induction l generalizing m with
  | nil => simp
  | cons c l ih =>
    rw [foldl_cons, ih, map_cons]
    by_cases hl : k ∈ l.map f
    · rw [if_pos hl, if_pos (mem_cons_of_mem _ hl)]
    · rcases eq_or_ne k (f c) with rfl | hne
      · rw [if_neg hl, if_pos mem_cons_self, lookup_insert]
      · rw [if_neg hl, if_neg (not_mem_cons_of_ne_of_not_mem hne hl), lookup_insert_ne hne]

/-- The entry under a key is rewritten; without an entry there, nothing happens. -/
def modify (m : AList (fun _ : κ => β)) (k : κ) (f : β → β) : AList (fun _ : κ => β) :=
  match m.lookup k with
  | some v => m.insert k (f v)
  | none => m

theorem modify_of_lookup {v : β} (f : β → β) (h : m.lookup k = some v) :
    m.modify k f = m.insert k (f v) := by
  simp [modify, h]

theorem modify_of_notMem (f : β → β) (h : k ∉ m) : m.modify k f = m := by
  simp [modify, lookup_eq_none.2 h]

theorem lookup_modify (m : AList (fun _ : κ => β)) (k k' : κ) (f : β → β) :
    (m.modify k f).lookup k' = if k' = k then (m.lookup k).map f else m.lookup k' := by
  cases h : m.lookup k with
  | none =>
    rw [modify_of_notMem f (lookup_eq_none.1 h)]
    split
    · next heq => rw [heq, h, map_none]
    · rfl
  | some v =>
    rw [modify_of_lookup f h]
    split
    · next heq =>
      subst heq
      simp
    · next hne => rw [lookup_insert_ne hne]

/-- A quantity of the entries, after one of them was rewritten. -/
theorem map_lookup_modify {γ : Type*} (g : β → γ) (m : AList (fun _ : κ => β)) (k : κ) (f : β → β) :
    (fun k' => ((m.modify k f).lookup k').map g) =
      update (fun k' => (m.lookup k').map g) k ((m.lookup k).map fun v => g (f v)) := by
  funext k'
  rw [lookup_modify, update_apply]
  split
  · rw [Option.map_map]
    rfl
  · rfl

/-- A quantity that the rewriting keeps is the same for all entries. -/
theorem map_lookup_modify_of_eq {γ : Type*} {g : β → γ} {f : β → β} (hf : ∀ v, g (f v) = g v)
    (m : AList (fun _ : κ => β)) (k : κ) :
    (fun k' => ((m.modify k f).lookup k').map g) = fun k' => (m.lookup k').map g := by
  rw [map_lookup_modify]
  simp only [hf]
  exact update_eq_self k _

theorem sumBy_modify (w : κ → β → Int) {v : β} (f : β → β)
    (h : m.lookup k = some v) : (m.modify k f).sumBy w = m.sumBy w + w k (f v) - w k v := by
  rw [modify_of_lookup f h, sumBy_insert, h]
  rfl

theorem isSome_lookup_modify (m : AList (fun _ : κ => β)) (k k' : κ) (f : β → β) :
    ((m.modify k f).lookup k').isSome = (m.lookup k').isSome := by
  rw [lookup_modify]
  split
  · next heq => rw [heq, isSome_map]
  · rfl

theorem mem_modify {k k' : κ} {f : β → β} : k' ∈ m.modify k f ↔ k' ∈ m := by
  rw [← lookup_isSome, ← lookup_isSome, isSome_lookup_modify]

/-- All entries are rewritten. -/
def mapValues (m : AList (fun _ : κ => β)) (f : β → β) : AList (fun _ : κ => β) where
  entries := m.entries.map fun e => ⟨e.1, f e.2⟩
  nodupKeys := by
    have hkeys : (m.entries.map fun e => (⟨e.1, f e.2⟩ : Σ _ : κ, β)).keys = m.entries.keys := by
      show List.map Sigma.fst (List.map _ m.entries) = List.map Sigma.fst m.entries
      rw [List.map_map]
      rfl
    rw [List.NodupKeys, hkeys]
    exact m.nodupKeys

theorem lookup_mapValues (m : AList (fun _ : κ => β)) (f : β → β) (k : κ) :
    (m.mapValues f).lookup k = (m.lookup k).map f := by
  have hlist : ∀ l : List (Σ _ : κ, β),
      (l.map fun e => (⟨e.1, f e.2⟩ : Σ _ : κ, β)).dlookup k = (l.dlookup k).map f := by
    intro l
    induction l with
    | nil => rfl
    | cons e l ih =>
      obtain ⟨i, v⟩ := e
      rcases eq_or_ne k i with rfl | hne
      · simp
      · rw [map_cons, dlookup_cons_ne _ _ hne, dlookup_cons_ne _ _ hne, ih]
  exact hlist m.entries

theorem mem_mapValues {f : β → β} : k ∈ m.mapValues f ↔ k ∈ m := by
  rw [← lookup_isSome, ← lookup_isSome, lookup_mapValues, isSome_map]

end AList

/-! ### Tables -/

/-- A table: rows under distinct numbers, all of them smaller than the next number. -/
structure Table (ρ : Type u) where
  rows : AList (fun _ : Nat => ρ)
  nextId : Nat
  fresh : ∀ id ∈ rows, id < nextId

namespace Table

open List Option

variable {ρ : Type u} (t : Table ρ)

/-- The table without rows. -/
def empty : Table ρ := ⟨∅, 0, fun _ h => absurd h (AList.notMem_empty _)⟩

instance : Inhabited (Table ρ) := ⟨empty⟩

/-- The row under a number. -/
def find (id : Nat) : Option ρ := t.rows.lookup id

/-- A new row under the next number. -/
def create (r : ρ) : Table ρ where
  rows := t.rows.insert t.nextId r
  nextId := t.nextId + 1
  fresh id h := by
    rcases (AList.mem_insert _).1 h with rfl | h
    · exact Nat.lt_succ_self _
    · exact Nat.lt_succ_of_lt (t.fresh id h)

/-- The row under a number is rewritten; without a row there, nothing happens. -/
def modify (id : Nat) (f : ρ → ρ) : Table ρ where
  rows := t.rows.modify id f
  nextId := t.nextId
  fresh i h := t.fresh i (AList.mem_modify.1 h)

/-- The row under a number goes. -/
def remove (id : Nat) : Table ρ where
  rows := t.rows.erase id
  nextId := t.nextId
  fresh i h := t.fresh i (AList.mem_erase.1 h).2

/-- All rows are rewritten. -/
def modifyAll (f : ρ → ρ) : Table ρ where
  rows := t.rows.mapValues f
  nextId := t.nextId
  fresh i h := t.fresh i (AList.mem_mapValues.1 h)

/-- All rows go. -/
def clear : Table ρ := ⟨∅, t.nextId, fun _ h => absurd h (AList.notMem_empty _)⟩

/-- The weights of the rows, added up. -/
def sumBy (w : Nat → ρ → Int) : Int := t.rows.sumBy w

variable {t}

@[simp] theorem find_empty (id : Nat) : (empty : Table ρ).find id = none := rfl

@[simp] theorem nextId_create (r : ρ) : (t.create r).nextId = t.nextId + 1 := rfl
@[simp] theorem nextId_modify (id : Nat) (f : ρ → ρ) : (t.modify id f).nextId = t.nextId := rfl
@[simp] theorem nextId_remove (id : Nat) : (t.remove id).nextId = t.nextId := rfl
@[simp] theorem nextId_modifyAll (f : ρ → ρ) : (t.modifyAll f).nextId = t.nextId := rfl
@[simp] theorem find_clear (id : Nat) : t.clear.find id = none := rfl

theorem lt_nextId {id : Nat} {r : ρ} (h : t.find id = some r) : id < t.nextId :=
  t.fresh id (AList.lookup_isSome.1 (isSome_iff_exists.2 ⟨r, h⟩))

@[simp] theorem find_nextId : t.find t.nextId = none := by
  cases h : t.find t.nextId with
  | none => rfl
  | some r => exact absurd (lt_nextId h) (lt_irrefl _)

theorem find_create (r : ρ) (id : Nat) :
    (t.create r).find id = if id = t.nextId then some r else t.find id := by
  unfold find create
  by_cases h : id = t.nextId
  · subst h
    simp
  · simp [h, AList.lookup_insert_ne h]

theorem find_modify (id : Nat) (f : ρ → ρ) (i : Nat) :
    (t.modify id f).find i = if i = id then (t.find id).map f else t.find i :=
  AList.lookup_modify t.rows id i f

theorem isSome_find_modify (id : Nat) (f : ρ → ρ) (i : Nat) :
    ((t.modify id f).find i).isSome = (t.find i).isSome :=
  AList.isSome_lookup_modify t.rows id i f

theorem find_modifyAll (f : ρ → ρ) (i : Nat) : (t.modifyAll f).find i = (t.find i).map f :=
  AList.lookup_mapValues t.rows f i

theorem find_remove (id i : Nat) : (t.remove id).find i = if i = id then none else t.find i := by
  unfold find remove
  by_cases h : i = id
  · subst h
    simp
  · simp [h, AList.lookup_erase_ne h]

@[simp] theorem find_create_self (r : ρ) : (t.create r).find t.nextId = some r := by
  simp [find_create]

theorem find_create_ne (r : ρ) {id : Nat} (h : id ≠ t.nextId) :
    (t.create r).find id = t.find id := by
  simp [find_create, h]

@[simp] theorem find_modify_self (id : Nat) (f : ρ → ρ) :
    (t.modify id f).find id = (t.find id).map f := by
  simp [find_modify]

theorem find_modify_ne {id i : Nat} (f : ρ → ρ) (h : i ≠ id) :
    (t.modify id f).find i = t.find i := by
  simp [find_modify, h]

@[simp] theorem find_remove_self (id : Nat) : (t.remove id).find id = none := by
  simp [find_remove]

theorem find_remove_ne {id i : Nat} (h : i ≠ id) : (t.remove id).find i = t.find i := by
  simp [find_remove, h]

/-! A row that is there afterwards is the row of the step, or it was there before. -/

theorem find_create_cases {r r' : ρ} {i : Nat} (h : (t.create r).find i = some r') :
    i = t.nextId ∧ r' = r ∨ t.find i = some r' := by
  rw [find_create] at h
  split at h
  · next heq =>
    cases h
    exact .inl ⟨heq, rfl⟩
  · exact .inr h

theorem find_modify_cases {r r' : ρ} {id i : Nat} {f : ρ → ρ} (h : (t.modify id f).find i = some r')
    (hr : t.find id = some r) : i = id ∧ r' = f r ∨ t.find i = some r' := by
  rw [find_modify, hr] at h
  split at h
  · next heq =>
    cases h
    exact .inl ⟨heq, rfl⟩
  · exact .inr h

theorem find_of_remove {r : ρ} {id i : Nat} (h : (t.remove id).find i = some r) :
    t.find i = some r := by
  rw [find_remove] at h
  split at h
  · cases h
  · exact h

theorem remove_modify (t : Table ρ) (id : Nat) (f : ρ → ρ) :
    (t.modify id f).remove id = t.remove id := by
  have hrows : (t.rows.modify id f).erase id = t.rows.erase id := by
    cases h : t.rows.lookup id with
    | none => rw [AList.modify_of_notMem f (AList.lookup_eq_none.1 h)]
    | some r =>
      rw [AList.modify_of_lookup f h]
      exact AList.ext (kerase_cons_eq rfl)
  simp only [remove, modify, mk.injEq]
  exact ⟨hrows, trivial⟩

/-- A quantity that the rewriting keeps is the same for all rows. -/
theorem map_find_modify_of_eq {γ : Type*} {g : ρ → γ} {f : ρ → ρ} (hf : ∀ r, g (f r) = g r)
    (t : Table ρ) (id : Nat) : (fun i => ((t.modify id f).find i).map g) = fun i =>
    (t.find i).map g :=
  AList.map_lookup_modify_of_eq hf t.rows id

theorem map_find_modifyAll_of_eq {γ : Type*} {g : ρ → γ} {f : ρ → ρ} (hf : ∀ r, g (f r) = g r)
    (t : Table ρ) : (fun i => ((t.modifyAll f).find i).map g) = fun i => (t.find i).map g := by
  funext i
  rw [find_modifyAll, Option.map_map]
  exact congrArg (fun g => (t.find i).map g) (funext hf)

/-! #### The rows in the order of their numbers -/

theorem find_create_eq_update (r : ρ) :
    (t.create r).find = Function.update t.find t.nextId (some r) := by
  funext i
  rw [find_create, Function.update_apply]

theorem find_modify_eq_update {id : Nat} {r : ρ} (h : t.find id = some r) (f : ρ → ρ) :
    (t.modify id f).find = Function.update t.find id (some (f r)) := by
  funext i
  rw [find_modify, Function.update_apply, h]
  rfl

theorem find_remove_eq_update (id : Nat) : (t.remove id).find = Function.update t.find id none := by
  funext i
  rw [find_remove, Function.update_apply]

/-- The rows of two tables look the same. Numbers from the larger of the next numbers
on have no row. -/
def Same {γ : Type*} (g : ρ → γ) (t t' : Table ρ) : Prop :=
  ∀ i < max t.nextId t'.nextId, (t'.find i).map g = (t.find i).map g

instance {γ : Type*} [DecidableEq γ] (g : ρ → γ) (t t' : Table ρ) : Decidable (Same g t t') :=
  inferInstanceAs (Decidable (∀ i < _, _))

theorem find_of_nextId_le {i : Nat} (h : t.nextId ≤ i) : t.find i = none := by
  cases hfind : t.find i with
  | none => rfl
  | some r => exact absurd (lt_nextId hfind) (not_lt.2 h)

theorem Same.map_find {γ : Type*} {g : ρ → γ} {t t' : Table ρ} (h : Same g t t') (i : Nat) :
    (t'.find i).map g = (t.find i).map g := by
  rcases Nat.lt_or_ge i (max t.nextId t'.nextId) with hlt | hge
  · exact h i hlt
  · rw [find_of_nextId_le (le_trans (le_max_left _ _) hge),
      find_of_nextId_le (le_trans (le_max_right _ _) hge)]

theorem Same.find_eq {t t' : Table ρ} (h : Same id t t') (i : Nat) : t'.find i = t.find i := by
  have hi := h.map_find i
  rwa [Option.map_id, id_eq, id_eq] at hi

/-- The rows with their numbers, the smallest number first. -/
def inOrder (t : Table ρ) : List (Nat × ρ) :=
  (range t.nextId).filterMap fun id => (t.find id).map (id, ·)

theorem mem_inOrder {e : Nat × ρ} : e ∈ t.inOrder ↔ t.find e.1 = some e.2 := by
  obtain ⟨id, r⟩ := e
  simp only [inOrder, mem_filterMap, mem_range, map_eq_some_iff, Prod.mk.injEq]
  constructor
  · rintro ⟨i, -, r', hr', rfl, rfl⟩
    exact hr'
  · intro h
    exact ⟨id, lt_nextId h, r, h, rfl, rfl⟩

theorem inOrder_keys_sublist (t : Table ρ) : (t.inOrder.map Prod.fst).Sublist (range t.nextId) := by
  have hkeys : t.inOrder.map Prod.fst =
      (range t.nextId).filterMap fun id => (t.find id).map fun _ => id := by
    rw [inOrder, map_filterMap]
    exact filterMap_congr fun id _ => by rw [Option.map_map]; rfl
  have hfilter : ((range t.nextId).filterMap fun id => (t.find id).map fun _ => id) =
      (range t.nextId).filter fun id => (t.find id).isSome := by
    rw [← filterMap_eq_filter]
    refine filterMap_congr fun id _ => ?_
    rcases h : t.find id with _ | r <;> simp [Option.guard, h]
  rw [hkeys, hfilter]
  exact filter_sublist

theorem inOrder_create (r : ρ) : (t.create r).inOrder = t.inOrder ++ [(t.nextId, r)] := by
  rw [inOrder, nextId_create, range_succ, filterMap_append]
  congr 1
  · refine filterMap_congr fun id hid => ?_
    rw [find_create_ne r (mem_range.1 hid).ne]
  · simp

@[simp] theorem inOrder_clear : t.clear.inOrder = [] := by
  simp [inOrder]

variable {l : List (Nat × ρ)}

theorem nodup_keys_of_sublist (h : l.Sublist t.inOrder) : (l.map Prod.fst).Nodup :=
  nodup_range.sublist ((h.map Prod.fst).trans t.inOrder_keys_sublist)

/-- The row with the greatest key, and of several such the one with the greatest number. -/
def lastBy (t : Table ρ) (key : ρ → Nat) : Option (Nat × ρ) :=
  t.inOrder.foldl (fun best e =>
    match best with
    | none => some e
    | some b => if key b.2 ≤ key e.2 then some e else some b) none

/-- The first row of a list in an order of rows. -/
def firstBy (before : Nat × ρ → Nat × ρ → Bool) (l : List (Nat × ρ)) : Option (Nat × ρ) :=
  l.foldl (fun best e => best.elim (some e) fun b => if before e b then some e else some b) none

theorem foldl_firstBy (before : Nat × ρ → Nat × ρ → Bool) (l : List (Nat × ρ)) (b : Nat × ρ) :
    ∃ e ∈ b :: l, l.foldl
      (fun best e => best.elim (some e) fun b => if before e b then some e else some b)
      (some b) = some e := by
  induction l generalizing b with
  | nil => exact ⟨b, mem_cons_self, rfl⟩
  | cons x l ih =>
    rw [foldl_cons, elim_some]
    split
    · obtain ⟨e, he, hfold⟩ := ih x
      exact ⟨e, mem_cons_of_mem _ he, hfold⟩
    · obtain ⟨e, he, hfold⟩ := ih b
      refine ⟨e, ?_, hfold⟩
      rcases mem_cons.1 he with rfl | he
      · exact mem_cons_self
      · exact mem_cons_of_mem _ (mem_cons_of_mem _ he)

theorem firstBy_isSome (before : Nat × ρ → Nat × ρ → Bool) {x : Nat × ρ}
    (hx : x ∈ l) : ∃ e ∈ l, firstBy before l = some e := by
  cases l with
  | nil => cases hx
  | cons b l => exact foldl_firstBy before l b

theorem mem_of_firstBy {p : Nat × ρ → Nat × ρ → Bool} {e : Nat × ρ}
    (h : firstBy p l = some e) : e ∈ l := by
  cases l with
  | nil => cases h
  | cons b l =>
    obtain ⟨e', he', hfirst⟩ := firstBy_isSome p (mem_cons_self (a := b) (l := l))
    rw [hfirst] at h
    exact some.inj h ▸ he'

theorem find_of_lastBy {key : ρ → Nat} {e : Nat × ρ} (h : t.lastBy key = some e) :
    t.find e.1 = some e.2 := by
  refine mem_inOrder.1 (mem_of_firstBy (p := fun e b => key b.2 ≤ key e.2) ?_)
  rw [← h, lastBy, firstBy]
  congr 1
  funext best e
  cases best
  · rfl
  · simp only [elim_some, decide_eq_true_iff]

/-! #### Sums over tables -/

@[simp] theorem sumBy_create (w : Nat → ρ → Int) (r : ρ) :
    (t.create r).sumBy w = t.sumBy w + w t.nextId r := by
  have h : t.rows.lookup t.nextId = none := find_nextId
  simp [sumBy, create, AList.sumBy_insert, h]

theorem sumBy_modify (w : Nat → ρ → Int) {id : Nat} {r : ρ} (f : ρ → ρ)
    (h : t.find id = some r) : (t.modify id f).sumBy w = t.sumBy w + w id (f r) - w id r := by
  exact AList.sumBy_modify w f h

theorem sumBy_remove (w : Nat → ρ → Int) {id : Nat} {r : ρ} (h : t.find id = some r) :
    (t.remove id).sumBy w = t.sumBy w - w id r := by
  have hr : t.rows.lookup id = some r := h
  simp [sumBy, remove, AList.sumBy_erase, hr]

variable {w : Nat → ρ → Int}

theorem sumBy_nonneg (h : ∀ id r, t.find id = some r → 0 ≤ w id r) : 0 ≤ t.sumBy w :=
  AList.sumBy_nonneg h

theorem sumBy_eq_zero (h : ∀ id r, t.find id = some r → w id r = 0) : t.sumBy w = 0 :=
  AList.sumBy_eq_zero h

theorem sumBy_sub (w w' : Nat → ρ → Int) :
    (t.sumBy fun id r => w id r - w' id r) = t.sumBy w - t.sumBy w' := by
  simp only [sumBy, AList.sumBy]
  induction t.rows.entries with
  | nil => rfl
  | cons e l ih =>
    simp only [map_cons, sum_cons, ih]
    omega

theorem le_sumBy (h : ∀ id r, t.find id = some r → 0 ≤ w id r) {id : Nat} {r : ρ}
    (hr : t.find id = some r) : w id r ≤ t.sumBy w :=
  AList.le_sumBy h hr

/-! #### Removing several rows -/

/-- The rows under some numbers go, one after another. -/
def removeAll (t : Table ρ) (ids : List Nat) : Table ρ := ids.foldl remove t

@[simp] theorem removeAll_nil : t.removeAll [] = t := rfl

@[simp] theorem removeAll_cons (id : Nat) (ids : List Nat) :
    t.removeAll (id :: ids) = (t.remove id).removeAll ids := rfl

theorem removeAll_append (ids ids' : List Nat) :
    t.removeAll (ids ++ ids') = (t.removeAll ids).removeAll ids' := foldl_append

theorem find_removeAll (ids : List Nat) (i : Nat) :
    (t.removeAll ids).find i = if i ∈ ids then none else t.find i := by
  induction ids generalizing t with
  | nil => simp
  | cons id ids ih =>
    rw [removeAll_cons, ih, find_remove]
    by_cases hmem : i ∈ ids
    · simp [hmem]
    · by_cases heq : i = id <;> simp [hmem, heq]

@[simp] theorem nextId_removeAll (ids : List Nat) : (t.removeAll ids).nextId = t.nextId := by
  induction ids generalizing t with
  | nil => rfl
  | cons id ids ih => rw [removeAll_cons, ih, nextId_remove]

/-- The sum is less by the weights of the rows removed. -/
theorem sumBy_removeAll (w : Nat → ρ → Int) (hl : (l.map Prod.fst).Nodup)
    (h : ∀ e ∈ l, t.find e.1 = some e.2) :
    (t.removeAll (l.map Prod.fst)).sumBy w = t.sumBy w - (l.map fun e => w e.1 e.2).sum := by
  induction l generalizing t with
  | nil => simp
  | cons e l ih =>
    obtain ⟨hnotin, hl⟩ := nodup_cons.1 hl
    have hrest : ∀ e' ∈ l, (t.remove e.1).find e'.1 = some e'.2 := by
      intro e' he'
      have hne : e'.1 ≠ e.1 := fun heq => hnotin (heq ▸ mem_map_of_mem he')
      rw [find_remove_ne hne]
      exact h e' (mem_cons_of_mem _ he')
    rw [map_cons, removeAll_cons, ih hl hrest, sumBy_remove w (h e mem_cons_self),
      map_cons, sum_cons]
    omega

end Table
