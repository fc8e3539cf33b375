import CrowdwizChain.Lib.Table
import Mathlib.Data.List.TakeWhile
import Mathlib.Data.List.MinMax

/-!
# Tables kept in the order of a non-unique key

A multi-index container with an `ordered_non_unique` index keeps its rows in the order of a key; of
rows with equal keys the one that entered the group first comes first. What a loop over such an
index sees while it rewrites the key that the index is ordered by depends on where the rewritten row
goes, so the rows are modelled here in the very order of the index:

* a new row goes in after all rows with a smaller or equal key (`insertUpper`);
* a rewritten row stays where it is if its new key still fits between its neighbours, and otherwise
  moves to the end of the group of its new key (`modifyRows`).
-/

universe u v

namespace OrderedTable

open List

variable {ρ : Type u}

/-! ### Rows in order -/

section Rows

variable (key : ρ → Nat)

/-- The rows are in the order of their keys. -/
def Sorted (l : List (Σ _ : Nat, ρ)) : Prop :=
  l.Pairwise fun a b => key a.2 ≤ key b.2

/-- A row goes in after all rows with a smaller or equal key. -/
def insertUpper (x : Σ _ : Nat, ρ) : List (Σ _ : Nat, ρ) → List (Σ _ : Nat, ρ)
  | [] => [x]
  | y :: l => if key x.2 < key y.2 then x :: y :: l else y :: insertUpper x l

/-- The new key of a row fits between its neighbours. -/
def inPlace (l₁ : List (Σ _ : Nat, ρ)) (x : Σ _ : Nat, ρ) (l₂ : List (Σ _ : Nat, ρ)) : Bool :=
  (l₁.getLast?.all fun y => key y.2 ≤ key x.2) && (l₂.head?.all fun y => key x.2 ≤ key y.2)

/-- The row under a number is rewritten, and moves if its new key no longer fits. -/
def modifyRows (id : Nat) (f : ρ → ρ) (l : List (Σ _ : Nat, ρ)) : List (Σ _ : Nat, ρ) :=
  match l.dropWhile (·.1 != id) with
  | [] => l
  | e :: l₂ =>
    if inPlace key (l.takeWhile (·.1 != id)) ⟨e.1, f e.2⟩ l₂
    then l.takeWhile (·.1 != id) ++ ⟨e.1, f e.2⟩ :: l₂
    else insertUpper key ⟨e.1, f e.2⟩ (l.takeWhile (·.1 != id) ++ l₂)

variable {l l₁ : List (Σ _ : Nat, ρ)} {id : Nat}

theorem insertUpper_perm (x : Σ _ : Nat, ρ) (l : List (Σ _ : Nat, ρ)) :
    (insertUpper key x l).Perm (x :: l) := by
  induction l with
  | nil => exact Perm.refl _
  | cons y l ih =>
    unfold insertUpper
    split
    · exact Perm.refl _
    · exact (ih.cons y).trans (Perm.swap x y l)

variable {key}

theorem insertUpper_sorted (h : Sorted key l) (x : Σ _ : Nat, ρ) :
    Sorted key (insertUpper key x l) := by
  induction l with
  | nil => exact pairwise_singleton _ _
  | cons y l ih =>
    obtain ⟨hy, hl⟩ := pairwise_cons.1 h
    unfold insertUpper
    split
    · next hlt =>
      refine pairwise_cons.2 ⟨fun z hz => ?_, h⟩
      rcases mem_cons.1 hz with rfl | hz
      · exact le_of_lt hlt
      · exact le_of_lt (lt_of_lt_of_le hlt (hy z hz))
    · next hge =>
      refine pairwise_cons.2 ⟨fun z hz => ?_, ih hl⟩
      rcases mem_cons.1 ((insertUpper_perm key x l).mem_iff.1 hz) with rfl | hz
      · exact not_lt.1 hge
      · exact hy z hz

theorem exists_split (h : id ∈ l.keys) : ∃ l₁ r l2, l = l₁ ++ ⟨id, r⟩ :: l2 ∧ id ∉ l₁.keys := by
  obtain ⟨r, l₁, l2, hn, hl, -⟩ := exists_of_kerase h
  exact ⟨l₁, r, l2, hl, hn⟩

theorem takeWhile_split (h : id ∉ l₁.keys) (r : ρ) (l2 : List (Σ _ : Nat, ρ)) :
    (l₁ ++ ⟨id, r⟩ :: l2).takeWhile (·.1 != id) = l₁ ∧
      (l₁ ++ ⟨id, r⟩ :: l2).dropWhile (·.1 != id) = ⟨id, r⟩ :: l2 := by
  have hall : ∀ e ∈ l₁, (e.1 != id) = true := fun e he => by
    have : e.1 ≠ id := fun heq => h (heq ▸ mem_keys_of_mem he)
    simpa using this
  constructor
  · rw [takeWhile_append_of_pos hall]
    simp
  · rw [dropWhile_append_of_pos hall]
    simp

theorem modifyRows_split {l2 : List (Σ _ : Nat, ρ)} {r : ρ} (h : id ∉ l₁.keys) (f : ρ → ρ) :
    modifyRows key id f (l₁ ++ ⟨id, r⟩ :: l2) =
      if inPlace key l₁ ⟨id, f r⟩ l2 then l₁ ++ ⟨id, f r⟩ :: l2
      else insertUpper key ⟨id, f r⟩ (l₁ ++ l2) := by
  obtain ⟨htake, hdrop⟩ := takeWhile_split h r l2
  simp only [modifyRows, htake, hdrop]

theorem modifyRows_of_notMem (h : id ∉ l.keys) (f : ρ → ρ) : modifyRows key id f l = l := by
  have hnil : l.dropWhile (·.1 != id) = [] := by
    refine dropWhile_eq_nil_iff.2 fun e he => ?_
    have : e.1 ≠ id := fun heq => h (heq ▸ mem_keys_of_mem he)
    simpa using this
  simp only [modifyRows, hnil]

/-- Wherever the rewritten row goes, the other rows are the same. -/
theorem modifyRows_perm {l2 : List (Σ _ : Nat, ρ)} {r : ρ} (h : id ∉ l₁.keys) (f : ρ → ρ) :
    (modifyRows key id f (l₁ ++ ⟨id, r⟩ :: l2)).Perm (⟨id, f r⟩ :: (l₁ ++ l2)) := by
  rw [modifyRows_split h]
  split
  · exact perm_middle
  · exact insertUpper_perm key _ _

theorem modifyRows_sorted (hs : Sorted key l) (f : ρ → ρ) : Sorted key (modifyRows key id f l) := by
  by_cases h : id ∈ l.keys
  · obtain ⟨l₁, r, l2, rfl, hn⟩ := exists_split h
    obtain ⟨h1, h2, h12⟩ := pairwise_append.1 hs
    obtain ⟨hr, h2⟩ := pairwise_cons.1 h2
    rw [modifyRows_split hn]
    split
    · next hin =>
      obtain ⟨hlast, hhead⟩ := Bool.and_eq_true_iff.1 hin
      -- rows before the last one of the left part and after the first one of the right part
      have hleft : ∀ a ∈ l₁, key a.2 ≤ key (f r) := by
        intro a ha
        obtain ⟨l0, b, rfl⟩ := eq_nil_or_concat' l₁ |>.resolve_left (ne_nil_of_mem ha)
        have hb : key b.2 ≤ key (f r) := by simpa using hlast
        rcases mem_append.1 ha with ha | ha
        · exact ((pairwise_append.1 h1).2.2 a ha b (by simp)).trans hb
        · obtain rfl := mem_singleton.1 ha
          exact hb
      have hright : ∀ a ∈ l2, key (f r) ≤ key a.2 := by
        intro a ha
        obtain _ | ⟨b, l2⟩ := l2
        · cases ha
        · have hb : key (f r) ≤ key b.2 := by simpa using hhead
          rcases mem_cons.1 ha with rfl | ha
          · exact hb
          · exact hb.trans ((pairwise_cons.1 h2).1 a ha)
      refine pairwise_append.2 ⟨h1, pairwise_cons.2 ⟨hright, h2⟩, fun a ha b hb => ?_⟩
      rcases mem_cons.1 hb with rfl | hb
      · exact hleft a ha
      · exact h12 a ha b (mem_cons_of_mem _ hb)
    · refine insertUpper_sorted ?_ _
      exact pairwise_append.2 ⟨h1, h2, fun a ha b hb => h12 a ha b (mem_cons_of_mem _ hb)⟩
  · rw [modifyRows_of_notMem h]
    exact hs

theorem modifyRows_keys_perm (id : Nat) (f : ρ → ρ) (l : List (Σ _ : Nat, ρ)) :
    (modifyRows key id f l).keys.Perm l.keys := by
  by_cases h : id ∈ l.keys
  · obtain ⟨l₁, r, l2, rfl, hn⟩ := exists_split h
    have hmid : (l₁ ++ ⟨id, r⟩ :: l2).Perm (⟨id, r⟩ :: (l₁ ++ l2)) := perm_middle
    exact ((modifyRows_perm hn f).map Sigma.fst).trans (hmid.map Sigma.fst).symm
  · rw [modifyRows_of_notMem h]

end Rows

end OrderedTable

/-! ### The table -/

/-- A table whose rows stand in the order of `key`. -/
structure OrderedTable {ρ : Type u} (key : ρ → Nat) where
  rows : List (Σ _ : Nat, ρ)
  nextId : Nat
  nodup : rows.NodupKeys
  fresh : ∀ id ∈ rows.keys, id < nextId
  sorted : OrderedTable.Sorted key rows

namespace OrderedTable

variable {ρ : Type u} {key : ρ → Nat} (t : OrderedTable key)

/-- The table without rows. -/
def empty : OrderedTable key := ⟨[], 0, List.nodupKeys_nil, by simp, List.Pairwise.nil⟩

instance : Inhabited (OrderedTable key) := ⟨empty⟩

/-- The row under a number. -/
def find (id : Nat) : Option ρ := t.rows.dlookup id

/-- A new row under the next number. -/
def create (r : ρ) : OrderedTable key where
  rows := insertUpper key ⟨t.nextId, r⟩ t.rows
  nextId := t.nextId + 1
  nodup := by
    refine (List.perm_nodupKeys (insertUpper_perm key _ _)).2 (List.nodupKeys_cons.2 ⟨?_, t.nodup⟩)
    exact fun h => absurd (t.fresh _ h) (lt_irrefl _)
  fresh id h := by
    have hmem : id ∈ t.nextId :: t.rows.keys :=
      ((insertUpper_perm key ⟨t.nextId, r⟩ t.rows).map Sigma.fst).mem_iff.1 h
    rcases List.mem_cons.1 hmem with rfl | h
    · exact Nat.lt_succ_self _
    · exact Nat.lt_succ_of_lt (t.fresh id h)
  sorted := insertUpper_sorted t.sorted _

/-- The row under a number is rewritten; without a row there, nothing happens. -/
def modify (id : Nat) (f : ρ → ρ) : OrderedTable key where
  rows := modifyRows key id f t.rows
  nextId := t.nextId
  nodup := (modifyRows_keys_perm id f t.rows).nodup_iff.2 t.nodup
  fresh i h := t.fresh i ((modifyRows_keys_perm id f t.rows).mem_iff.1 h)
  sorted := modifyRows_sorted t.sorted f

/-- The row under a number goes. -/
def remove (id : Nat) : OrderedTable key where
  rows := t.rows.kerase id
  nextId := t.nextId
  nodup := t.nodup.kerase id
  fresh i h := t.fresh i (List.kerase_keys_subset id t.rows h)
  sorted := t.sorted.sublist (List.kerase_sublist id t.rows)

/-- The weights of the rows, added up. -/
def sumBy (w : Nat → ρ → Int) : Int := (t.rows.map fun e => w e.1 e.2).sum

variable {t}

variable {id : Nat} {r : ρ}

@[simp] theorem nextId_create (r : ρ) : (t.create r).nextId = t.nextId + 1 := rfl
@[simp] theorem nextId_modify (id : Nat) (f : ρ → ρ) : (t.modify id f).nextId = t.nextId := rfl
@[simp] theorem nextId_remove (id : Nat) : (t.remove id).nextId = t.nextId := rfl

theorem mem_rows : ⟨id, r⟩ ∈ t.rows ↔ t.find id = some r :=
  (List.mem_dlookup_iff t.nodup).symm

theorem lt_nextId (h : t.find id = some r) : id < t.nextId :=
  t.fresh id (List.mem_keys_of_mem (mem_rows.2 h))

@[simp] theorem find_nextId : t.find t.nextId = none := by
  cases h : t.find t.nextId with
  | none => rfl
  | some r => exact absurd (lt_nextId h) (lt_irrefl _)

theorem rows_split (h : t.find id = some r) : ∃ l₁ l2, t.rows = l₁ ++ ⟨id, r⟩ :: l2 ∧
    id ∉ l₁.keys := by
  obtain ⟨l₁, r', l2, hl, hn⟩ := exists_split (List.mem_keys_of_mem (mem_rows.2 h))
  have hr' : t.find id = some r' := mem_rows.1 (by simp [hl])
  obtain rfl := Option.some.inj (h.symm.trans hr')
  exact ⟨l₁, l2, hl, hn⟩

theorem find_create (r : ρ) (id : Nat) :
    (t.create r).find id = if id = t.nextId then some r else t.find id := by
  have hperm := List.perm_dlookup id (t.create r).nodup (insertUpper_perm key ⟨t.nextId, r⟩ t.rows)
  refine hperm.trans ?_
  split
  · next h =>
    subst h
    exact List.dlookup_cons_eq _ _ _
  · next h => exact List.dlookup_cons_ne _ _ h

/-- A rewritten row, and the rows beside it, up to order. -/
theorem rows_modify_perm (h : t.find id = some r) (f : ρ → ρ) :
    (t.modify id f).rows.Perm (⟨id, f r⟩ :: t.rows.kerase id) := by
  obtain ⟨l₁, l2, hl, hn⟩ := rows_split h
  have hk : t.rows.kerase id = l₁ ++ l2 := by
    rw [hl, List.kerase_append_right hn]
    exact congrArg (l₁ ++ ·) (List.kerase_cons_eq rfl)
  have hm : (t.modify id f).rows = modifyRows key id f (l₁ ++ ⟨id, r⟩ :: l2) := by
    rw [← hl]
    rfl
  rw [hk, hm]
  exact modifyRows_perm hn f

theorem modify_of_find_eq_none (h : t.find id = none) (f : ρ → ρ) : (t.modify id f).rows = t.rows :=
  modifyRows_of_notMem (List.dlookup_eq_none.1 h) f

theorem find_modify (id : Nat) (f : ρ → ρ) (i : Nat) :
    (t.modify id f).find i = if i = id then (t.find id).map f else t.find i := by
  cases h : t.find id with
  | none =>
    have hrows := modify_of_find_eq_none h f
    unfold find at h ⊢
    rw [hrows]
    split
    · next heq => rw [heq, h, Option.map_none]
    · rfl
  | some r =>
    have hperm := List.perm_dlookup i (t.modify id f).nodup (rows_modify_perm h f)
    refine hperm.trans ?_
    split
    · next heq =>
      subst heq
      exact List.dlookup_cons_eq _ _ _
    · next hne =>
      rw [List.dlookup_cons_ne _ _ hne]
      exact List.dlookup_kerase_ne hne

theorem find_remove (id i : Nat) : (t.remove id).find i = if i = id then none else t.find i := by
  split
  · next h =>
    subst h
    exact List.dlookup_kerase i t.nodup
  · next h => exact List.dlookup_kerase_ne h

@[simp] theorem find_create_self (r : ρ) : (t.create r).find t.nextId = some r := by
  simp [find_create]

@[simp] theorem find_modify_self (id : Nat) (f : ρ → ρ) :
    (t.modify id f).find id = (t.find id).map f := by
  simp [find_modify]

end OrderedTable
