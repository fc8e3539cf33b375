import CrowdwizChain.Lib.OrderedTable

/-!
# Sweeping an ordered table while rewriting its key

A loop that recurs in code over ordered indices: the iterator starts at the first row with a key
over one and runs to the first row with a key of at least `bound`; each row that qualifies is acted
on and marked, and marking sets its key to zero. The marked row thereby moves to the front part of
the index while the iterator stands on it, and the iterator goes on from there. Afterwards the
marked rows are erased, one after another, from the back of the index by status.

The marked row is always the first one that is not yet at the front, so it never overtakes a row
still to come (`sweep_ends`).
-/

universe u v

namespace OrderedTable

open Option List Nat

variable {ρ : Type u} {key : ρ → Nat} {σ : Type v}

/-! ### Iterators

An iterator is the number of the row that it stands on, or `none` at the end. -/

/-- The number of the first row of a list. -/
def headId (l : List (Σ _ : Nat, ρ)) : Option Nat := l.head?.map Sigma.fst

/-- The number of the row after the one with a given number. -/
def nextId? (id : Nat) : List (Σ _ : Nat, ρ) → Option Nat
  | [] => none
  | e :: l => if e.1 = id then headId l else nextId? id l

/-- `lower_bound`: the first row with a key of at least `k`. -/
def lowerBound (t : OrderedTable key) (k : Nat) : Option Nat :=
  headId (t.rows.dropWhile fun e => key e.2 < k)

/-- `upper_bound`: the first row with a key over `k`. -/
def upperBound (t : OrderedTable key) (k : Nat) : Option Nat :=
  headId (t.rows.dropWhile fun e => key e.2 ≤ k)

/-! ### The two loops -/

section Loops

variable (p : ρ → Bool) (mark : ρ → ρ) (act : σ → Nat → ρ → Option σ)

/-- The loop from an iterator to `stop`. It is given up (`none`) when an action fails, when the
iterator runs past the end, and when the fuel is spent. -/
def markSweep (stop : Option Nat) : Nat → Option Nat → OrderedTable key → σ →
    Option (OrderedTable key × σ)
  | 0, _, _, _ => none
  | n + 1, itr, t, s =>
    if itr = stop then some (t, s)
    else match itr with
      | none => none
      | some id => match t.find id with
        | none => none
        | some r =>
          if p r then
            (act s id r).bind fun s' =>
              markSweep stop n (nextId? id (t.modify id mark).rows) (t.modify id mark) s'
          else markSweep stop n (nextId? id t.rows) t s

/-- The loop over the rows with a key over one and under `bound`. -/
def sweep (bound : Nat) (t : OrderedTable key) (s : σ) : Option (OrderedTable key × σ) :=
  markSweep p mark act (t.lowerBound bound) (t.rows.length + 1) (t.upperBound 1) t s

/-- While the last row by status has status `v`, it is erased. -/
def eraseBack (status : ρ → Nat) (v : Nat) : Nat → OrderedTable key → OrderedTable key
  | 0, t => t
  | n + 1, t => match t.rows.argmax fun e => status e.2 with
    | none => t | some e => if status e.2 = v then eraseBack status v n (t.remove e.1) else t

end Loops

/-! ### What the sweep does -/

variable {bound id n v : Nat} {t t' : OrderedTable key} {s s' : σ} {p : ρ → Bool} {mark : ρ → ρ}
  {act : σ → Nat → ρ → Option σ} {r : ρ}

theorem nextId?_append {l1 l2 : List (Σ _ : Nat, ρ)} (h : id ∉ l1.keys) :
    nextId? id (l1 ++ ⟨id, r⟩ :: l2) = headId l2 := by
  induction l1 with
  | nil => simp [nextId?]
  | cons e l ih =>
    rw [keys_cons, mem_cons, not_or] at h
    rw [cons_append, nextId?, if_neg (Ne.symm h.1)]
    exact ih h.2

theorem insertUpper_append {x : Σ _ : Nat, ρ} {l1 l2 : List (Σ _ : Nat, ρ)}
    (h1 : ∀ e ∈ l1, key e.2 ≤ key x.2) (h2 : ∀ e ∈ l2, key x.2 < key e.2) :
    insertUpper key x (l1 ++ l2) = l1 ++ x :: l2 := by
  induction l1 with
  | nil =>
    cases l2 with
    | nil => rfl
    | cons y l => rw [nil_append, insertUpper, if_pos (h2 y mem_cons_self), nil_append]
  | cons y l ih =>
    rw [cons_append, insertUpper, if_neg (not_lt.2 (h1 y mem_cons_self)),
      ih fun e he => h1 e (mem_cons_of_mem _ he), cons_append]

/-- A row whose key becomes zero goes to the end of the rows with key zero. -/
theorem modifyRows_mark {f : ρ → ρ} {Z O Y : List (Σ _ : Nat, ρ)} (hid : id ∉ (Z ++ O).keys)
    (hf : key (f r) = 0) (hZ : ∀ e ∈ Z, key e.2 = 0) (hO : ∀ e ∈ O, 0 < key e.2)
    (hY : ∀ e ∈ Y, 0 < key e.2) :
    modifyRows key id f (Z ++ O ++ ⟨id, r⟩ :: Y) = Z ++ ⟨id, f r⟩ :: (O ++ Y) := by
  have hinsert : insertUpper key (⟨id, f r⟩ : Σ _ : Nat, ρ) (Z ++ O ++ Y) = Z ++ ⟨id, f r⟩ ::
      (O ++ Y) := by
    rw [append_assoc]
    refine insertUpper_append (fun e he => (hZ e he).le.trans (zero_le _)) fun e he => ?_
    rw [hf]
    rcases mem_append.1 he with he | he
    · exact hO e he
    · exact hY e he
  rw [modifyRows_split hid, hinsert]
  split
  · next hplace =>
    -- it stays where it is only if no row with a greater key is in front of it
    rcases eq_nil_or_concat' O with rfl | ⟨O', o, rfl⟩
    · rw [append_nil, nil_append]
    · have hlast : key o.2 ≤ key (f r) := by
        have hall := (Bool.and_eq_true_iff.1 hplace).1
        simpa using hall
      have hpos := hO o (by simp)
      omega
  · rfl

/-- One round, on a row that qualifies: rows with key zero are in front, rows `O` with other keys
may stand between them and the row. The iterator goes on from where the row has moved to. -/
theorem markSweep_round (act : σ → Nat → ρ → Option σ) {X Z O E : List (Σ _ : Nat, ρ)}
    (hrows : t.rows = Z ++ O ++ ⟨id, r⟩ :: (X ++ E))
    (hmark : key (mark r) = 0) (hp : p r = true) (hZ : ∀ e ∈ Z, key e.2 = 0)
    (hO : ∀ e ∈ O, 0 < key e.2)
    (hY : ∀ e ∈ X ++ E, 0 < key e.2) :
      (t.modify id mark).rows = Z ++ [⟨id, mark r⟩] ++ (O ++ X ++ E) ∧
      ∀ n s, markSweep p mark act (headId E) (n + 1) (some id) t s = (act s id r).bind
        (markSweep p mark act (headId E) n (headId (O ++ X ++ E)) (t.modify id mark)) := by
  have hnd := t.nodup
  rw [hrows, nodupKeys_iff_pairwise, pairwise_append] at hnd
  obtain ⟨-, hnd, hcross⟩ := hnd
  have hid : id ∉ (Z ++ O).keys := by
    rw [ne_key]
    exact fun e he => (hcross e he ⟨id, r⟩ (by simp)).symm
  have hstop : some id ≠ headId E := by
    obtain _ | ⟨e, E⟩ := E
    · simp [headId]
    · have hne : id ≠ e.1 := (pairwise_cons.1 hnd).1 e (by simp)
      simpa [headId] using hne
  have hrows' : (t.modify id mark).rows = Z ++ [⟨id, mark r⟩] ++ (O ++ X ++ E) := by
    have h : (t.modify id mark).rows = modifyRows key id mark (Z ++ O ++ ⟨id, r⟩ :: (X ++ E)) :=
      congrArg (modifyRows key id mark) hrows
    rw [h, modifyRows_mark hid hmark hZ hO hY]
    simp
  have hnext : nextId? id (t.modify id mark).rows = headId (O ++ X ++ E) := by
    rw [hrows', append_assoc]
    refine nextId?_append fun hin => hid ?_
    rw [keys, map_append]
    exact mem_append_left _ hin
  have hfind : t.find id = some r := mem_rows.1 (by rw [hrows]; simp)
  refine ⟨hrows', fun n s => ?_⟩
  rw [← hnext]
  simp [markSweep, hstop, hfind, hp]

theorem find_mark_cons {ids : List Nat} (hid : id ∉ ids) (i : Nat) :
    ((t.modify id mark).find i).map (fun r => if i ∈ ids then mark r else r) =
      (t.find i).map fun r => if i ∈ id :: ids then mark r else r := by
  rw [find_modify]
  by_cases hi : i = id
  · subst hi
    simp [hid, Function.comp_def]
  · simp [hi]

/-- The loop, with the rows already marked in front, the rows to come in the middle and the rows
beyond the bound behind. -/
theorem markSweep_eq (act : σ → Nat → ρ → Option σ) (hmark : ∀ r, key (mark r) = 0)
    {X Z E : List (Σ _ : Nat, ρ)} (hrows : t.rows = Z ++ (X ++ E)) (hZ : ∀ e ∈ Z, key e.2 = 0)
    (hpos : ∀ e ∈ X ++ E, 0 < key e.2) (hX : ∀ e ∈ X, p e.2) (hn : X.length < n) :
    ∃ t' : OrderedTable key, t'.nextId = t.nextId ∧
      (∀ i, t'.find i = (t.find i).map fun r => if i ∈ X.keys then mark r else r) ∧
      ∀ s, markSweep p mark act (headId E) n (headId (X ++ E)) t s =
        (X.foldlM (fun s e => act s e.1 e.2) s).map (t', ·) := by
  induction X generalizing Z n t with
  | nil =>
    obtain _ | n := n
    · simp at hn
    · exact ⟨t, rfl, fun i => by simp, fun s => by simp [markSweep]⟩
  | cons x X ih =>
    obtain ⟨id, r⟩ := x
    obtain _ | n := n
    · simp at hn
    have hpos' : ∀ e ∈ X ++ E, 0 < key e.2 := fun e he => hpos e (mem_cons_of_mem _ he)
    obtain ⟨hrows', hround⟩ := markSweep_round act (O := []) (by simpa using hrows) (hmark r)
      (hX ⟨id, r⟩ mem_cons_self) hZ (by simp) hpos'
    have hZ' : ∀ e ∈ Z ++ [⟨id, mark r⟩], key e.2 = 0 := by
      simpa [or_imp, forall_and, hmark] using hZ
    obtain ⟨t', hid', hfind, hrun⟩ := ih hrows' hZ' hpos' (fun e he => hX e (mem_cons_of_mem _ he))
      (by simpa using hn)
    have hfresh : id ∉ X.keys := by
      have hnd := t.nodup
      rw [hrows] at hnd
      have hsub : (⟨id, r⟩ :: X).Sublist (Z ++ (⟨id, r⟩ :: X ++ E)) :=
        (sublist_append_left _ E).trans (sublist_append_right Z _)
      exact (nodupKeys_cons.1 (hnd.sublist hsub)).1
    refine ⟨t', hid', fun i => (hfind i).trans (find_mark_cons hfresh i), fun s => ?_⟩
    rw [show headId (⟨id, r⟩ :: X ++ E) = some id from rfl, hround, foldlM_cons]
    cases act s id r with
    | none => rfl
    | some s' => exact hrun s'

theorem dropWhile_parts {α : Type*} {q : α → Bool} {l1 l2 : List α} (h1 : ∀ e ∈ l1, q e = true)
    (h2 : ∀ e ∈ l2, q e = false) : (l1 ++ l2).dropWhile q = l2 := by
  rw [dropWhile_append_of_pos h1, dropWhile_eq_self_iff]
  intro hpos hq
  rw [h2 _ (getElem_mem hpos)] at hq
  cases hq

/-- The rows of a sorted list under a bound stand in front of the others. -/
theorem Sorted.cut {l : List (Σ _ : Nat, ρ)} (h : Sorted key l) (k : Nat) :
    ∃ l1 l2, l = l1 ++ l2 ∧ l.dropWhile (fun e => decide (key e.2 < k)) = l2 ∧
      (∀ e ∈ l1, key e.2 < k) ∧ ∀ e ∈ l2, k ≤ key e.2 := by
  refine ⟨_, _, takeWhile_append_dropWhile.symm, rfl, fun e he => ?_, ?_⟩
  · have hlt := mem_takeWhile_imp he
    exact of_decide_eq_true hlt
  · induction l with
    | nil => simp
    | cons x l ih =>
      obtain ⟨hx, hl⟩ := pairwise_cons.1 h
      rw [dropWhile_cons]
      split
      · exact ih hl
      · next hge =>
        have hge : k ≤ key x.2 := by simpa using hge
        exact forall_mem_cons.2 ⟨hge, fun e he => hge.trans (hx e he)⟩

theorem upperBound_eq (t : OrderedTable key) (k : Nat) : t.upperBound k = t.lowerBound (k + 1) := by
  simp only [upperBound, lowerBound, Nat.lt_succ_iff]

theorem le_of_lowerBound {k : Nat} (h : t.lowerBound k = some id) : ∃ r, t.find id = some r ∧
    k ≤ key r := by
  obtain ⟨l1, l2, hrows, hdrop, -, hge⟩ := t.sorted.cut k
  rw [lowerBound, hdrop] at h
  obtain ⟨e, he, rfl⟩ := map_eq_some_iff.1 h
  have hmem := mem_of_mem_head? he
  exact ⟨e.2, mem_rows.1 (by rw [hrows]; exact mem_append_right _ hmem), hge e hmem⟩

/-- `lower_bound` finds a row that is not behind any other one in its range. -/
theorem lowerBound_le {k : Nat} (hr : t.find id = some r) (hk : k ≤ key r) :
    ∃ i r', t.lowerBound k = some i ∧ t.find i = some r' ∧ key r' ≤ key r := by
  obtain ⟨l1, l2, hrows, hdrop, hlt, -⟩ := t.sorted.cut k
  have hmem := mem_rows.2 hr
  have hsorted := t.sorted
  rw [hrows] at hmem hsorted
  have hmem := (mem_append.1 hmem).resolve_left fun hlow => not_le.2 (hlt _ hlow) hk
  rw [lowerBound, hdrop]
  obtain _ | ⟨e, l⟩ := l2
  · cases hmem
  refine ⟨e.1, e.2, rfl, mem_rows.1 (by rw [hrows]; simp), ?_⟩
  rcases mem_cons.1 hmem with rfl | hmem
  · exact le_rfl
  · exact (pairwise_cons.1 (pairwise_append.1 hsorted).2.1).1 _ hmem

theorem lowerBound_eq_iff {k k' : Nat} (hle : k ≤ k') : t.lowerBound k = t.lowerBound k' ↔
    ∀ id r, t.find id = some r → k ≤ key r → k' ≤ key r := by
  constructor
  · intro heq id r hr hk
    obtain ⟨i, r', hlow, hr', hle'⟩ := lowerBound_le hr hk
    obtain ⟨r'', hr'', hge⟩ := le_of_lowerBound (heq.symm.trans hlow)
    cases hr'.symm.trans hr''
    exact hge.trans hle'
  · intro hnone
    obtain ⟨l1, l2, hrows, hdrop, hlt, hge⟩ := t.sorted.cut k
    rw [lowerBound, hdrop, lowerBound, hrows, dropWhile_parts (fun e he => ?_) fun e he => ?_]
    · exact decide_eq_true ((hlt e he).trans_le hle)
    · have hrow : e ∈ t.rows := by
        rw [hrows]
        exact mem_append_right _ he
      exact decide_eq_false (not_lt.2 (hnone e.1 e.2 (mem_rows.1 hrow) (hge e he)))

/-- The rows in four parts: keys of zero, keys of one, keys over one and under the bound, the rest.
The iterators stand on the first rows of the two latter parts. -/
theorem rows_parts (t : OrderedTable key) (hbound : 1 < bound) :
    ∃ Z O X E : List (Σ _ : Nat, ρ), t.rows = Z ++ (O ++ (X ++ E)) ∧ t.lowerBound bound = headId E ∧
      t.upperBound 1 = headId (X ++ E) ∧ (∀ e ∈ Z, key e.2 = 0) ∧
      (∀ e ∈ O, key e.2 = 1) ∧ (∀ e ∈ X, 1 < key e.2 ∧ key e.2 < bound) ∧
      ∀ e ∈ E, bound ≤ key e.2 := by
  obtain ⟨A, B, hrows, hup, hA, hB⟩ := t.sorted.cut 2
  have hsorted := t.sorted
  rw [hrows] at hsorted
  obtain ⟨hsA, hsB, -⟩ := pairwise_append.1 hsorted
  obtain ⟨Z, O, rfl, -, hZ, hO⟩ := Sorted.cut hsA 1
  obtain ⟨X, E, rfl, hlow, hX, hE⟩ := Sorted.cut hsB bound
  refine ⟨Z, O, X, E, by rw [hrows, append_assoc], ?_, ?_, fun e he => lt_one_iff.1 (hZ e he),
    fun e he => ?_, fun e he => ⟨hB e (mem_append_left _ he), hX e he⟩, hE⟩
  · rw [lowerBound, hrows, dropWhile_append_of_pos fun e he =>
      decide_eq_true ((hA e he).trans_le hbound), hlow]
  · rw [upperBound_eq, lowerBound, hup]
  · have hlt := hA e (mem_append_right _ he)
    have hge := hO e he
    omega

/-- **The sweep.** If every row with a key under the bound qualifies, other than those with key
zero, the loop ends: if there is a row with a key over one among these, it acts on all of them, once
each, and marks them, and it touches no other row. A row with key one is in front of where the loop
begins, but not of where it goes on from after the first marked row. -/
theorem sweep_ends (p : ρ → Bool) (mark : ρ → ρ) (act : σ → Nat → ρ → Option σ)
    (hmark : ∀ r, key (mark r) = 0) (t : OrderedTable key) (hbound : 1 < bound)
    (hp : ∀ e ∈ t.rows, key e.2 ≠ 0 → key e.2 < bound → p e.2) :
    ∃ (X : List (Σ _ : Nat, ρ)) (t' : OrderedTable key), X.NodupKeys ∧
      (∀ e, e ∈ X ↔ e ∈ t.rows ∧ key e.2 ≠ 0 ∧ key e.2 < bound ∧
        ∃ e' ∈ t.rows, 1 < key e'.2 ∧ key e'.2 < bound) ∧ t'.nextId = t.nextId ∧
      (∀ i, t'.find i = (t.find i).map fun r => if i ∈ X.keys then mark r else r) ∧
      ∀ s, sweep p mark act bound t s = (X.foldlM (fun s e => act s e.1 e.2) s).map (t', ·) := by
  obtain ⟨Z, O, X, E, hrows, hlow, hup, hZ, hO, hX, hE⟩ := t.rows_parts hbound
  have hmem : ∀ {e}, e ∈ Z ∨ e ∈ O ∨ e ∈ X ∨ e ∈ E ↔ e ∈ t.rows := by
    intro e
    rw [hrows]
    simp only [mem_append]
  simp only [sweep, hlow, hup]
  have hpos : ∀ e ∈ X ++ E, 0 < key e.2 := by
    intro e he
    rcases mem_append.1 he with he | he
    · exact zero_lt_of_lt (hX e he).1
    · exact zero_lt_of_lt (hbound.trans_le (hE e he))
  -- what has another key than zero under the bound is in the two middle parts
  have hmiddle : ∀ e ∈ t.rows, key e.2 ≠ 0 → key e.2 < bound → e ∈ O ∨ e ∈ X := by
    intro e he hne hlt
    rcases hmem.2 he with he | he | he | he
    · exact absurd (hZ e he) hne
    · exact .inl he
    · exact .inr he
    · exact absurd (hE e he) (not_le.2 hlt)
  have hrange : ∀ e, e ∈ O ∨ e ∈ X → e ∈ t.rows ∧ key e.2 ≠ 0 ∧ key e.2 < bound := by
    rintro e (he | he)
    · exact ⟨hmem.1 (.inr (.inl he)), by rw [hO e he]; exact one_ne_zero,
        by rw [hO e he]; exact hbound⟩
    · exact ⟨hmem.1 (.inr (.inr (.inl he))), ne_of_gt (zero_lt_of_lt (hX e he).1), (hX e he).2⟩
  have hqual : ∀ e, e ∈ O ∨ e ∈ X → p e.2 := by
    intro e he
    obtain ⟨hin, hne, hlt⟩ := hrange e he
    exact hp e hin hne hlt
  cases X with
  | nil =>
    refine ⟨[], t, nodupKeys_nil, fun e => ⟨by simp, ?_⟩, rfl, fun i => by simp, fun s => ?_⟩
    · rintro ⟨-, -, -, e', he', hgt, hlt⟩
      have hone := hO e' ((hmiddle e' he' (by omega) hlt).resolve_right (by simp))
      omega
    unfold markSweep
    rw [nil_append, if_pos rfl]
    rfl
  | cons x X =>
    obtain ⟨id, r⟩ := x
    -- the first row in the range is marked, and goes in front of those with key one
    obtain ⟨hrows', hround⟩ := markSweep_round act (O := O) (by simpa using hrows) (hmark r)
      (hqual ⟨id, r⟩ (.inr mem_cons_self)) hZ (fun e he => (hO e he).ge)
      (fun e he => hpos e (mem_cons_of_mem _ he))
    have hsub : ∀ e ∈ O ++ X, e ∈ O ∨ e ∈ ⟨id, r⟩ :: X := fun e he =>
      (mem_append.1 he).imp_right (mem_cons_of_mem _)
    have hlen : (O ++ X).length < t.rows.length := by
      rw [hrows]
      simp only [length_append, length_cons]
      omega
    have hpos' : ∀ e ∈ O ++ X ++ E, 0 < key e.2 := by
      intro e he
      rw [append_assoc] at he
      rcases mem_append.1 he with he | he
      · exact (hO e he).ge
      · exact hpos e (mem_cons_of_mem _ he)
    obtain ⟨t', hnext, hfind, hrun⟩ := markSweep_eq act hmark hrows'
      (by simpa [or_imp, forall_and, hmark] using hZ) hpos' (fun e he => hqual e (hsub e he)) hlen
    have hperm : (⟨id, r⟩ :: (O ++ X)).Perm (O ++ ⟨id, r⟩ :: X) := perm_middle.symm
    have hnodup : (⟨id, r⟩ :: (O ++ X)).NodupKeys := by
      have hnd := t.nodup
      rw [hrows, ← append_assoc O] at hnd
      exact (perm_nodupKeys hperm).2 (hnd.sublist
        ((sublist_append_left _ E).trans (sublist_append_right Z _)))
    refine ⟨⟨id, r⟩ :: (O ++ X), t', hnodup, fun e => ?_, hnext,
      fun i => (hfind i).trans (find_mark_cons (nodupKeys_cons.1 hnodup).1 i), fun s => ?_⟩
    · rw [hperm.mem_iff, mem_append]
      constructor
      · intro he
        obtain ⟨hin, hne, hlt⟩ := hrange e he
        exact ⟨hin, hne, hlt, ⟨id, r⟩, (hrange _ (.inr mem_cons_self)).1, hX _ mem_cons_self⟩
      · rintro ⟨he, hne, hlt, -⟩
        exact hmiddle e he hne hlt
    · rw [show headId (⟨id, r⟩ :: X ++ E) = some id from rfl, hround, foldlM_cons]
      cases act s id r with
      | none => rfl
      | some s' => exact hrun s'

/-- **The erasing loop.** Where no status is over `v`, exactly the rows with status `v` go. -/
theorem eraseBack_find (status : ρ → Nat) (hle : ∀ e ∈ t.rows, status e.2 ≤ v)
    (hn : t.rows.length ≤ n) :
    (eraseBack status v n t).nextId = t.nextId ∧ ∀ id, (eraseBack status v n t).find id =
        (t.find id).bind fun r => if status r = v then none else some r := by
  induction n generalizing t with
  | zero =>
    have hnil : t.rows = [] := eq_nil_of_length_eq_zero (le_zero.1 hn)
    refine ⟨rfl, fun id => ?_⟩
    simp [eraseBack, find, hnil]
  | succ n ih =>
    cases hback : t.rows.argmax fun e => status e.2 with
    | none =>
      have hnil : t.rows = [] := argmax_eq_none.1 hback
      refine ⟨by simp [eraseBack, hback], fun id => ?_⟩
      simp [eraseBack, find, hnil]
    | some e =>
      have he : e ∈ t.rows := argmax_mem hback
      have hfind : t.find e.1 = some e.2 := mem_rows.1 he
      by_cases hv : status e.2 = v
      · -- the last row by status goes, and the loop goes on with the others
        have heq : eraseBack status v (n + 1) t = eraseBack status v n (t.remove e.1) := by
          simp [eraseBack, hback, hv]
        have hlen : (t.remove e.1).rows.length ≤ n := by
          obtain ⟨l1, l2, hl, hid⟩ := rows_split hfind
          have hk : (t.remove e.1).rows = l1 ++ l2 := by
            change t.rows.kerase e.1 = _
            rw [hl, kerase_append_right hid]
            exact congrArg (l1 ++ ·) (kerase_cons_eq rfl)
          rw [hl, length_append, length_cons] at hn
          rw [hk, length_append]
          omega
        obtain ⟨hnext, hrest⟩ := ih (fun e' he' =>
          hle e' ((kerase_sublist e.1 t.rows).subset he')) hlen
        refine ⟨by rw [heq, hnext, nextId_remove], fun id => ?_⟩
        rw [heq, hrest id, find_remove]
        split
        · next h =>
          subst h
          simp [hfind, hv]
        · rfl
      · -- no row has status `v`
        have heq : eraseBack status v (n + 1) t = t := by simp [eraseBack, hback, hv]
        refine ⟨by rw [heq], fun id => ?_⟩
        rw [heq]
        cases hr : t.find id with
        | none => rfl
        | some r =>
          have hmax : status r ≤ status e.2 :=
            le_of_mem_argmax (f := fun e => status e.2) (mem_rows.2 hr) hback
          have hne : status r ≠ v := by
            have := hle e he
            omega
          simp [hne]

/-- **The two loops together**, on rows that do not yet have the status of the marked ones: every
row with a key over one and under the bound is acted on once and goes, and no other row is
touched. -/
theorem sweep_eraseBack (p : ρ → Bool) (mark : ρ → ρ) (act : σ → Nat → ρ → Option σ)
    (status : ρ → Nat) (hmark : ∀ r, key (mark r) = 0 ∧ status (mark r) = v) (t : OrderedTable key)
    (hrow : ∀ id r, t.find id = some r → 1 < bound ∧ (key r = 0 ∨ 1 < key r) ∧
      (1 < key r → key r < bound → p r) ∧ status r < v) :
    ∃ (X : List (Σ _ : Nat, ρ)) (t' : OrderedTable key), X.NodupKeys ∧
      (∀ id r, ⟨id, r⟩ ∈ X ↔ t.find id = some r ∧ 1 < key r ∧ key r < bound) ∧
      t'.nextId = t.nextId ∧ (∀ id, t'.find id = (t.find id).bind fun r =>
        if 1 < key r ∧ key r < bound then none else some r) ∧
      ∀ s, (sweep p mark act bound t s).map (fun (t, s) =>
        (eraseBack status v t.rows.length t, s)) =
        (X.foldlM (fun s e => act s e.1 e.2) s).map (t', ·) := by
  rcases hrows : t.rows with _ | ⟨e0, l⟩
  · refine ⟨[], eraseBack status v t.rows.length t, nodupKeys_nil, fun id r => ?_, ?_, fun id => ?_,
      fun s => ?_⟩
    · simp [find, hrows]
    · simp [eraseBack, hrows]
    · simp [find, eraseBack, hrows]
    · simp [sweep, markSweep, lowerBound, upperBound, headId, hrows]
  have hbound := (hrow e0.1 e0.2 (mem_rows.1 (by rw [hrows]; exact mem_cons_self))).1
  have hrange : ∀ id r, t.find id = some r → key r ≠ 0 → 1 < key r := fun id r hr hne =>
    (hrow id r hr).2.1.resolve_left hne
  obtain ⟨X, t1, hnodup, hX, hnext, hfind, hrun⟩ := sweep_ends p mark act (fun r => (hmark r).1) t
    hbound fun e he hne =>
      (hrow e.1 e.2 (mem_rows.1 he)).2.2.1 (hrange e.1 e.2 (mem_rows.1 he) hne)
  have hmem : ∀ id r, ⟨id, r⟩ ∈ X ↔ t.find id = some r ∧ 1 < key r ∧ key r < bound := by
    intro id r
    constructor
    · intro h
      obtain ⟨hr, hne, hlt, -⟩ := (hX _).1 h
      exact ⟨mem_rows.1 hr, hrange id r (mem_rows.1 hr) hne, hlt⟩
    · rintro ⟨h, hgt, hlt⟩
      exact (hX _).2 ⟨mem_rows.2 h, ne_of_gt (zero_lt_of_lt hgt), hlt, _, mem_rows.2 h, hgt, hlt⟩
  -- only the marked rows have the status that is erased
  have hle : ∀ e ∈ t1.rows, status e.2 ≤ v := by
    intro e he
    have hr := mem_rows.1 he
    rw [hfind, map_eq_some_iff] at hr
    obtain ⟨r, hr, heq⟩ := hr
    rw [← heq]
    split
    · exact (hmark r).2.le
    · exact (hrow e.1 r hr).2.2.2.le
  obtain ⟨hnext', herase⟩ := eraseBack_find status hle le_rfl
  refine ⟨X, eraseBack status v t1.rows.length t1, hnodup, hmem, hnext'.trans hnext, fun id => ?_,
    fun s => ?_⟩
  · rw [herase, hfind]
    cases hr : t.find id with
    | none => rfl
    | some r =>
      have hkeys : id ∈ X.keys ↔ 1 < key r ∧ key r < bound := by
        constructor
        · intro hid
          obtain ⟨⟨i, r'⟩, he, rfl⟩ := mem_map.1 hid
          obtain ⟨hr', hrange⟩ := (hmem i r').1 he
          cases hr.symm.trans hr'
          exact hrange
        · exact fun hrange => mem_map.2 ⟨⟨id, r⟩, (hmem id r).2 ⟨hr, hrange⟩, rfl⟩
      by_cases hrange : 1 < key r ∧ key r < bound
      · simp [hkeys, hrange, (hmark r).2]
      · simp [hkeys, hrange, (hrow id r hr).2.2.2.ne]
  · rw [hrun s, Option.map_map]
    rfl

/-! ### What holds without conditions

Whatever the loops meet, they make no rows, and act on a row only once if a marked row
does not qualify. -/

/-- What holds at the end held at the start, if every round that acts takes it back. -/
@[elab_as_elim]
theorem markSweep_back {motive : OrderedTable key → σ → Prop} {stop itr : Option Nat}
    (h : markSweep p mark act stop n itr t s = some (t', s')) (hend : motive t' s')
    (hround : ∀ {t s s1 id r}, t.find id = some r → p r = true → act s id r = some s1 →
      motive (t.modify id mark) s1 → motive t s) : motive t s := by
  induction n generalizing itr t s with
  | zero => cases h
  | succ n ih =>
    unfold markSweep at h
    split at h
    · cases h
      exact hend
    split at h
    · cases h
    split at h
    · cases h
    next hr =>
    split at h
    · next hp =>
      obtain ⟨s1, hact, h⟩ := bind_eq_some_iff.1 h
      exact hround hr hp hact (ih h)
    · exact ih h

/-- **Every row is acted on at most once**, and is marked then. -/
theorem sweep_acts (hmark : ∀ r, p (mark r) = false)
    (h : sweep p mark act bound t s = some (t', s')) :
    ∃ X : List (Σ _ : Nat, ρ), X.NodupKeys ∧ (∀ e ∈ X, t.find e.1 = some e.2 ∧ p e.2 = true) ∧
      X.foldlM (fun s e => act s e.1 e.2) s = some s' ∧
      ∀ id, t'.find id = (t.find id).map fun r => if id ∈ X.keys then mark r else r := by
  refine markSweep_back h ⟨[], nodupKeys_nil, by simp, rfl, fun id => by simp⟩ ?_
  rintro t s s1 i r hi hp hact ⟨X, hnodup, hX, hfold, hfind⟩
  -- the marked row is not acted on again
  have hfresh : i ∉ X.keys := by
    intro hin
    obtain ⟨e, he, rfl⟩ := mem_map.1 hin
    obtain ⟨hrow, hpe⟩ := hX e he
    rw [find_modify_self, hi] at hrow
    have hrow : mark r = e.2 := some.inj hrow
    rw [← hrow, hmark] at hpe
    cases hpe
  refine ⟨⟨i, r⟩ :: X, nodupKeys_cons.2 ⟨hfresh, hnodup⟩, fun e he => ?_, ?_, fun id => ?_⟩
  · rcases mem_cons.1 he with rfl | he
    · exact ⟨hi, hp⟩
    · obtain ⟨hrow, hpe⟩ := hX e he
      have hne : e.1 ≠ i := fun heq => hfresh (heq ▸ mem_map_of_mem he)
      rw [find_modify, if_neg hne] at hrow
      exact ⟨hrow, hpe⟩
  · rw [foldlM_cons, hact]
    exact hfold
  · rw [hfind]
    exact find_mark_cons hfresh id

theorem find_markSweep {stop itr : Option Nat}
    (h : markSweep p mark act stop n itr t s = some (t', s')) :
    t'.nextId = t.nextId ∧ ∀ {id r'}, t'.find id = some r' → t.find id = some r' ∨
    ∃ r, r' = mark r := by
  refine markSweep_back h ⟨rfl, fun hr => .inl hr⟩ ?_
  rintro t s s1 i r - - - ⟨hnext, hrows⟩
  refine ⟨hnext, fun {id r'} hr => ?_⟩
  rcases hrows hr with hr | hr
  · rw [find_modify] at hr
    split at hr
    · obtain ⟨r0, -, rfl⟩ := map_eq_some_iff.1 hr
      exact .inr ⟨r0, rfl⟩
    · exact .inl hr
  · exact .inr hr

theorem find_sweep (h : sweep p mark act bound t s = some (t', s')) {r' : ρ}
    (hr : t'.find id = some r') :
    t.find id = some r' ∨ ∃ r, r' = mark r :=
  (find_markSweep h).2 hr

theorem nextId_sweep (h : sweep p mark act bound t s = some (t', s')) : t'.nextId = t.nextId :=
  (find_markSweep h).1

theorem find_of_eraseBack {status : ρ → Nat} (h : (eraseBack status v n t).find id = some r) :
    t.find id = some r := by
  induction n generalizing t with
  | zero => exact h
  | succ n ih =>
    rw [eraseBack] at h
    split at h
    · exact h
    · split at h
      · have hr := ih h
        rw [find_remove] at hr
        split at hr
        · cases hr
        · exact hr
      · exact h

end OrderedTable
