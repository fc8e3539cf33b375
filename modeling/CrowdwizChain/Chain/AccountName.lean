import CrowdwizChain.Chain.Account

/-!
# The grammar of account names

`is_valid_name` goes through a string by indices: it looks for the next dot, checks the label before
it, the first and the last character apart from those in between, and goes on behind the dot. What
it is documented to accept is a sequence of labels with dots in between, without any indices. The
scanner is first read as one of labels (`isValidName` of account creation), and this one as the
grammar: both go from dot to dot.
-/

namespace CrowdwizChain

open List

namespace AccountName

/-! ### The scanner -/

/-- `name[i]`, which is zero at the end of a string -/
def charAt (name : List Char) (i : Nat) : Char := name.getD i (Char.ofNat 0)

/-- `find_first_of( '.', begin )`, or the end of the string -/
def labelEnd (name : List Char) (start : Nat) : Nat := start + (name.drop start).findIdx (· = '.')

/-- The checks of a round of `is_valid_name`, on the label from `start` up to `stop` -/
def checkLabel (name : List Char) (start stop : Nat) : Bool :=
  if stop - start < grapheneMinAccountNameLength then false
  else if !isNameLetter (charAt name start) then false
  else if !(isNameLetter (charAt name (stop - 1)) || isNameDigit (charAt name (stop - 1))) then
    false
  else (range' (start + 1) (stop - 1 - (start + 1))).all fun i =>
    isNameLetter (charAt name i) || isNameDigit (charAt name i) || charAt name i == '-'

variable {name : List Char} {start stop : Nat}

theorem lt_length_of_checkLabel (h : checkLabel name start (labelEnd name start) = true) :
    start < name.length := by
  by_contra hge
  rw [checkLabel, labelEnd, drop_eq_nil_of_le (Nat.not_lt.1 hge), findIdx_nil, add_zero,
    Nat.sub_self, if_pos (by decide)] at h
  cases h

/-- The loop of `is_valid_name` -/
def scanLabels (name : List Char) (start : Nat) : Bool :=
  if _h : checkLabel name start (labelEnd name start) = true then
    if labelEnd name start = name.length then true else scanLabels name (labelEnd name start + 1)
  else false
termination_by name.length - start
decreasing_by
  have hlt := lt_length_of_checkLabel _h
  have hle : start ≤ labelEnd name start := Nat.le_add_right _ _
  omega

/-- `is_valid_name`, by indices -/
def isValidName (name : List Char) : Bool :=
  if name.length < grapheneMinAccountNameLength then false
  else if grapheneMaxAccountNameLength < name.length then false
  else scanLabels name 0

/-! ### From indices to labels -/

theorem all_range' {p : Char → Bool} {n : Nat} (h : start + n ≤ name.length) :
    ((range' start n).all fun i => p (charAt name i)) = ((name.drop start).take n).all p := by
  induction n generalizing start with
  | zero => rfl
  | succ n ih =>
    have hlt : start < name.length := by omega
    have hfirst : charAt name start = name[start] := by
      rw [charAt, getD_eq_getElem?_getD, getElem?_eq_getElem hlt, Option.getD_some]
    rw [range'_succ, all_cons, ih (by omega), drop_eq_getElem_cons hlt, take_succ_cons,
      all_cons, hfirst]

/-- **A round checks the label between two dots.** -/
theorem checkLabel_eq (hstart : start ≤ stop) (hstop : stop ≤ name.length) :
    checkLabel name start stop = isValidLabel ((name.drop start).take (stop - start)) := by
  have hlength : ((name.drop start).take (stop - start)).length = stop - start := by
    rw [length_take, length_drop]
    omega
  have hchar : ∀ i, i < stop - start → ((name.drop start).take (stop - start))[i]? =
      some (charAt name (start + i)) := by
    intro i hi
    rw [getElem?_take_of_lt hi, getElem?_drop, charAt, getD_eq_getElem?_getD,
      getElem?_eq_getElem (show start + i < name.length by omega), Option.getD_some]
  rw [checkLabel, isValidLabel, hlength, head?_eq_getElem?, getLast?_eq_getElem?, hlength]
  split
  · next hshort => rw [decide_eq_false fun h => absurd h.1 (by omega)]
  next hlong =>
  rw [grapheneMinAccountNameLength] at hlong
  -- what is left of the label without its ends
  have hinner : ((name.drop start).take (stop - start)).tail.dropLast =
      (name.drop (start + 1)).take (stop - 1 - (start + 1)) := by
    rw [dropLast_eq_take, length_tail, hlength, ← drop_one, drop_take, drop_drop, take_take]
    congr 1
    omega
  rw [hchar 0 (by omega), hchar (stop - start - 1) (by omega), hinner, ← all_range' (by omega),
    show start + (stop - start - 1) = stop - 1 by omega, add_zero, Option.any_some, Option.any_some]
  have hmin : grapheneMinAccountNameLength ≤ stop - start := Nat.not_lt.1 hlong
  rw [Bool.eq_iff_iff, decide_eq_true_iff]
  cases isNameLetter (charAt name start) <;>
    cases isNameLetter (charAt name (stop - 1)) || isNameDigit (charAt name (stop - 1)) <;>
      simp [hmin]

theorem scanLabels_eq {n : Nat} (hstart : start ≤ name.length) (hn : name.length - start < n) :
    scanLabels name start = validLabels n (name.drop start) := by
  induction n generalizing start with
  | zero => omega
  | succ n ih =>
    have hstop : labelEnd name start ≤ name.length := by
      have hle : (name.drop start).findIdx (· = '.') ≤ (name.drop start).length := findIdx_le_length
      rw [length_drop] at hle
      rw [labelEnd]
      omega
    have hlabel : (name.drop start).takeWhile (· ≠ '.') =
        (name.drop start).take (labelEnd name start - start) := by
      rw [takeWhile_eq_take_findIdx_not, labelEnd, Nat.add_sub_cancel_left]
      simp
    have hrest : (name.drop start).dropWhile (· ≠ '.') = name.drop (labelEnd name start) := by
      rw [dropWhile_eq_drop_findIdx_not, drop_drop, labelEnd]
      simp
    have hle : start ≤ labelEnd name start := Nat.le_add_right _ _
    rw [scanLabels, validLabels, hlabel, hrest, checkLabel_eq hle hstop]
    by_cases hend : labelEnd name start = name.length
    · rw [if_pos hend, hend, drop_length]
      simp
    · have hlt : labelEnd name start < name.length := by omega
      rw [if_neg hend, drop_eq_getElem_cons hlt, ih (by omega) (by omega)]
      simp

theorem isValidName_eq (name : List Char) : isValidName name = CrowdwizChain.isValidName name := by
  rw [isValidName, CrowdwizChain.isValidName, scanLabels_eq (Nat.zero_le _) (Nat.lt_succ_self _),
    drop_zero]
  rw [Bool.eq_iff_iff, decide_eq_true_iff]
  split
  · exact iff_of_false Bool.false_ne_true fun h => by omega
  next hshort =>
  split
  · exact iff_of_false Bool.false_ne_true fun h => by omega
  next hlong => exact ⟨fun h => ⟨Nat.not_lt.1 hshort, Nat.not_lt.1 hlong, h⟩, fun h => h.2.2⟩

/-! ### The grammar -/

/-- `<label>` of the grammar: lowercase letters, digits and hyphens, with a letter at the beginning
and a letter or a digit at the end -/
structure IsLabel (label : List Char) : Prop where
  length : grapheneMinAccountNameLength ≤ label.length
  first : ∃ c, label.head? = some c ∧ isNameLetter c = true
  last : ∃ c, label.getLast? = some c ∧ (isNameLetter c = true ∨ isNameDigit c = true)
  chars : ∀ c ∈ label, isNameLetter c = true ∨ isNameDigit c = true ∨ c = '-'

theorem IsLabel.dot_notMem {label : List Char} (h : IsLabel label) : '.' ∉ label := fun hdot =>
  absurd (h.chars _ hdot) (by decide)

theorem isValidLabel_iff (label : List Char) : isValidLabel label = true ↔ IsLabel label := by
  rw [isValidLabel, decide_eq_true_iff, Option.any_eq_true, Option.any_eq_true, all_eq_true]
  simp only [Bool.or_eq_true, beq_iff_eq, or_assoc]
  refine ⟨?_, fun h => ⟨h.length, h.first, h.last, fun c hc => ?_⟩⟩
  · rintro ⟨hlength, ⟨a, ha, hletter⟩, ⟨b, hb, hletdig⟩, hinner⟩
    refine ⟨hlength, ⟨a, ha, hletter⟩, ⟨b, hb, hletdig⟩, fun c hc => ?_⟩
    obtain ⟨rest, rfl⟩ := head?_eq_some_iff.1 ha
    rcases mem_cons.1 hc with rfl | hc
    · exact .inl hletter
    rcases eq_nil_or_concat rest with rfl | ⟨inner, b', rfl⟩
    · cases hc
    rw [concat_eq_append] at hinner hb hc
    rw [tail_cons, dropLast_concat] at hinner
    rcases mem_append.1 hc with hc | hc
    · exact hinner c hc
    · rw [← cons_append, getLast?_concat] at hb
      cases hb
      rw [mem_singleton.1 hc]
      exact hletdig.imp_right .inl
  · exact h.chars c (mem_of_mem_tail (dropLast_subset _ hc))

theorem validLabels_iff {n : Nat} (hn : name.length < n) :
    validLabels n name = true ↔ ∀ label ∈ name.splitOn '.', IsLabel label := by
  induction n generalizing name with
  | zero => omega
  | succ n ih =>
    have hsplit := takeWhile_append_dropWhile (p := (· ≠ '.')) (l := name)
    have hdot : '.' ∉ name.takeWhile (· ≠ '.') := fun hmem => by
      simpa using mem_takeWhile_imp hmem
    rw [validLabels, Bool.and_eq_true, isValidLabel_iff]
    cases hrest : name.dropWhile (· ≠ '.') with
    | nil =>
      rw [hrest, append_nil] at hsplit
      rw [hsplit] at hdot ⊢
      simp [splitOn_eq_singleton hdot]
    | cons c rest =>
      have hc : c = '.' := by
        have hfirst := head?_dropWhile_not (· ≠ '.') name
        rw [hrest] at hfirst
        simpa using hfirst
      subst hc
      rw [hrest] at hsplit
      have hlength := congrArg length hsplit
      rw [length_append, length_cons] at hlength
      conv_rhs => rw [← hsplit]
      rw [splitOn_append_cons_self_of_not_mem hdot, forall_mem_cons, ih (by omega)]

/-- **`is_valid_name` accepts the documented grammar.** -/
theorem isValidName_iff (name : List Char) : isValidName name = true ↔
    grapheneMinAccountNameLength ≤ name.length ∧ name.length ≤ grapheneMaxAccountNameLength ∧
      ∃ labels, labels ≠ [] ∧ name = ['.'].intercalate labels ∧
      ∀ label ∈ labels, IsLabel label := by
  rw [isValidName_eq, CrowdwizChain.isValidName, decide_eq_true_iff,
    validLabels_iff (Nat.lt_succ_self _)]
  refine and_congr_right' (and_congr_right' ⟨fun h => ?_, ?_⟩)
  · exact ⟨name.splitOn '.', splitOn_ne_nil _ _, (intercalate_splitOn _).symm, h⟩
  · rintro ⟨labels, hne, rfl, hlabels⟩
    rwa [splitOn_intercalate _ (fun label hlabel => (hlabels label hlabel).dot_notMem) hne]

end AccountName

end CrowdwizChain
