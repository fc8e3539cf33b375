import Mathlib.Data.Fintype.Pi
import Mathlib.Data.List.GetD

/-!
# Files of bytes

A file is the list of its bytes. A write behind its end fills the gap with zeros. A byte that is not
there counts as zero, so that a write changes no bytes but its own (`ByteFile.getD_write`), whether
or not there is a gap. A number is kept in a fixed number of bytes, the lowest first.
-/

namespace ByteFile

open List

/-- What a stream leaves of a file when it writes at a position -/
def write (f : List UInt8) (pos : Nat) (bytes : List UInt8) : List UInt8 :=
  (f ++ replicate (pos - f.length) 0).take pos ++ bytes ++ f.drop (pos + bytes.length)

/-- Bytes from a position on; the stream fails if there are not as many. -/
def read (f : List UInt8) (pos n : Nat) : Option (List UInt8) :=
  if pos + n ≤ f.length then some ((f.drop pos).take n) else none

variable {f bytes : List UInt8} {pos i k : Nat}

theorem length_write (f : List UInt8) (pos : Nat) (bytes : List UInt8) :
    (write f pos bytes).length = max f.length (pos + bytes.length) := by
  simp only [write, length_append, length_take, length_replicate, length_drop]
  omega

theorem getD_write (f : List UInt8) (pos : Nat) (bytes : List UInt8) (i : Nat) :
    (write f pos bytes).getD i 0 =
      if pos ≤ i ∧ i < pos + bytes.length then bytes.getD (i - pos) 0 else f.getD i 0 := by
  have hlength : ((f ++ replicate (pos - f.length) 0).take pos).length = pos := by
    rw [length_take, length_append, length_replicate]
    omega
  rw [write, append_assoc]
  by_cases hlt : i < pos
  · have hzero : (f ++ replicate (pos - f.length) 0).getD i 0 = f.getD i 0 := by
      by_cases hin : i < f.length
      · exact getD_append _ _ _ _ hin
      · rw [getD_append_right _ _ _ _ (Nat.not_lt.1 hin), getD_eq_default _ _ (Nat.not_lt.1 hin),
          getD_replicate _ (by omega)]
    rw [getD_append _ _ _ _ (hlength.symm ▸ hlt), if_neg (by omega), ← hzero,
      getD_eq_getElem?_getD, getD_eq_getElem?_getD, getElem?_take_of_lt hlt]
  · rw [getD_append_right _ _ _ _ (hlength.symm ▸ Nat.not_lt.1 hlt), hlength]
    by_cases hin : i - pos < bytes.length
    · rw [getD_append _ _ _ _ hin, if_pos (by omega)]
    · rw [getD_append_right _ _ _ _ (Nat.not_lt.1 hin), if_neg (by omega),
        getD_eq_getElem?_getD, getElem?_drop, ← getD_eq_getElem?_getD]
      congr 1
      omega

theorem write_eq_self (hlength : pos + bytes.length ≤ f.length)
    (h : ∀ i < bytes.length, bytes.getD i 0 = f.getD (pos + i) 0) : write f pos bytes = f := by
  refine ext_getElem (by rw [length_write]; omega) fun i hi hi' => ?_
  have hbyte := getD_write f pos bytes i
  rw [getD_eq_getElem _ _ hi, getD_eq_getElem _ _ hi'] at hbyte
  rw [hbyte]
  split
  · next hin =>
    rw [h (i - pos) (by omega), Nat.add_sub_cancel' hin.1, getD_eq_getElem _ _ hi']
  · rfl

theorem read_append {n : Nat} {data : List UInt8} (h : read f pos n = some data) :
    read (f ++ bytes) pos n = some data := by
  obtain ⟨hle, h⟩ := Option.ite_none_right_eq_some.1 h
  rw [read, if_pos (by rw [length_append]; omega), drop_append_of_le_length (by omega),
    take_append_of_le_length (by rw [length_drop]; omega), h]

theorem length_of_read {n : Nat} {data : List UInt8} (h : read f pos n = some data) :
    data.length = n := by
  obtain ⟨hle, h⟩ := Option.ite_none_right_eq_some.1 h
  rw [← Option.some.inj h, length_take, length_drop]
  omega

theorem read_append_self (f bytes : List UInt8) :
    read (f ++ bytes) f.length bytes.length = some bytes := by
  rw [read, if_pos (Nat.le_of_eq length_append.symm), drop_left, take_length]

/-! ### Numbers -/

/-- The number in some bytes, the lowest first -/
def number : Nat → (Nat → UInt8) → Nat
  | 0, _ => 0
  | k + 1, g => (g 0).toNat + 256 * number k fun i => g (i + 1)

theorem number_congr {g g' : Nat → UInt8} (h : ∀ i < k, g i = g' i) : number k g = number k g' := by
  induction k generalizing g g' with
  | zero => rfl
  | succ k ih =>
    rw [number, number, h 0 (Nat.succ_pos k), ih fun i hi => h (i + 1) (Nat.succ_lt_succ hi)]

/-- A byte of a number -/
def digit (n i : Nat) : UInt8 := UInt8.ofNat (n / 256 ^ i)

theorem digit_succ (n i : Nat) : digit n (i + 1) = digit (n / 256) i := by
  rw [digit, digit, Nat.pow_succ', Nat.div_div_eq_div_mul]

theorem number_digit (k n : Nat) : number k (digit n) = n % 256 ^ k := by
  induction k generalizing n with
  | zero => rw [number, Nat.pow_zero, Nat.mod_one]
  | succ k ih =>
    simp only [number, digit_succ]
    rw [ih, Nat.pow_succ', Nat.mod_mul, digit, Nat.pow_zero, Nat.div_one, UInt8.toNat_ofNat']

theorem digit_number {g : Nat → UInt8} (hi : i < k) : digit (number k g) i = g i := by
  induction k generalizing g i with
  | zero => cases hi
  | succ k ih =>
    have hlt := (g 0).toNat_lt
    cases i with
    | zero =>
      rw [digit, number, Nat.pow_zero, Nat.div_one, ← UInt8.toNat_inj, UInt8.toNat_ofNat']
      omega
    | succ i =>
      have hrest : number (k + 1) g / 256 = number k fun i => g (i + 1) := by
        rw [number]
        omega
      rw [digit_succ, hrest]
      exact ih (Nat.lt_of_succ_lt_succ hi)

end ByteFile
