import Mathlib.Tactic

/-!
# Arrays of words in byte memory

An array of words of `width` bytes each, the lowest byte first, in a memory that is a function from
offsets to bytes. `memset` and `realloc` work on bytes, whatever the words are.
-/

namespace Cells

open Nat

abbrev Memory := ℕ → UInt8

variable {m m' : Memory} {width n i j v : ℕ}

def word (m : Memory) : ℕ → ℕ → ℕ
  | 0, _ => 0
  | n + 1, j => (m j).toNat + 256 * word m n (j + 1)

def load (width : ℕ) (m : Memory) (i : ℕ) : ℕ := word m width (width * i)

def store (width : ℕ) (m : Memory) (i v : ℕ) : Memory := fun j =>
  if width * i ≤ j ∧ j < width * i + width then UInt8.ofNat (v / 256 ^ (j - width * i)) else m j

def memset (m : Memory) (start : ℕ) (c : UInt8) (n : ℕ) : Memory := fun j =>
  if start ≤ j ∧ j < start + n then c else m j

/-- The first `size` bytes are kept, the others are whatever the memory behind them holds. -/
def realloc (m : Memory) (size : ℕ) (fresh : Memory) : Memory := fun j =>
  if j < size then m j else fresh j

def storeAt (m : Memory) (offset : ℕ) (bytes : List UInt8) : Memory := fun i =>
  if offset ≤ i ∧ i < offset + bytes.length then bytes.getD (i - offset) 0 else m i

def segment (m : Memory) (offset n : ℕ) : List UInt8 := (List.range n).map fun i => m (offset + i)

theorem word_lt (m : Memory) (n j : ℕ) : word m n j < 256 ^ n := by
  induction n generalizing j with
  | zero => simp [word]
  | succ n ih =>
    have hlow := (m j).toNat_lt
    have hhigh := ih (j + 1)
    simp only [word, pow_succ]
    omega

theorem word_congr (h : ∀ k < n, m (j + k) = m' (j + k)) : word m n j = word m' n j := by
  induction n generalizing j with
  | zero => rfl
  | succ n ih =>
    have hhead : m j = m' j := h 0 (succ_pos n)
    have htail : word m n (j + 1) = word m' n (j + 1) := by
      apply ih
      intro k hk
      have := h (k + 1) (succ_lt_succ hk)
      rwa [add_right_comm, add_assoc j k 1]
    simp only [word, hhead, htail]

theorem word_eq_zero_iff : word m n j = 0 ↔ ∀ k < n, m (j + k) = 0 := by
  induction n generalizing j with
  | zero => simp [word]
  | succ n ih =>
    have hbyte : (m j).toNat = 0 ↔ m j = 0 := by
      rw [← UInt8.toNat_inj]
      rfl
    simp only [word, Nat.add_eq_zero_iff, Nat.mul_eq_zero, OfNat.ofNat_ne_zero, false_or, hbyte, ih]
    constructor
    · rintro ⟨hhead, htail⟩ k hk
      cases k with
      | zero => exact hhead
      | succ k =>
        rw [← Nat.add_assoc, Nat.add_right_comm]
        exact htail k (Nat.lt_of_succ_lt_succ hk)
    · intro h
      refine ⟨h 0 (Nat.succ_pos n), fun k hk => ?_⟩
      rw [Nat.add_right_comm, Nat.add_assoc]
      exact h (k + 1) (Nat.succ_lt_succ hk)

theorem word_digits (hv : v < 256 ^ n) (h : ∀ k < n, m (j + k) = UInt8.ofNat (v / 256 ^ k)) :
    word m n j = v := by
  induction n generalizing j v with
  | zero =>
    simp only [pow_zero] at hv
    simp only [word]
    omega
  | succ n ih =>
    have hhead : m j = UInt8.ofNat v := by simpa using h 0 (succ_pos n)
    have htail : word m n (j + 1) = v / 256 := by
      apply ih
      · rw [div_lt_iff_lt_mul (by norm_num)]
        rwa [pow_succ] at hv
      · intro k hk
        have := h (k + 1) (succ_lt_succ hk)
        rw [Nat.add_right_comm, Nat.add_assoc, this, pow_succ', Nat.div_div_eq_div_mul]
    rw [word, hhead, htail, UInt8.toNat_ofNat']
    omega

theorem load_lt (width : ℕ) (m : Memory) (i : ℕ) : load width m i < 256 ^ width := word_lt m _ _

theorem load_eq_zero_iff : load width m i = 0 ↔ ∀ k < width, m (width * i + k) = 0 :=
  word_eq_zero_iff

theorem cell_disjoint {i' k : ℕ} (hne : i' ≠ i) (hk : k < width) :
    ¬ (width * i ≤ width * i' + k ∧ width * i' + k < width * i + width) := by
  rcases lt_or_gt_of_ne hne with hlt | hgt
  · have := mul_le_mul_left width (succ_le_of_lt hlt)
    rw [mul_succ] at this
    omega
  · have := mul_le_mul_left width (succ_le_of_lt hgt)
    rw [mul_succ] at this
    omega

theorem store_ne {i' k : ℕ} (hne : i' ≠ i) (hk : k < width) :
    store width m i v (width * i' + k) = m (width * i' + k) := by
  rw [store, if_neg (cell_disjoint hne hk)]

theorem load_store_self (hv : v < 256 ^ width) : load width (store width m i v) i = v := by
  apply word_digits hv
  intro k hk
  rw [store, if_pos ⟨Nat.le_add_right _ _, Nat.add_lt_add_left hk _⟩, Nat.add_sub_cancel_left]

theorem load_store_ne {i' : ℕ} (hne : i' ≠ i) :
    load width (store width m i v) i' = load width m i' :=
  word_congr fun _ hk => store_ne hne hk

theorem cell_lt {k : ℕ} (hi : i < n) (hk : k < width) : width * i + k < width * n := by
  have := mul_le_mul_left width (succ_le_of_lt hi)
  rw [mul_succ] at this
  omega

theorem realloc_lt {fresh : Memory} {k : ℕ} (hi : i < n) (hk : k < width) :
    realloc m (width * n) fresh (width * i + k) = m (width * i + k) := by
  rw [realloc, if_pos (cell_lt hi hk)]

theorem realloc_ge {fresh : Memory} {k : ℕ} (hi : n ≤ i) :
    realloc m (width * n) fresh (width * i + k) = fresh (width * i + k) := by
  have := mul_le_mul_left width hi
  rw [realloc, if_neg (by omega)]

section Segments

variable {offset : ℕ} {bytes : List UInt8}

@[simp] theorem length_segment (m : Memory) (offset n : ℕ) : (segment m offset n).length = n := by
  simp [segment]

theorem segment_add (m : Memory) (offset a b : ℕ) :
    segment m offset (a + b) = segment m offset a ++ segment m (offset + a) b := by
  simp [segment, List.range_add, Function.comp_def, add_assoc]

theorem segment_congr (h : ∀ i, offset ≤ i → i < offset + n → m i = m' i) :
    segment m offset n = segment m' offset n := by
  apply List.map_congr_left
  intro i hi
  rw [List.mem_range] at hi
  exact h _ (by omega) (by omega)

theorem storeAt_outside (m : Memory) (h : i < offset ∨ offset + bytes.length ≤ i) :
    storeAt m offset bytes i = m i := if_neg (by omega)

theorem segment_storeAt (m : Memory) (offset : ℕ) (bytes : List UInt8) :
    segment (storeAt m offset bytes) offset bytes.length = bytes := by
  apply List.ext_getElem
  · exact length_segment _ _ _
  · intro i _ hi
    simp [segment, storeAt, hi]

end Segments

end Cells
