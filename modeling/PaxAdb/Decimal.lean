import Mathlib.Data.List.TakeWhile
import Mathlib.Tactic

/-!
# Decimal numbers in texts

The text of a number as `%d` prints it, and the number a text starts with as `strtol` and `%d` of
`sscanf` find it: blanks, a sign and as many digits as follow.
-/

namespace PaxAdb.Decimal

open List

def isDigit (c : UInt8) : Bool := 0x30 ≤ c ∧ c ≤ 0x39

def isSpace (c : UInt8) : Bool := c = 0x20 ∨ (0x09 ≤ c ∧ c ≤ 0x0d)

def digit (n : ℕ) : UInt8 := UInt8.ofNat (0x30 + n)

variable {ds s : List UInt8}

section Digits

def digitsFrom : ℕ → ℕ → List UInt8
  | 0, _ => []
  | fuel + 1, n => if n < 10 then [digit n] else digitsFrom fuel (n / 10) ++ [digit (n % 10)]

def digits (n : ℕ) : List UInt8 := digitsFrom (n + 1) n

def value (ds : List UInt8) : ℕ := ds.foldl (fun v c => 10 * v + (c.toNat - 0x30)) 0

theorem digitsFrom_eq {fuel n : ℕ} (fuel' : ℕ) (h : n < fuel) (h' : n < fuel') :
    digitsFrom fuel n = digitsFrom fuel' n := by
  induction fuel generalizing fuel' n with
  | zero => omega
  | succ fuel ih =>
    cases fuel' with
    | zero => omega
    | succ fuel' =>
      rw [digitsFrom, digitsFrom]
      split
      next => rfl
      next hn => rw [ih fuel' (by omega) (by omega)]

theorem digits_of_lt {n : ℕ} (h : n < 10) : digits n = [digit n] := by
  rw [digits, digitsFrom, if_pos h]

theorem digits_of_ge {n : ℕ} (h : 10 ≤ n) : digits n = digits (n / 10) ++ [digit (n % 10)] := by
  rw [digits, digitsFrom, if_neg (by omega), digits,
    digitsFrom_eq (n / 10 + 1) (by omega) (by omega)]

theorem toNat_digit {n : ℕ} (h : n < 10) : (digit n).toNat = 0x30 + n := by
  rw [digit, UInt8.toNat_ofNat']
  omega

theorem isDigit_iff (c : UInt8) : isDigit c = true ↔ 0x30 ≤ c.toNat ∧ c.toNat ≤ 0x39 := by
  rw [isDigit, decide_eq_true_iff, UInt8.le_iff_toNat_le, UInt8.le_iff_toNat_le]
  rfl

theorem isDigit_digit {n : ℕ} (h : n < 10) : isDigit (digit n) = true := by
  rw [isDigit_iff, toNat_digit h]
  omega

theorem isDigit_of_mem_digits (n : ℕ) : ∀ c ∈ digits n, isDigit c = true := by
  induction n using Nat.strong_induction_on with
  | h n ih =>
    intro c hc
    by_cases hn : n < 10
    · rw [digits_of_lt hn, mem_singleton] at hc
      rw [hc]
      exact isDigit_digit hn
    · rw [digits_of_ge (not_lt.mp hn), mem_append, mem_singleton] at hc
      rcases hc with hc | rfl
      · exact ih (n / 10) (by omega) c hc
      · exact isDigit_digit (Nat.mod_lt n (by decide))

theorem digits_ne_nil (n : ℕ) : digits n ≠ [] := by
  by_cases hn : n < 10
  · rw [digits_of_lt hn]
    exact cons_ne_nil _ _
  · rw [digits_of_ge (not_lt.mp hn)]
    exact concat_ne_nil _ _

theorem value_append (ds : List UInt8) (c : UInt8) :
    value (ds ++ [c]) = 10 * value ds + (c.toNat - 0x30) := by
  rw [value, foldl_append]
  rfl

theorem value_digits (n : ℕ) : value (digits n) = n := by
  induction n using Nat.strong_induction_on with
  | h n ih =>
    by_cases hn : n < 10
    · rw [digits_of_lt hn, value, foldl_cons, foldl_nil, toNat_digit hn]
      omega
    · rw [digits_of_ge (not_lt.mp hn), value_append, ih (n / 10) (by omega),
        toNat_digit (Nat.mod_lt n (by decide))]
      omega

theorem length_digits_le (hne : ds ≠ []) (hds : ∀ c ∈ ds, isDigit c = true) :
    (digits (value ds)).length ≤ ds.length := by
  induction ds using reverseRecOn with
  | nil => exact absurd rfl hne
  | append_singleton ds c ih =>
    have hc := (isDigit_iff c).mp (hds c (mem_append_right _ (mem_singleton_self c)))
    rw [value_append, length_append, length_singleton]
    by_cases hlt : 10 * value ds + (c.toNat - 0x30) < 10
    · rw [digits_of_lt hlt]
      exact Nat.le_add_left 1 _
    · rw [digits_of_ge (not_lt.mp hlt), length_append, length_singleton,
        show (10 * value ds + (c.toNat - 0x30)) / 10 = value ds by omega]
      have hnil : ds ≠ [] := by
        rintro rfl
        have hzero : value [] = 0 := rfl
        omega
      have hfront := ih hnil (fun d hd => hds d (mem_append_left _ hd))
      omega

end Digits

section Numbers

/-- `%d` -/
def decimal (n : ℤ) : List UInt8 :=
  if n < 0 then 0x2d :: digits n.natAbs else digits n.natAbs

def takeSign : List UInt8 → Bool × List UInt8
  | c :: s => if c = 0x2d then (true, s) else if c = 0x2b then (false, s) else (false, c :: s)
  | [] => (false, [])

def number (s : List UInt8) : Option ℤ :=
  let (negative, s) := takeSign (s.dropWhile isSpace)
  let ds := s.takeWhile isDigit
  if ds = [] then none else some (if negative then -(value ds : ℤ) else value ds)

theorem not_isSpace_of_isDigit {c : UInt8} (h : isDigit c = true) : isSpace c = false := by
  rw [isDigit_iff] at h
  rw [isSpace, decide_eq_false_iff_not]
  rintro (rfl | ⟨-, hle⟩)
  · exact absurd h.1 (by decide)
  · have hnat := UInt8.le_iff_toNat_le.mp hle
    have hthirteen : (0x0d : UInt8).toNat = 13 := rfl
    omega

theorem takeSign_of_isDigit {c : UInt8} (h : isDigit c = true) (s : List UInt8) :
    takeSign (c :: s) = (false, c :: s) := by
  rw [isDigit_iff] at h
  rw [takeSign, if_neg, if_neg]
  · rintro rfl
    exact absurd h.1 (by decide)
  · rintro rfl
    exact absurd h.1 (by decide)

theorem takeWhile_digits (n : ℕ) : (digits n).takeWhile isDigit = digits n :=
  takeWhile_eq_self_iff.mpr (isDigit_of_mem_digits n)

theorem number_decimal (n : ℤ) : number (decimal n) = some n := by
  obtain ⟨c, s, hs⟩ := exists_cons_of_ne_nil (digits_ne_nil n.natAbs)
  have hc : isDigit c = true := isDigit_of_mem_digits n.natAbs c (hs ▸ mem_cons_self)
  rw [number, decimal]
  by_cases hneg : n < 0
  · rw [if_pos hneg, dropWhile_cons_of_neg (by decide)]
    simp only [takeSign, if_true, takeWhile_digits, value_digits, if_neg (digits_ne_nil _)]
    congr 1
    omega
  · rw [if_neg hneg, hs, dropWhile_cons_of_neg (by simp [not_isSpace_of_isDigit hc]),
      takeSign_of_isDigit hc, ← hs]
    simp only [takeWhile_digits, value_digits, if_neg (digits_ne_nil _)]
    rw [if_neg Bool.false_ne_true]
    congr 1
    omega

theorem number_of_digits (hne : ds ≠ []) (h : ∀ c ∈ ds, isDigit c = true) :
    number ds = some (value ds : ℤ) := by
  obtain ⟨c, s, rfl⟩ := exists_cons_of_ne_nil hne
  have hc : isDigit c = true := h c mem_cons_self
  rw [number, dropWhile_cons_of_neg (by simp [not_isSpace_of_isDigit hc]), takeSign_of_isDigit hc]
  simp only [takeWhile_eq_self_iff.mpr h, if_neg hne, if_neg Bool.false_ne_true]

theorem value_lt (h : ∀ c ∈ ds, isDigit c = true) : value ds < 10 ^ ds.length := by
  induction ds using reverseRecOn with
  | nil => exact Nat.one_pos
  | append_singleton ds c ih =>
    have hc := (isDigit_iff c).mp (h c (by simp))
    have hds := ih fun c hc => h c (mem_append_left _ hc)
    rw [value_append, length_append, length_singleton, pow_succ]
    omega

theorem value_append_digits (ds ds' : List UInt8) :
    value (ds ++ ds') = value ds * 10 ^ ds'.length + value ds' := by
  induction ds' using reverseRecOn with
  | nil => simp [value]
  | append_singleton ds' c ih =>
    rw [← append_assoc, value_append, ih, value_append, length_append, length_singleton, pow_succ]
    ring

/-- The digits that are cut off take their powers of ten with them. -/
theorem value_take (h : ∀ c ∈ ds, isDigit c = true) (k : ℕ) :
    value (ds.take k) = value ds / 10 ^ (ds.length - k) := by
  have hsplit := value_append_digits (ds.take k) (ds.drop k)
  have hlt : value (ds.drop k) < 10 ^ (ds.drop k).length :=
    value_lt fun c hc => h c (mem_of_mem_drop hc)
  rw [take_append_drop] at hsplit
  rw [hsplit, ← length_drop, mul_comm, Nat.mul_add_div (Nat.pos_of_ne_zero (by simp)),
    Nat.div_eq_of_lt hlt, add_zero]

theorem length_digits_of_lt {n k : ℕ} (h : n < 10 ^ (k + 1)) : (digits n).length ≤ k + 1 := by
  induction k generalizing n with
  | zero => rw [digits_of_lt h, length_singleton]
  | succ k ih =>
    by_cases hn : n < 10
    · rw [digits_of_lt hn]
      exact Nat.le_add_left 1 _
    · rw [digits_of_ge (not_lt.mp hn), length_append, length_singleton]
      exact Nat.succ_le_succ (ih (by rw [pow_succ] at h; omega))

theorem nul_notMem_decimal (n : ℤ) : 0 ∉ decimal n := by
  have hdigits : 0 ∉ digits n.natAbs := fun hmem =>
    absurd (isDigit_of_mem_digits _ 0 hmem) (by decide)
  rw [decimal]
  split
  next => simpa using hdigits
  next => exact hdigits

theorem length_takeSign (s : List UInt8) :
    (takeSign s).2.length + (takeSign s).1.toNat ≤ s.length := by
  cases s with
  | nil => exact le_rfl
  | cons c s =>
    rw [takeSign]
    split
    next => exact le_rfl
    next =>
      split
      next => exact Nat.le_succ _
      next => exact le_rfl

theorem length_decimal (n : ℤ) :
    (decimal n).length = (digits n.natAbs).length + (decide (n < 0)).toNat := by
  rw [decimal]
  by_cases hneg : n < 0
  · rw [if_pos hneg, decide_eq_true hneg]
    rfl
  · rw [if_neg hneg, decide_eq_false hneg]
    rfl

theorem length_decimal_le {n : ℤ} (h : number s = some n) : (decimal n).length ≤ s.length := by
  rw [number] at h
  have hspace := (dropWhile_suffix isSpace (l := s)).length_le
  have hsign := length_takeSign (s.dropWhile isSpace)
  generalize takeSign (s.dropWhile isSpace) = signed at h hsign
  obtain ⟨negative, rest⟩ := signed
  dsimp only at h hsign
  have hrest := (List.takeWhile_prefix isDigit (l := rest)).length_le
  split at h
  next => cases h
  next hne =>
    have hdigits := length_digits_le hne (fun c hc => mem_takeWhile_imp hc)
    rw [Option.some.injEq] at h
    have habs : n.natAbs = value (rest.takeWhile isDigit) := by
      split at h <;> omega
    have hneg : (decide (n < 0)).toNat ≤ negative.toNat := by
      cases negative with
      | true => exact Bool.toNat_le _
      | false =>
        rw [if_neg Bool.false_ne_true] at h
        rw [decide_eq_false (by omega)]
    rw [length_decimal, habs]
    omega

end Numbers

section Scanning

/-- A number stored in an `int`: `strtol` keeps it in the range of a `long`, of which the lower 32
bits are taken. -/
def toInt (n : ℤ) : ℤ := (max (-2 ^ 63) (min n (2 ^ 63 - 1))).bmod (2 ^ 32)

/-- `atoi`, which is `strtol(s, NULL, 10)` stored in an `int`. -/
def atoi (s : List UInt8) : ℤ := (number s).elim 0 toInt

theorem atoi_of_digits (h : ∀ c ∈ ds, isDigit c = true) : atoi ds = toInt (value ds) := by
  by_cases hne : ds = []
  · subst hne
    rfl
  · rw [atoi, number_of_digits hne h]
    rfl

inductive Scan where
  | eof
  | mismatch
  | int (n : ℤ)
  deriving DecidableEq, Repr

def scan (s : List UInt8) : Scan :=
  if s.dropWhile isSpace = [] then .eof
  else
    match number s with
    | none => .mismatch
    | some n => .int (toInt n)

theorem toInt_eq {n : ℤ} (hlow : -2 ^ 31 ≤ n) (hhigh : n < 2 ^ 31) : toInt n = n := by
  rw [toInt, min_eq_left (by omega), max_eq_right (by omega)]
  exact Int.bmod_eq_of_le (by omega) (by omega)

theorem le_toInt (n : ℤ) : -2 ^ 31 ≤ toInt n := by
  have h := Int.le_bmod (x := max (-2 ^ 63) (min n (2 ^ 63 - 1))) (m := 2 ^ 32) (by decide)
  rw [toInt]
  omega

theorem toInt_lt (n : ℤ) : toInt n < 2 ^ 31 := by
  have h := Int.bmod_lt (x := max (-2 ^ 63) (min n (2 ^ 63 - 1))) (m := 2 ^ 32) (by decide)
  rw [toInt]
  omega

theorem number_of_blank (h : s.dropWhile isSpace = []) : number s = none := by
  rw [number, h]
  rfl

theorem takeSign_append (h : s ≠ []) (t : List UInt8) :
    takeSign (s ++ t) = ((takeSign s).1, (takeSign s).2 ++ t) := by
  obtain ⟨c, s, rfl⟩ := exists_cons_of_ne_nil h
  rw [cons_append, takeSign, takeSign]
  split
  · rfl
  · split <;> rfl

theorem number_append {s t : List UInt8} (hs : s.dropWhile isSpace ≠ [])
    (ht : t.takeWhile isDigit = []) : number (s ++ t) = number s := by
  have hspace : (s ++ t).dropWhile isSpace = s.dropWhile isSpace ++ t := by
    rw [dropWhile_append, if_neg (by simpa using hs)]
  have hdigits : ∀ r : List UInt8, (r ++ t).takeWhile isDigit = r.takeWhile isDigit := by
    intro r
    rw [takeWhile_append, ht, append_nil]
    split
    next hall => exact ((List.takeWhile_prefix _).eq_of_length hall).symm
    next => rfl
  rw [number, number, hspace, takeSign_append hs]
  dsimp only
  rw [hdigits]

theorem number_append_nul (s t : List UInt8) : number (s ++ 0 :: t) = number s := by
  by_cases hs : s.dropWhile isSpace = []
  · have hspace : (s ++ 0 :: t).dropWhile isSpace = 0 :: t := by
      rw [dropWhile_append, hs, if_pos (by rfl), dropWhile_cons_of_neg (by decide)]
    rw [number_of_blank hs, number, hspace]
    rfl
  · exact number_append hs rfl

theorem number_append_spaces {s ws : List UInt8} (h : ∀ c ∈ ws, isSpace c = true) :
    number (s ++ ws) = number s := by
  by_cases hs : s.dropWhile isSpace = []
  · have hspace : (s ++ ws).dropWhile isSpace = [] := by
      rw [dropWhile_append, hs, if_pos (by rfl)]
      exact dropWhile_eq_nil_iff.mpr h
    rw [number_of_blank hs, number_of_blank hspace]
  · refine number_append hs ?_
    cases ws with
    | nil => rfl
    | cons c ws =>
      refine takeWhile_cons_of_neg fun hdigit => ?_
      have hc := h c mem_cons_self
      rw [not_isSpace_of_isDigit hdigit] at hc
      cases hc

theorem scan_decimal {n : ℤ} (hlow : -2 ^ 31 ≤ n) (hhigh : n < 2 ^ 31) :
    scan (decimal n) = .int n := by
  rw [scan, if_neg, number_decimal]
  · dsimp only
    rw [toInt_eq hlow hhigh]
  · intro hblank
    have hnone := number_of_blank hblank
    rw [number_decimal] at hnone
    cases hnone

end Scanning

end PaxAdb.Decimal
