import Mathlib.Data.List.TakeWhile
import Mathlib.Tactic

/-!
# Building a C string in a buffer

The memory from the start of a buffer on, as far as it has been written, and the offsets of all the
bytes that were written. `snprintf` stops where the buffer ends. `strncat` is told how many bytes to
take of its source and not how much room there is.
-/

namespace CString

variable {s : List UInt8} {size : ℕ}

/-- The bytes that `snprintf` stores, with the NUL behind them. -/
def snprintf (size : ℕ) (s : List UInt8) : List UInt8 :=
  if size = 0 then [] else s.take (size - 1) ++ [0]

theorem snprintf_of_pos (h : 0 < size) (s : List UInt8) :
    snprintf size s = s.take (size - 1) ++ [0] := if_neg h.ne'

theorem snprintf_of_lt (h : s.length < size) : snprintf size s = s ++ [0] := by
  rw [snprintf_of_pos (by omega), List.take_of_length_le (by omega)]

theorem length_snprintf_le (size : ℕ) (s : List UInt8) : (snprintf size s).length ≤ size := by
  rw [snprintf]
  split
  next => exact Nat.zero_le _
  next =>
    rw [List.length_append, List.length_take, List.length_singleton]
    omega

theorem dropLast_snprintf (size : ℕ) (s : List UInt8) :
    (snprintf size s).dropLast = s.take (size - 1) := by
  rw [snprintf]
  split
  next hsize =>
    rw [hsize]
    rfl
  next => exact List.dropLast_concat

end CString

structure StringBuffer where
  cells : List UInt8
  written : List ℕ
  deriving DecidableEq, Repr

namespace StringBuffer

variable {b : StringBuffer} {s src : List UInt8} {srcs : List (List UInt8)} {size n : ℕ}

section Model

def string (b : StringBuffer) : List UInt8 := b.cells.takeWhile (· ≠ 0)

def put (b : StringBuffer) (offset : ℕ) (bytes : List UInt8) : StringBuffer where
  cells := b.cells.take offset ++ (bytes ++ b.cells.drop (offset + bytes.length))
  written := b.written ++ List.range' offset bytes.length

def snprintf (size : ℕ) (s : List UInt8) : StringBuffer :=
  put ⟨[], []⟩ 0 (CString.snprintf size s)

def strncat (b : StringBuffer) (src : List UInt8) (n : ℕ) : StringBuffer :=
  b.put b.string.length (src.take n ++ [0])

def strncats (b : StringBuffer) (n : ℕ) (srcs : List (List UInt8)) : StringBuffer :=
  srcs.foldl (fun b src => b.strncat src n) b

def InBounds (b : StringBuffer) (size : ℕ) : Prop := ∀ i ∈ b.written, i < size

instance (b : StringBuffer) (size : ℕ) : Decidable (b.InBounds size) :=
  inferInstanceAs (Decidable (∀ i ∈ _, _))

end Model

section Strings

theorem takeWhile_terminated (h : 0 ∉ s) (rest : List UInt8) :
    (s ++ 0 :: rest).takeWhile (· ≠ 0) = s := by
  rw [List.takeWhile_append_of_pos, List.takeWhile_cons_of_neg (by simp), List.append_nil]
  intro c hc
  simpa using ne_of_mem_of_not_mem hc h

theorem string_nul (b : StringBuffer) : 0 ∉ b.string := by
  intro hmem
  simpa using List.mem_takeWhile_imp hmem

theorem string_snprintf (hpos : 0 < size) (h : 0 ∉ s) :
    (snprintf size s).string = s.take (size - 1) := by
  have hnul : 0 ∉ s.take (size - 1) := fun hmem => h (List.mem_of_mem_take hmem)
  rw [string, snprintf, CString.snprintf_of_pos hpos, put, List.take_nil, List.drop_nil,
    List.nil_append, List.append_nil]
  exact takeWhile_terminated hnul []

theorem take_string (b : StringBuffer) : b.cells.take b.string.length = b.string :=
  (List.prefix_iff_eq_take.mp (List.takeWhile_prefix _)).symm

theorem string_strncat (h : 0 ∉ src) : (b.strncat src n).string = b.string ++ src.take n := by
  have hnul : 0 ∉ b.string ++ src.take n := by
    rw [List.mem_append, not_or]
    exact ⟨b.string_nul, fun hmem => h (List.mem_of_mem_take hmem)⟩
  rw [string, strncat, put, take_string, List.append_assoc, List.singleton_append,
    ← List.append_assoc]
  exact takeWhile_terminated hnul _

end Strings

section Bounds

theorem inBounds_put_iff {offset : ℕ} {bytes : List UInt8} :
    (b.put offset (bytes ++ [0])).InBounds size ↔
      b.InBounds size ∧ offset + bytes.length < size := by
  have hlen : (bytes ++ [0]).length = bytes.length + 1 := List.length_append
  simp only [InBounds, put, List.mem_append, List.mem_range'_1, hlen]
  constructor
  · intro h
    exact ⟨fun i hi => h i (.inl hi), h _ (.inr ⟨by omega, by omega⟩)⟩
  · rintro ⟨hb, hlast⟩ i (hi | hi)
    · exact hb i hi
    · omega

theorem inBounds_snprintf (h : 0 < size) (s : List UInt8) : (snprintf size s).InBounds size := by
  rw [snprintf, CString.snprintf_of_pos h]
  refine inBounds_put_iff.mpr ⟨nofun, ?_⟩
  rw [List.length_take]
  omega

theorem inBounds_strncat_iff :
    (b.strncat src n).InBounds size ↔
      b.InBounds size ∧ b.string.length + min n src.length < size := by
  rw [strncat, inBounds_put_iff, List.length_take]

theorem inBounds_of_strncats (h : (b.strncats n srcs).InBounds size) : b.InBounds size := by
  induction srcs generalizing b with
  | nil => exact h
  | cons src srcs ih => exact (inBounds_strncat_iff.mp (ih h)).1

/-- With a count that leaves out what is in the buffer already, all is well exactly when the texts
fit together. -/
theorem inBounds_strncats_iff (hnul : ∀ src ∈ srcs, 0 ∉ src) (hb : b.InBounds size)
    (hstring : b.string ≠ []) (hlt : b.string.length < size) (hn : size ≤ n + 1) :
    (b.strncats n srcs).InBounds size ↔ b.string.length + srcs.flatten.length < size := by
  induction srcs generalizing b with
  | nil => exact iff_of_true hb (by simpa using hlt)
  | cons src srcs ih =>
    have hpos := List.length_pos_iff.mpr hstring
    have hsrc := string_strncat (b := b) (n := n) (hnul src List.mem_cons_self)
    have hrest := fun x hx => hnul x (List.mem_cons_of_mem _ hx)
    rw [List.flatten_cons, List.length_append]
    by_cases hfits : b.string.length + src.length < size
    · -- the text is taken whole, and the next one goes behind it
      have htake : src.take n = src := List.take_of_length_le (by omega)
      rw [htake] at hsrc
      have hlen : (b.strncat src n).string.length = b.string.length + src.length := by
        rw [hsrc, List.length_append]
      have hin : (b.strncat src n).InBounds size :=
        inBounds_strncat_iff.mpr ⟨hb, by omega⟩
      rw [strncats, List.foldl_cons]
      refine (ih hrest hin ?_ (by omega)).trans ?_
      · rw [hsrc]
        exact List.append_ne_nil_of_left_ne_nil hstring _
      · rw [hlen, Nat.add_assoc]
    · refine iff_of_false (fun h => ?_) (by omega)
      have hout := (inBounds_strncat_iff.mp (inBounds_of_strncats h)).2
      omega

theorem string_strncats (hnul : ∀ src ∈ srcs, 0 ∉ src) (hn : srcs.flatten.length ≤ n) :
    (b.strncats n srcs).string = b.string ++ srcs.flatten := by
  induction srcs generalizing b with
  | nil => rw [List.flatten_nil, List.append_nil, strncats, List.foldl_nil]
  | cons src srcs ih =>
    rw [List.flatten_cons, List.length_append] at hn
    have htake : src.take n = src := List.take_of_length_le (by omega)
    rw [strncats, List.foldl_cons, List.flatten_cons, ← List.append_assoc]
    rw [← strncats, ih (fun x hx => hnul x (List.mem_cons_of_mem _ hx)) (by omega),
      string_strncat (hnul src List.mem_cons_self), htake]

end Bounds

end StringBuffer
