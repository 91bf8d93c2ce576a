import PaxAdb.Cells
import PaxAdb.StringBuffer

/-!
# Printing into memory

Memory, and the offsets of all the bytes that were written. `snprintf` writes at most as many bytes
as it is told, the NUL among them, and nothing at all when it is told 0. What a call may touch is a
range of offsets; calls that touch the same range can be put one after the other.
-/

open Cells

structure Output where
  cells : Memory
  written : List ℕ

namespace Output

open List

variable {o o' o'' : Output} {s : List UInt8} {lo hi offset size : ℕ}

def put (o : Output) (offset : ℕ) (bytes : List UInt8) : Output where
  cells := storeAt o.cells offset bytes
  written := o.written ++ range' offset bytes.length

def snprintf (o : Output) (offset size : ℕ) (s : List UInt8) : Output :=
  o.put offset (CString.snprintf size s)

structure Confined (lo hi : ℕ) (o o' : Output) : Prop where
  written : ∀ i ∈ o'.written, i ∈ o.written ∨ lo ≤ i ∧ i < hi
  frame : ∀ i, i < lo ∨ hi ≤ i → o'.cells i = o.cells i

namespace Confined

theorem refl (lo hi : ℕ) (o : Output) : Confined lo hi o o := ⟨fun _ hi => .inl hi, fun _ _ => rfl⟩

theorem trans (h : Confined lo hi o o') (h' : Confined lo hi o' o'') : Confined lo hi o o'' where
  written i hi' := (h'.written i hi').elim (h.written i) .inr
  frame i hi' := (h'.frame i hi').trans (h.frame i hi')

theorem mono {lo' hi' : ℕ} (h : Confined lo hi o o') (hlo : lo' ≤ lo) (hhi : hi ≤ hi') :
    Confined lo' hi' o o' where
  written i hi := (h.written i hi).imp_right fun hin => by omega
  frame i hi := h.frame i (by omega)

theorem segment_before {n : ℕ} (h : Confined lo hi o o') (hle : offset + n ≤ lo) :
    segment o'.cells offset n = segment o.cells offset n :=
  segment_congr fun i _ hi => h.frame i (.inl (by omega))

end Confined

theorem put_confined (o : Output) (offset : ℕ) (bytes : List UInt8) :
    Confined offset (offset + bytes.length) o (o.put offset bytes) where
  written i hi := by
    rw [put, mem_append, mem_range'_1] at hi
    exact hi
  frame i hi := storeAt_outside _ hi

theorem snprintf_confined (o : Output) (offset size : ℕ) (s : List UInt8) :
    Confined offset (offset + size) o (o.snprintf offset size s) :=
  (put_confined o offset _).mono le_rfl
    (Nat.add_le_add_left (CString.length_snprintf_le size s) offset)

theorem segment_snprintf (o : Output) (offset : ℕ) (h : s.length < size) :
    segment (o.snprintf offset size s).cells offset (s.length + 1) = s ++ [0] := by
  have hlen : s.length + 1 = (s ++ [0]).length := by
    rw [length_append, length_singleton]
  rw [snprintf, CString.snprintf_of_lt h, hlen]
  exact segment_storeAt _ _ _

theorem segment_snprintf_text (o : Output) (offset : ℕ) (h : s.length < size) :
    segment (o.snprintf offset size s).cells offset s.length = s := by
  have hall := segment_snprintf o offset h
  rw [segment_add] at hall
  exact (append_inj hall (length_segment _ _ _)).1

theorem snprintf_nul (o : Output) (offset : ℕ) (h : s.length < size) :
    (o.snprintf offset size s).cells (offset + s.length) = 0 := by
  have hall := segment_snprintf o offset h
  rw [segment_add] at hall
  exact head_eq_of_cons_eq (append_inj hall (length_segment _ _ _)).2

/-- Between `o` and `o'` the text `s` was written from `start` on with its NUL, unless it is
empty: then nothing was. -/
structure Wrote (s : List UInt8) (start : ℕ) (o o' : Output) : Prop where
  confined : Confined start (start + s.length + 1) o o'
  text : segment o'.cells start s.length = s
  terminated : s ≠ [] → o'.cells (start + s.length) = 0
  nothing : s = [] → o' = o

theorem Wrote.nil (start : ℕ) (o : Output) : Wrote [] start o o :=
  ⟨.refl _ _ _, rfl, fun h => absurd rfl h, fun _ => rfl⟩

theorem Wrote.append {start : ℕ} {s' : List UInt8} (hs : s ≠ [])
    (h : Wrote s' (start + s.length) (o.snprintf start ((s ++ s').length + 1) s) o') :
    Wrote (s ++ s') start o o' := by
  have hlen : (s ++ s').length = s.length + s'.length := length_append
  have hfits : s.length < (s ++ s').length + 1 := by omega
  have hfirst := snprintf_confined o start ((s ++ s').length + 1) s
  refine ⟨?_, ?_, fun _ => ?_, fun hnil => ?_⟩
  · exact (hfirst.mono le_rfl (by omega)).trans (h.confined.mono (by omega) (by omega))
  · rw [hlen, segment_add, h.text, h.confined.segment_before le_rfl,
      segment_snprintf_text o start hfits]
  · rw [hlen, ← Nat.add_assoc]
    by_cases hs' : s' = []
    · have hzero : s'.length = 0 := length_eq_zero_iff.mpr hs'
      rw [h.nothing hs', hzero, Nat.add_zero]
      exact snprintf_nul o start hfits
    · exact h.terminated hs'
  · exact absurd (append_eq_nil_iff.mp hnil).1 hs

end Output
