import Mathlib.Tactic

/-!
# Little-endian words

A record of 32-bit fields is stored as the sequence of its fields, each as four bytes, the lowest
first. `encodeWords` and `decodeWords` are inverse to each other on sequences of whole words.
-/

namespace LittleEndian

open UInt8

def le32 (x : UInt32) : List UInt8 :=
  [ofNat x.toNat, ofNat (x.toNat / 2 ^ 8), ofNat (x.toNat / 2 ^ 16), ofNat (x.toNat / 2 ^ 24)]

def ofLe32 (a b c d : UInt8) : UInt32 :=
  UInt32.ofNat (a.toNat + 2 ^ 8 * b.toNat + 2 ^ 16 * c.toNat + 2 ^ 24 * d.toNat)

def encodeWords (ws : List UInt32) : List UInt8 := ws.flatMap le32

def decodeWords : List UInt8 → List UInt32
  | a :: b :: c :: d :: bytes => ofLe32 a b c d :: decodeWords bytes
  | _ => []

@[simp] theorem length_le32 (x : UInt32) : (le32 x).length = 4 := rfl

theorem ofLe32_le32 (x : UInt32) :
    ofLe32 (ofNat x.toNat) (ofNat (x.toNat / 2 ^ 8)) (ofNat (x.toNat / 2 ^ 16))
      (ofNat (x.toNat / 2 ^ 24)) = x := by
  apply UInt32.toNat_inj.mp
  have hx := x.toNat_lt
  simp only [ofLe32, toNat_ofNat', UInt32.toNat_ofNat']
  omega

theorem le32_ofLe32 (a b c d : UInt8) : le32 (ofLe32 a b c d) = [a, b, c, d] := by
  have ha := a.toNat_lt
  have hb := b.toNat_lt
  have hc := c.toNat_lt
  have hd := d.toNat_lt
  have hval : (ofLe32 a b c d).toNat =
      a.toNat + 2 ^ 8 * b.toNat + 2 ^ 16 * c.toNat + 2 ^ 24 * d.toNat := by
    simp only [ofLe32, UInt32.toNat_ofNat']
    omega
  simp only [le32, hval, List.cons.injEq, and_true, ← UInt8.toNat_inj, UInt8.toNat_ofNat']
  omega

@[simp] theorem length_encodeWords (ws : List UInt32) :
    (encodeWords ws).length = 4 * ws.length := by
  induction ws with
  | nil => rfl
  | cons x ws ih =>
    change (le32 x ++ encodeWords ws).length = _
    rw [List.length_append, ih, length_le32, List.length_cons]
    omega

@[simp] theorem decodeWords_encodeWords (ws : List UInt32) :
    decodeWords (encodeWords ws) = ws := by
  induction ws with
  | nil => rfl
  | cons x ws ih =>
    change ofLe32 _ _ _ _ :: decodeWords (encodeWords ws) = _
    rw [ih, ofLe32_le32]

theorem encodeWords_decodeWords (n : ℕ) (bytes : List UInt8) (h : bytes.length = 4 * n) :
    encodeWords (decodeWords bytes) = bytes := by
  induction n generalizing bytes with
  | zero => rw [List.length_eq_zero_iff.mp h]; rfl
  | succ n ih =>
    match bytes, h with
    | a :: b :: c :: d :: bytes, h =>
      have hlen : bytes.length = 4 * n := by
        simp only [List.length_cons] at h
        omega
      change le32 (ofLe32 a b c d) ++ encodeWords (decodeWords bytes) = _
      rw [ih bytes hlen, le32_ofLe32]
      rfl

theorem length_decodeWords (n : ℕ) (bytes : List UInt8) (h : bytes.length = 4 * n) :
    (decodeWords bytes).length = n := by
  have henc := congrArg List.length (encodeWords_decodeWords n bytes h)
  rw [length_encodeWords, h] at henc
  omega

end LittleEndian
