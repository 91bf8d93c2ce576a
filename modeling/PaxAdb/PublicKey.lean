import Mathlib.Data.Int.ModEq
import Mathlib.Data.Nat.Prime.Basic
import Mathlib.Data.Nat.Size
import Mathlib.Data.Int.GCD
import Mathlib.Algebra.BigOperators.Intervals
import Mathlib.Algebra.Order.Ring.Canonical
import Mathlib.Tactic.Ring

/-!
# The public key for a device

`RSA_to_RSAPublicKey` turns a key of OpenSSL into the words that the device computes with: the
modulus, the square of the Montgomery radix modulo it, and the negative inverse of its lowest word.
The loop takes one word after the other off two numbers, which it divides in place. A `BIGNUM` is a
natural number, and what OpenSSL computes for the rest is a parameter.
-/

namespace PaxAdb.PublicKey

open UInt64

section Model

def RSANUMBYTES : ℕ := 256

def RSANUMWORDS : ℕ := RSANUMBYTES / 4

structure Rsa where
  n : ℕ
  e : ℕ

structure OpenSsl where
  rsaSize : Rsa → ℕ
  bnGetWord : ℕ → UInt64
  bnModInverse : ℕ → ℕ → Option ℕ

/-- The functions of OpenSSL do what their names say. -/
structure OpenSsl.Exact (ssl : OpenSsl) : Prop where
  rsaSize : ∀ rsa, ssl.rsaSize rsa = (rsa.n.size + 7) / 8
  bnGetWord : ∀ a < 2 ^ 64, (ssl.bnGetWord a).toNat = a
  bnModInverse : ∀ a m, 0 < m → Nat.Coprime a m →
    ∃ b, ssl.bnModInverse a m = some b ∧ b < m ∧ (a * b : ℤ) ≡ 1 [ZMOD m]

structure RSAPublicKey where
  len : ℤ
  n0inv : UInt32
  n : Vector UInt32 RSANUMWORDS
  rr : Vector UInt32 RSANUMWORDS
  exponent : ℤ

def bnSetBit (a i : ℕ) : ℕ := a ||| 2 ^ i

structure Peeling where
  rr : ℕ
  n : ℕ
  pkey : RSAPublicKey

variable (ssl : OpenSsl)

def peel (r32 : ℕ) (x : Peeling) (i : ℕ) : Peeling where
  rr := x.rr / r32
  n := x.n / r32
  pkey := { x.pkey with
    rr := x.pkey.rr.setIfInBounds i (ssl.bnGetWord (x.rr % r32)).toUInt32
    n := x.pkey.n.setIfInBounds i (ssl.bnGetWord (x.n % r32)).toUInt32 }

/-- The return value and what becomes of `pkey`. -/
def rsaToRSAPublicKey (rsa : Rsa) (pkey : RSAPublicKey) : ℤ × RSAPublicKey :=
  if ssl.rsaSize rsa ≠ RSANUMBYTES then (0, pkey)
  else
    let r32 := bnSetBit 0 32
    let n := rsa.n
    let r := bnSetBit 0 (RSANUMWORDS * 32)
    let rr := r ^ 2 % n
    let rem := n % r32
    let n0inv := (ssl.bnModInverse rem r32).getD 0
    let pkey := { pkey with
      len := RSANUMWORDS
      n0inv := (0 - ssl.bnGetWord n0inv).toUInt32 }
    let x := (List.range RSANUMWORDS).foldl (peel ssl r32) ⟨rr, n, pkey⟩
    (1, { x.pkey with exponent := ((ssl.bnGetWord rsa.e).toNat : ℤ).bmod (2 ^ 32) })

end Model

section Numbers

variable {ssl : OpenSsl}

theorem OpenSsl.Exact.word (h : ssl.Exact) {a : ℕ} (ha : a < 2 ^ 32) :
    (ssl.bnGetWord a).toUInt32.toNat = a := by
  rw [toNat_toUInt32, h.bnGetWord a (by omega)]
  omega

theorem OpenSsl.Exact.neg_word (h : ssl.Exact) {a : ℕ} (ha : a < 2 ^ 32) :
    ((0 - ssl.bnGetWord a).toUInt32.toNat : ℤ) ≡ -a [ZMOD 2 ^ 32] := by
  have hneg : (0 - ssl.bnGetWord a).toUInt32.toNat = (2 ^ 64 - a) % 2 ^ 64 % 2 ^ 32 := by
    rw [UInt64.toNat_toUInt32, UInt64.toNat_sub, h.bnGetWord a (by omega)]
    rfl
  rw [hneg, Int.ModEq]
  omega

theorem sum_words (b x k : ℕ) :
    ∑ i ∈ Finset.range k, x / b ^ i % b * b ^ i = x % b ^ k := by
  induction k with
  | zero => simp [Nat.mod_one]
  | succ k ih => rw [Finset.sum_range_succ, ih, Nat.mod_pow_succ, Nat.mul_comm (b ^ k)]

end Numbers

section Loop

variable {ssl : OpenSsl} {b R N k : ℕ} {x : Peeling}

structure Peeled (b R N k : ℕ) (x : Peeling) : Prop where
  restRR : x.rr = R / b ^ k
  restN : x.n = N / b ^ k
  wordRR : ∀ i (hi : i < RSANUMWORDS), i < k → (x.pkey.rr.get ⟨i, hi⟩).toNat = R / b ^ i % b
  wordN : ∀ i (hi : i < RSANUMWORDS), i < k → (x.pkey.n.get ⟨i, hi⟩).toNat = N / b ^ i % b

theorem word_setIfInBounds (hssl : ssl.Exact) {v : Vector UInt32 RSANUMWORDS} {a : ℕ}
    (hb : b ≤ 2 ^ 32) (hpos : 0 < b)
    (hv : ∀ i (hi : i < RSANUMWORDS), i < k → (v.get ⟨i, hi⟩).toNat = a / b ^ i % b)
    (i : ℕ) (hi : i < RSANUMWORDS) (hk : i < k + 1) :
    ((v.setIfInBounds k (ssl.bnGetWord (a / b ^ k % b)).toUInt32).get ⟨i, hi⟩).toNat =
      a / b ^ i % b := by
  have hword : a / b ^ k % b < 2 ^ 32 := (Nat.mod_lt _ hpos).trans_le hb
  change ((v.setIfInBounds k (ssl.bnGetWord (a / b ^ k % b)).toUInt32)[i]).toNat = _
  rw [Vector.getElem_setIfInBounds]
  split
  next heq => rw [← heq, hssl.word hword]
  next hne => exact hv i hi (by omega)

theorem Peeled.peel (hssl : ssl.Exact) (h : Peeled b R N k x) (hb : b ≤ 2 ^ 32) (hpos : 0 < b) :
    Peeled b R N (k + 1) (peel ssl b x k) where
  restRR := by
    rw [PublicKey.peel, h.restRR, Nat.div_div_eq_div_mul, ← pow_succ]
  restN := by
    rw [PublicKey.peel, h.restN, Nat.div_div_eq_div_mul, ← pow_succ]
  wordRR i hi hk := by
    rw [PublicKey.peel, h.restRR]
    exact word_setIfInBounds hssl hb hpos h.wordRR i hi hk
  wordN i hi hk := by
    rw [PublicKey.peel, h.restN]
    exact word_setIfInBounds hssl hb hpos h.wordN i hi hk

theorem peeled_foldl (hssl : ssl.Exact) (hb : b ≤ 2 ^ 32) (hpos : 0 < b) (R N : ℕ)
    (pkey : RSAPublicKey) (k : ℕ) :
    Peeled b R N k ((List.range k).foldl (peel ssl b) ⟨R, N, pkey⟩) := by
  induction k with
  | zero => exact ⟨by simp, by simp, fun _ _ hi => absurd hi (Nat.not_lt_zero _),
      fun _ _ hi => absurd hi (Nat.not_lt_zero _)⟩
  | succ k ih =>
    rw [List.range_succ, List.foldl_append]
    exact ih.peel hssl hb hpos

theorem peel_foldl_frame (ssl : OpenSsl) (b : ℕ) (is : List ℕ) (x : Peeling) :
    ((is.foldl (peel ssl b) x).pkey.len = x.pkey.len) ∧
      (is.foldl (peel ssl b) x).pkey.n0inv = x.pkey.n0inv := by
  induction is generalizing x with
  | nil => exact ⟨rfl, rfl⟩
  | cons i is ih => exact ih (peel ssl b x i)

def value (v : Vector UInt32 RSANUMWORDS) : ℕ :=
  ∑ i : Fin RSANUMWORDS, (v.get i).toNat * 2 ^ (32 * i.val)

theorem value_eq {v : Vector UInt32 RSANUMWORDS} {a : ℕ} (ha : a < 2 ^ (32 * RSANUMWORDS))
    (hv : ∀ i (hi : i < RSANUMWORDS), (v.get ⟨i, hi⟩).toNat = a / (2 ^ 32) ^ i % 2 ^ 32) :
    value v = a := by
  have hterm : ∀ i : Fin RSANUMWORDS, (v.get i).toNat * 2 ^ (32 * i.val) =
      a / (2 ^ 32) ^ i.val % 2 ^ 32 * (2 ^ 32) ^ i.val := fun i => by
    rw [hv i.val i.isLt, pow_mul]
  rw [value, Finset.sum_congr rfl fun i _ => hterm i,
    Fin.sum_univ_eq_sum_range (fun i => a / (2 ^ 32) ^ i % 2 ^ 32 * (2 ^ 32) ^ i), sum_words,
    ← pow_mul, Nat.mod_eq_of_lt ha]

end Loop

section Key

theorem bnSetBit_zero (i : ℕ) : bnSetBit 0 i = 2 ^ i := Nat.zero_or _

theorem coprime_word {n : ℕ} (h : Odd n) : Nat.Coprime (n % 2 ^ 32) (2 ^ 32) := by
  have hmod : Odd (n % 2 ^ 32) := by
    rw [Nat.odd_iff] at h ⊢
    omega
  exact Nat.Coprime.pow_right 32 (Nat.coprime_two_right.mpr hmod)

/-- The words of the key are those of the modulus and of the square of the radix, and the inverse is
that of the lowest word. -/
theorem rsa_public_key_correct (ssl : OpenSsl) (hssl : ssl.Exact) (rsa : Rsa) (pkey : RSAPublicKey)
    (hodd : Odd rsa.n) (hsize : rsa.n.size = 2048) :
    (rsaToRSAPublicKey ssl rsa pkey).1 = 1 ∧
      value (rsaToRSAPublicKey ssl rsa pkey).2.n = rsa.n ∧
      value (rsaToRSAPublicKey ssl rsa pkey).2.rr = 2 ^ 4096 % rsa.n ∧
      ((rsaToRSAPublicKey ssl rsa pkey).2.n0inv.toNat *
        ((rsaToRSAPublicKey ssl rsa pkey).2.n.get ⟨0, by decide⟩).toNat : ℤ) ≡ -1 [ZMOD 2 ^ 32] ∧
      (rsaToRSAPublicKey ssl rsa pkey).2.len = 64 := by
  have hlt : rsa.n < 2 ^ (32 * RSANUMWORDS) := Nat.size_le.mp hsize.le
  have hpos : 0 < rsa.n := hodd.pos
  have hexp : RSANUMWORDS * 32 * 2 = 4096 := rfl
  have hbytes : ssl.rsaSize rsa = RSANUMBYTES := by
    rw [hssl.rsaSize, hsize]
    rfl
  obtain ⟨inv, hinv, hinvlt, hmul⟩ :=
    hssl.bnModInverse _ _ (Nat.two_pow_pos 32) (coprime_word hodd)
  simp only [rsaToRSAPublicKey, hbytes, ne_eq, not_true_eq_false, if_false, bnSetBit_zero,
    hinv, Option.getD_some, ← pow_mul, hexp]
  have hpeeled := peeled_foldl hssl le_rfl (Nat.two_pow_pos 32) (2 ^ 4096 % rsa.n) rsa.n
    { pkey with len := RSANUMWORDS, n0inv := (0 - ssl.bnGetWord inv).toUInt32 } RSANUMWORDS
  obtain ⟨hlen, hn0inv⟩ := peel_foldl_frame ssl (2 ^ 32) (List.range RSANUMWORDS)
    ⟨2 ^ 4096 % rsa.n, rsa.n,
      { pkey with len := RSANUMWORDS, n0inv := (0 - ssl.bnGetWord inv).toUInt32 }⟩
  refine ⟨trivial, ?_, ?_, ?_, hlen⟩
  · exact value_eq hlt fun i hi => hpeeled.wordN i hi hi
  · exact value_eq ((Nat.mod_lt _ hpos).trans hlt) fun i hi => hpeeled.wordRR i hi hi
  · rw [hn0inv, hpeeled.wordN 0 (by decide) (by decide), pow_zero, Nat.div_one]
    calc _ ≡ -inv * (rsa.n % 2 ^ 32 : ℕ) [ZMOD 2 ^ 32] := (hssl.neg_word hinvlt).mul_right _
      _ = -((rsa.n % 2 ^ 32 : ℕ) * inv) := by ring
      _ ≡ -1 [ZMOD 2 ^ 32] := hmul.neg

/-- A number of more than one word is read as the largest word. -/
def plainSsl : OpenSsl where
  rsaSize rsa := (rsa.n.size + 7) / 8
  bnGetWord a := if a < 2 ^ 64 then ofNat a else ofNat (2 ^ 64 - 1)
  bnModInverse a m := if Nat.Coprime a m then some (a.gcdA m % m).toNat else none

theorem plainSsl_exact : plainSsl.Exact where
  rsaSize _ := rfl
  bnGetWord a h := by
    have hsize : size = 2 ^ 64 := rfl
    have hword : plainSsl.bnGetWord a = ofNat a := if_pos h
    rw [hword, toNat_ofNat_of_lt' (by omega)]
  bnModInverse a m hm h := by
    have hpos : (0 : ℤ) < m := Int.natCast_pos.mpr hm
    have hcast : (((a.gcdA m % m).toNat : ℕ) : ℤ) = a.gcdA m % m :=
      Int.toNat_of_nonneg (Int.emod_nonneg _ hpos.ne')
    refine ⟨(a.gcdA m % m).toNat, if_pos h, ?_, ?_⟩
    · have hlt := Int.emod_lt_of_pos (a.gcdA m) hpos
      omega
    · have hbezout : (a : ℤ) * a.gcdA m + m * a.gcdB m = 1 := by
        rw [← Nat.gcd_eq_gcd_ab, h.gcd_eq_one, Nat.cast_one]
      rw [hcast]
      calc (a * (a.gcdA m % m) : ℤ) ≡ a * a.gcdA m [ZMOD m] := (Int.mod_modEq _ _).mul_left _
        _ ≡ a * a.gcdA m + m * a.gcdB m [ZMOD m] := by
          rw [Int.modEq_iff_dvd, add_sub_cancel_left]
          exact dvd_mul_right _ _
        _ = 1 := hbezout

theorem odd_two_pow_add_one {k : ℕ} (hk : k ≠ 0) : Odd (2 ^ k + 1) :=
  (even_two.pow_of_ne_zero hk).add_one

theorem size_two_pow_add_one {k : ℕ} (hk : k ≠ 0) : (2 ^ k + 1).size = k + 1 := by
  have hone : 1 < 2 ^ k := Nat.one_lt_two_pow hk
  apply le_antisymm
  · rw [Nat.size_le, pow_succ]
    omega
  · exact Nat.lt_size.mpr (Nat.le_succ _)

def twoBits : Rsa := ⟨2 ^ 2047 + 1, 65537⟩

def blankKey : RSAPublicKey := ⟨0, 0, Vector.replicate _ 0, Vector.replicate _ 0, 0⟩

theorem rsa_public_key_two_bits :
    (plainSsl.Exact ∧ Odd twoBits.n ∧ twoBits.n.size = 2048) ∧
      value (rsaToRSAPublicKey plainSsl twoBits blankKey).2.n = 2 ^ 2047 + 1 := by
  have hodd : Odd twoBits.n := odd_two_pow_add_one (by decide)
  have hsize : twoBits.n.size = 2048 := size_two_pow_add_one (by decide)
  exact ⟨⟨plainSsl_exact, hodd, hsize⟩,
    (rsa_public_key_correct plainSsl plainSsl_exact twoBits blankKey hodd hsize).2.1⟩

end Key

end PaxAdb.PublicKey
