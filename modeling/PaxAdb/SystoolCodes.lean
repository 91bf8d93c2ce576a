import PaxAdb.Systool

/-!
# The codes of systool

The number of a marker goes through a buffer for 31 digits, `atoi`, a negation and a test on
unsigned integers before it becomes the exit code. What comes out is the code of the number that is
left of it: its first 31 digits, at most `LONG_MAX`, modulo `2 ^ 32`.
-/

namespace PaxAdb

open List Decimal

section Codes

def codeOf (n : ℕ) : ℤ :=
  if n = 4 then -6
  else if n = 22 ∨ n = 101 then 0
  else if 301 ≤ n ∧ n ≤ 310 then -n
  else -5

/-- The numbers with a code of their own. -/
def Special (n : ℕ) : Prop := n = 4 ∨ n = 22 ∨ n = 101 ∨ 301 ≤ n ∧ n ≤ 310

instance : DecidablePred Special := fun _ => inferInstanceAs (Decidable (_ ∨ _))

/-- A number that is special as an `int`; one beyond `LONG_MAX` is not. -/
def Wraps (r : ℕ) : Prop := r < 2 ^ 63 ∧ Special (r % 2 ^ 32)

instance : DecidablePred Wraps := fun _ => inferInstanceAs (Decidable (_ ∧ _))

/-- `r` is taken for the special number `n`, or for the other one with its code. -/
def TakenFor (n r : ℕ) : Prop :=
  r < 2 ^ 63 ∧ (r % 2 ^ 32 = n ∨ n = 22 ∧ r % 2 ^ 32 = 101 ∨ n = 101 ∧ r % 2 ^ 32 = 22)

def Marker (out pre ds : List Byte) : Prop :=
  ds ≠ [] ∧ (∀ c ∈ ds, isDigit c = true) ∧ pre ++ PFX ++ ds ++ [0x5d] <+: out

def OneMarker (out pre ds : List Byte) : Prop :=
  Marker out pre ds ∧ ∀ pre' ds', Marker out pre' ds' → pre' = pre ∧ ds' = ds

def digitsBefore (rest : List Byte) : List Byte := (rest.takeWhile (· ≠ 0x5d)).filter isDigit

end Codes

section Digits

theorem isDigit_of_mem_digitsBefore {rest : List Byte} {c : Byte} (h : c ∈ digitsBefore rest) :
    isDigit c = true := (mem_filter.mp h).2

theorem collectDigits_eq (q digits : List Byte) (h : digits.length ≤ 31) :
    collectDigits q digits = (digits ++ digitsBefore q).take 31 := by
  induction q generalizing digits with
  | nil => simp [collectDigits, digitsBefore, take_of_length_le h]
  | cons c q ih =>
    rw [collectDigits]
    by_cases hend : c = 0x5d
    · simp [digitsBefore, hend, take_of_length_le h]
    · rw [if_neg hend, digitsBefore, takeWhile_cons_of_pos (by simpa using hend)]
      by_cases hdigit : isDigit c = true
      · rw [filter_cons_of_pos hdigit]
        by_cases hroom : digits.length < 31
        · rw [if_pos (by simp [hdigit, hroom]), ih _ (by simp; omega), append_assoc]
          rfl
        · rw [if_neg (by simp [hroom]), ih _ h]
          have hlen : digits.length = 31 := by omega
          rw [← hlen, take_left, take_left]
      · rw [filter_cons_of_neg hdigit, if_neg (by simp [hdigit]), ih _ h]
        rfl

theorem normaliseRet_eq (n : ℕ) :
    normaliseRet (toInt (-toInt n)) = codeOf (min n (2 ^ 63 - 1) % 2 ^ 32) := by
  have hbmod : ∀ y : ℤ, y.bmod (2 ^ 32) % 2 ^ 32 = y % 2 ^ 32 := fun y => Int.bmod_emod
  have hmod : toInt n % 2 ^ 32 = (min n (2 ^ 63 - 1) : ℕ) % 2 ^ 32 := by
    rw [toInt, hbmod]
    omega
  have hlow := le_toInt n
  have hhigh := toInt_lt n
  generalize toInt n = x at hmod hlow hhigh ⊢
  have hneg : toInt (-x) % 2 ^ 32 = -x % 2 ^ 32 := by
    rw [toInt, hbmod]
    omega
  have hlow' := le_toInt (-x)
  have hhigh' := toInt_lt (-x)
  generalize toInt (-x) = ret at hneg hlow' hhigh' ⊢
  generalize min n (2 ^ 63 - 1) = m at hmod ⊢
  rw [normaliseRet, codeOf]
  split_ifs <;> omega

theorem codeOf_cases (n : ℕ) :
    n = 4 ∧ codeOf n = -6 ∨ (n = 22 ∨ n = 101) ∧ codeOf n = 0 ∨
      (301 ≤ n ∧ n ≤ 310) ∧ codeOf n = -n ∨
      ¬(n = 4 ∨ n = 22 ∨ n = 101 ∨ 301 ≤ n ∧ n ≤ 310) ∧ codeOf n = -5 := by
  unfold codeOf
  split_ifs <;> omega

theorem codeOf_wrapped_iff (n r : ℕ) :
    codeOf (min r (2 ^ 63 - 1) % 2 ^ 32) = codeOf n ↔
      if Special n then TakenFor n r else ¬Wraps r := by
  have hcases : r < 2 ^ 63 ∧ min r (2 ^ 63 - 1) % 2 ^ 32 = r % 2 ^ 32 ∨
      ¬r < 2 ^ 63 ∧ min r (2 ^ 63 - 1) % 2 ^ 32 = 2 ^ 32 - 1 := by omega
  rw [Wraps, TakenFor]
  generalize min r (2 ^ 63 - 1) % 2 ^ 32 = m at hcases ⊢
  generalize r % 2 ^ 32 = k at hcases ⊢
  have hm := codeOf_cases m
  have hn := codeOf_cases n
  generalize codeOf m = a at hm ⊢
  generalize codeOf n = b at hn ⊢
  by_cases hspecial : Special n
  · rw [if_pos hspecial]
    unfold Special at hspecial
    omega
  · rw [if_neg hspecial]
    unfold Special at hspecial ⊢
    omega

/-- The bracket that starts a prefix is nowhere else in it, so a prefix that begins in front of
another one ends there too. -/
theorem PFX_prefix_append {l rest : List Byte} (hne : l ≠ []) (h : PFX <+: l ++ (PFX ++ rest)) :
    PFX <+: l := by
  rcases prefix_or_prefix_of_prefix h (prefix_append l (PFX ++ rest)) with hl | hl
  · exact hl
  have hhead : ∀ k < 10, 0 < k → (PFX.drop k).head? ≠ some 0x5b := by decide
  obtain ⟨t, ht⟩ := hl
  have hdrop : PFX.drop l.length = t := by rw [← ht, drop_left]
  have hlen : l.length + t.length = 10 := by rw [← length_append, ht]; rfl
  have htail : t <+: PFX ++ rest := by
    rw [← prefix_append_right_inj l, ht]
    exact h
  cases t with
  | nil => rw [← ht, append_nil]
  | cons c t =>
    obtain ⟨rest', hrest⟩ := htail
    have hc : c = 0x5b := (cons.inj hrest).1
    have hlt : l.length < 10 := by
      rw [length_cons] at hlen
      omega
    exact absurd (by rw [hdrop, hc]; rfl) (hhead l.length hlt (length_pos_iff.mpr hne))

theorem memmem_append {first : List Byte} (hfirst : ¬PFX <:+: first) (rest : List Byte) :
    memmem (first ++ (PFX ++ rest)) PFX = some (PFX ++ rest) := by
  induction first with
  | nil =>
    have hp : PFX.isPrefixOf (PFX ++ rest) = true :=
      isPrefixOf_iff_prefix.mpr (prefix_append _ _)
    rw [nil_append]
    unfold memmem
    rw [if_pos hp]
  | cons c first ih =>
    have hp : ¬PFX.isPrefixOf (c :: first ++ (PFX ++ rest)) = true := by
      rw [List.isPrefixOf_iff_prefix]
      intro h
      exact hfirst (PFX_prefix_append (cons_ne_nil c first) h).isInfix
    unfold memmem
    rw [if_neg hp]
    exact ih fun h => hfirst (h.trans (suffix_cons c first).isInfix)

theorem systoolRet_singleton (out : List Byte) : systoolRet [out] = parseBuffer 0 out := by
  cases out with
  | nil => rfl
  | cons b bs => rfl

/-- Of the digits behind the first prefix, those beyond the 31st are lost. -/
theorem systoolRet_of_first {first : List Byte} (hfirst : ¬PFX <:+: first) (rest : List Byte) :
    systoolRet [first ++ (PFX ++ rest)] =
      codeOf (min (value (digitsBefore rest) / 10 ^ ((digitsBefore rest).length - 31))
        (2 ^ 63 - 1) % 2 ^ 32) := by
  have hdigits : ∀ c ∈ digitsBefore rest, isDigit c = true :=
    fun c hc => isDigit_of_mem_digitsBefore hc
  rw [systoolRet_singleton, parseBuffer, memmem_append hfirst]
  dsimp only
  rw [drop_left, collectDigits_eq _ _ (Nat.zero_le _), nil_append,
    atoi_of_digits fun c hc => hdigits c (mem_of_mem_take hc), normaliseRet_eq,
    value_take hdigits]

end Digits

section Outputs

variable {out pre ds : List Byte}

theorem takeWhile_digits {post : List Byte} (hd : ∀ c ∈ ds, isDigit c = true) :
    (ds ++ 0x5d :: post).takeWhile (· ≠ 0x5d) = ds := by
  refine (takeWhile_append_of_pos fun c hc => ?_).trans (by simp)
  have := hd c hc
  simp only [decide_eq_true_eq]
  rintro rfl
  cases this

theorem takenFor_cut_iff {n k : ℕ} (h : Special n) : TakenFor n (n / 10 ^ k) ↔ k = 0 := by
  have hle : k ≠ 0 → n / 10 ^ k ≤ n / 10 := fun hk =>
    Nat.div_le_div_left (Nat.le_self_pow hk 10) (by decide)
  constructor
  · rintro ⟨-, htaken⟩
    by_contra hk
    have hcut := hle hk
    generalize n / 10 ^ k = r at htaken hcut
    unfold Special at h
    omega
  · rintro rfl
    rw [pow_zero, Nat.div_one, TakenFor]
    unfold Special at h
    omega

/-- In one read the code of a marker is right if no other prefix comes before it and its number is
special and has at most 31 digits, or is not special even without the digits beyond the 31st and in
an `int`. Behind another prefix it depends on the digits there. Without a prefix the code is 0. -/
theorem systool_code_iff (out : List Byte) :
    (∀ pre ds, OneMarker out pre ds → ¬PFX <:+: pre →
      (systoolRet [out] = codeOf (value ds) ↔
        if Special (value ds) then ds.length ≤ 31
        else ¬Wraps (value ds / 10 ^ (ds.length - 31)))) ∧
    (∀ pre ds first rest, OneMarker out pre ds → out = first ++ (PFX ++ rest) → ¬PFX <:+: first →
      let seen := digitsBefore rest
      (systoolRet [out] = codeOf (value ds) ↔
        if Special (value ds) then TakenFor (value ds) (value seen / 10 ^ (seen.length - 31))
        else ¬Wraps (value seen / 10 ^ (seen.length - 31)))) ∧
    (¬PFX <:+: out → systoolRet [out] = 0) := by
  refine ⟨?_, ?_, fun hout => ?_⟩
  · rintro pre ds ⟨⟨-, hdigits, post, rfl⟩, -⟩ hpre
    have hout : pre ++ PFX ++ ds ++ [0x5d] ++ post = pre ++ (PFX ++ (ds ++ 0x5d :: post)) := by simp
    have hseen : digitsBefore (ds ++ 0x5d :: post) = ds := by
      rw [digitsBefore, takeWhile_digits hdigits]
      exact filter_eq_self.mpr hdigits
    rw [hout, systoolRet_of_first hpre, hseen, codeOf_wrapped_iff]
    by_cases hspecial : Special (value ds)
    · rw [if_pos hspecial, if_pos hspecial, takenFor_cut_iff hspecial, Nat.sub_eq_zero_iff_le]
    · rw [if_neg hspecial, if_neg hspecial]
  · rintro pre ds first rest - rfl hfirst
    rw [systoolRet_of_first hfirst, codeOf_wrapped_iff]
  · rw [systoolRet_singleton]
    exact parseBuffer_of_no_marker 0 out hout

theorem oneMarker_alone (hne : ds ≠ []) (hd : ∀ c ∈ ds, isDigit c = true) :
    OneMarker (PFX ++ ds ++ [0x5d]) [] ds := by
  refine ⟨⟨hne, hd, prefix_rfl⟩, ?_⟩
  rintro pre' ds' ⟨-, hd', post, hout⟩
  have hpre : pre' = [] := by
    cases pre' with
    | nil => rfl
    | cons c pre' =>
      have htail : pre' ++ PFX ++ ds' ++ [0x5d] ++ post = PFX.tail ++ ds ++ [0x5d] :=
        (cons.inj hout).2
      have hmem : (0x5b : Byte) ∈ PFX.tail ++ ds ++ [0x5d] := by
        rw [← htail]
        simp [PFX]
      rcases mem_append.mp hmem with hmem | hmem
      · rcases mem_append.mp hmem with hmem | hmem
        · exact absurd hmem (by decide)
        · cases hd _ hmem
      · exact absurd hmem (by decide)
  subst hpre
  have hdigits : ds' ++ 0x5d :: post = ds ++ 0x5d :: [] := by simpa using hout
  have htake := congrArg (takeWhile (· ≠ 0x5d)) hdigits
  rw [takeWhile_digits hd', takeWhile_digits hd] at htake
  exact ⟨rfl, htake⟩

/-- The marker of code 4, with leading zeros. -/
theorem systool_code_four :
    OneMarker (PFX ++ [0x30, 0x30, 0x34] ++ [0x5d]) [] [0x30, 0x30, 0x34] ∧
      systoolRet [PFX ++ [0x30, 0x30, 0x34] ++ [0x5d]] = codeOf 4 := by
  have hone : OneMarker (PFX ++ [0x30, 0x30, 0x34] ++ [0x5d]) [] [0x30, 0x30, 0x34] :=
    oneMarker_alone (by decide) (by decide +kernel)
  exact ⟨hone, ((systool_code_iff _).1 _ _ hone (by decide)).mpr (by decide)⟩

/-- `[SYSTOOL:-4294967300]`: the number is taken for 4. -/
theorem systool_code_wraps :
    let ds : List Byte := [0x34, 0x32, 0x39, 0x34, 0x39, 0x36, 0x37, 0x33, 0x30, 0x30]
    OneMarker (PFX ++ ds ++ [0x5d]) [] ds ∧ value ds = 2 ^ 32 + 4 ∧
      systoolRet [PFX ++ ds ++ [0x5d]] = -6 ∧ codeOf (2 ^ 32 + 4) = -5 := by
  intro ds
  exact ⟨oneMarker_alone (by decide) (by decide +kernel), by decide, by decide, by decide⟩

end Outputs

end PaxAdb
