import Mathlib.Data.List.Infix
import PaxAdb.Decimal
import PaxAdb.SystemCalls

/-!
# The exit code of a systool command

`pax_stream_and_parse_ret` copies the output of a device service to standard output and, for
`systool`, recovers the exit code from a `[SYSTOOL:-N]` marker. The marker is looked for in each
read buffer on its own: nothing is carried over to the next `adb_read`.
-/

namespace PaxAdb

open Decimal (isDigit atoi toInt)
open List

/-- `"[SYSTOOL:-"`, the ten bytes that start a marker. -/
def PFX : List Byte := [0x5b, 0x53, 0x59, 0x53, 0x54, 0x4f, 0x4f, 0x4c, 0x3a, 0x2d]

def streamBufSize : ℕ := 4096

def memmem (haystack needle : List Byte) : Option (List Byte) :=
  if needle.isPrefixOf haystack then some haystack
  else match haystack with
    | [] => none
    | _ :: rest => memmem rest needle

/-- The loop over `q`: up to the closing bracket or the end of the buffer, digits are kept while
`digits[32]` has room for them and its terminator, and anything else is skipped. -/
def collectDigits : List Byte → List Byte → List Byte
  | [], digits => digits
  | c :: q, digits =>
      if c = 0x5d then digits
      else collectDigits q (if isDigit c && digits.length < 31 then digits ++ [c] else digits)

def normaliseRet (ret : ℤ) : ℤ :=
  if ret = -4 then -6
  else if ret = -22 ∨ ret = -101 then 0
  else if 9 < (ret + 310) % 2 ^ 32 then -5
  else ret

def parseBuffer (ret : ℤ) (buf : List Byte) : ℤ :=
  match memmem buf PFX with
  | none => ret
  | some p => normaliseRet (toInt (-atoi (collectDigits (p.drop PFX.length) [])))

def paxStreamLoop (parseRet : Bool) (ret : ℤ) : List ReadResult → ℤ
  | [] => ret
  | .data [] :: _ => ret
  | .data buf :: reads =>
      paxStreamLoop parseRet (if parseRet then parseBuffer ret buf else ret) reads
  | .eintr :: reads => paxStreamLoop parseRet ret reads
  | .eagain :: _ => ret
  | .error :: _ => ret

def paxStreamAndParseRet (reads : List ReadResult) (parseRet : Bool) : ℤ :=
  paxStreamLoop parseRet 0 reads

def systoolRet (chunks : List (List Byte)) : ℤ :=
  paxStreamAndParseRet (chunks.map .data) true

/-- A way of cutting `out` into successive non-empty reads that fit the buffer. -/
def Segmentation (out : List Byte) (chunks : List (List Byte)) : Prop :=
  chunks.flatten = out ∧ ∀ c ∈ chunks, c ≠ [] ∧ c.length ≤ streamBufSize

theorem memmem_eq_none_iff (haystack needle : List Byte) :
    memmem haystack needle = none ↔ ¬ needle <:+: haystack := by
  induction haystack with
  | nil =>
    unfold memmem
    by_cases hp : needle.isPrefixOf [] = true
    · have hpre := isPrefixOf_iff_prefix.mp hp
      simp only [if_pos hp, reduceCtorEq, false_iff, not_not]
      exact hpre.isInfix
    · simp only [if_neg hp, true_iff]
      intro hinf
      rw [infix_nil] at hinf
      subst hinf
      exact hp rfl
  | cons c rest ih =>
    unfold memmem
    by_cases hp : needle.isPrefixOf (c :: rest) = true
    · have hpre := isPrefixOf_iff_prefix.mp hp
      simp only [if_pos hp, reduceCtorEq, false_iff, not_not]
      exact hpre.isInfix
    · simp only [if_neg hp, ih, infix_cons_iff, not_or]
      exact ⟨fun h => ⟨fun hpre => hp (List.isPrefixOf_iff_prefix.mpr hpre), h⟩, fun h => h.2⟩

theorem memmem_self (needle : List Byte) : memmem needle needle = some needle := by
  unfold memmem
  rw [if_pos (List.isPrefixOf_iff_prefix.mpr prefix_rfl)]

theorem parseBuffer_of_no_marker (ret : ℤ) (buf : List Byte) (h : ¬ PFX <:+: buf) :
    parseBuffer ret buf = ret := by
  simp only [parseBuffer, (memmem_eq_none_iff buf PFX).mpr h]

theorem parseBuffer_PFX (ret : ℤ) : parseBuffer ret PFX = -5 := by
  simp only [parseBuffer, memmem_self]
  decide

theorem paxStreamLoop_chunks (ret : ℤ) (chunks : List (List Byte)) (hne : ∀ c ∈ chunks, c ≠ []) :
    paxStreamLoop true ret (chunks.map .data) = chunks.foldl parseBuffer ret := by
  induction chunks generalizing ret with
  | nil => rfl
  | cons c rest ih =>
    obtain ⟨b, bs, rfl⟩ := exists_cons_of_ne_nil (hne c mem_cons_self)
    simp only [map_cons, paxStreamLoop, if_pos, foldl_cons]
    exact ih _ (fun d hd => hne d (mem_cons_of_mem _ hd))

theorem systoolRet_eq_foldl {out : List Byte} {chunks : List (List Byte)}
    (h : Segmentation out chunks) : systoolRet chunks = chunks.foldl parseBuffer 0 :=
  paxStreamLoop_chunks 0 chunks (fun c hc => (h.2 c hc).1)

theorem foldl_parseBuffer_of_no_marker (ret : ℤ) (chunks : List (List Byte))
    (h : ∀ c ∈ chunks, ¬ PFX <:+: c) : chunks.foldl parseBuffer ret = ret := by
  induction chunks with
  | nil => rfl
  | cons c rest ih =>
    rw [foldl_cons, parseBuffer_of_no_marker ret c (h c mem_cons_self)]
    exact ih (fun d hd => h d (mem_cons_of_mem _ hd))

theorem infix_flatten_of_mem {c : List Byte} {chunks : List (List Byte)} (hc : c ∈ chunks) :
    c <:+: chunks.flatten := by
  obtain ⟨pre, post, rfl⟩ := append_of_mem hc
  exact ⟨pre.flatten, post.flatten, by simp⟩

def bytewise (out : List Byte) : List (List Byte) := out.map (fun b => [b])

theorem segmentation_bytewise (out : List Byte) : Segmentation out (bytewise out) := by
  refine ⟨by rw [bytewise, ← flatMap_def, flatMap_singleton'], ?_⟩
  intro c hc
  obtain ⟨b, _, rfl⟩ := mem_map.mp hc
  exact ⟨by simp, by simp [streamBufSize]⟩

theorem not_infix_of_mem_bytewise (out : List Byte) :
    ∀ c ∈ bytewise out, ¬ PFX <:+: c := by
  intro c hc hinf
  obtain ⟨b, _, rfl⟩ := mem_map.mp hc
  have hlen := hinf.length_le
  simp [PFX] at hlen

theorem Segmentation.append {out out' : List Byte} {chunks chunks' : List (List Byte)}
    (h : Segmentation out chunks) (h' : Segmentation out' chunks') :
    Segmentation (out ++ out') (chunks ++ chunks') := by
  refine ⟨by rw [flatten_append, h.1, h'.1], ?_⟩
  intro c hc
  rcases mem_append.mp hc with hc | hc
  · exact h.2 c hc
  · exact h'.2 c hc

theorem segmentation_PFX : Segmentation PFX [PFX] := by
  refine ⟨by simp, ?_⟩
  intro c hc
  rw [mem_singleton.mp hc]
  decide

theorem systoolRet_of_no_marker {out : List Byte} {chunks : List (List Byte)}
    (hout : ¬ PFX <:+: out) (h : Segmentation out chunks) : systoolRet chunks = 0 := by
  rw [systoolRet_eq_foldl h]
  apply foldl_parseBuffer_of_no_marker
  intro c hc hinf
  exact hout (h.1 ▸ hinf.trans (infix_flatten_of_mem hc))

/-- Cutting exactly around one occurrence of the prefix reports `-5`; cutting everywhere reports
success. Only outputs without the prefix are read the same under every segmentation. -/
theorem systoolRet_segmentation_invariant_iff (out : List Byte) :
    (∀ chunks chunks', Segmentation out chunks → Segmentation out chunks' →
      systoolRet chunks = systoolRet chunks') ↔ ¬ PFX <:+: out := by
  constructor
  · rintro hall ⟨pre, post, rfl⟩
    have hcut : Segmentation (pre ++ PFX ++ post) (bytewise pre ++ [PFX] ++ bytewise post) :=
      ((segmentation_bytewise pre).append segmentation_PFX).append (segmentation_bytewise post)
    have heq := hall _ _ hcut (segmentation_bytewise _)
    rw [systoolRet_eq_foldl hcut, systoolRet_eq_foldl (segmentation_bytewise _),
      foldl_parseBuffer_of_no_marker 0 _ (not_infix_of_mem_bytewise _),
      foldl_append, foldl_append, foldl_cons, foldl_nil, parseBuffer_PFX,
      foldl_parseBuffer_of_no_marker _ _ (not_infix_of_mem_bytewise _)] at heq
    omega
  · intro hout chunks chunks' h h'
    rw [systoolRet_of_no_marker hout h, systoolRet_of_no_marker hout h']

/-- `[SYSTOOL:-3]` in one read, and the same bytes cut after `[SYS`. -/
theorem systoolRet_split_marker :
    let out : List Byte := PFX ++ [0x33, 0x5d]
    Segmentation out [out] ∧ Segmentation out [out.take 4, out.drop 4] ∧
      systoolRet [out] = -5 ∧ systoolRet [out.take 4, out.drop 4] = 0 := by
  refine ⟨⟨rfl, ?_⟩, ⟨rfl, ?_⟩, by decide, by decide⟩
  · decide
  · decide

end PaxAdb
