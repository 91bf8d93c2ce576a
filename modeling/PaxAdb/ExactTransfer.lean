import PaxAdb.SystemCalls

/-!
# Transfers of a given length

`readx` and `writex` repeat `adb_read` and `adb_write` until the length they were asked for is
done. What arrives on a descriptor is a sequence of results: an `adb_read` takes the bytes that
arrived together, as far as it has room for them, and leaves the others for the next call. The end
of either sequence is the end of the connection.
-/

namespace PaxAdb

open List

/-- `readx` for `len` bytes: the bytes and what is left of the arrivals, or `none` for -1. -/
def readx : ℕ → List ReadResult → Option (List Byte × List ReadResult)
  | 0, arrivals => some ([], arrivals)
  | _ + 1, [] => none
  | len + 1, .eintr :: arrivals => readx (len + 1) arrivals
  | len + 1, .data bytes :: arrivals =>
      if bytes = [] then none
      else if bytes.length ≤ len + 1 then
        (readx (len + 1 - bytes.length) arrivals).map (fun x => (bytes ++ x.1, x.2))
      else some (bytes.take (len + 1), .data (bytes.drop (len + 1)) :: arrivals)
  | _ + 1, .eagain :: _ => none
  | _ + 1, .error :: _ => none

structure Written (ρ : Type) where
  bytes : List Byte
  ok : Bool
  rest : ρ
  deriving DecidableEq, Repr

def Written.andThen {ρ : Type} (w : Written ρ) (next : ρ → Written ρ) : Written ρ :=
  if w.ok then ⟨w.bytes ++ (next w.rest).bytes, (next w.rest).ok, (next w.rest).rest⟩ else w

def writex : List Byte → List WriteResult → Written (List WriteResult)
  | [], results => ⟨[], true, results⟩
  | _ :: _, [] => ⟨[], false, []⟩
  | b :: bytes, .count n :: results =>
      let w := writex (bytes.drop n) results
      ⟨(b :: bytes.take n) ++ w.bytes, w.ok, w.rest⟩
  | b :: bytes, .eintr :: results => writex (b :: bytes) results
  | b :: bytes, .eagain :: results => writex (b :: bytes) results
  | _ :: _, .zero :: results => ⟨[], false, results⟩
  | _ :: _, .error :: results => ⟨[], false, results⟩

def arrived (arrivals : List ReadResult) : List Byte :=
  arrivals.flatMap (fun | .data bytes => bytes | _ => [])

def Undisturbed (arrivals : List ReadResult) : Prop :=
  ∀ r ∈ arrivals, r = .eintr ∨ ∃ b bytes, r = .data (b :: bytes)

def Patient (results : List WriteResult) : Prop := .zero ∉ results ∧ .error ∉ results

def accepting (results : List WriteResult) : ℕ :=
  results.countP (fun | .count _ => true | _ => false)

section Read

variable {bytes : List Byte} {arrivals rest : List ReadResult}

@[simp] theorem arrived_data (bytes : List Byte) (arrivals : List ReadResult) :
    arrived (.data bytes :: arrivals) = bytes ++ arrived arrivals := rfl

theorem readx_some (len : ℕ) (arrivals : List ReadResult)
    (h : readx len arrivals = some (bytes, rest)) :
    bytes.length = len ∧ arrived arrivals = bytes ++ arrived rest := by
  induction arrivals generalizing len bytes with
  | nil =>
    cases len with
    | zero => cases h; exact ⟨rfl, rfl⟩
    | succ len => cases h
  | cons r arrivals ih =>
    cases len with
    | zero => cases h; exact ⟨rfl, rfl⟩
    | succ len =>
      cases r with
      | eagain | error => cases h
      | eintr => exact ih (len + 1) h
      | data piece =>
        simp only [readx] at h
        split_ifs at h with hnil hle
        · obtain ⟨⟨more, left⟩, hx, heq⟩ := Option.map_eq_some_iff.mp h
          cases heq
          obtain ⟨hlen, harr⟩ := ih _ hx
          refine ⟨?_, ?_⟩
          · rw [length_append, hlen]
            omega
          · rw [arrived_data, harr, append_assoc]
        · cases h
          refine ⟨?_, ?_⟩
          · rw [length_take]
            omega
          · rw [arrived_data, arrived_data, ← append_assoc, take_append_drop]

theorem readx_undisturbed (bytes tail : List Byte) (h : Undisturbed arrivals)
    (harr : arrived arrivals = bytes ++ tail) :
    ∃ rest, readx bytes.length arrivals = some (bytes, rest) ∧ Undisturbed rest ∧
      arrived rest = tail := by
  induction arrivals generalizing bytes with
  | nil =>
    obtain ⟨rfl, rfl⟩ := append_eq_nil_iff.mp harr.symm
    exact ⟨[], rfl, h, rfl⟩
  | cons r arrivals ih =>
    have hrest : Undisturbed arrivals := fun r hr => h r (mem_cons_of_mem _ hr)
    cases bytes with
    | nil => exact ⟨r :: arrivals, rfl, h, harr⟩
    | cons b bytes =>
      rcases h r mem_cons_self with rfl | ⟨c, piece, rfl⟩
      · exact ih (b :: bytes) hrest harr
      · rw [arrived_data] at harr
        simp only [readx, length_cons, reduceCtorEq, if_false]
        by_cases hle : piece.length + 1 ≤ bytes.length + 1
        · -- the whole piece is taken, and the rest of the bytes is still to come
          obtain ⟨left, hleft⟩ : (c :: piece) <+: (b :: bytes) :=
            prefix_of_prefix_length_le ⟨_, harr⟩ ⟨_, rfl⟩ hle
          rw [← hleft, append_assoc, append_cancel_left_eq] at harr
          obtain ⟨rest, hread, hund, htail⟩ := ih left hrest harr
          have hlen : bytes.length + 1 - (piece.length + 1) = left.length := by
            have := congrArg length hleft
            simp only [length_append, length_cons] at this
            omega
          refine ⟨rest, ?_, hund, htail⟩
          rw [if_pos hle, hlen, hread, ← hleft]
          rfl
        · -- the piece holds more than is asked for
          obtain ⟨left, hleft⟩ : (b :: bytes) <+: (c :: piece) :=
            prefix_of_prefix_length_le ⟨_, rfl⟩ ⟨_, harr⟩
              (by simp only [length_cons]; omega)
          have hne : left ≠ [] := by
            rintro rfl
            have := congrArg length hleft
            simp only [length_append, length_cons, length_nil] at this
            omega
          obtain ⟨d, left, rfl⟩ := exists_cons_of_ne_nil hne
          have hcut : bytes.length + 1 = (b :: bytes).length := rfl
          rw [if_neg hle, ← hleft, hcut, take_left', drop_left']
          · rw [← hleft, append_assoc, append_cancel_left_eq] at harr
            refine ⟨_, rfl, ?_, harr⟩
            rintro r (_ | ⟨_, hr⟩)
            · exact Or.inr ⟨d, left, rfl⟩
            · exact hrest r hr
          · rfl
          · rfl

end Read

section Write

theorem writex_prefix (bytes : List Byte) (results : List WriteResult) :
    (writex bytes results).bytes <+: bytes := by
  fun_induction writex bytes results with
  | case1 => exact prefix_refl _
  | case2 => exact nil_prefix
  | case3 b bytes n results w ih =>
    obtain ⟨rest, hrest⟩ := ih
    refine ⟨rest, ?_⟩
    rw [append_assoc, hrest, cons_append, take_append_drop]
  | case4 b bytes results ih => exact ih
  | case5 b bytes results ih => exact ih
  | case6 => exact nil_prefix
  | case7 => exact nil_prefix

theorem writex_ok_iff (bytes : List Byte) (results : List WriteResult) :
    (writex bytes results).ok = true ↔ (writex bytes results).bytes = bytes := by
  fun_induction writex bytes results with
  | case1 => simp
  | case2 => simp
  | case3 b bytes n results w ih =>
    rw [ih, cons_append, cons.injEq]
    constructor
    · intro h
      rw [h, take_append_drop]
      exact ⟨rfl, rfl⟩
    · rintro ⟨_, h⟩
      have hsplit := (take_append_drop n bytes).symm
      exact append_cancel_left (h.trans hsplit)
  | case4 b bytes results ih => exact ih
  | case5 b bytes results ih => exact ih
  | case6 => simp
  | case7 => simp

theorem Patient.tail {r : WriteResult} {results : List WriteResult} (h : Patient (r :: results)) :
    Patient results :=
  ⟨fun hm => h.1 (mem_cons_of_mem _ hm), fun hm => h.2 (mem_cons_of_mem _ hm)⟩

theorem writex_patient (bytes : List Byte) (results : List WriteResult) (h : Patient results)
    (hlen : bytes.length ≤ accepting results) :
    (writex bytes results).ok = true ∧ Patient (writex bytes results).rest ∧
      accepting results ≤ bytes.length + accepting (writex bytes results).rest := by
  fun_induction writex bytes results with
  | case1 => exact ⟨rfl, h, Nat.le_add_left _ _⟩
  | case2 => simp [accepting] at hlen
  | case3 b bytes n results w ih =>
    simp only [accepting, countP_cons, if_true, length_cons] at hlen ⊢
    obtain ⟨hok, hp, hle⟩ := ih h.tail (by
      simp only [accepting, length_drop]
      omega)
    simp only [accepting, length_drop] at hle
    refine ⟨hok, hp, ?_⟩
    change _ ≤ _ + accepting (writex (bytes.drop n) results).rest
    simp only [accepting]
    omega
  | case4 b bytes results ih => exact ih h.tail (by simpa [accepting] using hlen)
  | case5 b bytes results ih => exact ih h.tail (by simpa [accepting] using hlen)
  | case6 => exact absurd mem_cons_self h.1
  | case7 => exact absurd mem_cons_self h.2

end Write

end PaxAdb
