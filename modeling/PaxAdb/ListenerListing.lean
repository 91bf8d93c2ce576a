import PaxAdb.Listeners
import PaxAdb.PrintBuffer

/-!
# The list of forwards in its buffer

`format_listeners` runs twice for a `list-forward` request. Without a buffer it only adds up the
lengths of the lines. With a buffer of so many bytes and one more it prints the lines, each with
`snprintf` and over the NUL of the line before.
-/

namespace PaxAdb.Listeners

open Cells List
open Sockets (text)

section Model

structure Entry where
  serial : List Byte
  localName : List Byte
  connectTo : List Byte
  deriving DecidableEq, Repr

def Entry.special (l : Entry) : Bool := l.connectTo.head? = some 0x2a

def Entry.line (l : Entry) : List Byte :=
  l.serial ++ text " " ++ l.localName ++ text " " ++ l.connectTo ++ text "\n"

structure Pass where
  output : Output
  buf : Option ℕ
  buflen : ℕ
  result : ℕ

def formatListener (l : Entry) (o : Output) (buffer : Option ℕ) (bufferLen : ℕ) : Output × ℕ :=
  let o := match buffer with
    | some offset => o.snprintf offset bufferLen l.line
    | none => o
  (o, l.localName.length + l.connectTo.length + l.serial.length + 3)

def sizeSub (a b : ℕ) : ℕ := if b ≤ a then a - b else 2 ^ 64 - (b - a)

def formatLoop : List Entry → Pass → Pass
  | [], x => x
  | l :: ls, x =>
      if l.special then formatLoop ls x
      else
        let (output, len) := formatListener l x.output x.buf x.buflen
        match x.buf with
        | none => formatLoop ls { x with output := output, result := x.result + len }
        | some offset =>
            let y : Pass := ⟨output, some (offset + len), sizeSub x.buflen len, x.result + len⟩
            if y.buflen = 0 then y else formatLoop ls y

def formatListeners (ls : List Entry) (m : Memory) (buf : Option ℕ) (buflen : ℕ) : Pass :=
  formatLoop ls ⟨⟨m, []⟩, buf, buflen, 0⟩

end Model

section Passes

variable {l : Entry} {ls : List Entry}

def listing (ls : List Entry) : List Byte := (ls.filter fun l => !l.special).flatMap Entry.line

theorem listing_cons_special (h : l.special = true) : listing (l :: ls) = listing ls := by
  simp [listing, h]

theorem listing_cons (h : l.special = false) : listing (l :: ls) = l.line ++ listing ls := by
  simp [listing, h]

theorem length_line (l : Entry) :
    l.line.length = l.localName.length + l.connectTo.length + l.serial.length + 3 := by
  have hspace : (text " ").length = 1 := by decide
  have hnl : (text "\n").length = 1 := by decide
  simp only [Entry.line, length_append]
  omega

theorem formatLoop_sizing (ls : List Entry) (o : Output) (buflen result : ℕ) :
    formatLoop ls ⟨o, none, buflen, result⟩ =
      ⟨o, none, buflen, result + (listing ls).length⟩ := by
  induction ls generalizing result with
  | nil => rfl
  | cons l ls ih =>
    rw [formatLoop]
    cases hspecial : l.special with
    | true => rw [if_pos rfl, ih, listing_cons_special hspecial]
    | false =>
      rw [if_neg Bool.false_ne_true, listing_cons hspecial, length_append, length_line,
        ← Nat.add_assoc result]
      exact ih _

theorem line_ne_nil (l : Entry) : l.line ≠ [] := by
  intro hnil
  have hlen := length_line l
  rw [hnil, length_nil] at hlen
  omega

/-- The pass with a buffer for the lines that are left and the NUL prints them all: what is left of
the buffer is never used up. -/
theorem formatLoop_writing (ls : List Entry) (o : Output) (start result : ℕ) :
    (formatLoop ls ⟨o, some start, (listing ls).length + 1, result⟩).result =
        result + (listing ls).length ∧
      Output.Wrote (listing ls) start o
        (formatLoop ls ⟨o, some start, (listing ls).length + 1, result⟩).output := by
  induction ls generalizing o start result with
  | nil => exact ⟨rfl, .nil start o⟩
  | cons l ls ih =>
    rw [formatLoop]
    cases hspecial : l.special with
    | true =>
      rw [if_pos rfl, listing_cons_special hspecial]
      exact ih o start result
    | false =>
      have hleft : sizeSub ((l.line ++ listing ls).length + 1) l.line.length =
          (listing ls).length + 1 := by
        rw [length_append, sizeSub, if_pos (by omega)]
        omega
      rw [if_neg Bool.false_ne_true, listing_cons hspecial, formatListener, ← length_line]
      dsimp only
      rw [hleft, if_neg (Nat.succ_ne_zero _)]
      obtain ⟨hresult, hwrote⟩ := ih
        (o.snprintf start ((l.line ++ listing ls).length + 1) l.line) (start + l.line.length)
        (result + l.line.length)
      refine ⟨?_, .append (line_ne_nil l) hwrote⟩
      rw [hresult, length_append, Nat.add_assoc]

theorem formatListeners_sizing (ls : List Entry) (m : Memory) :
    formatListeners ls m none 0 = ⟨⟨m, []⟩, none, 0, (listing ls).length⟩ := by
  rw [formatListeners, formatLoop_sizing, Nat.zero_add]

/-- The length that the pass without a buffer returns is that of all the lines. The pass with a
buffer for them and the NUL writes all of them, and nothing behind the NUL. -/
theorem format_listeners_agree (ls : List Entry) (m : Memory) :
    let size := (formatListeners ls m none 0).result
    let written := formatListeners ls m (some 0) (size + 1)
    size = (listing ls).length ∧ written.result = size ∧
      segment written.output.cells 0 size = listing ls ∧
      (listing ls ≠ [] → written.output.cells size = 0) ∧
      (∀ i ∈ written.output.written, i < size + 1) ∧
      (formatListeners ls m none 0).output = ⟨m, []⟩ := by
  obtain ⟨hresult, hwrote⟩ := formatLoop_writing ls ⟨m, []⟩ 0 0
  rw [Nat.zero_add] at hresult
  rw [formatListeners_sizing]
  refine ⟨rfl, hresult, hwrote.text, fun hne => ?_, fun i hi => ?_, rfl⟩
  · have hnul := hwrote.terminated hne
    rw [Nat.zero_add] at hnul
    exact hnul
  · rcases hwrote.confined.written i hi with hold | hnew
    · exact absurd hold not_mem_nil
    · dsimp only
      omega

theorem length_listing_le {n : ℕ} (h : ∀ l ∈ ls, l.line.length ≤ n) :
    (listing ls).length ≤ ls.length * n := by
  induction ls with
  | nil => exact Nat.zero_le _
  | cons l ls ih =>
    have hrest := ih fun l' hl' => h l' (mem_cons_of_mem l hl')
    have hfirst := h l mem_cons_self
    rw [length_cons, Nat.succ_mul]
    cases hspecial : l.special with
    | true =>
      rw [listing_cons_special hspecial]
      omega
    | false =>
      rw [listing_cons hspecial, length_append]
      omega

/-- A listener has a descriptor that `select` can wait for, and its names are parts of requests:
the lengths, which the code has in an `int`, do not come near its bounds. -/
theorem listing_lt_int (hfds : ls.length ≤ 1024)
    (hnames : ∀ l ∈ ls, l.serial.length ≤ 1024 ∧ l.localName.length ≤ 1024 ∧
      l.connectTo.length ≤ 1024) : (listing ls).length + 1 < 2 ^ 31 := by
  have hle : (listing ls).length ≤ ls.length * (3 * 1024 + 3) := by
    refine length_listing_le fun l hl => ?_
    have hlen := length_line l
    have hnames := hnames l hl
    omega
  have hmul := Nat.mul_le_mul_right (3 * 1024 + 3) hfds
  omega

end Passes

section Requests

variable (R : Registry)

def Registry.entry (l : AListener) : Entry :=
  ⟨(l.transport.bind fun t => (R.device t).serial).getD [], l.localName, l.connectTo⟩

def Registry.entries : List Entry :=
  R.listenerList.filterMap fun a => (R.listener a).map R.entry

/-- A `list-forward` request is answered with what the two passes leave in the buffer. -/
theorem Registry.formatListeners_eq (m : Memory) :
    R.formatListeners =
      segment (Listeners.formatListeners R.entries m (some 0)
        ((Listeners.formatListeners R.entries m none 0).result + 1)).output.cells 0
        (Listeners.formatListeners R.entries m none 0).result := by
  rw [formatListeners_sizing]
  refine Eq.trans ?_ (formatLoop_writing R.entries ⟨m, []⟩ 0 0).2.text.symm
  rw [formatListeners, entries]
  induction R.listenerList with
  | nil => rfl
  | cons a as ih =>
    rw [flatMap_cons, ih]
    cases hl : R.listener a with
    | none => simp [hl]
    | some l =>
      simp only [filterMap_cons, hl, Option.map_some]
      cases hspecial : (R.entry l).special with
      | true =>
        have hold : l.special = true := hspecial
        rw [listing_cons_special hspecial, hold]
        rfl
      | false =>
        have hold : l.special = false := hspecial
        rw [listing_cons hspecial, hold]
        rfl

end Requests

end PaxAdb.Listeners
