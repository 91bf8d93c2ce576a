import PaxAdb.AcquireTransport
import PaxAdb.DeviceTracking
import PaxAdb.PrintBuffer

/-!
# The list of devices in its buffer

`list_transports` prints a line for each transport and drops the first line that does not fit. The
short form of a line is one `snprintf`. The long form is up to six of them, which share what is left
of the buffer: after a text that was cut, `add_qual` takes the length of the whole text off the
`size_t` that says how much is left.
-/

namespace PaxAdb.Listing

open Cells List
open Sockets (text)
open Selection (Device qualCharIsInvalid)
open Tracking (statename)

section Model

structure Printing where
  output : Output
  offset : ℕ
  remaining : ℕ
  underflow : Bool

def Printing.advance (x : Printing) (len : ℕ) : Printing where
  output := x.output
  offset := x.offset + len
  remaining := (x.remaining + 2 ^ 64 - len % 2 ^ 64) % 2 ^ 64
  underflow := x.underflow || x.remaining < len

def Printing.snprintf (x : Printing) (s : List Byte) : Printing :=
  { x with output := x.output.snprintf x.offset x.remaining s }.advance s.length

def sanitize (o : Output) (start n : ℕ) : Output :=
  (range' start n).foldl
    (fun o i => if qualCharIsInvalid (o.cells i) then o.put i [0x5f] else o) o

def addQual (start : List Byte) (qual : Option (List Byte)) (sanitizeQual : Bool) (x : Printing) :
    Printing :=
  let qual := qual.getD []
  if x.remaining = 0 ∨ qual = [] then x
  else
    let o := x.output.snprintf x.offset x.remaining (start ++ qual)
    let o := if sanitizeQual then sanitize o (x.offset + start.length) qual.length else o
    { x with output := o }.advance (start ++ qual).length

/-- `%-22s` -/
def padded (s : List Byte) : List Byte := s ++ replicate (22 - s.length) 0x20

def shownSerial (d : Device) : List Byte :=
  if d.serial.getD [] = [] then text "????????????" else d.serial.getD []

def printLong (d : Device) (x : Printing) : Printing :=
  let x := x.snprintf (padded (shownSerial d) ++ text " " ++ statename d.connectionState)
  let x := addQual (text " ") d.devpath false x
  let x := addQual (text " product:") d.product false x
  let x := addQual (text " model:") d.model true x
  let x := addQual (text " device:") d.device false x
  x.snprintf (text "\n")

structure Formatted where
  output : Output
  len : ℕ
  underflow : Bool

def shortLine (d : Device) : List Byte := Tracking.formatTransport d.serial d.connectionState

def formatTransport (d : Device) (o : Output) (offset bufsize : ℕ) (longListing : Bool) :
    Formatted :=
  if longListing then
    let x := printLong d ⟨o, offset, bufsize, false⟩
    ⟨x.output, (bufsize + 2 ^ 64 - x.remaining) % 2 ^ 64, x.underflow⟩
  else ⟨o.snprintf offset bufsize (shortLine d), (shortLine d).length, false⟩

def listLoop (bufsize : ℕ) (longListing : Bool) : List Device → Formatted → Formatted
  | [], x => x
  | d :: ds, x =>
      let y := formatTransport d x.output x.len (bufsize - x.len) longListing
      let len := (y.len : ℤ).bmod (2 ^ 32)
      let underflow := x.underflow || y.underflow
      if bufsize ≤ x.len + len then ⟨y.output, x.len, underflow⟩
      else listLoop bufsize longListing ds ⟨y.output, (x.len + len).toNat, underflow⟩

def listTransports (transports : List Device) (buf : Memory) (bufsize : ℕ) (longListing : Bool) :
    Formatted :=
  let x := listLoop bufsize longListing transports ⟨⟨buf, []⟩, 0, false⟩
  { x with output := x.output.put x.len [0] }

end Model

section Lines

def sanitized (qual : List Byte) : List Byte :=
  qual.map fun c => if qualCharIsInvalid c then 0x5f else c

def qualText (start : List Byte) (qual : Option (List Byte)) (sanitizeQual : Bool) : List Byte :=
  let qual := qual.getD []
  if qual = [] then [] else start ++ if sanitizeQual then sanitized qual else qual

def longLine (d : Device) : List Byte :=
  padded (shownSerial d) ++ text " " ++ statename d.connectionState ++
    qualText (text " ") d.devpath false ++ qualText (text " product:") d.product false ++
    qualText (text " model:") d.model true ++ qualText (text " device:") d.device false ++ text "\n"

def line (longListing : Bool) (d : Device) : List Byte :=
  if longListing then longLine d else shortLine d

end Lines

section Counting

variable {start R c len : ℕ} {x : Printing} {d : Device} {qual : Option (List Byte)}

structure Counts (start R c : ℕ) (x : Printing) : Prop where
  offset : x.offset = start + c
  remaining : x.remaining = (R + 2 ^ 64 - c) % 2 ^ 64
  underflow : x.underflow = decide (R < c)

theorem Counts.advance (h : Counts start R c x) (hR : R < 2 ^ 64) (hc : c + len < 2 ^ 64) :
    Counts start R (c + len) (x.advance len) where
  offset := by
    rw [Printing.advance, h.offset, Nat.add_assoc]
  remaining := by
    simp only [Printing.advance, h.remaining]
    omega
  underflow := by
    simp only [Printing.advance, h.remaining, h.underflow]
    rw [← Bool.decide_or, decide_eq_decide]
    omega

attribute [local irreducible] Printing.advance

theorem Counts.snprintf (h : Counts start R c x) (hR : R < 2 ^ 64) (s : List Byte)
    (hc : c + s.length < 2 ^ 64) : Counts start R (c + s.length) (x.snprintf s) := by
  have hx : Counts start R c { x with output := x.output.snprintf x.offset x.remaining s } :=
    ⟨h.offset, h.remaining, h.underflow⟩
  exact hx.advance hR hc

def CountsUpTo (start R c : ℕ) (x : Printing) : Prop :=
  ∃ c', Counts start R c' x ∧ (c' = c ∨ R ≤ c' ∧ c' ≤ c ∧ R < c)

theorem CountsUpTo.snprintf (h : CountsUpTo start R c x) (hR : R < 2 ^ 64) (s : List Byte)
    (hc : c + s.length < 2 ^ 64) : CountsUpTo start R (c + s.length) (x.snprintf s) := by
  obtain ⟨c', hx, hc'⟩ := h
  exact ⟨c' + s.length, hx.snprintf hR s (by omega), by omega⟩

theorem length_qualText (first : List Byte) (qual : Option (List Byte)) (sanitizeQual : Bool) :
    (qualText first qual sanitizeQual).length =
      if qual.getD [] = [] then 0 else (first ++ qual.getD []).length := by
  rw [qualText]
  split
  next => rfl
  next =>
    cases sanitizeQual with
    | false => rfl
    | true => simp [sanitized]

theorem CountsUpTo.addQual (h : CountsUpTo start R c x) (hR : R < 2 ^ 64) (first : List Byte)
    (qual : Option (List Byte)) (sanitizeQual : Bool)
    (hc : c + (qualText first qual sanitizeQual).length < 2 ^ 64) :
    CountsUpTo start R (c + (qualText first qual sanitizeQual).length)
      (addQual first qual sanitizeQual x) := by
  obtain ⟨c', hx, hc'⟩ := h
  have hrem := hx.remaining
  by_cases hnil : qual.getD [] = []
  · rw [length_qualText, if_pos hnil, Listing.addQual, if_pos (Or.inr hnil)]
    exact ⟨c', hx, hc'⟩
  · have hpos : 0 < (qual.getD []).length := length_pos_iff.mpr hnil
    rw [length_qualText, if_neg hnil] at hc ⊢
    have hlen : (first ++ qual.getD []).length = first.length + (qual.getD []).length :=
      length_append
    by_cases hzero : x.remaining = 0
    · rw [Listing.addQual, if_pos (Or.inl hzero)]
      exact ⟨c', hx, .inr (by omega)⟩
    · rw [Listing.addQual, if_neg (not_or.mpr ⟨hzero, hnil⟩)]
      refine ⟨c' + (first ++ qual.getD []).length, ?_, by omega⟩
      exact Counts.advance ⟨hx.offset, hx.remaining, hx.underflow⟩ hR (by omega)

theorem length_longLine (d : Device) :
    (longLine d).length =
      (padded (shownSerial d) ++ text " " ++ statename d.connectionState).length +
        (qualText (text " ") d.devpath false).length +
        (qualText (text " product:") d.product false).length +
        (qualText (text " model:") d.model true).length +
        (qualText (text " device:") d.device false).length + (text "\n").length := by
  simp only [longLine, length_append]

theorem printLong_counts (d : Device) (o : Output) (start : ℕ) (hR : R < 2 ^ 64)
    (hlen : (longLine d).length < 2 ^ 31) :
    ∃ c, Counts start R c (printLong d ⟨o, start, R, false⟩) ∧
      (c = (longLine d).length ∨ R < c ∧ c ≤ (longLine d).length) := by
  have hstart : CountsUpTo start R 0 ⟨o, start, R, false⟩ :=
    ⟨0, ⟨rfl, by dsimp only; omega, by simp⟩, .inl rfl⟩
  have hnl : (text "\n").length = 1 := by decide
  rw [length_longLine] at hlen ⊢
  have h0 := hstart.snprintf hR
    (padded (shownSerial d) ++ text " " ++ statename d.connectionState) (by omega)
  rw [Nat.zero_add] at h0
  have h1 := h0.addQual hR (text " ") d.devpath false (by omega)
  have h2 := h1.addQual hR (text " product:") d.product false (by omega)
  have h3 := h2.addQual hR (text " model:") d.model true (by omega)
  have h4 := h3.addQual hR (text " device:") d.device false (by omega)
  obtain ⟨c, hx, hc⟩ := h4
  exact ⟨c + (text "\n").length, hx.snprintf hR _ (by omega), by omega⟩

end Counting

section Sanitizing

variable {o : Output}

def sanitizeAt (o : Output) (i : ℕ) : Output :=
  if qualCharIsInvalid (o.cells i) then o.put i [0x5f] else o

theorem sanitizeAt_confined (o : Output) (i : ℕ) :
    Output.Confined i (i + 1) o (sanitizeAt o i) := by
  rw [sanitizeAt]
  split
  next => exact Output.put_confined o i [0x5f]
  next => exact .refl _ _ _

theorem sanitizeAt_cell (o : Output) (i : ℕ) :
    (sanitizeAt o i).cells i = if qualCharIsInvalid (o.cells i) then 0x5f else o.cells i := by
  rw [sanitizeAt]
  split
  next => simp [Output.put, storeAt]
  next => rfl

theorem sanitize_succ (o : Output) (start n : ℕ) :
    sanitize o start (n + 1) = sanitize (sanitizeAt o start) (start + 1) n := by
  rw [sanitize, range'_succ, foldl_cons]
  rfl

theorem sanitize_confined (o : Output) (start n : ℕ) :
    Output.Confined start (start + n) o (sanitize o start n) := by
  induction n generalizing o start with
  | zero => exact .refl _ _ _
  | succ n ih =>
    rw [sanitize_succ]
    have hfirst := (sanitizeAt_confined o start).mono le_rfl (by omega : _ ≤ start + (n + 1))
    exact hfirst.trans ((ih _ _).mono (by omega) (by omega))

theorem segment_sanitize (o : Output) (start n : ℕ) :
    segment (sanitize o start n).cells start n = sanitized (segment o.cells start n) := by
  induction n generalizing o start with
  | zero => rfl
  | succ n ih =>
    have hhead : ∀ m : Memory, segment m start (n + 1) = m start :: segment m (start + 1) n := by
      intro m
      rw [Nat.add_comm n 1, segment_add]
      rfl
    have hlater := sanitize_confined (sanitizeAt o start) (start + 1) n
    have hcell : (sanitize (sanitizeAt o start) (start + 1) n).cells start =
        (sanitizeAt o start).cells start := hlater.frame start (.inl (by omega))
    have hrest : segment (sanitizeAt o start).cells (start + 1) n =
        segment o.cells (start + 1) n :=
      segment_congr fun i hi _ => (sanitizeAt_confined o start).frame i (.inr hi)
    rw [sanitize_succ, hhead, hhead, hcell, ih, hrest, sanitizeAt_cell]
    rfl

end Sanitizing

section Printed

variable {start R : ℕ} {x : Printing} {o : Output} {s : List Byte}

attribute [local irreducible] Printing.advance

/-- The text `s` was printed into the `R` bytes from `start` on, and nothing else was written. It
can be read as long as it leaves room for its NUL. -/
structure Printed (start R : ℕ) (o : Output) (s : List Byte) (x : Printing) : Prop where
  counts : Counts start R s.length x
  confined : Output.Confined start (start + R) o x.output
  text : s.length < R → segment x.output.cells start s.length = s

theorem printed_nil (o : Output) (start : ℕ) (hR : R < 2 ^ 64) :
    Printed start R o [] ⟨o, start, R, false⟩ :=
  ⟨⟨rfl, by simp only [length_nil]; omega, by simp⟩, .refl _ _ _, fun _ => rfl⟩

theorem Printed.append (h : Printed start R o s x) (hR : R < 2 ^ 64) {s' : List Byte}
    (hfits : s.length + s'.length ≤ R) {o' : Output}
    (hconf : Output.Confined (start + s.length) (start + R) x.output o')
    (htext : s.length + s'.length < R → segment o'.cells (start + s.length) s'.length = s') :
    Printed start R o (s ++ s') ({ x with output := o' }.advance s'.length) where
  counts := by
    rw [length_append]
    exact Counts.advance ⟨h.counts.offset, h.counts.remaining, h.counts.underflow⟩ hR (by omega)
  confined := by
    have hout : ({ x with output := o' }.advance s'.length).output = o' := by
      rw [Printing.advance]
    rw [hout]
    exact h.confined.trans (hconf.mono (by omega) le_rfl)
  text hlt := by
    have hout : ({ x with output := o' }.advance s'.length).output = o' := by
      rw [Printing.advance]
    rw [length_append] at hlt ⊢
    rw [hout, segment_add, htext hlt, hconf.segment_before le_rfl, h.text (by omega)]

theorem Printed.remaining (h : Printed start R o s x) (hR : R < 2 ^ 64) (hle : s.length ≤ R) :
    x.remaining = R - s.length := by
  rw [h.counts.remaining]
  omega

theorem Printed.snprintf (h : Printed start R o s x) (hR : R < 2 ^ 64) (s' : List Byte)
    (hfits : s.length + s'.length ≤ R) : Printed start R o (s ++ s') (x.snprintf s') := by
  have hrem := h.remaining hR (by omega)
  have hconf := Output.snprintf_confined x.output x.offset x.remaining s'
  refine h.append hR hfits ?_ fun hlt => ?_
  · rw [h.counts.offset] at hconf ⊢
    exact hconf.mono le_rfl (by omega)
  · rw [h.counts.offset]
    exact Output.segment_snprintf_text _ _ (by omega)

def qualOutput (o : Output) (offset size : ℕ) (first qual : List Byte) (sanitizeQual : Bool) :
    Output :=
  let o := o.snprintf offset size (first ++ qual)
  if sanitizeQual then sanitize o (offset + first.length) qual.length else o

theorem qualOutput_confined (o : Output) {offset size : ℕ} {first qual : List Byte}
    (sanitizeQual : Bool) (hfits : first.length + qual.length ≤ size) :
    Output.Confined offset (offset + size) o
      (qualOutput o offset size first qual sanitizeQual) := by
  have hprint := Output.snprintf_confined o offset size (first ++ qual)
  cases sanitizeQual with
  | false => exact hprint
  | true =>
    refine hprint.trans ((sanitize_confined _ _ _).mono (Nat.le_add_right _ _) ?_)
    omega

theorem segment_qualOutput (o : Output) (offset : ℕ) {size : ℕ} {first qual : List Byte}
    (sanitizeQual : Bool) (hfits : first.length + qual.length < size) :
    segment (qualOutput o offset size first qual sanitizeQual).cells offset
      (first.length + qual.length) = first ++ if sanitizeQual then sanitized qual else qual := by
  have hprint := Output.segment_snprintf_text o offset
    (by rwa [length_append] : (first ++ qual).length < size)
  rw [length_append] at hprint
  cases sanitizeQual with
  | false => exact hprint
  | true =>
    rw [segment_add] at hprint ⊢
    obtain ⟨hfirst, hqual⟩ := append_inj hprint (length_segment _ _ _)
    have hsan := sanitize_confined (o.snprintf offset size (first ++ qual))
      (offset + first.length) qual.length
    rw [qualOutput, if_pos rfl, if_pos rfl, segment_sanitize, hqual,
      hsan.segment_before le_rfl, hfirst]

theorem Printed.addQual (h : Printed start R o s x) (hR : R < 2 ^ 64) (first : List Byte)
    (qual : Option (List Byte)) (sanitizeQual : Bool)
    (hfits : s.length + (qualText first qual sanitizeQual).length ≤ R) :
    Printed start R o (s ++ qualText first qual sanitizeQual)
      (addQual first qual sanitizeQual x) := by
  have hlen := length_qualText first qual sanitizeQual
  by_cases hnil : qual.getD [] = []
  · rw [Listing.addQual, if_pos (Or.inr hnil), qualText, if_pos hnil, append_nil]
    exact h
  · rw [if_neg hnil] at hlen
    have happend : (first ++ qual.getD []).length = first.length + (qual.getD []).length :=
      length_append
    have hpos : 0 < (qual.getD []).length := length_pos_iff.mpr hnil
    have hrem := h.remaining hR (by omega)
    have hzero : x.remaining ≠ 0 := by omega
    rw [Listing.addQual, if_neg (not_or.mpr ⟨hzero, hnil⟩), ← hlen]
    refine h.append hR hfits ?_ fun hlt => ?_
    · rw [← h.counts.offset]
      refine (qualOutput_confined x.output sanitizeQual (by omega)).mono le_rfl ?_
      rw [h.counts.offset]
      omega
    · rw [hlen, happend, ← h.counts.offset]
      refine (segment_qualOutput x.output x.offset sanitizeQual (by omega)).trans ?_
      rw [qualText, if_neg hnil]

theorem printLong_printed (d : Device) (o : Output) (start : ℕ) (hR : R < 2 ^ 64)
    (hfits : (longLine d).length ≤ R) :
    Printed start R o (longLine d) (printLong d ⟨o, start, R, false⟩) := by
  simp only [longLine, length_append] at hfits
  have h0 := (printed_nil o start hR).snprintf hR
    (padded (shownSerial d) ++ text " " ++ statename d.connectionState)
    (by simp only [length_append, length_nil]; omega)
  rw [nil_append] at h0
  have h1 := h0.addQual hR (text " ") d.devpath false
    (by simp only [length_append]; omega)
  have h2 := h1.addQual hR (text " product:") d.product false
    (by simp only [length_append]; omega)
  have h3 := h2.addQual hR (text " model:") d.model true
    (by simp only [length_append]; omega)
  have h4 := h3.addQual hR (text " device:") d.device false
    (by simp only [length_append]; omega)
  exact h4.snprintf hR (text "\n") (by simp only [length_append]; omega)

end Printed

section Formatted

variable {R : ℕ} {longListing : Bool} {d : Device}

/-- A line that fits is printed as it is. One that does not fit is as long as the room for it at
least, and in the long form `remaining` goes below 0 unless it is just as long. -/
structure LineSpec (d : Device) (longListing : Bool) (o : Output) (start R : ℕ) (y : Formatted) :
    Prop where
  small : y.len < 2 ^ 31
  fits : (line longListing d).length < R →
    y.len = (line longListing d).length ∧
      segment y.output.cells start (line longListing d).length = line longListing d
  tooLong : R ≤ (line longListing d).length → R ≤ y.len
  confined : (longListing = true → (line longListing d).length ≤ R) →
    Output.Confined start (start + R) o y.output
  underflow : y.underflow = true ↔ longListing = true ∧ R < (line longListing d).length

theorem formatTransport_spec (o : Output) (start : ℕ) (hR : R < 2 ^ 64)
    (hlen : (line longListing d).length < 2 ^ 31) :
    LineSpec d longListing o start R (formatTransport d o start R longListing) := by
  cases longListing with
  | false =>
    rw [line, if_neg Bool.false_ne_true] at hlen
    exact
      { small := hlen
        fits := fun hlt => ⟨rfl, Output.segment_snprintf_text o start hlt⟩
        tooLong := fun hle => hle
        confined := fun _ => Output.snprintf_confined o start R _
        underflow := by simp [formatTransport] }
  | true =>
    rw [line, if_pos rfl] at hlen
    have hprinted := printLong_printed d o start hR
    obtain ⟨c, hcounts, hc⟩ := printLong_counts d o start hR hlen
    rw [formatTransport, if_pos rfl]
    generalize printLong d ⟨o, start, R, false⟩ = x at hcounts hprinted ⊢
    have hrem := hcounts.remaining
    have hret : (R + 2 ^ 64 - x.remaining) % 2 ^ 64 = c := by omega
    dsimp only
    rw [hret]
    have hsmall : c < 2 ^ 31 := by omega
    have hfit : (longLine d).length < R → c = (longLine d).length := fun hlt => by omega
    have hlong : R ≤ (longLine d).length → R ≤ c := fun hle => by omega
    exact
      { small := hsmall
        fits := fun hlt => by
          rw [line, if_pos rfl] at hlt ⊢
          exact ⟨hfit hlt, (hprinted hlt.le).text hlt⟩
        tooLong := fun hle => by
          rw [line, if_pos rfl] at hle
          exact hlong hle
        confined := fun hfits => by
          have hle := hfits rfl
          rw [line, if_pos rfl] at hle
          exact (hprinted hle).confined
        underflow := by
          rw [hcounts.underflow, line, if_pos rfl, decide_eq_true_iff]
          exact ⟨fun hlt => ⟨rfl, by omega⟩, fun ⟨_, hlt⟩ => by omega⟩ }

end Formatted

section Loop

variable {bufsize : ℕ} {longListing : Bool} {ds : List Device} {x : Formatted}

/-- No line is longer than the room that the lines before it leave, up to the first one that fills
it. -/
def LinesFit : List ℕ → ℕ → Prop
  | [], _ => True
  | n :: ns, room => n ≤ room ∧ (n < room → LinesFit ns (room - n))

structure Listed (bufsize : ℕ) (s : List Byte) (x : Formatted) : Prop where
  len : x.len = s.length
  room : s.length < bufsize
  text : segment x.output.cells 0 s.length = s
  inBounds : ∀ i ∈ x.output.written, i < bufsize
  underflow : x.underflow = false

variable {s : List Byte} {d : Device}

theorem Listed.format (h : Listed bufsize s x) (hbuf : bufsize < 2 ^ 64)
    (hlen : (line longListing d).length < 2 ^ 31) :
    LineSpec d longListing x.output s.length (bufsize - s.length)
      (formatTransport d x.output x.len (bufsize - x.len) longListing) := by
  rw [h.len]
  exact formatTransport_spec x.output s.length (by omega) hlen

theorem Listed.kept (h : Listed bufsize s x) {y : Formatted}
    (hy : LineSpec d longListing x.output s.length (bufsize - s.length) y)
    (hle : longListing = true → (line longListing d).length ≤ bufsize - s.length) :
    Listed bufsize s ⟨y.output, x.len, x.underflow || y.underflow⟩ := by
  have hroom := h.room
  have hconf := hy.confined hle
  refine ⟨h.len, h.room, ?_, fun i hi => ?_, ?_⟩
  · exact (hconf.segment_before (by omega)).trans h.text
  · rcases hconf.written i hi with hold | hnew
    · exact h.inBounds i hold
    · omega
  · rw [h.underflow, Bool.false_or, Bool.eq_false_iff]
    intro hu
    obtain ⟨hlong, hlt⟩ := hy.underflow.mp hu
    have := hle hlong
    omega

theorem Listed.added (h : Listed bufsize s x) {y : Formatted}
    (hy : LineSpec d longListing x.output s.length (bufsize - s.length) y)
    (hlt : (line longListing d).length < bufsize - s.length) :
    Listed bufsize (s ++ line longListing d)
      ⟨y.output, s.length + (line longListing d).length, x.underflow || y.underflow⟩ := by
  have hroom := h.room
  have hkept := h.kept hy fun _ => hlt.le
  refine ⟨by rw [length_append], ?_, ?_, hkept.inBounds, hkept.underflow⟩
  · rw [length_append]
    omega
  · rw [length_append, segment_add, Nat.zero_add, hkept.text, (hy.fits hlt).2]

theorem Listed.terminated (h : Listed bufsize s x) :
    segment (x.output.put x.len [0]).cells 0 (s.length + 1) = s ++ [0] := by
  rw [h.len, segment_add, Nat.zero_add]
  have hkept := Output.put_confined x.output s.length [0]
  congr 1
  · exact (hkept.segment_before (by omega)).trans h.text
  · exact segment_storeAt _ _ [0]

theorem bmod_of_small {n : ℕ} (h : n < 2 ^ 31) : (n : ℤ).bmod (2 ^ 32) = n :=
  Int.bmod_eq_of_le (by omega) (by omega)

theorem listLoop_cons (ds : List Device) (h : Listed bufsize s x) (hbuf : bufsize < 2 ^ 64)
    (hlen : (line longListing d).length < 2 ^ 31) :
    ∃ y, LineSpec d longListing x.output s.length (bufsize - s.length) y ∧
      listLoop bufsize longListing (d :: ds) x =
        if (line longListing d).length < bufsize - s.length then
          listLoop bufsize longListing ds
            ⟨y.output, s.length + (line longListing d).length, x.underflow || y.underflow⟩
        else ⟨y.output, x.len, x.underflow || y.underflow⟩ := by
  have hroom := h.room
  have hy := h.format hbuf hlen
  refine ⟨formatTransport d x.output x.len (bufsize - x.len) longListing, hy, ?_⟩
  rw [listLoop.eq_def]
  dsimp only
  generalize formatTransport d x.output x.len (bufsize - x.len) longListing = y at hy ⊢
  rw [bmod_of_small hy.small, h.len]
  by_cases hlt : (line longListing d).length < bufsize - s.length
  · have hret := (hy.fits hlt).1
    rw [if_pos hlt, if_neg (by omega), hret, ← Nat.cast_add, Int.toNat_natCast]
  · have hret := hy.tooLong (not_lt.mp hlt)
    rw [if_neg hlt, if_pos (by omega)]

def lineLengths (longListing : Bool) (ds : List Device) : List ℕ :=
  ds.map fun d => (line longListing d).length

/-- Lines that fit are there one after the other, up to the first one that fills its room. -/
theorem listLoop_fits (h : Listed bufsize s x) (hbuf : bufsize < 2 ^ 64)
    (hlens : ∀ d ∈ ds, (line longListing d).length < 2 ^ 31)
    (hfit : longListing = true → LinesFit (lineLengths longListing ds) (bufsize - s.length)) :
    ∃ ds', ds' <+: ds ∧
      Listed bufsize (s ++ ds'.flatMap (line longListing)) (listLoop bufsize longListing ds x) := by
  induction ds generalizing x s with
  | nil =>
    refine ⟨[], nil_prefix, ?_⟩
    rw [flatMap_nil, append_nil]
    exact h
  | cons d ds ih =>
    obtain ⟨y, hy, hround⟩ := listLoop_cons ds h hbuf (hlens d mem_cons_self)
    rw [hround]
    by_cases hlt : (line longListing d).length < bufsize - s.length
    · rw [if_pos hlt]
      have hrest : longListing = true → LinesFit (lineLengths longListing ds)
          (bufsize - (s ++ line longListing d).length) := fun hlong => by
        rw [length_append, ← Nat.sub_sub]
        exact (hfit hlong).2 hlt
      obtain ⟨ds', hds', hlisted⟩ :=
        ih (h.added hy hlt) (fun d' hd' => hlens d' (mem_cons_of_mem d hd')) hrest
      refine ⟨d :: ds', (prefix_cons_inj d).mpr hds', ?_⟩
      rw [flatMap_cons, ← append_assoc]
      exact hlisted
    · rw [if_neg hlt]
      refine ⟨[], nil_prefix, ?_⟩
      rw [flatMap_nil, append_nil]
      exact h.kept hy fun hlong => (hfit hlong).1

/-- With a line in the long form that is longer than its room, `remaining` goes below 0. -/
theorem listLoop_not_fits (h : Listed bufsize s x) (hbuf : bufsize < 2 ^ 64)
    (hlens : ∀ d ∈ ds, (line longListing d).length < 2 ^ 31) (hlong : longListing = true)
    (hfit : ¬LinesFit (lineLengths longListing ds) (bufsize - s.length)) :
    (listLoop bufsize longListing ds x).underflow = true := by
  induction ds generalizing x s with
  | nil => exact absurd trivial hfit
  | cons d ds ih =>
    obtain ⟨y, hy, hround⟩ := listLoop_cons ds h hbuf (hlens d mem_cons_self)
    rw [hround]
    by_cases hlt : (line longListing d).length < bufsize - s.length
    · rw [if_pos hlt]
      refine ih (h.added hy hlt) (fun d' hd' => hlens d' (mem_cons_of_mem d hd')) ?_
      rw [length_append, ← Nat.sub_sub]
      exact fun hrest => hfit ⟨hlt.le, fun _ => hrest⟩
    · rw [if_neg hlt]
      have hlonger : bufsize - s.length < (line longListing d).length := by
        by_contra hle
        exact hfit ⟨not_lt.mp hle, fun hlt' => absurd hlt' hlt⟩
      have hunder := hy.underflow.mpr ⟨hlong, hlonger⟩
      simp [hunder]

end Loop

section Agreement

open Lifecycle (World Ref TransportId)
open Ring (IsRing)
open Sockets (ConnectionState)
open Tracking (listLines formatTransport_pos)

variable {w : World} {state : TransportId → ConnectionState} {device : TransportId → Device}
  {bufsize : ℕ} {s : List Byte} {x : Formatted} {L : List TransportId}

/-- A transport of the server as it is listed. -/
def Shows (w : World) (state : TransportId → ConnectionState) (t : TransportId) (d : Device) :
    Prop :=
  ∃ y, w.transport t = some y ∧ d.serial = y.serial ∧ d.connectionState = state t

theorem listLoop_agrees {r : Ref} {fuel : ℕ} (h : Listed bufsize s x) (hbuf : bufsize < 2 ^ 64)
    (hlens : ∀ t ∈ L, (shortLine (device t)).length < 2 ^ 31)
    (hshow : ∀ t ∈ L, Shows w state t (device t)) (hfuel : bufsize - s.length < fuel)
    (hchain : (r :: L.map Ref.node ++ [Ref.transportList]).IsChain w.links.Joined) :
    ∃ l, listLines w state fuel (w.links.next r) (bufsize - s.length) = some l ∧
      Listed bufsize (s ++ l.bytes) (listLoop bufsize false (L.map device) x) := by
  obtain ⟨fuel, rfl⟩ := Nat.exists_eq_succ_of_ne_zero (Nat.ne_zero_of_lt hfuel)
  induction L generalizing r fuel s x with
  | nil =>
    rw [(isChain_pair.mp hchain).1]
    exact ⟨_, rfl, by rw [append_nil]; exact h⟩
  | cons t L ih =>
    obtain ⟨hnext, hrest⟩ := isChain_cons_cons.mp hchain
    obtain ⟨y, hy, hserial, hstate⟩ := hshow t mem_cons_self
    have hlen : (line false (device t)).length < 2 ^ 31 := hlens t mem_cons_self
    obtain ⟨z, hz, hround⟩ := listLoop_cons (L.map device) h hbuf hlen
    have hline : Tracking.formatTransport y.serial (state t) = line false (device t) := by
      rw [← hserial, ← hstate]
      rfl
    have hpos := formatTransport_pos y.serial (state t)
    rw [hline] at hpos
    rw [map_cons, hround, hnext.1, listLines, hy]
    dsimp only
    rw [hline]
    by_cases hlt : (line false (device t)).length < bufsize - s.length
    · rw [if_pos hlt, if_neg (not_le.mpr hlt)]
      obtain ⟨fuel, rfl⟩ := Nat.exists_eq_succ_of_ne_zero (by omega : fuel ≠ 0)
      have hroom : bufsize - s.length - (line false (device t)).length =
          bufsize - (s ++ line false (device t)).length := by
        rw [length_append, Nat.sub_sub]
      obtain ⟨l, hl, hlisted⟩ := ih (h.added hz hlt)
        (fun u hu => hlens u (mem_cons_of_mem t hu))
        (fun u hu => hshow u (mem_cons_of_mem t hu)) hrest fuel (by omega)
      rw [hroom, hl]
      refine ⟨_, rfl, ?_⟩
      rw [← append_assoc]
      exact hlisted
    · rw [if_neg hlt, if_pos (not_lt.mp hlt)]
      refine ⟨_, rfl, ?_⟩
      rw [append_nil]
      refine h.kept hz fun hlong => ?_
      cases hlong

/-- What the trackers are sent is what the buffer holds. -/
theorem listTransports_agrees (hring : IsRing w.links .transportList (L.map .node))
    (hshow : ∀ t ∈ L, Shows w state t (device t))
    (hlens : ∀ t ∈ L, (shortLine (device t)).length < 2 ^ 31) (buf : Memory) (hpos : 1 ≤ bufsize)
    (hbuf : bufsize < 2 ^ 64) :
    ∃ l, Tracking.listTransports w state bufsize = some l ∧
      segment (listTransports (L.map device) buf bufsize false).output.cells 0
        (l.bytes.length + 1) = l.bytes ++ [0] := by
  have hstart : Listed bufsize [] ⟨⟨buf, []⟩, 0, false⟩ :=
    ⟨rfl, hpos, rfl, fun i hi => absurd hi not_mem_nil, rfl⟩
  obtain ⟨l, hl, hlisted⟩ :=
    listLoop_agrees hstart hbuf hlens hshow (Nat.lt_succ_self bufsize) hring.1
  exact ⟨l, hl, hlisted.terminated⟩

end Agreement

section Listing

def textLength (d : Device) : ℕ :=
  (d.serial.getD []).length + (d.devpath.getD []).length + (d.product.getD []).length +
    (d.model.getD []).length + (d.device.getD []).length

theorem length_statename_le (st : Sockets.ConnectionState) : (statename st).length ≤ 14 := by
  cases st <;> decide

theorem length_shownSerial_le (d : Device) :
    (shownSerial d).length ≤ (d.serial.getD []).length + 12 := by
  have htext : (text "????????????").length = 12 := by decide
  rw [shownSerial]
  split
  next => omega
  next => omega

theorem shortLine_eq (d : Device) :
    shortLine d = shownSerial d ++ [0x09] ++ statename d.connectionState ++ [0x0a] := by
  rw [shortLine, Tracking.formatTransport.eq_def, shownSerial]
  rcases d.serial with _ | _ | ⟨c, cs⟩
  · rfl
  · rfl
  · rfl

theorem length_qualText_le (first : List Byte) (qual : Option (List Byte)) (sanitizeQual : Bool) :
    (qualText first qual sanitizeQual).length ≤ first.length + (qual.getD []).length := by
  rw [length_qualText]
  split
  next => omega
  next => rw [length_append]

theorem length_line_le (longListing : Bool) (d : Device) :
    (line longListing d).length ≤ textLength d + 100 := by
  have hserial := length_shownSerial_le d
  have hstate := length_statename_le d.connectionState
  cases longListing with
  | false =>
    rw [line, if_neg Bool.false_ne_true, shortLine_eq, textLength]
    simp only [length_append, length_singleton]
    omega
  | true =>
    have hpad : (padded (shownSerial d)).length ≤ (shownSerial d).length + 22 := by
      rw [padded, length_append, length_replicate]
      omega
    have hdevpath := length_qualText_le (text " ") d.devpath false
    have hproduct := length_qualText_le (text " product:") d.product false
    have hmodel := length_qualText_le (text " model:") d.model true
    have hdevice := length_qualText_le (text " device:") d.device false
    have hspace : (text " ").length = 1 := by decide
    have hproduct' : (text " product:").length = 9 := by decide
    have hmodel' : (text " model:").length = 7 := by decide
    have hdevice' : (text " device:").length = 8 := by decide
    have hnl : (text "\n").length = 1 := by decide
    rw [line, if_pos rfl, length_longLine, length_append, length_append, textLength]
    omega

/-- In the short form, or when no line is longer than the room that is left for it, the listing is
inside of its buffer, and it is the lines of the first transports. -/
theorem list_transports_fits_iff (transports : List Device) (buf : Memory) (bufsize : ℕ)
    (longListing : Bool) (hpos : 1 ≤ bufsize) (hbuf : bufsize < 2 ^ 64)
    (hlens : ∀ d ∈ transports, textLength d < 2 ^ 30) :
    ((∀ i ∈ (listTransports transports buf bufsize longListing).output.written, i < bufsize) ∧
      (listTransports transports buf bufsize longListing).underflow = false ∧
      ∃ listed, listed <+: transports ∧
        (listTransports transports buf bufsize longListing).len =
          (listed.flatMap (line longListing)).length ∧
        segment (listTransports transports buf bufsize longListing).output.cells 0
          ((listed.flatMap (line longListing)).length + 1) =
            listed.flatMap (line longListing) ++ [0]) ↔
      (longListing = true → LinesFit (lineLengths longListing transports) bufsize) := by
  have hlines : ∀ d ∈ transports, (line longListing d).length < 2 ^ 31 := fun d hd => by
    have hle := length_line_le longListing d
    have hlt := hlens d hd
    omega
  have hstart : Listed bufsize [] ⟨⟨buf, []⟩, 0, false⟩ :=
    ⟨rfl, hpos, rfl, fun i hi => absurd hi not_mem_nil, rfl⟩
  constructor
  · rintro ⟨-, hunder, -⟩ hlong
    by_contra hfit
    have := listLoop_not_fits hstart hbuf hlines hlong hfit
    rw [listTransports] at hunder
    exact absurd (this.symm.trans hunder) (by decide)
  · intro hfit
    obtain ⟨listed, hprefix, hlisted⟩ := listLoop_fits hstart hbuf hlines hfit
    rw [listTransports]
    generalize listLoop bufsize longListing transports ⟨⟨buf, []⟩, 0, false⟩ = x at hlisted
    rw [nil_append] at hlisted
    refine ⟨fun i hi => ?_, hlisted.underflow, listed, hprefix, hlisted.len, ?_⟩
    · rw [Output.put, mem_append] at hi
      rcases hi with hold | hnew
      · exact hlisted.inBounds i hold
      · rw [mem_range'_1, hlisted.len] at hnew
        have hroom := hlisted.room
        simp only [length_cons, length_nil] at hnew
        omega
    · exact hlisted.terminated

def named (bytes : ℕ) : Device where
  type := .kTransportUsb
  connectionState := .device
  serial := some (text "A1")
  devpath := none
  product := some (replicate bytes 0x78)
  model := none
  device := none

theorem list_transports_fits_one :
    (1 ≤ 64 ∧ 64 < 2 ^ 64 ∧ ∀ d ∈ [named 3], textLength d < 2 ^ 30) ∧
      (listTransports [named 3] (fun _ => 0) 64 true).underflow = false := by
  have hlens : ∀ d ∈ [named 3], textLength d < 2 ^ 30 := by decide
  have hfits :=
    list_transports_fits_iff [named 3] (fun _ => 0) 64 true (by decide) (by decide) hlens
  exact ⟨⟨by decide, by decide, hlens⟩, (hfits.mpr fun _ => ⟨by decide, fun _ => trivial⟩).2.1⟩

/-- The second of two long lines in the buffer of `host:devices-l`: its newline is written behind
the buffer. -/
theorem list_transports_overrun :
    (listTransports [named 2040, named 2040] (fun _ => 0) 4096 true).underflow = true ∧
      4157 ∈ (listTransports [named 2040, named 2040] (fun _ => 0) 4096 true).output.written := by
  decide +kernel

end Listing

end PaxAdb.Listing
