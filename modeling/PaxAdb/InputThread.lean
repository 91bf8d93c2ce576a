import PaxAdb.Wire

/-!
# The thread that writes to the device

`input_thread` takes the packets of the main loop from the pipe and writes them to the device, over
TCP in one transfer and over USB in two. It does not look at what `write_to_remote` returns, so the
bytes on the wire stay aligned with the packets only on a connection that takes nothing more once a
write has failed.
-/

namespace PaxAdb.Wire

open Sockets (Command Packet)
open List

/-- One bulk transfer: `broken n` sends `n` of the bytes and reports a failure. -/
inductive BulkResult where
  | complete
  | broken (n : ℕ)
  deriving DecidableEq, Repr

def usbBulkWrite (bytes : List Byte) : List BulkResult → Written (List BulkResult)
  | [] => ⟨[], false, []⟩
  | .complete :: results => ⟨bytes, true, results⟩
  | .broken n :: results => ⟨bytes.take n, false, results⟩

def usbWriteLoop : ℕ → List Byte → List BulkResult → Written (List BulkResult)
  | 0, _, results => ⟨[], true, results⟩
  | _ + 1, [], results => ⟨[], true, results⟩
  | fuel + 1, bytes, results =>
      (usbBulkWrite (bytes.take 4096) results).andThen (usbWriteLoop fuel (bytes.drop 4096))

def usbWrite (zeroMask : ℕ) (bytes : List Byte) (results : List BulkResult) :
    Written (List BulkResult) :=
  (usbWriteLoop bytes.length bytes results).andThen (fun results =>
    if zeroMask ≠ 0 ∧ bytes.length &&& zeroMask = 0 then usbBulkWrite [] results
    else ⟨[], true, results⟩)

def usbRemoteWrite (zeroMask : ℕ) (p : APacket) (results : List BulkResult) :
    Written (List BulkResult) :=
  (usbWrite zeroMask p.msg.encode results).andThen (fun results =>
    if p.msg.dataLength = 0 then ⟨[], true, results⟩
    else usbWrite zeroMask (p.data.take p.msg.dataLength.toNat) results)

inductive Link where
  | tcp (results : List WriteResult)
  | usb (zeroMask : ℕ) (results : List BulkResult)
  deriving DecidableEq, Repr

def Link.writeToRemote (p : APacket) : Link → Written Link
  | .tcp results =>
      let w := remoteWrite p results
      ⟨w.bytes, w.ok, .tcp w.rest⟩
  | .usb zeroMask results =>
      let w := usbRemoteWrite zeroMask p results
      ⟨w.bytes, w.ok, .usb zeroMask w.rest⟩

def commandCode : Command → UInt32
  | .aSync => 0x434e5953
  | .aCnxn => 0x4e584e43
  | .aOpen => 0x4e45504f
  | .aOkay => 0x59414b4f
  | .aClse => 0x45534c43
  | .aWrte => 0x45545257
  | .aAuth => 0x48545541
  | .aHdsk => 0x4b534448
  | .unknown n => UInt32.ofNat n

def completed (p : Packet) : APacket :=
  sendPacket ⟨⟨commandCode p.command, UInt32.ofNat p.arg0, UInt32.ofNat p.arg1,
    UInt32.ofNat p.data.length, 0, 0⟩, p.data⟩

structure InputThread where
  active : Bool
  exited : Bool
  deriving DecidableEq, Repr

def InputThread.start : InputThread := ⟨false, false⟩

def InputThread.read (token : ℕ) (s : InputThread) (p : Packet) : InputThread × Option Packet :=
  if p.command = .aSync then
    if p.arg0 = 0 then ({ s with exited := true }, none)
    else if p.arg1 = token then ({ s with active := true }, none)
    else (s, none)
  else (s, if s.active then some p else none)

def inputThread (token : ℕ) : InputThread → Link → List Packet → List Byte
  | _, _, [] => []
  | s, link, p :: pipe =>
      if s.exited then []
      else
        match s.read token p with
        | (s, none) => inputThread token s link pipe
        | (s, some p) =>
            let w := link.writeToRemote (completed p)
            w.bytes ++ inputThread token s w.rest pipe

def offlineSync (p : Packet) : Bool := p.command = .aSync && p.arg0 = 0

def onlineSync (token : ℕ) (p : Packet) : Bool :=
  p.command = .aSync && p.arg0 ≠ 0 && p.arg1 = token

def sentAfterSync (token : ℕ) (pipe : List Packet) : List Packet :=
  ((pipe.takeWhile (!offlineSync ·)).dropWhile (!onlineSync token ·)).filter
    (fun p => p.command ≠ .aSync)

def accepts : WriteResult → Bool
  | .count _ => true
  | _ => false

def fails : WriteResult → Bool
  | .zero => true
  | .error => true
  | _ => false

namespace Tcp

def Dead (results : List WriteResult) : Prop := ∀ r ∈ results, accepts r = false

def FailStop (results : List WriteResult) : Prop :=
  results.Pairwise (fun r r' => fails r = true → accepts r' = false)

end Tcp

namespace Usb

def Dead (results : List BulkResult) : Prop := ∀ r ∈ results, r = .broken 0

def FailStop (results : List BulkResult) : Prop :=
  results.Pairwise (fun r r' => r ≠ .complete → r' = .broken 0)

end Usb

def Link.Dead : Link → Prop
  | .tcp results => Tcp.Dead results
  | .usb _ results => Usb.Dead results

def Link.FailStop : Link → Prop
  | .tcp results => Tcp.FailStop results
  | .usb _ results => Usb.FailStop results

/-- What is known of a transfer of `bytes` over a connection that is `Dead` or `FailStop`. -/
structure Delivers {ρ : Type} (Dead FailStop : ρ → Prop) (bytes : List Byte) (before : ρ)
    (w : Written ρ) : Prop where
  sent : w.bytes <+: bytes
  complete : w.ok = true → w.bytes = bytes
  failStop : FailStop before → FailStop w.rest
  failed : FailStop before → w.ok = false → Dead w.rest
  silent : Dead before → w.bytes = []
  dead : Dead before → Dead w.rest

section Delivers

variable {ρ : Type} {Dead FailStop : ρ → Prop} {before : ρ} {bytes bytes' : List Byte}

theorem Delivers.nothing (before : ρ) : Delivers Dead FailStop [] before ⟨[], true, before⟩ where
  sent := prefix_refl _
  complete _ := rfl
  failStop h := h
  failed _ h := by cases h
  silent _ := rfl
  dead h := h

theorem Delivers.andThen {w : Written ρ} {next : ρ → Written ρ}
    (h : Delivers Dead FailStop bytes before w)
    (hnext : ∀ rest, Delivers Dead FailStop bytes' rest (next rest)) :
    Delivers Dead FailStop (bytes ++ bytes') before (w.andThen next) := by
  unfold Written.andThen
  have hn := hnext w.rest
  split
  next hok =>
    exact {
      sent := by
        rw [h.complete hok]
        exact (prefix_append_right_inj _).mpr hn.sent
      complete := fun hall => by
        change _ ++ _ = _
        rw [h.complete hok, hn.complete hall]
      failStop := fun hf => hn.failStop (h.failStop hf)
      failed := fun hf => hn.failed (h.failStop hf)
      silent := fun hd => by
        change _ ++ _ = _
        rw [h.silent hd, hn.silent (h.dead hd)]
        rfl
      dead := fun hd => hn.dead (h.dead hd) }
  next hok =>
    exact {
      sent := h.sent.trans (prefix_append _ _)
      complete := fun hall => absurd hall hok
      failStop := h.failStop
      failed := h.failed
      silent := h.silent
      dead := h.dead }

end Delivers

section Tcp

section Written

variable (bytes : List Byte) (results : List WriteResult)

include bytes results

theorem writex_rest_suffix : (writex bytes results).rest <:+ results := by
  fun_induction writex bytes results with
  | case1 => exact suffix_refl _
  | case2 => exact suffix_refl _
  | case3 b bytes n results w ih => exact ih.trans (suffix_cons _ _)
  | case4 b bytes results ih => exact ih.trans (suffix_cons _ _)
  | case5 b bytes results ih => exact ih.trans (suffix_cons _ _)
  | case6 => exact suffix_cons _ _
  | case7 => exact suffix_cons _ _

theorem writex_failed (h : Tcp.FailStop results) (hok : (writex bytes results).ok = false) :
    Tcp.Dead (writex bytes results).rest := by
  fun_induction writex bytes results with
  | case1 => cases hok
  | case2 => exact fun r hr => absurd hr (by simp)
  | case3 b bytes n results w ih => exact ih h.tail hok
  | case4 b bytes results ih => exact ih h.tail hok
  | case5 b bytes results ih => exact ih h.tail hok
  | case6 b bytes results => exact fun r hr => rel_of_pairwise_cons h hr rfl
  | case7 b bytes results => exact fun r hr => rel_of_pairwise_cons h hr rfl

theorem writex_dead (h : Tcp.Dead results) : (writex bytes results).bytes = [] := by
  fun_induction writex bytes results with
  | case1 => rfl
  | case2 => rfl
  | case3 b bytes n results w ih => cases h _ mem_cons_self
  | case4 b bytes results ih => exact ih fun r hr => h r (mem_cons_of_mem _ hr)
  | case5 b bytes results ih => exact ih fun r hr => h r (mem_cons_of_mem _ hr)
  | case6 => rfl
  | case7 => rfl

theorem writex_delivers : Delivers Tcp.Dead Tcp.FailStop bytes results (writex bytes results) where
  sent := writex_prefix bytes results
  complete := (writex_ok_iff bytes results).mp
  failStop h := h.sublist (writex_rest_suffix bytes results).sublist
  failed := writex_failed bytes results
  silent := writex_dead bytes results
  dead h r hr := h r ((writex_rest_suffix bytes results).subset hr)

end Written

end Tcp

section Usb

theorem usbBulkWrite_delivers (bytes : List Byte) (results : List BulkResult) :
    Delivers Usb.Dead Usb.FailStop bytes results (usbBulkWrite bytes results) := by
  cases results with
  | nil =>
    exact ⟨List.nil_prefix, nofun, fun h => h, fun _ _ => nofun, fun _ => rfl, fun h => h⟩
  | cons r results =>
    have hdead : Usb.Dead (r :: results) → Usb.Dead results :=
      fun h r' hr => h r' (mem_cons_of_mem _ hr)
    cases r with
    | complete =>
      refine ⟨prefix_refl _, fun _ => rfl, List.Pairwise.tail, nofun, fun h => ?_, hdead⟩
      cases h _ mem_cons_self
    | broken n =>
      refine ⟨List.take_prefix _ _, nofun, List.Pairwise.tail, fun h _ r hr =>
        rel_of_pairwise_cons h hr nofun, fun h => ?_, hdead⟩
      cases h _ mem_cons_self
      rfl

theorem usbWriteLoop_delivers (fuel : ℕ) (bytes : List Byte) (results : List BulkResult)
    (h : bytes.length ≤ fuel) :
    Delivers Usb.Dead Usb.FailStop bytes results (usbWriteLoop fuel bytes results) := by
  induction fuel generalizing bytes results with
  | zero =>
    cases length_eq_zero_iff.mp (Nat.le_zero.mp h)
    exact .nothing results
  | succ fuel ih =>
    cases bytes with
    | nil => exact .nothing results
    | cons b bytes =>
      have hlen : ((b :: bytes).drop 4096).length ≤ fuel := by
        simp only [length_drop, length_cons] at h ⊢
        omega
      have hstep := (usbBulkWrite_delivers ((b :: bytes).take 4096) results).andThen
        fun rest => ih ((b :: bytes).drop 4096) rest hlen
      rw [take_append_drop] at hstep
      exact hstep

theorem usbWrite_delivers (zeroMask : ℕ) (bytes : List Byte) (results : List BulkResult) :
    Delivers Usb.Dead Usb.FailStop bytes results (usbWrite zeroMask bytes results) := by
  have hstep : Delivers Usb.Dead Usb.FailStop (bytes ++ []) results
      (usbWrite zeroMask bytes results) := by
    refine (usbWriteLoop_delivers _ bytes results le_rfl).andThen fun rest => ?_
    split
    · exact usbBulkWrite_delivers [] rest
    · exact .nothing rest
  rw [append_nil] at hstep
  exact hstep

end Usb

theorem writeToRemote_delivers (p : APacket) (link : Link) :
    Delivers Link.Dead Link.FailStop p.encode link (link.writeToRemote p) := by
  cases link with
  | tcp results =>
    obtain ⟨h1, h2, h3, h4, h5, h6⟩ := writex_delivers p.encode results
    exact ⟨h1, h2, h3, h4, h5, h6⟩
  | usb zeroMask results =>
    have h : Delivers Usb.Dead Usb.FailStop p.encode results
        (usbRemoteWrite zeroMask p results) := by
      refine (usbWrite_delivers zeroMask p.msg.encode results).andThen fun rest => ?_
      split
      next hzero =>
        rw [hzero]
        exact .nothing rest
      · exact usbWrite_delivers zeroMask _ rest
    obtain ⟨h1, h2, h3, h4, h5, h6⟩ := h
    exact ⟨h1, h2, h3, h4, h5, h6⟩

section Thread

variable {token : ℕ}

def InputThread.writes (token : ℕ) : InputThread → List Packet → List Packet
  | _, [] => []
  | s, p :: pipe =>
      if s.exited then [] else (s.read token p).2.toList ++ (s.read token p).1.writes token pipe

theorem writes_active (pipe : List Packet) :
    InputThread.writes token ⟨true, false⟩ pipe =
      (pipe.takeWhile (!offlineSync ·)).filter (fun p => p.command ≠ .aSync) := by
  induction pipe with
  | nil => rfl
  | cons p pipe ih =>
    by_cases hs : p.command = .aSync
    · by_cases h0 : p.arg0 = 0
      · have hexit : InputThread.writes token ⟨true, true⟩ pipe = [] := by
          cases pipe <;> rfl
        simp [InputThread.writes, InputThread.read, offlineSync, hs, h0, hexit]
      · simp [InputThread.writes, InputThread.read, offlineSync, hs, h0, ih]
    · simp [InputThread.writes, InputThread.read, offlineSync, hs, ih]

theorem writes_start (pipe : List Packet) :
    InputThread.writes token .start pipe = sentAfterSync token pipe := by
  induction pipe with
  | nil => rfl
  | cons p pipe ih =>
    unfold InputThread.start at ih ⊢
    by_cases hs : p.command = .aSync
    · by_cases h0 : p.arg0 = 0
      · have hexit : InputThread.writes token ⟨false, true⟩ pipe = [] := by
          cases pipe <;> rfl
        simp [InputThread.writes, InputThread.read, sentAfterSync, offlineSync, hs, h0, hexit]
      · by_cases h1 : p.arg1 = token
        · simp [InputThread.writes, InputThread.read, sentAfterSync, offlineSync, onlineSync, hs,
            h0, h1, writes_active]
        · simp [InputThread.writes, InputThread.read, sentAfterSync, offlineSync, onlineSync, hs,
            h0, h1, ih]
    · simp [InputThread.writes, InputThread.read, sentAfterSync, offlineSync, onlineSync, hs, ih]

theorem inputThread_dead (s : InputThread) (link : Link) (pipe : List Packet) (h : link.Dead) :
    inputThread token s link pipe = [] := by
  induction pipe generalizing s link with
  | nil => rfl
  | cons p pipe ih =>
    simp only [inputThread]
    split
    · rfl
    · split
      · exact ih _ link h
      next s' q _ =>
        have hdel := writeToRemote_delivers (completed q) link
        rw [hdel.silent h, ih _ _ (hdel.dead h)]
        rfl

/-- While writes succeed they follow the packets one by one; the first failure cuts the last packet
short, and no byte follows it. -/
theorem inputThread_prefix (s : InputThread) (link : Link) (pipe : List Packet)
    (h : link.FailStop) :
    inputThread token s link pipe <+:
      (s.writes token pipe).flatMap (fun p => (completed p).encode) := by
  induction pipe generalizing s link with
  | nil => exact prefix_refl _
  | cons p pipe ih =>
    simp only [inputThread, InputThread.writes]
    split
    · exact nil_prefix
    · split
      next s' hread =>
        rw [hread]
        exact ih s' link h
      next s' q hread =>
        have hdel := writeToRemote_delivers (completed q) link
        rw [hread, flatMap_append]
        change _ <+: ((completed q).encode ++ []) ++ _
        rw [append_nil]
        by_cases hok : (link.writeToRemote (completed q)).ok = true
        · rw [hdel.complete hok]
          exact (prefix_append_right_inj _).mpr (ih s' _ (hdel.failStop h))
        · have hdead := hdel.failed h (Bool.eq_false_iff.mpr hok)
          rw [inputThread_dead s' _ pipe hdead, append_nil]
          exact hdel.sent.trans (prefix_append _ _)

end Thread

/-- On a connection that takes nothing more once a write on it has failed, the bytes on the wire
are a prefix of the packets sent after the `SYNC`. -/
theorem output_packet_aligned (token : ℕ) (link : Link) (pipe : List Packet)
    (h : link.FailStop) :
    inputThread token .start link pipe <+:
      (sentAfterSync token pipe).flatMap (fun p => (completed p).encode) := by
  rw [← writes_start]
  exact inputThread_prefix .start link pipe h

def sampleOpen : List Packet :=
  [⟨.aSync, 1, 2, []⟩, ⟨.aOkay, 1, 2, []⟩, ⟨.aWrte, 3, 4, [5]⟩]

/-- A transfer is cut short after ten bytes, and nothing follows. -/
theorem output_packet_aligned_cut :
    inputThread 2 .start (.tcp [.count 9, .error, .eintr, .error]) sampleOpen <+:
      (sentAfterSync 2 sampleOpen).flatMap (fun p => (completed p).encode) := by
  refine output_packet_aligned 2 _ sampleOpen ?_
  change List.Pairwise _ _
  decide +kernel

/-- One write of the first packet fails, and the second packet follows in the middle of the first:
over TCP after ten bytes of the header, over USB in place of the payload. -/
theorem output_misaligned :
    ¬ inputThread 2 .start (.tcp [.count 9, .error, .count 99]) sampleOpen <+:
        (sentAfterSync 2 sampleOpen).flatMap (fun p => (completed p).encode) ∧
      ¬ inputThread 2 .start (.usb 0 [.complete, .broken 0, .complete, .complete])
          (⟨.aSync, 1, 2, []⟩ :: ⟨.aWrte, 3, 4, [5]⟩ :: sampleOpen) <+:
        (sentAfterSync 2 (⟨.aSync, 1, 2, []⟩ :: ⟨.aWrte, 3, 4, [5]⟩ :: sampleOpen)).flatMap
          (fun p => (completed p).encode) := by
  constructor <;> decide +kernel

end PaxAdb.Wire
